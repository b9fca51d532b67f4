import X360Port.XexDocument.Written

/-!
# Reading the document back

A reader of the document takes the image, the sections, the imports and the helpers
out of its value. The names in it come from the inspected file and need not be UTF-8,
and `jsonString` passes such bytes through: `document_readsBack_iff` says that the
document is JSON that gives back the inspection exactly when its names are UTF-8.
-/

namespace X360Port

open Library Json

/-! ## The readers -/

def addressOfJson (v : Json) : Option GuestAddress := v.hexNat?.map .ofNat

def kindOfText (text : StringView) : Option ImportKind :=
  if text = ascii "function" then some .function
  else if text = ascii "variable" then some ImportKind.variable
  else none

/-- The base and the entry point of the image. -/
def imageOfJson (v : Json) : Option (GuestAddress × GuestAddress) := do
  let image ← v.member? "image"
  let base ← addressOfJson (← image.member? "base")
  let entryPoint ← addressOfJson (← image.member? "entry")
  return (base, entryPoint)

def sectionOfJson (v : Json) : Option PeSection := do
  let name ← (← v.member? "name").bytes?
  let base ← addressOfJson (← v.member? "base")
  let size ← (← v.member? "size").nat?
  let code ← (← v.member? "code").bool?
  return ⟨name, base, .ofNat size, code⟩

def importOfJson (v : Json) : Option XexImport := do
  let kind ← kindOfText (← (← v.member? "kind").bytes?)
  let library ← (← v.member? "library").bytes?
  let ordinal ← (← v.member? "ordinal").nat?
  let name ← (← v.member? "name").bytes?
  let address ← addressOfJson (← v.member? "address")
  let recordAddress ← addressOfJson (← v.member? "record_address")
  return ⟨kind, library, .ofNat ordinal, name, address, recordAddress⟩

/-- The elements of a member, in their order. -/
def listOfJson {α : Type} (name : String) (read : Json → Option α) (v : Json) :
    Option (List α) := do
  (← (← v.member? name).elements?).mapM read

def helpersOfJson (v : Json) : Option (List (List GuestAddress)) := do
  let helpers ← v.member? "helpers"
  helperNames.toList.mapM fun name => listOfJson name addressOfJson helpers

/-- A JSON text in UTF-8 that gives back what the inspection says of the image: its addresses, its
sections, its imports and its helpers. -/
structure ReadsBack (bytes : List UInt8) (inspection : XexInspection) : Prop where
  wellFormed : ∃ v, Encodes bytes v
  image : (parse bytes).bind imageOfJson =
    some (inspection.image.identity.base, inspection.image.identity.entryPoint)
  sections : (parse bytes).bind (listOfJson "sections" sectionOfJson) =
    some inspection.image.sections
  imports : (parse bytes).bind (listOfJson "imports" importOfJson) = some inspection.imports
  helpers : (parse bytes).bind helpersOfJson = some inspection.helpers.toList

/-! ## Names in UTF-8 -/

section

variable {name : StringView} {bytes : List UInt8}

theorem addressOfJson_hexJson (value : UInt32) : addressOfJson (hexJson value) = some value := by
  rw [addressOfJson, hexJson, hexNat?, hexNumber_leftpad, hexNumber_toDigits, Option.map_some,
    UInt32.ofNat_toNat]

theorem nat?_countJson (n : Nat) : (countJson n).nat? = some n := rfl

theorem bytes?_string (h : IsUtf8 name) : (Json.string (textOf name)).bytes? = some name := by
  rw [bytes?, h.utf8_textOf]

theorem kindOfText_kindText (kind : ImportKind) : kindOfText (kindText kind) = some kind := by
  cases kind with
  | function => decide
  | «variable» => decide

theorem sectionOfJson_sectionJson {s : PeSection} (h : IsUtf8 s.name) :
    sectionOfJson (sectionJson s) = some s := by
  unfold sectionOfJson sectionJson
  simp [member?_cons, bytes?_string h, addressOfJson_hexJson, nat?_countJson, bool?]

theorem importOfJson_importJson {imported : XexImport} (hlibrary : IsUtf8 imported.library)
    (hname : IsUtf8 imported.name) : importOfJson (importJson imported) = some imported := by
  have hkind := bytes?_string (isUtf8_kindText imported.kind)
  unfold importOfJson importJson
  simp [member?_cons, hkind, kindOfText_kindText, bytes?_string hlibrary, bytes?_string hname,
    addressOfJson_hexJson, nat?_countJson]

/-- A reader that succeeds on every element of a list. -/
theorem mapM_eq_some_map {α β : Type} {f : α → Option β} {g : α → β} {items : List α}
    (h : ∀ item ∈ items, f item = some (g item)) : items.mapM f = some (items.map g) := by
  induction items with
  | nil => rfl
  | cons item items ih =>
    have hrest := ih fun item' h' => h item' (List.mem_cons_of_mem item h')
    rw [List.mapM_cons, h item List.mem_cons_self, hrest]
    rfl

theorem listOfJson_array {α : Type} {name : String} {read : Json → Option α} {v : Json}
    {items : List α} (json : α → Json) (hmember : v.member? name = some (.array (items.map json)))
    (hread : ∀ item ∈ items, read (json item) = some item) :
    listOfJson name read v = some items := by
  have hitems := mapM_eq_some_map (f := read ∘ json) (g := id) hread
  rw [List.map_id, ← List.mapM_map] at hitems
  unfold listOfJson
  rw [hmember]
  exact hitems

theorem listOfJson_helper (helpers : XexHelpers) (index : Fin 8) :
    listOfJson (helperNames.get index) addressOfJson
        (.object ((List.finRange 8).map (helperJson helpers))) = some (helpers.get index) := by
  have hnames : ((List.finRange 8).map fun index => (helperNames.get index).toList).Nodup := by
    decide +kernel
  have hmem : helperJson helpers index ∈ (List.finRange 8).map (helperJson helpers) :=
    List.mem_map_of_mem (List.mem_finRange index)
  refine listOfJson_array hexJson (member?_of_mem ?_ hmem) fun address _ =>
    addressOfJson_hexJson address
  rw [List.map_map]
  exact hnames

/-- The elements of a vector by their index. -/
theorem toList_vector_eq {α : Type} {n : Nat} (v : Vector α n) :
    v.toList = (List.finRange n).map v.get := by
  apply List.ext_getElem
  · simp
  · intro i hi hi'
    rw [List.getElem_map, List.getElem_finRange, Vector.getElem_toList]
    rfl

theorem imageOfJson_documentJson (xex : List UInt8) (inspection : XexInspection) :
    imageOfJson (documentJson xex inspection) =
      some (inspection.image.identity.base, inspection.image.identity.entryPoint) := by
  unfold imageOfJson documentJson imageJson
  simp [member?_cons, addressOfJson_hexJson]

theorem sectionsOfJson_documentJson (xex : List UInt8) {inspection : XexInspection}
    (h : NamesInUtf8 inspection) :
    listOfJson "sections" sectionOfJson (documentJson xex inspection) =
      some inspection.image.sections :=
  listOfJson_array sectionJson (by simp [documentJson, member?_cons]) fun s hs =>
    sectionOfJson_sectionJson (h.sections s hs)

theorem importsOfJson_documentJson (xex : List UInt8) {inspection : XexInspection}
    (h : NamesInUtf8 inspection) :
    listOfJson "imports" importOfJson (documentJson xex inspection) = some inspection.imports :=
  listOfJson_array importJson (by simp [documentJson, member?_cons]) fun imported himp =>
    importOfJson_importJson (h.libraries imported himp) (h.imports imported himp)

theorem helpersOfJson_documentJson (xex : List UInt8) (inspection : XexInspection) :
    helpersOfJson (documentJson xex inspection) = some inspection.helpers.toList := by
  have hmember : (documentJson xex inspection).member? "helpers" =
      some (.object ((List.finRange 8).map (helperJson inspection.helpers))) := by
    simp [documentJson, member?_cons]
  unfold helpersOfJson
  rw [hmember, toList_vector_eq helperNames, toList_vector_eq inspection.helpers]
  refine Eq.trans (List.mapM_map ..) ?_
  exact mapM_eq_some_map fun index _ => listOfJson_helper inspection.helpers index

theorem readsBack_of_names (xex : List UInt8) {inspection : XexInspection}
    (h : NamesInUtf8 inspection) : ReadsBack (document xex inspection) inspection := by
  have hencodes := document_encodes xex h
  have hparse := parse_eq_some_iff.2 hencodes
  refine ⟨⟨_, hencodes⟩, ?_, ?_, ?_, ?_⟩
  · rw [hparse, Option.bind_some, imageOfJson_documentJson]
  · rw [hparse, Option.bind_some, sectionsOfJson_documentJson xex h]
  · rw [hparse, Option.bind_some, importsOfJson_documentJson xex h]
  · rw [hparse, Option.bind_some, helpersOfJson_documentJson]

end

/-! ## Names in the document

The other direction: a document in UTF-8 is cut at the quotes of each of its strings, and
what stands between them is cut at the escaped bytes.
-/

section

variable {name : StringView} {bytes : List UInt8}

theorem isUtf8_of_escaped (done : List UInt8) (h : IsUtf8 (done ++ name.flatMap jsonCharacter)) :
    IsUtf8 (done ++ name) := by
  induction name generalizing done with
  | nil => exact h
  | cons b name ih =>
    rw [List.flatMap_cons] at h
    rcases Nat.lt_or_ge b.toNat 0x80 with hb | hb
    · obtain ⟨hne, hascii⟩ := jsonCharacter_ascii (b := b) hb
      obtain ⟨hdone, hrest⟩ := isUtf8_cut_ascii hne hascii h
      exact (isUtf8_cut hb).2 ⟨hdone, ih [] hrest⟩
    · rw [jsonCharacter_of_le hb, ← List.append_assoc] at h
      have hrest := ih (done ++ [b]) h
      rwa [List.append_assoc] at hrest

theorem isUtf8_of_jsonString (h : IsUtf8 bytes) (hname : jsonString name <:+: bytes) :
    IsUtf8 name := by
  obtain ⟨before, after, rfl⟩ := hname
  have hquote : (0x22 : UInt8) < 0x80 := by decide
  have hcut : before ++ jsonString name ++ after =
      before ++ 0x22 :: (name.flatMap jsonCharacter ++ 0x22 :: after) := by
    rw [List.append_assoc, jsonString, List.append_assoc, List.append_assoc]
    rfl
  rw [hcut, isUtf8_cut hquote, isUtf8_cut hquote] at h
  exact isUtf8_of_escaped [] h.2.1

/-! Where a string or a list stands in the text it is written into. -/

theorem infix_last {a l : List UInt8} : l <:+: a ++ l := (List.suffix_append a l).isInfix

theorem infix_before {a l b : List UInt8} (h : l <:+: a) : l <:+: a ++ b :=
  h.trans (List.prefix_append a b).isInfix

theorem infix_writeRows {α : Type} {row : α → List UInt8} {item : α} {items : List α}
    (h : item ∈ items) : row item <:+: writeRows row items := by
  obtain ⟨index, hindex⟩ := List.mem_iff_getElem?.1 h
  have hmem : (item, index) ∈ items.zipIdx := List.mk_mem_zipIdx_iff_getElem?.2 hindex
  exact (infix_before (List.infix_refl (row item))).trans
    (List.infix_of_mem_flatten (List.mem_map_of_mem hmem))

theorem infix_sectionText (s : PeSection) : jsonString s.name <:+: sectionText s :=
  infix_before <| infix_before <| infix_before <| infix_before <| infix_before <| infix_before <|
    infix_before infix_last

theorem infix_importText_library (imported : XexImport) :
    jsonString imported.library <:+: importText imported :=
  infix_before <| infix_before <| infix_before <| infix_before <| infix_before <| infix_before <|
    infix_before <| infix_before <| infix_before infix_last

theorem infix_importText_name (imported : XexImport) :
    jsonString imported.name <:+: importText imported :=
  infix_before <| infix_before <| infix_before <| infix_before <| infix_before infix_last

theorem infix_sectionsText (xex : List UInt8) {inspection : XexInspection} {s : PeSection}
    (h : s ∈ inspection.image.sections) : sectionText s <:+: document xex inspection := by
  have hrow : sectionText s <:+: sectionsText inspection.image.sections :=
    infix_before ((infix_writeRows h).trans infix_last)
  exact hrow.trans <| infix_before <| infix_before <| infix_before <| infix_before <|
    infix_before <| infix_before infix_last

theorem infix_importsText (xex : List UInt8) {inspection : XexInspection} {imported : XexImport}
    (h : imported ∈ inspection.imports) : importText imported <:+: document xex inspection := by
  have hrow : importText imported <:+: importsText inspection.imports :=
    infix_before ((infix_writeRows h).trans infix_last)
  exact hrow.trans <| infix_before <| infix_before <| infix_before <| infix_before infix_last

theorem names_of_readsBack {xex : List UInt8} {inspection : XexInspection}
    (h : ReadsBack (document xex inspection) inspection) : NamesInUtf8 inspection := by
  obtain ⟨_, text, htext, _⟩ := h.wellFormed
  have hutf8 : IsUtf8 (document xex inspection) := ⟨text, htext⟩
  refine ⟨fun s hs => ?_, fun imported himp => ?_, fun imported himp => ?_⟩
  · exact isUtf8_of_jsonString hutf8 ((infix_sectionText s).trans (infix_sectionsText xex hs))
  · exact isUtf8_of_jsonString hutf8
      ((infix_importText_library imported).trans (infix_importsText xex himp))
  · exact isUtf8_of_jsonString hutf8
      ((infix_importText_name imported).trans (infix_importsText xex himp))

end

/-- **Reading the document back.** The document of an inspection is JSON in UTF-8 that gives the
inspection back exactly when the names in it are UTF-8. -/
theorem document_readsBack_iff (xex : List UInt8) (inspection : XexInspection) :
    ReadsBack (document xex inspection) inspection ↔ NamesInUtf8 inspection :=
  ⟨names_of_readsBack, readsBack_of_names xex⟩

section Files

/-- A library whose name is one byte that is no character. -/
def strayDescriptor : ImportDescriptor where
  names := [[0xff]]
  libraries := [plainLibrary 0 [0x82000098] (by show 1 < 2 ^ 16; decide)]
  nonempty := by decide
  texts := by simp
  library_each := rfl
  named := by
    intro lib hlib
    cases List.mem_singleton.1 hlib
    exact Nat.one_pos
  size_fits := by
    show 12 + 4 + 0x2c < 2 ^ 32
    decide

/-- The inspector accepts such a file and prints no JSON for it. -/
theorem document_readsBack_stray : ∃ inspection,
    inspectXex (fileWithImports strayDescriptor) (probeLoad 0x82000000) = .ok inspection ∧
      ¬ ReadsBack (document (fileWithImports strayDescriptor) inspection) inspection := by
  have hrun : (inspectXex (fileWithImports strayDescriptor) (probeLoad 0x82000000)).toOption.map
      (fun inspection => inspection.imports.map XexImport.library) = some [[0xff]] := by
    decide +kernel
  rcases hinspect : inspectXex (fileWithImports strayDescriptor) (probeLoad 0x82000000)
    with stop | inspection
  · rw [hinspect] at hrun
    cases hrun
  rw [hinspect] at hrun
  have hlibraries : inspection.imports.map XexImport.library = [[0xff]] := Option.some.inj hrun
  have hname : ([0xff] : StringView) ∈ inspection.imports.map XexImport.library := by
    rw [hlibraries]
    exact List.mem_singleton.2 rfl
  obtain ⟨imported, himp, hlibrary⟩ := List.mem_map.1 hname
  refine ⟨inspection, rfl, fun hback => ?_⟩
  have hutf8 := (names_of_readsBack hback).libraries imported himp
  rw [hlibrary] at hutf8
  revert hutf8
  decide

end Files

end X360Port
