import X360Port.Validation
import X360Port.XexInspect.Rewriting

/-!
# The walk over the libraries

The import descriptor without its bytes: an `ImportLibrary` is a size, a name
index and the record addresses. `Normalizes` is the walk in these terms: each
library is paired in the memory that the libraries before it left.

`parseImports_ended` connects it to the code. The walk of `parseImports` ends
in such a run over the libraries of the descriptor, or it refuses because there
is none, and then the image is the old one with rewrites the records vouch for.
-/

namespace X360Port

open Library

/-- A library record of the descriptor. -/
structure ImportLibrary where
  size : Nat
  nameIndex : Nat
  records : List GuestAddress
  deriving DecidableEq, Repr

/-- The record address at an index of the library at a cursor. -/
def recordAt (header : List UInt8) (cursor index : Nat) : GuestAddress :=
  wordAt header (cursor + 0x28 + index * 4)

/-- The library record at a cursor. -/
def libraryAt (header : List UInt8) (cursor : Nat) : ImportLibrary where
  size := (wordAt header cursor).toNat
  nameIndex := (halfAt header (cursor + 0x24)).toNat
  records := (List.range' 0 (halfAt header (cursor + 0x26)).toNat).map (recordAt header cursor)

/-- Consecutive library records. -/
def librariesFrom (header : List UInt8) : Nat → Nat → List ImportLibrary
  | 0, _ => []
  | count + 1, cursor =>
    libraryAt header cursor :: librariesFrom header count (cursor + (libraryAt header cursor).size)

/-- The library records of the import descriptor in a header. -/
def importLibraries (header : List UInt8) (geometry : HeaderGeometry) : List ImportLibrary :=
  match findOptional header 0x000103FF geometry with
  | .ok (some o) => librariesFrom header (wordAt header (o.offset + 8)).toNat
      (o.offset + kImportHeaderMinimum + (wordAt header (o.offset + 4)).toNat)
  | _ => []

/-- The record of an address over an image memory. -/
def rawAt (bounds : ImageBounds) (m : Memory UInt8) (address : GuestAddress) : RawImport :=
  RawImport.ofWord address (loadWordAt m (bounds.offset address))

@[simp] theorem rawAt_address (bounds : ImageBounds) (m : Memory UInt8) (address : GuestAddress) :
    (rawAt bounds m address).address = address := rfl

/-- The libraries are normalized one after another, each over what those before it left. -/
inductive Normalizes (bounds : ImageBounds) (names : List StringView) :
    Memory UInt8 → List ImportLibrary → List XexImport → Memory UInt8 → Prop
  | nil (m : Memory UInt8) : Normalizes bounds names m [] [] m
  | cons {lib : ImportLibrary} {library : StringView} {libs : List ImportLibrary}
      {entries : List ImportEntry} {imports : List XexImport} {m m' : Memory UInt8} :
      names[lib.nameIndex]? = some library →
      Pairs (lib.records.map (rawAt bounds m)) entries →
      (∀ e ∈ entries, e.StubInImage bounds) →
      Normalizes bounds names (writeAll (entries.flatMap (·.rewrites bounds)) m) libs imports m' →
      Normalizes bounds names m (lib :: libs) (entries.map (·.toImport library) ++ imports) m'

/-- A library record whose bounds and record addresses the walk accepts. -/
structure LibraryFits (bounds : ImageBounds) (table : ImportTable) (cursor : Nat)
    (lib : ImportLibrary) : Prop where
  records_inside : kImportLibraryMinimum + lib.records.length * 4 ≤ lib.size
  inside : cursor + lib.size ≤ table.limit
  named : lib.nameIndex < table.names.length
  valid : ∀ a ∈ lib.records, ValidRecord bounds a

/-- Consecutive library records from a cursor on. -/
def LibrariesFit (bounds : ImageBounds) (table : ImportTable) : Nat → List ImportLibrary → Prop
  | _, [] => True
  | cursor, lib :: libs =>
    LibraryFits bounds table cursor lib ∧ LibrariesFit bounds table (cursor + lib.size) libs

theorem LibrariesFit.exists_fits {bounds : ImageBounds} {table : ImportTable} {cursor : Nat}
    {libs : List ImportLibrary} (h : LibrariesFit bounds table cursor libs) :
    ∀ lib ∈ libs, ∃ start, LibraryFits bounds table start lib := by
  induction libs generalizing cursor with
  | nil => exact fun lib hlib => nomatch hlib
  | cons first libs ih =>
    intro lib hlib
    rcases List.mem_cons.1 hlib with rfl | hlib
    · exact ⟨cursor, h.1⟩
    · exact ih h.2 lib hlib

theorem LibrariesFit.valid {bounds : ImageBounds} {table : ImportTable} {cursor : Nat}
    {libs : List ImportLibrary} (h : LibrariesFit bounds table cursor libs) :
    ∀ lib ∈ libs, ∀ a ∈ lib.records, ValidRecord bounds a := by
  intro lib hlib
  obtain ⟨start, hfits⟩ := h.exists_fits lib hlib
  exact hfits.valid

/-! ## Reading one library -/

section

variable {header image : List UInt8} {bounds : ImageBounds} {table : ImportTable} {cursor : Nat}

theorem validRecord_iff {address : GuestAddress} : ValidRecord bounds address ↔
    address ≠ 0 ∧ address &&& 3 = 0 ∧ bounds.Holds address 4 := by
  rw [and_mask_eq_zero_iff 2 rfl]
  exact ⟨fun h => ⟨h.nonzero, h.aligned, h.holds⟩, fun ⟨h1, h2, h3⟩ => ⟨h1, h2, h3⟩⟩

theorem readRawImports_meets (hsize : image.length = bounds.size) (rounds index : Nat)
    (hheader : cursor + 0x28 + (index + rounds) * 4 ≤ header.length) :
    Meets (fun raws => (∀ a ∈ (List.range' index rounds).map (recordAt header cursor),
        ValidRecord bounds a) ∧
      raws = ((List.range' index rounds).map (recordAt header cursor)).map
        (rawAt bounds (contents image)))
      (readRawImports header image bounds cursor rounds index) := by
  induction rounds generalizing index with
  | zero => exact ⟨(fun a ha => nomatch ha), rfl⟩
  | succ rounds ih =>
    unfold readRawImports
    refine meets_readU32Be (by omega) (meets_refuseIf fun h0 => meets_refuseIf fun h3 => ?_)
    rw [inImage_eq, ok_bind]
    refine meets_refuseIf fun hin => ?_
    have hin : bounds.Holds (wordAt header (cursor + 0x28 + index * 4)) 4 := by simpa using hin
    have hvalid : ValidRecord bounds (recordAt header cursor index) :=
      validRecord_iff.2 ⟨h0, not_not.1 h3, hin⟩
    have hend := hvalid.holds.2
    refine meets_sub hvalid.holds.1 (meets_readU32Be (by rw [hsize]; exact hend) ?_)
    refine meets_refuseIf fun _ => meets_bind (ih (index + 1) (by omega)) ?_
    rintro raws - ⟨hall, rfl⟩
    rw [List.range'_succ, List.map_cons, List.map_cons]
    exact ⟨List.forall_mem_cons.2 ⟨hvalid, hall⟩, rfl⟩

/-- Records that the walk accepts and that pair are read. -/
theorem readRawImports_eq (hsize : image.length = bounds.size) (rounds index : Nat)
    (hheader : cursor + 0x28 + (index + rounds) * 4 ≤ header.length)
    (hvalid : ∀ a ∈ (List.range' index rounds).map (recordAt header cursor), ValidRecord bounds a)
    (htype : ∀ a ∈ (List.range' index rounds).map (recordAt header cursor),
      (rawAt bounds (contents image) a).type = 0 ∨ (rawAt bounds (contents image) a).type = 1) :
    readRawImports header image bounds cursor rounds index =
      .ok (((List.range' index rounds).map (recordAt header cursor)).map
        (rawAt bounds (contents image))) := by
  induction rounds generalizing index with
  | zero => rfl
  | succ rounds ih =>
    rw [List.range'_succ, List.map_cons, List.forall_mem_cons] at hvalid htype
    obtain ⟨h0, h3, hholds⟩ := validRecord_iff.1 hvalid.1
    have hend := hholds.2
    have hraw : ¬ ((rawAt bounds (contents image) (recordAt header cursor index)).type ≠ 0 ∧
        (rawAt bounds (contents image) (recordAt header cursor index)).type ≠ 1) := by
      rcases htype.1 with h | h
      · exact fun hn => hn.1 h
      · exact fun hn => hn.2 h
    have hword : wordAt header (cursor + 0x28 + index * 4) = recordAt header cursor index := rfl
    rw [readRawImports, readU32Be_eq (by omega), ok_bind, hword]
    dsimp only
    rw [refuseIf_of_not h0, ok_bind, refuseIf_of_not (not_not_intro h3), ok_bind, inImage_eq,
      ok_bind, refuseIf_of_not (by simpa using hholds), ok_bind, sub_eq hholds.1, ok_bind,
      readU32Be_eq (by rw [hsize]; exact hend), ok_bind]
    show (refuseIf ((rawAt bounds (contents image) (recordAt header cursor index)).type ≠ 0 ∧
      (rawAt bounds (contents image) (recordAt header cursor index)).type ≠ 1) _ >>= _) = _
    rw [refuseIf_of_not hraw, ok_bind, ih (index + 1) (by omega) hvalid.2 htype.2]
    rfl

theorem length_records (header : List UInt8) (cursor : Nat) :
    (libraryAt header cursor).records.length = (halfAt header (cursor + 0x26)).toNat := by
  unfold libraryAt
  rw [List.length_map, List.length_range']

/-- A library that is read is the one at the cursor, with the image words of its records. -/
theorem readLibrary_meets (cursor : Nat) (hsize : image.length = bounds.size)
    (hlimit : table.limit ≤ header.length) :
    Meets (fun r => LibraryFits bounds table cursor (libraryAt header cursor) ∧
        r.size = (libraryAt header cursor).size ∧
        table.names[(libraryAt header cursor).nameIndex]? = some r.library ∧
        r.rawImports = (libraryAt header cursor).records.map (rawAt bounds (contents image)))
      (readLibrary header image bounds table cursor) := by
  have hmin : kImportLibraryMinimum = 0x28 := rfl
  have hlen := length_records header cursor
  unfold readLibrary
  refine meets_requireBytes fun hbytes => meets_refuseIf fun hcursor => ?_
  refine meets_readU32Be (by omega) (meets_readU16Be (by omega) (meets_readU16Be (by omega) ?_))
  refine meets_refuseIf fun hleast => meets_sub (by omega) (meets_refuseIf fun htable => ?_)
  refine meets_sub (by omega) (meets_refuseIf fun hend => meets_refuseIf fun hname => ?_)
  refine meets_readAt (by omega) (meets_bind (readRawImports_meets hsize _ 0 (by omega)) ?_)
  rintro raws - ⟨hvalid, rfl⟩
  have hsizeEq : (libraryAt header cursor).size = (wordAt header cursor).toNat := rfl
  refine ⟨⟨by omega, by omega, ?_, hvalid⟩, rfl, ?_, rfl⟩
  · exact Nat.lt_of_not_le hname
  · exact List.getElem?_eq_getElem _

/-- A library that fits and whose records pair is read. -/
theorem readLibrary_eq (hsize : image.length = bounds.size) (hlimit : table.limit ≤ header.length)
    (hfits : LibraryFits bounds table cursor (libraryAt header cursor)) {library : StringView}
    (hname : table.names[(libraryAt header cursor).nameIndex]? = some library)
    {entries : List ImportEntry}
    (hpairs : Pairs ((libraryAt header cursor).records.map (rawAt bounds (contents image)))
      entries) :
    readLibrary header image bounds table cursor = .ok ⟨(libraryAt header cursor).size, library,
      (libraryAt header cursor).records.map (rawAt bounds (contents image))⟩ := by
  have hmin : kImportLibraryMinimum = 0x28 := rfl
  have hlen := length_records header cursor
  have hsizeEq : (wordAt header cursor).toNat = (libraryAt header cursor).size := rfl
  have hrecords := hfits.records_inside
  have hinside := hfits.inside
  have hnameEq : (halfAt header (cursor + 0x24)).toNat = (libraryAt header cursor).nameIndex := rfl
  have hnamed := hfits.named
  obtain ⟨hindex, hlibrary⟩ := List.getElem?_eq_some_iff.1 hname
  have htype : ∀ a ∈ (libraryAt header cursor).records,
      (rawAt bounds (contents image) a).type = 0 ∨ (rawAt bounds (contents image) a).type = 1 :=
    fun a ha => hpairs.type_of_mem _ (List.mem_map_of_mem ha)
  unfold readLibrary
  rw [requireBytes_of_le (by omega), ok_bind, refuseIf_of_not (by omega), ok_bind,
    readU32Be_eq (by omega), ok_bind, readU16Be_eq (by omega), ok_bind, readU16Be_eq (by omega),
    ok_bind]
  simp only [hsizeEq, hnameEq, ← hlen]
  rw [refuseIf_of_not (by omega), ok_bind, sub_eq (by omega), ok_bind,
    refuseIf_of_not (by omega), ok_bind, sub_eq (by omega), ok_bind, refuseIf_of_not (by omega),
    ok_bind, refuseIf_of_not (by omega), ok_bind, readAt_eq hindex, ok_bind, hlibrary, hlen,
    readRawImports_eq hsize _ 0 (by omega) hfits.valid htype]
  rfl

end

/-! ## The loop over the libraries -/

/-- The rewrites of a walk as far as it came, library by library. All records of a library were
valid, and they vouch for its rewrites as the libraries before it left their words. -/
inductive Validates (bounds : ImageBounds) :
    Memory UInt8 → List ImportLibrary → List (Patch UInt8) → Prop
  | stop (m : Memory UInt8) (libs : List ImportLibrary) : Validates bounds m libs []
  | library {lib : ImportLibrary} {libs : List ImportLibrary} {m : Memory UInt8}
      {patches later : List (Patch UInt8)} :
      (∀ a ∈ lib.records, ValidRecord bounds a) →
      (∀ p ∈ patches, VouchedBy bounds (lib.records.map (rawAt bounds m)) p) →
      Validates bounds (writeAll patches m) libs later →
      Validates bounds m (lib :: libs) (patches ++ later)

section

variable {bounds : ImageBounds} {lib : ImportLibrary} {libs : List ImportLibrary}
  {names : List StringView} {m m' : Memory UInt8} {p : Patch UInt8}

@[simp] theorem map_address_rawAt (records : List GuestAddress) :
    (records.map (rawAt bounds m)).map RawImport.address = records := by
  rw [List.map_map]
  exact List.map_id _

/-- A walk that stopped in a library. -/
theorem Validates.within {patches : List (Patch UInt8)}
    (hvalid : ∀ a ∈ lib.records, ValidRecord bounds a)
    (h : ∀ p ∈ patches, VouchedBy bounds (lib.records.map (rawAt bounds m)) p) :
    Validates bounds m (lib :: libs) patches := by
  have hone := Validates.library hvalid h (.stop (writeAll patches m) libs)
  rwa [List.append_nil] at hone

theorem Pairs.vouchedBy {raws : List RawImport} {entries : List ImportEntry}
    (h : Pairs raws entries) (hvalid : ∀ r ∈ raws, ValidRecord bounds r.address)
    (hstubs : ∀ e ∈ entries, e.StubInImage bounds) :
    ∀ p ∈ entries.flatMap (·.rewrites bounds), VouchedBy bounds raws p := by
  intro p hp
  obtain ⟨e, he, hp⟩ := List.mem_flatMap.1 hp
  have hrecord := h.record_mem he
  cases e with
  | «variable» record =>
    cases List.mem_singleton.1 hp
    exact .word hrecord (hvalid _ hrecord) (h.record_type he)
  | function record thunk =>
    obtain ⟨hzero, hone, hordinal, after, hsuffix⟩ := h.function_suffix he
    rcases List.mem_cons.1 hp with rfl | hp
    · exact .word hrecord (hvalid _ hrecord) hzero
    · cases List.mem_singleton.1 hp
      exact .stub hsuffix hzero hone hordinal (hstubs _ he)

theorem Pairs.vouchedBy_map {entries : List ImportEntry}
    (h : Pairs (lib.records.map (rawAt bounds m)) entries)
    (hvalid : ∀ a ∈ lib.records, ValidRecord bounds a)
    (hstubs : ∀ e ∈ entries, e.StubInImage bounds) :
    ∀ p ∈ entries.flatMap (·.rewrites bounds),
      VouchedBy bounds (lib.records.map (rawAt bounds m)) p := by
  refine h.vouchedBy (fun r hr => ?_) hstubs
  obtain ⟨a, ha, rfl⟩ := List.mem_map.1 hr
  exact hvalid a ha

/-- A run over libraries that fit makes rewrites they vouch for. -/
theorem Normalizes.validates {imports : List XexImport} {table : ImportTable} {cursor : Nat}
    (h : Normalizes bounds names m libs imports m') (hfit : LibrariesFit bounds table cursor libs) :
    ∃ patches, m' = writeAll patches m ∧ Validates bounds m libs patches := by
  induction h generalizing cursor with
  | nil m => exact ⟨[], rfl, .stop m []⟩
  | @cons lib library libs entries imports m m' hname hpairs hstubs _ ih =>
    obtain ⟨patches, hm, hrest⟩ := ih hfit.2
    have hvalid := hfit.1.valid
    exact ⟨entries.flatMap (·.rewrites bounds) ++ patches, by rw [writeAll_append, hm],
      .library hvalid (hpairs.vouchedBy_map hvalid hstubs) hrest⟩

end

section

variable {header : List UInt8} {bounds : ImageBounds} {table : ImportTable}

/-- What the loop over the libraries leaves when it goes on to the end. -/
structure LibrariesNormalized (bounds : ImageBounds) (table : ImportTable)
    (libs : List ImportLibrary) (s s' : ImportParse) : Prop where
  fit : LibrariesFit bounds table s.cursor libs
  cursor : s'.cursor = s.cursor + (libs.map ImportLibrary.size).sum
  length : s'.image.length = s.image.length
  run : ∃ imports, s'.imports = s.imports ++ imports ∧
    Normalizes bounds table.names (contents s.image) libs imports (contents s'.image)

/-- What it leaves when it refuses. -/
structure LibrariesRefused (bounds : ImageBounds) (table : ImportTable)
    (libs : List ImportLibrary) (s s' : ImportParse) (stop : Stop String) : Prop where
  refusal : stop.IsRefusal
  fault : LibrariesFit bounds table s.cursor libs →
    ∀ imports m', ¬ Normalizes bounds table.names (contents s.image) libs imports m'
  image : ∃ patches, RewrittenBy patches s.image s'.image ∧
    Validates bounds (contents s.image) libs patches

theorem parseLibrary_ended (hlimit : table.limit ≤ header.length) (s : ImportParse)
    (hsize : s.image.length = bounds.size) (index : Nat) :
    Ended (fun s' => ∃ library entries,
        LibraryFits bounds table s.cursor (libraryAt header s.cursor) ∧
        table.names[(libraryAt header s.cursor).nameIndex]? = some library ∧
        LibraryNormalized bounds library
          ((libraryAt header s.cursor).records.map (rawAt bounds (contents s.image))) s
          { s' with cursor := s.cursor } entries ∧
        s'.cursor = s.cursor + (libraryAt header s.cursor).size)
      (fun s' stop => stop.IsRefusal ∧
        (LibraryFits bounds table s.cursor (libraryAt header s.cursor) → ∀ library entries,
          table.names[(libraryAt header s.cursor).nameIndex]? = some library →
          Pairs ((libraryAt header s.cursor).records.map (rawAt bounds (contents s.image)))
            entries → ∃ e ∈ entries, ¬ e.StubInImage bounds) ∧
        ∃ patches, RewrittenBy patches s.image s'.image ∧ ∀ libs,
          Validates bounds (contents s.image) (libraryAt header s.cursor :: libs) patches)
      (parseLibrary header bounds table s index) := by
  have hmeets := readLibrary_meets s.cursor hsize hlimit
  unfold parseLibrary
  rcases hread : readLibrary header s.image bounds table s.cursor with stop | record
  · refine ⟨hmeets.isRefusal hread, fun hfits library entries hname hpairs => ?_, [],
      RewrittenBy.refl _, fun libs => .stop _ _⟩
    rw [readLibrary_eq hsize hlimit hfits hname hpairs] at hread
    cases hread
  · obtain ⟨hfits, hrecordSize, hname, hraws⟩ := hmeets.of_ok hread
    have hvalid : ∀ r ∈ record.rawImports, ValidRecord bounds r.address := by
      intro r hr
      rw [hraws] at hr
      obtain ⟨a, ha, rfl⟩ := List.mem_map.1 hr
      exact hfits.valid a ha
    have hended := normalizeImports_ended record.library record.rawImports s hsize hvalid
    simp only
    rcases hn : normalizeImports bounds record.library record.rawImports s with ⟨s1, _ | stop⟩
    · obtain ⟨entries, h⟩ := hended.of_done hn
      rw [hraws] at h
      exact ⟨record.library, entries, hfits, hname,
        ⟨h.pairs, h.stubs, rfl, h.imports, h.image⟩, by rw [← hrecordSize, ← h.cursor]⟩
    · replace hended := hended.of_exit hn
      obtain ⟨patches, hrewritten, hvouched⟩ := hended.image
      refine ⟨hended.refusal, fun _ library entries _ hpairs => ?_, patches, hrewritten,
        fun libs => .within hfits.valid (hraws ▸ hvouched)⟩
      exact hended.fault entries (hraws ▸ hpairs)

/-- **The loop over the libraries.** -/
theorem parseLibraries_ended (hlimit : table.limit ≤ header.length) (indices : List Nat)
    (s : ImportParse) (hsize : s.image.length = bounds.size) :
    Ended (LibrariesNormalized bounds table (librariesFrom header indices.length s.cursor) s)
      (LibrariesRefused bounds table (librariesFrom header indices.length s.cursor) s)
      (forEach (parseLibrary header bounds table) indices s) := by
  induction indices generalizing s with
  | nil => exact ⟨trivial, rfl, rfl, [], (List.append_nil _).symm, .nil _⟩
  | cons index indices ih =>
    refine ended_forEach_cons ((parseLibrary_ended hlimit s hsize index).mono ?_ ?_)
    · rintro s1 ⟨library, entries, hfits, hname, hone, hcursor⟩
      have hlength : s1.image.length = s.image.length := hone.image.1
      have hcontents : contents s1.image =
          writeAll (entries.flatMap (·.rewrites bounds)) (contents s.image) := hone.image.2
      rw [List.length_cons, librariesFrom, ← hcursor]
      refine (ih s1 (hlength.trans hsize)).mono ?_ ?_
      · rintro s' ⟨hfit, hend, hlen, imports, himports, hrun⟩
        refine ⟨⟨hfits, hcursor ▸ hfit⟩, ?_, hlen.trans hlength,
          entries.map (·.toImport library) ++ imports, ?_,
          .cons hname hone.pairs hone.stubs (hcontents ▸ hrun)⟩
        · rw [hend, hcursor, List.map_cons, List.sum_cons, Nat.add_assoc]
        · have himports1 : s1.imports = s.imports ++ entries.map (·.toImport library) :=
            hone.imports
          rw [himports, himports1, List.append_assoc]
      · rintro s' stop ⟨hrefusal, hfault, patches, hrewritten, hvalidates⟩
        refine ⟨hrefusal, ?_, _, hone.image.trans hrewritten, .library hfits.valid
          (hone.pairs.vouchedBy_map hfits.valid hone.stubs) (hcontents ▸ hvalidates)⟩
        rintro ⟨-, hfit⟩ imports m' hrun
        cases hrun with
        | @cons _ library' _ entries' imports' _ _ hname' hpairs' hstubs' hrest =>
          cases Option.some.inj ((pairImports_of_pairs hone.pairs).symm.trans
            (pairImports_of_pairs hpairs'))
          exact hfault (hcursor ▸ hfit) imports' m' (hcontents ▸ hrest)
    · rintro s' stop ⟨hrefusal, hfault, patches, hrewritten, hvalidates⟩
      rw [List.length_cons, librariesFrom]
      refine ⟨hrefusal, ?_, patches, hrewritten, hvalidates _⟩
      rintro ⟨hfits, -⟩ imports m' hrun
      cases hrun with
      | cons hname' hpairs' hstubs' _ =>
        obtain ⟨e, he, hstub⟩ := hfault hfits _ _ hname' hpairs'
        exact hstub (hstubs' e he)

end

/-! ## The descriptor -/

/-- The head of an import descriptor and its string table, as the bytes of the header have them. -/
structure TableAccepted (header : List UInt8) (geometry : HeaderGeometry) (table : ImportTable) :
    Prop where
  found : ∃ o, findOptional header 0x000103FF geometry = .ok (some o) ∧ o.inlineValue = false ∧
    table.offset = o.offset
  size_word : table.optionSize = (wordAt header table.offset).toNat
  library_offset : table.libraryOffset =
    table.offset + kImportHeaderMinimum + (wordAt header (table.offset + 4)).toNat
  count_word : table.libraryCount = (wordAt header (table.offset + 8)).toNat
  limit_in_header : table.limit ≤ header.length
  strings_inside : table.libraryOffset ≤ table.limit
  libraries : 0 < table.libraryCount
  names : ∃ strings, strings.length = table.libraryCount ∧
    NamesAt header table.libraryOffset (table.offset + kImportHeaderMinimum) strings ∧
    table.names = strings.map baseLibraryName

section

variable {header : List UInt8} {geometry : HeaderGeometry} {table : ImportTable}

theorem TableAccepted.importLibraries_eq (h : TableAccepted header geometry table) :
    importLibraries header geometry =
      librariesFrom header table.libraryCount table.libraryOffset := by
  obtain ⟨o, hfound, -, hoffset⟩ := h.found
  rw [h.count_word, h.library_offset, hoffset]
  unfold importLibraries
  rw [hfound]

theorem parseImportTable_meets (hheader : header.length = geometry.size) :
    Meets (TableAccepted header geometry) (parseImportTable header geometry) := by
  have hmin : kImportHeaderMinimum = 0x0C := rfl
  unfold parseImportTable
  refine meets_bind (findOptional_meets header _ _) fun found hfound hfacts => ?_
  rcases found with _ | o
  · exact trivial
  refine meets_refuseIf fun hinline => meets_requireBytes fun hbytes => ?_
  have hinline : o.inlineValue = false := by simpa using hinline
  obtain ⟨-, hoffset, -⟩ := hfacts o rfl hinline
  refine meets_readU32Be (by omega) (meets_readU32Be (by omega) (meets_readU32Be (by omega) ?_))
  refine meets_refuseIf fun hleast => meets_sub (by omega) (meets_refuseIf fun hoption => ?_)
  refine meets_sub (by omega) (meets_refuseIf fun hstrings => meets_refuseIf fun hcount => ?_)
  refine meets_refuseIf fun hlibrary => ?_
  refine meets_bind (parseNamesFrom_meets (by dsimp only; omega) _ _) ?_
  rintro names - ⟨strings, hlength, hat, hnames⟩
  refine ⟨⟨o, hfound, hinline, rfl⟩, rfl, rfl, rfl, ?_, ?_, ?_, strings, hlength, hat, hnames⟩
  · show o.offset + (wordAt header o.offset).toNat ≤ header.length
    omega
  · show o.offset + kImportHeaderMinimum + (wordAt header (o.offset + 4)).toNat ≤
      o.offset + (wordAt header o.offset).toNat
    omega
  · show 0 < (wordAt header (o.offset + 8)).toNat
    rw [← UInt32.toNat_inj, UInt32.toNat_zero] at hcount
    omega

theorem parseImportTable_eq (hheader : header.length = geometry.size)
    (h : TableAccepted header geometry table) : parseImportTable header geometry = .ok table := by
  have hmin : kImportHeaderMinimum = 0x0C := rfl
  obtain ⟨o, hfound, hinline, hoffset⟩ := h.found
  obtain ⟨strings, hlength, hat, hnames⟩ := h.names
  obtain ⟨hvalue, hin, -⟩ := (findOptional_meets header _ _).of_ok hfound o rfl hinline
  have hsmall := o.value.toNat_lt
  have hwords := (wordAt header (o.offset + 4)).toNat_lt
  have hsize := h.size_word
  have hlibrary := h.library_offset
  have hcount := h.count_word
  have hlimit := h.limit_in_header
  have hstrings := h.strings_inside
  have hlibraries := h.libraries
  have htable : table = ⟨o.offset, (wordAt header o.offset).toNat, o.offset + kImportHeaderMinimum +
      (wordAt header (o.offset + 4)).toNat, (wordAt header (o.offset + 8)).toNat,
      strings.map baseLibraryName⟩ := by
    rw [← hoffset, ← hsize, ← hlibrary, ← hcount, ← hnames]
  unfold ImportTable.limit at hlimit hstrings
  rw [hoffset] at hsize hlibrary hcount hlimit hstrings hat
  have hnonzero : ¬ wordAt header (o.offset + 8) = 0 := by
    rw [← UInt32.toNat_inj, UInt32.toNat_zero]
    omega
  have hparse : parseImportLibraryNames header ⟨o.offset + kImportHeaderMinimum,
      wordAt header (o.offset + 4), wordAt header (o.offset + 8)⟩ =
      .ok (strings.map baseLibraryName) := by
    unfold parseImportLibraryNames
    rw [← hcount, ← hlength, ← hlibrary]
    exact parseNamesFrom_eq (by omega) (by rw [show kSizeMax = 2 ^ 64 - 1 from rfl]; omega) hat
  unfold parseImportTable
  rw [hfound, ok_bind]
  dsimp only
  rw [refuseIf_of_not (by rw [hinline]; decide), ok_bind, requireBytes_of_le (by omega), ok_bind,
    readU32Be_eq (by omega), ok_bind, readU32Be_eq (by omega), ok_bind, readU32Be_eq (by omega),
    ok_bind, refuseIf_of_not (by omega), ok_bind, sub_eq (by omega), ok_bind,
    refuseIf_of_not (by omega), ok_bind, sub_eq (by omega), ok_bind, refuseIf_of_not (by omega),
    ok_bind, refuseIf_of_not hnonzero, ok_bind, refuseIf_of_not (by omega), ok_bind, hparse, htable]
  rfl

/-- **The walk.** `parseImports` ends in a run over the libraries of the descriptor that fills it
exactly, or it refuses because there is none; its rewrites are validated either way. -/
theorem parseImports_ended {image : List UInt8} (context : ImportContext)
    (hheader : header.length = context.header.size) (himage : image.length = context.image.size) :
    Ended (fun s => ∃ table, TableAccepted header context.header table ∧
        LibrariesNormalized context.image table (importLibraries header context.header)
          { cursor := table.libraryOffset, image } s ∧
        s.cursor = table.limit)
      (fun s stop => stop.IsRefusal ∧
        (∀ table, TableAccepted header context.header table →
          LibrariesFit context.image table table.libraryOffset
            (importLibraries header context.header) →
          table.libraryOffset +
            ((importLibraries header context.header).map ImportLibrary.size).sum = table.limit →
          ∀ imports m', ¬ Normalizes context.image table.names (contents image)
            (importLibraries header context.header) imports m') ∧
        ∃ patches, RewrittenBy patches image s.image ∧
          Validates context.image (contents image) (importLibraries header context.header)
            patches)
      (parseImports header image context) := by
  have hmeets := parseImportTable_meets hheader
  unfold parseImports
  rcases htable : parseImportTable header context.header with stop | table
  · refine ⟨hmeets.isRefusal htable, fun table haccepted => ?_, [], RewrittenBy.refl _,
      .stop _ _⟩
    rw [parseImportTable_eq hheader haccepted] at htable
    cases htable
  have haccepted := hmeets.of_ok htable
  have hsame : ∀ table', TableAccepted header context.header table' → table' = table := by
    intro table' h'
    rw [parseImportTable_eq hheader h'] at htable
    exact Except.ok.inj htable
  have hended := parseLibraries_ended haccepted.limit_in_header
    (List.range table.libraryCount) { cursor := table.libraryOffset, image } himage
  rw [List.length_range, ← haccepted.importLibraries_eq] at hended
  simp only
  rcases hloop : forEach (parseLibrary header context.image table)
    (List.range table.libraryCount) { cursor := table.libraryOffset, image } with ⟨s, _ | stop⟩
  · replace hended := hended.of_done hloop
    simp only
    by_cases hcursor : s.cursor = table.limit
    · rw [if_neg (not_not_intro hcursor)]
      exact ⟨table, haccepted, hended, hcursor⟩
    · rw [if_pos hcursor]
      obtain ⟨imports, -, hrun⟩ := hended.run
      obtain ⟨patches, hpatches, hvalidates⟩ := hrun.validates hended.fit
      refine ⟨trivial, fun table' h' _ hsum => ?_, patches, ⟨hended.length, hpatches⟩,
        hvalidates⟩
      rw [hsame table' h'] at hsum
      exact (hcursor (hended.cursor.trans hsum)).elim
  · replace hended := hended.of_exit hloop
    refine ⟨hended.refusal, fun table' h' hfit _ => ?_, hended.image⟩
    rw [hsame table' h'] at hfit ⊢
    exact hended.fault hfit

end

end X360Port
