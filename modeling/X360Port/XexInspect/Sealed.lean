import X360Port.XexInspect.Inspect

/-!
# From an inspection to a module

A title seals what an inspection found: the image as the records left it, its
layout, and the imports as a manifest in the validator's order. The inspector
and the validator do not know of each other. `sealInspection_validates_iff` says
what an accepted inspection has settled already, by leaving it out: the image,
its place, and of each import the alignment, the record's place and the name.
What is left to the validator is `Sealable`.
-/

namespace X360Port

open Library

/-! ## What is reported of an import -/

/-- What every reported import is, whatever the file says. -/
structure ReportedImport (bounds : ImageBounds) (imp : XexImport) : Prop where
  ordinal : imp.ordinal.toNat ≤ 65535
  name : imp.name = ordinalName imp.ordinal
  library : imp.library.length < 2 ^ 32
  address : ValidRecord bounds imp.address
  record : ValidRecord bounds imp.recordAddress
  single : imp.kind = ImportKind.variable → imp.address = imp.recordAddress

theorem NamesAt.length_lt {header : List UInt8} {stringLimit cursor : Nat}
    {strings : List StringView} (h : NamesAt header stringLimit cursor strings) :
    ∀ name ∈ strings, cursor + name.length < stringLimit := by
  induction strings generalizing cursor with
  | nil => exact fun name hname => nomatch hname
  | cons first strings ih =>
    obtain ⟨-, -, -, hend, hrest⟩ := h
    have halign := le_alignToWord (first.length + 1)
    intro name hname
    rcases List.mem_cons.1 hname with rfl | hname
    · omega
    · have hlater := ih hrest name hname
      omega

/-- The names stand in a table whose size is a word. -/
theorem TableAccepted.names_short {header : List UInt8} {geometry : HeaderGeometry}
    {table : ImportTable} (h : TableAccepted header geometry table) :
    ∀ name ∈ table.names, name.length < 2 ^ 32 := by
  obtain ⟨strings, -, hat, hnames⟩ := h.names
  have hlibrary := h.library_offset
  have hword := (wordAt header (table.offset + 4)).toNat_lt
  intro name hname
  rw [hnames] at hname
  obtain ⟨path, hpath, rfl⟩ := List.mem_map.1 hname
  have hlength := hat.length_lt path hpath
  have hbase : (baseLibraryName path).length ≤ path.length :=
    (List.rtakeWhile_suffix _ path).length_le
  omega

theorem toNat_rawAt_ordinal_le (bounds : ImageBounds) (m : Memory UInt8) (a : GuestAddress) :
    (rawAt bounds m a).ordinal.toNat ≤ 65535 := by
  show (loadWordAt m (bounds.offset a) &&& 0xFFFF).toNat ≤ 65535
  rw [UInt32.toNat_and]
  exact Nat.and_le_right

/-- Every import of a walk over valid records is reported so. -/
theorem Normalizes.reported {bounds : ImageBounds} {names : List StringView} {m m' : Memory UInt8}
    {libs : List ImportLibrary} {imports : List XexImport}
    (h : Normalizes bounds names m libs imports m')
    (hvalid : ∀ lib ∈ libs, ∀ a ∈ lib.records, ValidRecord bounds a)
    (hnames : ∀ name ∈ names, name.length < 2 ^ 32) :
    ∀ imp ∈ imports, ReportedImport bounds imp := by
  induction h with
  | nil => exact fun imp himp => nomatch himp
  | @cons lib library libs entries imports m m' hname hpairs _ _ ih =>
    rw [List.forall_mem_cons] at hvalid
    have hlibrary := hnames library (List.mem_of_getElem? hname)
    have hraw : ∀ raw ∈ lib.records.map (rawAt bounds m),
        ValidRecord bounds raw.address ∧ raw.ordinal.toNat ≤ 65535 := by
      intro raw hraw
      obtain ⟨a, ha, rfl⟩ := List.mem_map.1 hraw
      exact ⟨hvalid.1 a ha, toNat_rawAt_ordinal_le bounds m a⟩
    intro imp himp
    rcases List.mem_append.1 himp with himp | himp
    · obtain ⟨e, he, rfl⟩ := List.mem_map.1 himp
      obtain ⟨hrecord, hordinal⟩ := hraw _ (hpairs.record_mem he)
      cases e with
      | «variable» record => exact ⟨hordinal, rfl, hlibrary, hrecord, hrecord, fun _ => rfl⟩
      | function record thunk =>
        obtain ⟨hthunk, hthunkOrdinal⟩ := hraw _ (hpairs.thunk_mem he)
        exact ⟨hthunkOrdinal, rfl, hlibrary, hthunk, hrecord, (nomatch ·)⟩
    · exact ih hvalid.2 imp himp

theorem parseImports_reported {header image : List UInt8} {geometry : HeaderGeometry}
    {base : GuestAddress} {s : ImportParse} (hheader : header.length = geometry.size)
    (hparse : parseImports header image ⟨geometry, ⟨base, image.length⟩⟩ = (s, none)) :
    s.image.length = image.length ∧
      ∀ imp ∈ s.imports, ReportedImport ⟨base, image.length⟩ imp := by
  have hended := parseImports_ended ⟨geometry, ⟨base, image.length⟩⟩ hheader rfl
  obtain ⟨table, htable, hnormal, -⟩ := hended.of_done hparse
  obtain ⟨imports, himports, hrun⟩ := hnormal.run
  refine ⟨hnormal.length, ?_⟩
  rw [himports]
  exact hrun.reported hnormal.fit.valid htable.names_short

section

variable {xex : List UInt8} {load : XexLoad} {inspection : XexInspection}

theorem inspectXex_reports (xex : List UInt8) (load : XexLoad) :
    Meets (fun inspection => ∀ imp ∈ inspection.imports,
        ReportedImport ⟨load.baseAddress, inspection.loadedImage.length⟩ imp)
      (inspectXex xex load) := by
  unfold inspectXex
  refine meets_bind (validateHeader_meets xex) ?_
  rintro ⟨header, securityOffset⟩ hheader -
  refine meets_refuseIf fun _ => meets_refuseIf fun _ => meets_refuseIf fun _ => ?_
  refine meets_refuseIf fun _ => meets_requireBytes fun hbytes => ?_
  rcases load.loaded with _ | loaded
  · exact trivial
  rcases load.execution with _ | execution
  · exact trivial
  have hlength := length_take_header hheader
  dsimp only
  rcases hparse : parseImports (xex.take header.size) loaded.toList
    ⟨header, ⟨load.baseAddress, loaded.toList.length⟩⟩ with ⟨s, _ | stop⟩
  · obtain ⟨hsize, hreported⟩ := parseImports_reported hlength hparse
    rw [← hsize] at hreported
    dsimp only
    rcases hdescribe : describeLoadedPeImage s.image with stop | layout
    · exact (Stop.isRefusal_map _ stop).2
        ((describeLoadedPeImage_meets s.image).isRefusal hdescribe)
    · exact hreported
  · have hended := parseImports_ended ⟨header, ⟨load.baseAddress, loaded.toList.length⟩⟩ hlength
      rfl
    exact (hended.of_exit hparse).1

/-! ## The order of a manifest -/

theorem importBefore_cases (a b : ImportRequirement) :
    ImportBefore a b ∨ (a.library = b.library ∧ a.ordinal = b.ordinal) ∨ ImportBefore b a := by
  unfold ImportBefore
  rcases Std.lt_trichotomy a.library b.library with h | h | h
  · exact .inl (.inl h)
  · rcases Std.lt_trichotomy a.ordinal b.ordinal with ho | ho | ho
    · exact .inl (.inr ⟨h, ho⟩)
    · exact .inr (.inl ⟨h, ho⟩)
    · exact .inr (.inr (.inr ⟨h.symm, ho⟩))
  · exact .inr (.inr (.inl h))

theorem ImportBefore.ne {a b : ImportRequirement} (h : ImportBefore a b) :
    ¬ (a.library = b.library ∧ a.ordinal = b.ordinal) := by
  rintro ⟨hlibrary, hordinal⟩
  rcases h with h | ⟨-, h⟩
  · rw [hlibrary] at h
    exact List.lt_irrefl _ h
  · rw [hordinal] at h
    exact UInt32.lt_irrefl _ h

/-- Not after, in the manifest's order. -/
def importAtMost (a b : ImportRequirement) : Bool := !importLess b a

theorem importAtMost_iff {a b : ImportRequirement} :
    importAtMost a b = true ↔ ¬ ImportBefore b a := by
  unfold importAtMost
  rw [Bool.not_eq_true', ← importLess_iff, Bool.not_eq_true]

theorem importAtMost_trans (a b c : ImportRequirement) (hab : importAtMost a b = true)
    (hbc : importAtMost b c = true) : importAtMost a c = true := by
  rw [importAtMost_iff] at hab hbc ⊢
  intro hca
  -- whatever comes before `c` comes before `b`, or is its equal there
  rcases importBefore_cases a b with h | ⟨hlibrary, hordinal⟩ | h
  · exact hbc (hca.trans h)
  · refine hbc ?_
    unfold ImportBefore at hca ⊢
    rwa [← hlibrary, ← hordinal]
  · exact hab h

theorem importAtMost_total (a b : ImportRequirement) :
    (importAtMost a b || importAtMost b a) = true := by
  rw [Bool.or_eq_true, importAtMost_iff, importAtMost_iff]
  by_cases h : ImportBefore b a
  · exact .inr fun h' => (h.trans h').ne ⟨rfl, rfl⟩
  · exact .inl h

/-- A sorted manifest is in strict order where no two imports have one key. -/
theorem pairwise_sorted_iff {imports : List ImportRequirement} :
    (imports.mergeSort importAtMost).Pairwise ImportBefore ↔
      imports.Pairwise fun a b => ¬ (a.library = b.library ∧ a.ordinal = b.ordinal) := by
  have hperm := List.mergeSort_perm imports importAtMost
  have hsymm : ∀ {a b : ImportRequirement}, ¬ (a.library = b.library ∧ a.ordinal = b.ordinal) →
      ¬ (b.library = a.library ∧ b.ordinal = a.ordinal) :=
    fun h heq => h ⟨heq.1.symm, heq.2.symm⟩
  rw [← hperm.pairwise_iff hsymm]
  constructor
  · exact fun h => h.imp ImportBefore.ne
  · intro h
    have hsorted := List.pairwise_mergeSort importAtMost_trans importAtMost_total imports
    refine (hsorted.and h).imp fun {a b} hab => ?_
    have hle := importAtMost_iff.1 hab.1
    exact (importBefore_cases a b).resolve_right fun h => h.elim hab.2 hle

/-! ## Sealing -/

def XexImport.requirement (imp : XexImport) : ImportRequirement :=
  ⟨imp.kind, imp.library, imp.ordinal, imp.name, imp.address, imp.recordAddress⟩

/-- The imports in the manifest's order. -/
def sealedManifest (inspection : XexInspection) : List ImportRequirement :=
  (inspection.imports.map XexImport.requirement).mergeSort importAtMost

/-- The module that a title seals from an inspection. -/
def sealInspection (inspection : XexInspection) : GuestModule where
  descriptor :=
    { image := inspection.image.identity
      code := inspection.image.code
      importCount := inspection.imports.length
      importManifestSha256 := hashImportManifest (sealedManifest inspection) }
  imageBytes := inspection.loadedImage
  importManifest := sealedManifest inspection

/-- What an inspection leaves to the validator. -/
structure Sealable (inspection : XexInspection) : Prop where
  digest : inspection.image.identity.sha256 ≠ Vector.replicate 32 0
  executed : ExecutedAligned inspection.loadedImage
  ordinals : ∀ imp ∈ inspection.imports, imp.ordinal ≠ 0
  libraries : ∀ imp ∈ inspection.imports,
    imp.library ≠ [] ∧ ∀ c ∈ (imp.library : List UInt8), PortableKeyCharacter c
  thunks : ∀ imp ∈ inspection.imports, imp.kind = .function →
    inspection.image.code.base.toNat ≤ imp.address.toNat ∧
      imp.address.toNat + 16 ≤ inspection.image.code.codeEnd
  apart : inspection.imports.Pairwise fun a b =>
    a.address ≠ b.address ∧ a.recordAddress ≠ b.recordAddress
  keys : inspection.imports.Pairwise fun a b => ¬ (a.library = b.library ∧ a.ordinal = b.ordinal)

theorem ordinalName_printable (ordinal : UInt32) :
    ∀ c ∈ ordinalName ordinal, 0x21 ≤ c.toNat ∧ c.toNat ≤ 0x7e := by
  have hdigit : ∀ nibble : UInt32, nibble.toNat < 16 →
      0x21 ≤ (hexDigit nibble).toNat ∧ (hexDigit nibble).toNat ≤ 0x7e := by
    intro nibble hlt
    have hcases : ∀ n < 16, 0x21 ≤ (hexDigit (.ofNat n)).toNat ∧
        (hexDigit (.ofNat n)).toNat ≤ 0x7e := by decide
    have heq := hcases nibble.toNat hlt
    rwa [UInt32.ofNat_toNat] at heq
  have hletters : ∀ c ∈ ([0x6F, 0x72, 0x64, 0x69, 0x6E, 0x61, 0x6C, 0x5F] : List UInt8),
      0x21 ≤ c.toNat ∧ c.toNat ≤ 0x7e := by simp
  intro c hc
  unfold ordinalName at hc
  rcases List.mem_append.1 hc with hc | hc
  · exact hletters c hc
  · obtain ⟨shift, -, rfl⟩ := List.mem_map.1 hc
    refine hdigit _ ?_
    rw [UInt32.toNat_and]
    exact Nat.lt_succ_of_le Nat.and_le_right

/-- One import, checked on its own. -/
theorem ReportedImport.wellFormed_iff {bounds : ImageBounds} {imp : XexImport}
    (h : ReportedImport bounds imp) {image : ImageIdentity} {code : CodeRange}
    (hbase : image.base = bounds.base) (hsize : image.size.toNat = bounds.size) :
    WellFormedImport image code imp.requirement ↔
      imp.ordinal ≠ 0 ∧ (imp.library ≠ [] ∧ ∀ c ∈ imp.library, PortableKeyCharacter c) ∧
        (imp.kind = .function → code.base.toNat ≤ imp.address.toNat ∧
          imp.address.toNat + 16 ≤ code.codeEnd) := by
  constructor
  · intro hw
    refine ⟨fun hzero => ?_, ⟨hw.library_nonempty, hw.library_characters⟩, hw.thunk_inside⟩
    have hordinal : 1 ≤ imp.ordinal.toNat := hw.ordinal.1
    rw [hzero] at hordinal
    exact absurd hordinal (by decide)
  · rintro ⟨hordinal, ⟨hlibrary, hcharacters⟩, hthunk⟩
    have hholds := h.record.holds
    unfold ImageBounds.Holds ImageBounds.offset at hholds
    have hend : image.imageEnd = image.base.toNat + image.size.toNat := rfl
    rw [hbase, hsize] at hend
    refine ⟨⟨Word.toNat_pos hordinal, h.ordinal⟩, hlibrary, hcharacters, fun c hc => ?_,
      h.address.aligned, h.record.aligned, ⟨?_, ?_⟩, hthunk, h.single⟩
    · have hname : imp.requirement.name = ordinalName imp.ordinal := h.name
      rw [hname] at hc
      exact ordinalName_printable imp.ordinal c hc
    · rw [hbase]
      exact hholds.1
    · show imp.recordAddress.toNat + 4 ≤ image.imageEnd
      omega

/-- **Sealing.** Where the image stands where its own header says, the module that is sealed from
an accepted inspection validates exactly when the inspection is sealable. -/
theorem sealInspection_validates_iff (h : inspectXex xex load = .ok inspection)
    (hplaced : peImageBase (rewrittenImage xex load) = load.baseAddress) :
    (validateModule (sealInspection inspection)).Ok ↔ Sealable inspection := by
  have hinspected := inspectedAs_of_ok h
  have hdescribed := hinspected.described
  have hreported := (inspectXex_reports xex load).of_ok h
  have hbase : inspection.image.identity.base = load.baseAddress := by
    rw [hdescribed.base, hinspected.image, hplaced]
  have hperm := List.mergeSort_perm (inspection.imports.map XexImport.requirement) importAtMost
  have hmem : ∀ r, r ∈ sealedManifest inspection ↔
      ∃ imp ∈ inspection.imports, imp.requirement = r := by
    intro r
    unfold sealedManifest
    rw [hperm.mem_iff, List.mem_map]
  have himport : ∀ imp ∈ inspection.imports,
      (WellFormedImport inspection.image.identity inspection.image.code imp.requirement ↔ _) :=
    fun imp himp => (hreported imp himp).wellFormed_iff hbase hdescribed.size
  have hkeys : (sealedManifest inspection).Pairwise ImportBefore ↔
      inspection.imports.Pairwise fun a b => ¬ (a.library = b.library ∧ a.ordinal = b.ordinal) := by
    unfold sealedManifest
    rw [pairwise_sorted_iff, List.pairwise_map]
    rfl
  have hapart : (sealedManifest inspection).Pairwise ImportsApart ↔
      inspection.imports.Pairwise fun a b =>
        a.address ≠ b.address ∧ a.recordAddress ≠ b.recordAddress := by
    unfold sealedManifest
    rw [hperm.pairwise_iff fun hab => ⟨hab.1.symm, hab.2.symm⟩, List.pairwise_map]
    rfl
  rw [validateModule_accepts_iff]
  constructor
  · rintro ⟨hmodule, -⟩
    have heach : ∀ imp ∈ inspection.imports, _ := fun imp himp =>
      (himport imp himp).1 (hmodule.imports _ ((hmem _).2 ⟨imp, himp, rfl⟩))
    exact ⟨hmodule.digest_sealed, hdescribed.code_aligned_iff.1 hmodule.code_aligned,
      fun imp himp => (heach imp himp).1, fun imp himp => (heach imp himp).2.1,
      fun imp himp => (heach imp himp).2.2, hapart.1 hmodule.apart, hkeys.1 hmodule.ordered⟩
  · intro hs
    -- the image is as a module without imports has it
    have himage := hdescribed.wellFormed hs.digest (hdescribed.code_aligned_iff.2 hs.executed)
    refine ⟨⟨himage.digest_sealed, himage.image_digest, himage.image_size, himage.base_aligned,
      himage.image_end, himage.code_nonempty, himage.code_aligned, himage.code_inside,
      himage.entry_aligned, himage.entry_inside, ?_, fun r hr => ?_, hapart.2 hs.apart,
      hkeys.2 hs.keys, rfl⟩, fun r hr => ?_⟩
    · exact hperm.length_eq.trans (List.length_map _)
    · obtain ⟨imp, himp, rfl⟩ := (hmem r).1 hr
      exact (himport imp himp).2 ⟨hs.ordinals imp himp, hs.libraries imp himp, hs.thunks imp himp⟩
    · obtain ⟨imp, himp, rfl⟩ := (hmem r).1 hr
      refine ⟨(hreported imp himp).library, ?_⟩
      have hname : imp.requirement.name = ordinalName imp.ordinal := (hreported imp himp).name
      rw [hname]
      exact Nat.lt_of_le_of_lt (Nat.le_refl 16) (by decide)

end

section Files

/-- The aligned image with one word behind its code, for the record of ordinal 5. -/
def recordedImage : List UInt8 := alignedImage ++ guestWordBytes 5

def recordedLoad : XexLoad where
  baseAddress := 0x82000000
  imageSize := 0x174
  loaded := some ⟨recordedImage.toArray, by decide +kernel⟩

theorem sealInspection_validates_recorded : ∃ inspection,
    inspectXex (fileWithImports (probeDescriptor 0x82000170)) recordedLoad = .ok inspection ∧
      (validateModule (sealInspection inspection)).Ok := by
  have hrun : (inspectXex (fileWithImports (probeDescriptor 0x82000170)) recordedLoad).toOption.map
      (fun inspection => inspection.imports.map fun imp => (imp.kind, imp.library, imp.ordinal)) =
        some [(ImportKind.variable, [0x61], 5)] := by
    decide +kernel
  rcases hinspect : inspectXex (fileWithImports (probeDescriptor 0x82000170)) recordedLoad
    with stop | inspection
  · rw [hinspect] at hrun
    cases hrun
  rw [hinspect] at hrun
  obtain ⟨imp, himports, hkey⟩ := List.map_eq_singleton_iff.1 (Option.some.inj hrun)
  obtain ⟨hkind, hlibrary, hordinal⟩ : imp.kind = ImportKind.variable ∧ imp.library = [0x61] ∧
      imp.ordinal = 5 := by
    simpa only [Prod.mk.injEq] using hkey
  have hinspected := inspectedAs_of_ok hinspect
  refine ⟨inspection, rfl,
    (sealInspection_validates_iff hinspect (by decide +kernel)).2 ⟨?_, ?_, ?_, ?_, ?_, ?_, ?_⟩⟩
  · rw [hinspected.described.sha256, hinspected.image]
    exact hashBytes_ne_zero (by decide +kernel)
  · rw [hinspected.image]
    decide +kernel
  all_goals rw [himports]
  · rw [List.forall_mem_singleton, hordinal]
    decide
  · rw [List.forall_mem_singleton, hlibrary]
    refine ⟨List.cons_ne_nil _ _, List.forall_mem_singleton.2 ?_⟩
    unfold PortableKeyCharacter
    decide
  · rw [List.forall_mem_singleton, hkind]
    exact (nomatch ·)
  · exact List.pairwise_singleton _ _
  · exact List.pairwise_singleton _ _

end Files

end X360Port
