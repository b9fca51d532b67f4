import Mathlib.Data.List.Pairwise
import Mathlib.Data.List.Chain
import Mathlib.Data.List.Forall2
import X360Port.Digest.Blocks
import X360Port.Validation

/-!
# What validation accepts

`WellFormedModule` says in plain terms what an acceptable module is: a sealed
image inside the 32-bit address space, an aligned code range and entry point
inside it, and a manifest whose every pair of imports is distinct and ordered.
`validateModule_ok_iff` proves that the validator's nested loops and 64-bit
sums accept exactly these modules. `ShapedBinding` does the same for one
binding and `validateImports_ok_iff` for a bindings list.
-/

namespace X360Port

/-- Letters, digits, `_`, `-` and `.`. -/
def PortableKeyCharacter (c : UInt8) : Prop :=
  (0x61 ≤ c.toNat ∧ c.toNat ≤ 0x7a) ∨ (0x41 ≤ c.toNat ∧ c.toNat ≤ 0x5a) ∨
    (0x30 ≤ c.toNat ∧ c.toNat ≤ 0x39) ∨ c = 0x5f ∨ c = 0x2d ∨ c = 0x2e

/-- Two imports share neither their address nor their record. -/
def ImportsApart (a b : ImportRequirement) : Prop :=
  a.address ≠ b.address ∧ a.recordAddress ≠ b.recordAddress

/-- The `(library, ordinal)` order of the manifest. -/
def ImportBefore (a b : ImportRequirement) : Prop :=
  a.library < b.library ∨ (a.library = b.library ∧ a.ordinal < b.ordinal)

/-- One import on its own. -/
structure WellFormedImport (image : ImageIdentity) (code : CodeRange) (imp : ImportRequirement) :
    Prop where
  ordinal : 1 ≤ imp.ordinal.toNat ∧ imp.ordinal.toNat ≤ 65535
  library_nonempty : imp.library ≠ []
  library_characters : ∀ c ∈ imp.library, PortableKeyCharacter c
  name_characters : ∀ c ∈ imp.name, 0x21 ≤ c.toNat ∧ c.toNat ≤ 0x7e
  address_aligned : imp.address.toNat % 4 = 0
  record_aligned : imp.recordAddress.toNat % 4 = 0
  record_inside : image.base.toNat ≤ imp.recordAddress.toNat ∧
    imp.recordAddress.toNat + 4 ≤ image.imageEnd
  thunk_inside : imp.kind = .function → code.base.toNat ≤ imp.address.toNat ∧
    imp.address.toNat + 16 ≤ code.codeEnd
  variable_record : imp.kind = ImportKind.variable → imp.address = imp.recordAddress

/-- Every string of the manifest is shorter than 4 GiB. -/
def ShortStrings (imports : List ImportRequirement) : Prop :=
  ∀ imp ∈ imports, imp.library.length < 2 ^ 32 ∧ imp.name.length < 2 ^ 32

instance (imports : List ImportRequirement) : Decidable (ShortStrings imports) := by
  unfold ShortStrings; infer_instance

structure WellFormedModule (module : GuestModule) : Prop where
  digest_sealed : module.descriptor.image.sha256 ≠ Vector.replicate 32 0
  image_digest : hashBytes module.imageBytes = module.descriptor.image.sha256
  image_size : module.imageBytes.length = module.descriptor.image.size.toNat
  base_aligned : module.descriptor.image.base.toNat % 65536 = 0
  image_end : module.descriptor.image.imageEnd ≤ 2 ^ 32
  code_nonempty : 0 < module.descriptor.code.size.toNat
  code_aligned : module.descriptor.code.base.toNat % 4 = 0 ∧
    module.descriptor.code.size.toNat % 4 = 0
  code_inside : module.descriptor.image.base.toNat ≤ module.descriptor.code.base.toNat ∧
    module.descriptor.code.codeEnd ≤ module.descriptor.image.imageEnd
  entry_aligned : module.descriptor.image.entryPoint.toNat % 4 = 0
  entry_inside : module.descriptor.code.Contains module.descriptor.image.entryPoint.toNat
  import_count : module.importManifest.length = module.descriptor.importCount
  imports : ∀ imp ∈ module.importManifest,
    WellFormedImport module.descriptor.image module.descriptor.code imp
  apart : module.importManifest.Pairwise ImportsApart
  ordered : module.importManifest.Pairwise ImportBefore
  manifest_digest : hashImportManifest module.importManifest =
    module.descriptor.importManifestSha256

/-! ## Single clauses -/

theorem all_zero_iff (digest : Sha256Digest) :
    (digest.all fun byte => byte == 0) = true ↔ digest = Vector.replicate 32 0 := by
  rw [Vector.all_eq_true]
  constructor
  · intro h
    ext i hi
    have := h i hi
    rw [beq_iff_eq] at this
    simp [this]
  · rintro rfl i hi
    simp

theorem isPortableKeyCharacter_iff (c : UInt8) :
    isPortableKeyCharacter c = true ↔ PortableKeyCharacter c := by
  simp only [isPortableKeyCharacter, PortableKeyCharacter, Bool.or_eq_true, Bool.and_eq_true,
    decide_eq_true_eq, beq_iff_eq, UInt8.le_iff_toNat_le, UInt8.reduceToNat, or_assoc]

theorem isValidLibrary_iff (library : StringView) :
    isValidLibrary library = true ↔ library ≠ [] ∧ ∀ c ∈ library, PortableKeyCharacter c := by
  unfold isValidLibrary
  cases library with
  | nil => simp
  | cons c rest =>
    rw [if_neg (by simp), List.all_eq_true]
    simp only [isPortableKeyCharacter_iff, ne_eq, reduceCtorEq, not_false_eq_true, true_and]

theorem isValidImportName_iff (name : StringView) :
    isValidImportName name = true ↔ ∀ c ∈ name, 0x21 ≤ c.toNat ∧ c.toNat ≤ 0x7e := by
  simp only [isValidImportName, List.all_eq_true, Bool.and_eq_true, decide_eq_true_eq,
    UInt8.le_iff_toNat_le, UInt8.reduceToNat]

theorem importLess_iff (a b : ImportRequirement) :
    importLess a b = true ↔ ImportBefore a b := by
  unfold importLess ImportBefore
  by_cases h : a.library = b.library
  · have hirr : ¬ b.library < b.library := List.lt_irrefl _
    rw [if_neg (by simpa using h), h]
    simp [hirr]
  · rw [if_pos h]
    simp [h]

theorem ImportBefore.trans {a b c : ImportRequirement} (h1 : ImportBefore a b)
    (h2 : ImportBefore b c) : ImportBefore a c := by
  unfold ImportBefore at *
  rcases h1 with h1 | ⟨e1, h1⟩ <;> rcases h2 with h2 | ⟨e2, h2⟩
  · exact .inl (List.lt_trans h1 h2)
  · exact .inl (e2 ▸ h1)
  · exact .inl (e1 ▸ h2)
  · refine .inr ⟨e1.trans e2, ?_⟩
    rw [UInt32.lt_iff_toNat_lt] at *
    omega

instance : Trans ImportBefore ImportBefore ImportBefore := ⟨ImportBefore.trans⟩

/-! ## The manifest loop -/

section

variable {image : ImageIdentity} {code : CodeRange} {imports : List ImportRequirement}

/-- The address form the validator asks of each kind, for an import whose record
lies in the image. -/
theorem addressForm_iff {imp : ImportRequirement}
    (hr : image.base.toNat ≤ imp.recordAddress.toNat ∧
      imp.recordAddress.toNat + 4 ≤ image.imageEnd) :
    (imp.kind = .function ∧ code.Contains imp.address.toNat ∧
        imp.address.toNat + 16 ≤ code.codeEnd) ∨
      (imp.kind = ImportKind.variable ∧ imp.address = imp.recordAddress ∧
        image.base.toNat ≤ imp.address.toNat ∧ imp.address.toNat < image.imageEnd) ↔
    (imp.kind = .function → code.base.toNat ≤ imp.address.toNat ∧
        imp.address.toNat + 16 ≤ code.codeEnd) ∧
      (imp.kind = ImportKind.variable → imp.address = imp.recordAddress) := by
  unfold CodeRange.Contains
  cases hk : imp.kind with
  | function => simp only [reduceCtorEq, true_and, false_and, or_false, true_implies,
      false_implies, and_true]; omega
  | «variable» =>
    simp only [reduceCtorEq, true_and, false_and, false_or, true_implies, false_implies]
    refine ⟨fun h => h.1, fun h => ⟨h, ?_⟩⟩
    rw [h]
    omega

/-- What one turn of the manifest loop accepts. -/
theorem validateImport_ok_iff {index : Nat} {imp : ImportRequirement} :
    (validateImport image code imports index imp).Ok ↔
      (imp.library.length < 2 ^ 32 ∧ imp.name.length < 2 ^ 32) ∧
        WellFormedImport image code imp ∧
        (∀ previous ∈ imports.take index, ImportsApart previous imp) ∧
        (index ≠ 0 → ∃ previous, imports[index - 1]? = some previous ∧
          ImportBefore previous imp) := by
  have hpositive : ¬ imp.ordinal = 0 ↔ 1 ≤ imp.ordinal.toNat := by
    rw [← UInt32.toNat_inj, UInt32.toNat_zero]; omega
  simp only [validateImport, ok_guard_iff, ne_eq, reduceCtorEq, not_false_eq_true, ok_empty,
    and_true, not_or, not_and_or, not_not]
  simp only [Bool.and_eq_true, decide_eq_true_eq, beq_iff_eq, isInside_iff, isValidLibrary_iff,
    isValidImportName_iff, and_mask_eq_zero_iff 2 (show (3 : UInt32).toNat = 2 ^ 2 - 1 from rfl),
    UInt32.le_iff_toNat_le, hpositive, and_assoc]
  have happart : ¬ ((imports.take index).any fun previous =>
      previous.address == imp.address || previous.recordAddress == imp.recordAddress) = true ↔
      ∀ previous ∈ imports.take index, ImportsApart previous imp := by
    simp [ImportsApart]
  have hbefore : (imports[index - 1]?.any fun previous => importLess previous imp) = true ↔
      ∃ previous, imports[index - 1]? = some previous ∧ ImportBefore previous imp := by
    cases imports[index - 1]? <;> simp [importLess_iff]
  rw [happart, hbefore, ← or_iff_not_imp_left]
  constructor
  · rintro ⟨ho, ha, hl, hn, hl1, hl2, h1, hname, haddr, hrec, hin1, hin2, hform, hord⟩
    have hf := (addressForm_iff ⟨hin1, hin2⟩).1 hform
    exact ⟨by omega, by omega,
      ⟨⟨h1, by omega⟩, hl1, hl2, hname, haddr, hrec, ⟨hin1, hin2⟩, hf.1, hf.2⟩, ha, hord⟩
  · rintro ⟨hl, hn, w, ha, hord⟩
    have hf := (@addressForm_iff image code imp w.record_inside).2
      ⟨w.thunk_inside, w.variable_record⟩
    have ho := w.ordinal
    exact ⟨by omega, ha, by omega, by omega, w.library_nonempty, w.library_characters, ho.1,
      w.name_characters, w.address_aligned, w.record_aligned, w.record_inside.1,
      w.record_inside.2, hf, hord⟩

/-- The loop's pairwise scan is `Pairwise`: turn `index` looks at every earlier import. -/
theorem apart_iff_scan : imports.Pairwise ImportsApart ↔
    ∀ index (h : index < imports.length), ∀ previous ∈ imports.take index,
      ImportsApart previous imports[index] := by
  rw [List.pairwise_iff_getElem]
  constructor
  · intro hp index h previous hm
    obtain ⟨i, hi, rfl⟩ := List.mem_take_iff_getElem.1 hm
    exact hp i index (by omega) h (by omega)
  · intro hs i j hi hj hij
    exact hs j hj _ (List.mem_take_iff_getElem.2 ⟨i, by omega, rfl⟩)

/-- The loop only compares neighbours; transitivity extends that to every pair. -/
theorem ordered_iff_neighbours : imports.Pairwise ImportBefore ↔
    ∀ index (h : index < imports.length), index ≠ 0 →
      ∃ previous, imports[index - 1]? = some previous ∧ ImportBefore previous imports[index] := by
  rw [← List.isChain_iff_pairwise, List.isChain_iff_getElem]
  constructor
  · intro hc index h h0
    obtain ⟨i, rfl⟩ : ∃ i, index = i + 1 := ⟨index - 1, by omega⟩
    exact ⟨imports[i], List.getElem?_eq_getElem (by omega), hc i h⟩
  · intro hs i hi
    obtain ⟨previous, hp, hb⟩ := hs (i + 1) hi (by omega)
    rw [Nat.add_sub_cancel, List.getElem?_eq_getElem (by omega)] at hp
    exact Option.some.inj hp ▸ hb

/-- What the whole manifest loop accepts. -/
theorem manifestLoop_ok_iff :
    (firstRefusal
        (imports.mapIdx fun index imp => validateImport image code imports index imp)).Ok ↔
      ShortStrings imports ∧ (∀ imp ∈ imports, WellFormedImport image code imp) ∧
        imports.Pairwise ImportsApart ∧ imports.Pairwise ImportBefore := by
  rw [firstRefusal_ok_iff, apart_iff_scan, ordered_iff_neighbours, List.forall_mem_iff_getElem,
    ShortStrings, List.forall_mem_iff_getElem, List.forall_mem_iff_getElem]
  simp only [List.length_mapIdx, List.getElem_mapIdx, validateImport_ok_iff]
  constructor
  · intro h
    exact ⟨fun index hi => (h index hi).1, fun index hi => (h index hi).2.1,
      fun index hi => (h index hi).2.2.1, fun index hi => (h index hi).2.2.2⟩
  · rintro ⟨hs, hw, ha, hb⟩ index hi
    exact ⟨hs index hi, hw index hi, ha index hi, hb index hi⟩

end

/-! ## The validators -/

/-- The modules the validator accepts. -/
theorem validateModule_accepts_iff (module : GuestModule) :
    (validateModule module).Ok ↔ WellFormedModule module ∧ ShortStrings module.importManifest := by
  have hsize : ¬ module.descriptor.code.size = 0 ↔ 0 < module.descriptor.code.size.toNat := by
    rw [← UInt32.toNat_inj, UInt32.toNat_zero]; omega
  simp only [validateModule, ok_guard_iff, ok_handOn_iff, ne_eq, reduceCtorEq, not_false_eq_true,
    ok_empty, and_true, not_or, not_not, manifestLoop_ok_iff, all_zero_iff, isInside_iff, hsize,
    and_mask_eq_zero_iff 2 (show (3 : UInt32).toNat = 2 ^ 2 - 1 from rfl),
    and_mask_eq_zero_iff 16 (show (kGuestImageBaseAlignment - 1).toNat = 2 ^ 16 - 1 from rfl),
    UInt32.lt_iff_toNat_lt, not_lt, gt_iff_lt]
  constructor
  · rintro ⟨h1, h2, h3, h4, h5, ⟨c1, c2, c3, c4, c5⟩, ⟨e1, e2⟩, h8, ⟨hs, m1, m2, m3⟩, h10⟩
    exact ⟨⟨h1, h5, h2, h4, h3, c1, ⟨c2, c3⟩, ⟨c4, c5⟩, e1, e2, h8, m1, m2, m3, h10⟩, hs⟩
  · rintro ⟨w, hs⟩
    exact ⟨w.digest_sealed, w.image_size, w.image_end, w.base_aligned, w.image_digest,
      ⟨w.code_nonempty, w.code_aligned.1, w.code_aligned.2, w.code_inside.1, w.code_inside.2⟩,
      ⟨w.entry_aligned, w.entry_inside⟩, w.import_count, ⟨hs, w.imports, w.apart, w.ordered⟩,
      w.manifest_digest⟩

theorem wellFormed_of_ok {module : GuestModule} (h : (validateModule module).Ok) :
    WellFormedModule module := ((validateModule_accepts_iff module).1 h).1

/-- **Validation is exact.** For strings below 4 GiB the validator accepts a
module exactly when it is well formed. -/
theorem validateModule_ok_iff (module : GuestModule) (hs : ShortStrings module.importManifest) :
    (validateModule module).Ok ↔ WellFormedModule module := by
  rw [validateModule_accepts_iff]
  exact and_iff_left hs

section Synthetic

def syntheticImage : List UInt8 := List.replicate 32 0

def syntheticIdentity : ImageIdentity := ⟨hashBytes syntheticImage, 0x82000000, 32, 0x82000000⟩

def syntheticCode : CodeRange := ⟨0x82000000, 32⟩

/-- A sealed 32-byte image at `0x82000000`, all of it code, with a given manifest. -/
def syntheticModule (imports : List ImportRequirement) : GuestModule where
  descriptor := ⟨syntheticIdentity, syntheticCode, imports.length, hashImportManifest imports⟩
  imageBytes := syntheticImage
  importManifest := imports

/-- A thunk in the first half of the image and a variable record behind it. -/
def syntheticImports : List ImportRequirement :=
  [{ kind := .function, library := [0x78, 0x61, 0x6d], ordinal := 1, name := [0x41],
     address := 0x82000000, recordAddress := 0x82000014 },
   { kind := ImportKind.variable, library := [0x78, 0x61, 0x6d], ordinal := 2, name := [0x42],
     address := 0x82000010, recordAddress := 0x82000010 }]

theorem syntheticImage_digest : hashBytes syntheticImage ≠ Vector.replicate 32 0 :=
  hashBytes_ne_zero (by decide +kernel)

/-- The synthetic module is accepted with every manifest its loop accepts. -/
theorem syntheticModule_accepted {imports : List ImportRequirement}
    (h : (firstRefusal (imports.mapIdx fun index imp =>
      validateImport syntheticIdentity syntheticCode imports index imp)).Ok) :
    (validateModule (syntheticModule imports)).Ok := by
  obtain ⟨hs, hw, ha, hb⟩ := manifestLoop_ok_iff.1 h
  have hbase : syntheticIdentity.base.toNat % 65536 = 0 := by decide
  have hend : syntheticIdentity.imageEnd ≤ 2 ^ 32 := by decide
  have hcode : syntheticIdentity.base.toNat ≤ syntheticCode.base.toNat ∧
      syntheticCode.codeEnd ≤ syntheticIdentity.imageEnd := by decide
  have hentry : syntheticCode.Contains syntheticIdentity.entryPoint.toNat := by decide
  exact (validateModule_accepts_iff _).2 ⟨⟨syntheticImage_digest, rfl, rfl, hbase, hend,
    (by decide : 0 < syntheticCode.size.toNat),
    (by decide : syntheticCode.base.toNat % 4 = 0 ∧ syntheticCode.size.toNat % 4 = 0), hcode,
    (by decide : syntheticIdentity.entryPoint.toNat % 4 = 0), hentry, rfl, hw, ha, hb, rfl⟩, hs⟩

theorem syntheticImports_accepted : (validateModule (syntheticModule syntheticImports)).Ok :=
  syntheticModule_accepted (by decide)

theorem validateModule_ok_iff_synthetic :
    WellFormedModule (syntheticModule syntheticImports) :=
  (validateModule_ok_iff (syntheticModule syntheticImports) (by decide)).1
    syntheticImports_accepted

end Synthetic

/-- A binding with the identity of its import and the callbacks of its kind. -/
structure ShapedBinding (imp : ImportRequirement) (binding : ImportBinding) : Prop where
  library : binding.library = imp.library
  ordinal : binding.ordinal = imp.ordinal
  kind : binding.kind = imp.kind
  function_callbacks : imp.kind = .function → binding.functionHandler.isSome ∧
    binding.variableResolver.isNone ∧ binding.variableResolutionContext = 0
  variable_callbacks : imp.kind = ImportKind.variable → binding.functionHandler.isNone ∧
    binding.functionContext = 0 ∧ binding.variableResolver.isSome

theorem validateBinding_ok_iff (imp : ImportRequirement) (binding : ImportBinding) :
    (validateBinding imp binding).Ok ↔ ShapedBinding imp binding := by
  simp only [validateBinding, ok_guard_iff, ne_eq, reduceCtorEq, not_false_eq_true, ok_empty,
    and_true, not_or, not_and_or, not_not, Bool.and_eq_true, beq_iff_eq, and_assoc]
  constructor
  · rintro ⟨hl, ho, hk, hc⟩
    refine ⟨hl, ho, hk, fun h => ?_, fun h => ?_⟩
    · rcases hc with hc | hc
      · exact hc.2
      · rw [hk, h] at hc; cases hc.1
    · rcases hc with hc | hc
      · rw [hk, h] at hc; cases hc.1
      · exact hc.2
  · rintro ⟨hl, ho, hk, hf, hv⟩
    refine ⟨hl, ho, hk, ?_⟩
    cases h : imp.kind with
    | function => exact .inl ⟨hk.trans h, hf h⟩
    | «variable» => exact .inr ⟨hk.trans h, hv h⟩

/-- The bindings the adapter may hand over: one for each import, in order. -/
theorem validateImports_ok_iff (module : GuestModule) (bindings : List ImportBinding) :
    (validateImports module bindings).Ok ↔
      List.Forall₂ ShapedBinding module.importManifest bindings := by
  simp only [validateImports, ok_guard_iff, ne_eq, reduceCtorEq, not_false_eq_true, not_not,
    firstRefusal_ok_iff, List.forall_mem_iff_getElem, List.length_zipWith, List.getElem_zipWith,
    validateBinding_ok_iff, List.forall₂_iff_get]
  constructor
  · rintro ⟨hl, h⟩
    exact ⟨hl.symm, fun i h1 h2 => h i (by omega)⟩
  · rintro ⟨hl, h⟩
    exact ⟨hl.symm, fun i hi => h i (by omega) (by omega)⟩

end X360Port
