import X360Port.Digest

/-!
# Fail-closed module and import validation

`validateModule` checks one untrusted module and `validateImports` the
adapter's bindings against its manifest. Each answers a `ValidationResult`;
the first refused clause decides the error and its detail. Both run before
any guest memory is committed, and everything the loader does afterwards
relies on what they accepted.
-/

namespace X360Port

/-- A host pointer the model never follows; zero is the null pointer. -/
abbrev Pointer := UInt64

/-- A title function bound to a function import, known by its entry. -/
structure ImportFunctionHandler where
  entry : Nat
  deriving DecidableEq, Repr

/-- A title function that resolves a variable import. It is called at most
once for each binding, so its answer is a function of the binding. -/
abbrev ImportVariableResolver := Pointer → GuestAddress

structure ImportBinding where
  library : StringView
  ordinal : UInt32 := 0
  kind : ImportKind := .function
  functionHandler : Option ImportFunctionHandler := none
  functionContext : Pointer := 0
  variableResolver : Option ImportVariableResolver := none
  variableResolutionContext : Pointer := 0

inductive ValidationError where
  | none
  | invalidImageDigest
  | imageSizeMismatch
  | imageBaseMisaligned
  | imageAddressOverflow
  | imageDigestMismatch
  | invalidCodeRange
  | entryPointOutsideCode
  | importCountMismatch
  | invalidImport
  | importOrdinalOutOfRange
  | importAddressConflict
  | unsortedImportManifest
  | importManifestDigestMismatch
  | importBindingCountMismatch
  | importBindingMismatch
  | importBindingKindMismatch
  | importBindingCallbackMismatch
  deriving DecidableEq, Repr

def ValidationError.toString : ValidationError → String
  | none => "none"
  | invalidImageDigest => "invalid-image-digest"
  | imageSizeMismatch => "image-size-mismatch"
  | imageBaseMisaligned => "image-base-misaligned"
  | imageAddressOverflow => "image-address-overflow"
  | imageDigestMismatch => "image-digest-mismatch"
  | invalidCodeRange => "invalid-code-range"
  | entryPointOutsideCode => "entry-point-outside-code"
  | importCountMismatch => "import-count-mismatch"
  | invalidImport => "invalid-import"
  | importOrdinalOutOfRange => "import-ordinal-out-of-range"
  | importAddressConflict => "import-address-conflict"
  | unsortedImportManifest => "unsorted-import-manifest"
  | importManifestDigestMismatch => "import-manifest-digest-mismatch"
  | importBindingCountMismatch => "import-binding-count-mismatch"
  | importBindingMismatch => "import-binding-mismatch"
  | importBindingKindMismatch => "import-binding-kind-mismatch"
  | importBindingCallbackMismatch => "import-binding-callback-mismatch"

structure ValidationResult where
  error : ValidationError := .none
  detail : String := ""
  deriving DecidableEq, Repr

/-- No clause refused. -/
def ValidationResult.Ok (result : ValidationResult) : Prop := result.error = .none

instance ValidationResult.decidableOk (result : ValidationResult) : Decidable result.Ok := by
  unfold ValidationResult.Ok; infer_instance

def refuse (error : ValidationError) (detail : String) : ValidationResult := ⟨error, detail⟩

/-- The result of a loop that returns at its first refusal. -/
def firstRefusal : List ValidationResult → ValidationResult
  | [] => {}
  | result :: rest => if result.Ok then firstRefusal rest else result

/-! ## The clauses -/

def isInside (address : GuestAddress) (range : CodeRange) : Bool :=
  decide (range.base.toNat ≤ address.toNat ∧ address.toNat < range.codeEnd)

/-- One of `a-z`, `A-Z`, `0-9`, `_`, `-`, `.`. -/
def isPortableKeyCharacter (character : UInt8) : Bool :=
  (decide (0x61 ≤ character) && decide (character ≤ 0x7a)) ||
    (decide (0x41 ≤ character) && decide (character ≤ 0x5a)) ||
    (decide (0x30 ≤ character) && decide (character ≤ 0x39)) ||
    character == 0x5f || character == 0x2d || character == 0x2e

def isValidLibrary (library : StringView) : Bool :=
  if library.isEmpty then false else library.all isPortableKeyCharacter

def isValidImportName (name : StringView) : Bool :=
  name.all fun value => decide (0x21 ≤ value) && decide (value ≤ 0x7e)

def importLess (left right : ImportRequirement) : Bool :=
  if left.library ≠ right.library then decide (left.library < right.library)
  else decide (left.ordinal < right.ordinal)

/-- One turn of the manifest loop: the import at `index`. -/
def validateImport (image : ImageIdentity) (code : CodeRange) (imports : List ImportRequirement)
    (index : Nat) (imp : ImportRequirement) : ValidationResult :=
  let recordInsideImage := decide (image.base ≤ imp.recordAddress) &&
    decide (imp.recordAddress.toNat + 4 ≤ image.imageEnd)
  let functionAddress := imp.kind == .function && isInside imp.address code &&
    decide (imp.address.toNat + 16 ≤ code.codeEnd)
  let variableAddress := imp.kind == ImportKind.variable && imp.address == imp.recordAddress &&
    decide (image.base ≤ imp.address) && decide (imp.address.toNat < image.imageEnd)
  if imp.ordinal.toNat > 65535 then
    refuse .importOrdinalOutOfRange "import ordinal does not fit Xenia's export identity"
  else if (imports.take index).any fun previous =>
      previous.address == imp.address || previous.recordAddress == imp.recordAddress then
    refuse .importAddressConflict "multiple imports claim the same guest or record address"
  else if imp.library.length > 2 ^ 32 - 1 ∨ imp.name.length > 2 ^ 32 - 1 ∨
      ¬ isValidLibrary imp.library ∨ imp.ordinal = 0 ∨ ¬ isValidImportName imp.name ∨
      imp.address &&& 3 ≠ 0 ∨ imp.recordAddress &&& 3 ≠ 0 ∨ ¬ recordInsideImage ∨
      (¬ functionAddress ∧ ¬ variableAddress) then
    refuse .invalidImport "import contains invalid identity, kind, or guest addresses"
  else if index ≠ 0 ∧ ¬ imports[index - 1]?.any fun previous => importLess previous imp then
    refuse .unsortedImportManifest
      "import manifest must be strictly sorted by library and ordinal"
  else {}

def validateModule (module : GuestModule) : ValidationResult :=
  let descriptor := module.descriptor
  let image := module.imageBytes
  let imageEnd := descriptor.image.imageEnd
  let code := descriptor.code
  let imports := module.importManifest
  if descriptor.image.sha256.all fun byte => byte == 0 then
    refuse .invalidImageDigest "module image identity has an empty SHA-256 digest"
  else if image.length ≠ descriptor.image.size.toNat then
    refuse .imageSizeMismatch "module image byte count does not match its sealed size"
  else if imageEnd > 2 ^ 32 then
    refuse .imageAddressOverflow "module image exceeds the Xbox 360 32-bit address space"
  else if descriptor.image.base &&& (kGuestImageBaseAlignment - 1) ≠ 0 then
    refuse .imageBaseMisaligned
      "module image base is not aligned to Xenia's 64 KiB guest-image page"
  else if hashBytes image ≠ descriptor.image.sha256 then
    refuse .imageDigestMismatch "module image bytes do not match the sealed SHA-256 digest"
  else if code.size = 0 ∨ code.base &&& 3 ≠ 0 ∨ code.size &&& 3 ≠ 0 ∨
      code.base < descriptor.image.base ∨ code.codeEnd > imageEnd then
    refuse .invalidCodeRange "code range must be aligned, non-empty, and contained by the image"
  else if descriptor.image.entryPoint &&& 3 ≠ 0 ∨
      ¬ isInside descriptor.image.entryPoint code then
    refuse .entryPointOutsideCode "image entry point is not an aligned address in the code range"
  else if imports.length ≠ descriptor.importCount then
    refuse .importCountMismatch "import-manifest count does not match the sealed count"
  else
    let manifest := firstRefusal
      (imports.mapIdx fun index imp => validateImport descriptor.image code imports index imp)
    if ¬ manifest.Ok then manifest
    else if hashImportManifest imports ≠ descriptor.importManifestSha256 then
      refuse .importManifestDigestMismatch "import manifest does not match the sealed SHA-256"
    else {}

/-- One turn of the binding loop. -/
def validateBinding (required : ImportRequirement) (binding : ImportBinding) : ValidationResult :=
  let validFunction := binding.kind == .function && binding.functionHandler.isSome &&
    binding.variableResolver.isNone && binding.variableResolutionContext == 0
  let validVariable := binding.kind == ImportKind.variable && binding.functionHandler.isNone &&
    binding.functionContext == 0 && binding.variableResolver.isSome
  if binding.library ≠ required.library ∨ binding.ordinal ≠ required.ordinal then
    refuse .importBindingMismatch
      "adapter import binding does not match the manifest at the same index"
  else if binding.kind ≠ required.kind then
    refuse .importBindingKindMismatch "adapter import binding kind does not match the manifest"
  else if ¬ validFunction ∧ ¬ validVariable then
    refuse .importBindingCallbackMismatch "adapter import binding has the wrong callback shape"
  else {}

def validateImports (module : GuestModule) (bindings : List ImportBinding) : ValidationResult :=
  let required := module.importManifest
  if bindings.length ≠ required.length then
    refuse .importBindingCountMismatch
      "adapter binding count does not exactly cover the import manifest"
  else firstRefusal (required.zipWith validateBinding bindings)

/-! ## Reading an accepting run -/

@[simp] theorem ok_empty : ({} : ValidationResult).Ok := rfl

theorem not_ok_refuse {error : ValidationError} {detail : String} (h : error ≠ .none) :
    ¬ (refuse error detail).Ok := h

/-- A guarded refusal is passed exactly when its guard is false and the rest accepts. -/
theorem ok_guard_iff {c : Prop} [Decidable c] {error : ValidationError} {detail : String}
    {rest : ValidationResult} (h : error ≠ .none) :
    (if c then refuse error detail else rest).Ok ↔ ¬ c ∧ rest.Ok := by
  by_cases hc : c
  · simp [hc, not_ok_refuse h]
  · simp [hc]

/-- A result handed on when it refuses. -/
theorem ok_handOn_iff {result rest : ValidationResult} :
    (if ¬ result.Ok then result else rest).Ok ↔ result.Ok ∧ rest.Ok := by
  by_cases h : result.Ok
  · simp [h]
  · simp [h]

theorem firstRefusal_ok_iff (results : List ValidationResult) :
    (firstRefusal results).Ok ↔ ∀ result ∈ results, result.Ok := by
  induction results with
  | nil => simp [firstRefusal]
  | cons result rest ih =>
    rw [List.forall_mem_cons, ← ih, firstRefusal]
    by_cases h : result.Ok
    · simp [h]
    · simp [h]

/-- Masking low bits off is taking a remainder. -/
theorem and_mask_eq_zero_iff {a mask : UInt32} (k : Nat) (h : mask.toNat = 2 ^ k - 1) :
    a &&& mask = 0 ↔ a.toNat % 2 ^ k = 0 := by
  rw [← UInt32.toNat_inj, UInt32.toNat_and, h, Nat.and_two_pow_sub_one_eq_mod]
  rfl

theorem isInside_iff (address : GuestAddress) (range : CodeRange) :
    isInside address range = true ↔ range.Contains address.toNat := by
  simp [isInside, CodeRange.Contains]

end X360Port
