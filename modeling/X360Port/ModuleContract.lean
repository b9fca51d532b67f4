import Mathlib.Algebra.Ring.Nat

/-!
# The module contract

The sealed description of one guest module: its image identity, its code
range and its import manifest. A `GuestModule` is what the title's adapter
hands to the runtime; every field of it is untrusted until `validateModule`
accepts the whole.

Guest addresses are 32-bit words. A `StringView` is the bytes of the string
it views, so equality and order are those of the bytes. Sums the source forms
in 64 bits are `Nat` sums here: two 32-bit summands cannot wrap one.
-/

namespace X360Port

abbrev GuestAddress := UInt32

abbrev Sha256Digest := Vector UInt8 32

abbrev StringView := List UInt8

def kGuestImageBaseAlignment : UInt32 := 64 * 1024

structure ImageIdentity where
  sha256 : Sha256Digest := Vector.replicate 32 0
  base : GuestAddress := 0
  size : UInt32 := 0
  entryPoint : GuestAddress := 0
  deriving DecidableEq, Repr

structure CodeRange where
  base : GuestAddress := 0
  size : UInt32 := 0
  deriving DecidableEq, Repr

inductive ImportKind where
  | function
  | «variable»
  deriving DecidableEq, Repr

/-- The underlying value of the enumeration. -/
def ImportKind.code : ImportKind → UInt32
  | .function => 0
  | ImportKind.variable => 1

structure ImportRequirement where
  kind : ImportKind := .function
  library : StringView
  ordinal : UInt32 := 0
  name : StringView
  address : GuestAddress := 0
  recordAddress : GuestAddress := 0
  deriving DecidableEq, Repr

structure ModuleDescriptor where
  image : ImageIdentity
  code : CodeRange
  importCount : Nat := 0
  importManifestSha256 : Sha256Digest := Vector.replicate 32 0
  deriving DecidableEq, Repr

structure GuestModule where
  descriptor : ModuleDescriptor
  imageBytes : List UInt8
  importManifest : List ImportRequirement

/-- One past the last address of a code range. -/
def CodeRange.codeEnd (code : CodeRange) : Nat := code.base.toNat + code.size.toNat

/-- One past the last address of an image. -/
def ImageIdentity.imageEnd (image : ImageIdentity) : Nat := image.base.toNat + image.size.toNat

/-- The range's addresses. -/
def CodeRange.Contains (code : CodeRange) (a : Nat) : Prop :=
  code.base.toNat ≤ a ∧ a < code.codeEnd

instance (code : CodeRange) (a : Nat) : Decidable (code.Contains a) := by
  unfold CodeRange.Contains; infer_instance

/-- The text of a string view in an error detail. -/
def StringView.text (view : StringView) : String :=
  String.ofList (view.map fun c => Char.ofNat c.toNat)

end X360Port
