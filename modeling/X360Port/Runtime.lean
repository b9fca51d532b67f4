import X360Port.ExecutableInvalidation
import X360Port.OverrideDispatch
import X360Port.RuntimeImports

/-!
# The runtime context

`loadModule` takes one guest image from validation to an armed write watch,
and `destroy` takes the context down. In between the context answers by its
fields: `module`, `codeRange` and `invalidation` are what the other operations
look at. What Xenia answers to one load comes with the call (`LoadCall`).

`mapImage` is the part of the source's `LoadModule` that runs with the image
range allocated: its guard releases the range unless the call committed it.
`heapCalls` is the history of what was allocated and released.
-/

namespace X360Port

open Library

/-- The calls on an image's heap that had an effect on the image range. -/
inductive HeapCall where
  | allocFixed (base : GuestAddress)
  | release (base : GuestAddress)
  deriving DecidableEq, Repr

structure Runtime where
  loadFailed : Bool := false
  /-- The export resolver and the guest memory. -/
  guest : Attachment
  imports : Option RuntimeImports := none
  module : Bool := false
  codeRange : CodeRange := {}
  imageAddress : GuestAddress := 0
  invalidation : Option ExecutableInvalidation := none
  overrides : OverrideDispatch := {}
  statistics : JitStatistics := {}
  cachedFunctions : List CachedFunction := []
  heapCalls : List HeapCall := []

inductive AddModuleAnswer where
  | accepted
  | refused
  | threw
  deriving DecidableEq, Repr

/-- One call of `LoadModule`: its arguments, then what Xenia answers to it. -/
structure LoadCall where
  module : GuestModule
  bindings : List ImportBinding
  allocFixed : Bool := true
  symbols : XeniaSymbols
  addModule : AddModuleAnswer := .accepted
  registered : Bool := true
  enabled : Bool := true

namespace Runtime

/-- A context as `Create` hands it out. -/
def fresh (memory : Memory UInt8) : Runtime where
  guest := { memory := memory }
  overrides := OverrideDispatch.bind {}

def memory (s : Runtime) : Memory UInt8 := s.guest.memory

/-! ## Loading -/

/-- The image copied to its guest range. -/
def imagePatch (module : GuestModule) : Patch UInt8 :=
  ⟨module.descriptor.image.base.toNat, module.imageBytes⟩

def copyImage (s : Runtime) (module : GuestModule) : Runtime :=
  { s with guest := { s.guest with memory := (imagePatch module).write s.guest.memory } }

/-- `LoadModule` once the module is registered; the last component says whether the range
was committed. -/
def armModule (s : Runtime) (call : LoadCall) : Runtime × CallOutcome × Bool :=
  let descriptor := call.module.descriptor
  let (invalidation, watchFailure) :=
    ({} : ExecutableInvalidation).arm descriptor.code call.registered call.enabled
  let s : Runtime :=
    { s with
      module := true
      codeRange := descriptor.code
      imageAddress := descriptor.image.base
      invalidation := some invalidation }
  if ¬ watchFailure.Ok then ({ s with loadFailed := true }, .returned watchFailure, false)
  else (s, .returned {}, true)

def registerModule (s : Runtime) (call : LoadCall) : Runtime × CallOutcome × Bool :=
  match call.addModule with
  | .threw => ({ s with loadFailed := true }, .threw, false)
  | .refused => ({ s with loadFailed := true }, .returned ⟨.moduleRegistrationFailed,
      "Xenia refused the authenticated RawModule registration"⟩, false)
  | .accepted => s.armModule call

def attachImports (s : Runtime) (call : LoadCall) (imports : RuntimeImports) :
    Runtime × CallOutcome × Bool :=
  let s := { s with imports := some imports }
  match imports.attach call.symbols s.guest with
  | (guest, .threw) => ({ s with guest := guest, loadFailed := true }, .threw, false)
  | (guest, .returned failure) =>
    if ¬ failure.Ok then
      ({ s with guest := guest, loadFailed := true }, .returned failure, false)
    else { s with guest := guest }.registerModule call

/-- The image range is allocated. -/
def taken (s : Runtime) (base : GuestAddress) : Runtime :=
  { s with heapCalls := s.heapCalls ++ [.allocFixed base] }

/-- The image range is released. -/
def givenBack (s : Runtime) (base : GuestAddress) : Runtime :=
  { s with heapCalls := s.heapCalls ++ [.release base] }

/-- The destructor of the image reservation, after what ran under it. -/
def endReservation (base : GuestAddress) : Runtime × CallOutcome × Bool → Runtime × CallOutcome
  | (s, outcome, true) => (s, outcome)
  | (s, outcome, false) => (s.givenBack base, outcome)

/-- From the allocation on. -/
def mapImage (lookupHeap : GuestAddress → Bool) (s : Runtime) (call : LoadCall)
    (imports : RuntimeImports) : Runtime × CallOutcome :=
  let base := call.module.descriptor.image.base
  if ¬ lookupHeap base ∨ ¬ call.allocFixed then
    (s, .returned ⟨.imageAllocationFailed,
      "Xenia refused the authenticated image's exact guest range"⟩)
  else
    endReservation base (((s.taken base).copyImage call.module).attachImports call imports)

def validationFailure (error : RuntimeError) (validation : ValidationResult) : RuntimeFailure :=
  ⟨error, validation.error.toString ++ ": " ++ validation.detail⟩

def loadModule (lookupHeap : GuestAddress → Bool) (s : Runtime) (call : LoadCall) :
    Except Undefined (Runtime × CallOutcome) :=
  if s.loadFailed then
    .ok (s, .returned ⟨.loadStateInvalid,
      "a previous import/module attachment failed; recreate the context"⟩)
  else if s.module then
    .ok (s, .returned ⟨.moduleAlreadyLoaded,
      "a RuntimeContext owns exactly one authenticated guest image"⟩)
  else if ¬ (validateModule call.module).Ok then
    .ok (s, .returned (validationFailure .moduleValidationFailed (validateModule call.module)))
  else if ¬ (validateImports call.module call.bindings).Ok then
    .ok (s, .returned (validationFailure .importValidationFailed
      (validateImports call.module call.bindings)))
  else
    match RuntimeImports.create call.module.importManifest call.bindings with
    | .error e => .error e
    | .ok staged =>
      match staged.imports with
      | none => .ok (s, .returned staged.failure)
      | some imports =>
        if ¬ staged.failure.Ok then .ok (s, .returned staged.failure)
        else .ok (s.mapImage lookupHeap call imports)

/-- The destructor, as far as the heap is concerned. -/
def destroy (lookupHeap : GuestAddress → Bool) (s : Runtime) : List HeapCall :=
  if s.imageAddress ≠ 0 ∧ lookupHeap s.imageAddress then
    (s.givenBack s.imageAddress).heapCalls
  else s.heapCalls

/-! ## What reads a loaded module -/

def isInCodeRange (s : Runtime) (address : GuestAddress) : Bool :=
  s.module && isInside address s.codeRange

def installOverride (s : Runtime) (address : GuestAddress)
    (handler : Option NativeOverrideHandler) (context : Pointer) (accepted : Bool) :
    Runtime × RuntimeFailure :=
  if ¬ s.module then
    (s, ⟨.loadStateInvalid, "native overrides require an authenticated image to be loaded"⟩)
  else
    let (overrides, failure) := s.overrides.install address handler context s.codeRange accepted
    ({ s with overrides := overrides }, failure)

def removeOverride (s : Runtime) (address : GuestAddress) (accepted : Bool) :
    Runtime × RuntimeFailure :=
  let (overrides, failure) := s.overrides.remove address accepted
  ({ s with overrides := overrides }, failure)

def notifyExecutableWrite (s : Runtime) (address : GuestAddress) (size : UInt32) :
    Runtime × RuntimeFailure :=
  match s.invalidation with
  | none =>
    (s, ⟨.loadStateInvalid, "executable writes require an authenticated image to be loaded"⟩)
  | some _ =>
    let (n, failure) := notify s.codeRange address size
      { cache := s.cachedFunctions
        translationInvalidations := s.statistics.translationInvalidations }
    ({ s with
        cachedFunctions := n.cache
        statistics :=
          { s.statistics with translationInvalidations := n.translationInvalidations } }, failure)

end Runtime

end X360Port
