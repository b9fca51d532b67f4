import X360Port.GuestThreadContext
import X360Port.GuestVirtualMemory.SharedHeap
import X360Port.Runtime
import X360Port.SystemSession

/-!
# One memory in a process

Xenia maps guest memory at one fixed place, so a process may have one
`xe::Memory` at a time. Runtime contexts and system sessions take a lease on it
before they make theirs, and give it back when theirs is gone.

`XeniaProcess` has any number of them, each on a thread of its own. What an
owner does between two accesses of the flag that they share is one step, and the
steps of different owners come in any order. A context that is composed loads a
module, and the title and the guest call the services over its memory.
-/

namespace X360Port

open Library

structure XeniaInstanceLease where
  held : Bool := false
  deriving DecidableEq, Repr

/-- The lease and the flag afterwards, and the answer. -/
def XeniaInstanceLease.acquire (lease : XeniaInstanceLease) (active : Bool) :
    XeniaInstanceLease × Bool × Bool :=
  if lease.held then (lease, active, true)
  else if active then (⟨false⟩, active, false)
  else (⟨true⟩, true, true)

/-- The destructor, on the flag. -/
def XeniaInstanceLease.release (lease : XeniaInstanceLease) (active : Bool) : Bool :=
  if lease.held then false else active

/-! ## An owner -/

inductive OwnerPhase where
  | constructed
  | acquired
  /-- `Initialize` has succeeded. -/
  | composed
  /-- `Initialize` has failed; the object goes next. -/
  | refused
  /-- The Xenia owners are gone, the lease is not. -/
  | tornDown
  | gone
  deriving DecidableEq, Repr

/-- A `SystemSession::Impl` where `session` is there, and a `RuntimeContext::Impl` otherwise. A
session has a memory as long as it has an emulator. -/
structure XeniaOwner (η : Type) where
  session : Option SystemSession := none
  phase : OwnerPhase := .constructed
  lease : XeniaInstanceLease := {}
  memory : Option (XeniaMemory η) := none
  guestMemory : GuestMemory := {}
  thread : GuestThreadContext := {}
  /-- What the loads have left; its bytes are the memory's as of the last one. -/
  runtime : Runtime := .fresh fun _ => 0
  /-- What `Initialize` answered. -/
  failure : RuntimeFailure := {}

inductive OwnerStep where
  /-- `Initialize` up to the exchange. -/
  | acquireContext
  | acquireSession (platform : Platform)
  /-- The rest of it, by what Xenia answers. -/
  | composeContext (mapped setUp : Bool)
  | composeSession (platform : Platform)
  /-- The title or the guest calls a service, or stores. -/
  | shared (call : SharedCall)
  | loadModule (call : LoadCall)
  | launch (platform : Platform) (path : LaunchPath)
  /-- The destructor's body. -/
  | tearDown
  /-- The members' destructors, the lease's last. -/
  | leave

namespace XeniaOwner

section

variable {η : Type} (X : Xenia η) (fresh : XeniaMemory η)

def acquireLease (o : XeniaOwner η) (active : Bool) : XeniaOwner η × Bool :=
  let (lease, active, acquired) := o.lease.acquire active
  if acquired then ({ o with lease := lease, phase := .acquired }, active)
  else
    ({ o with
      lease := lease
      phase := .refused
      failure := ⟨.instanceAlreadyActive,
        "Xenia guest memory uses a process-wide fixed mapping; only one " ++
          "x360port runtime or system session may be active"⟩ }, active)

/-- A session looks at its configuration first. -/
def acquireSession (platform : Platform) (o : XeniaOwner η) (s : SystemSession) (active : Bool) :
    XeniaOwner η × Bool :=
  let failure := s.config.validateConfig platform
  if ¬ failure.Ok then ({ o with phase := .refused, failure := failure }, active)
  else o.acquireLease active

/-- `RuntimeContext::Impl::Initialize` from `memory_` on. -/
def composeContext (mapped setUp : Bool) (o : XeniaOwner η) : XeniaOwner η :=
  let o := { o with memory := some fresh }
  if ¬ mapped then
    { o with
      phase := .refused
      failure := ⟨.memoryInitializationFailed,
        "Xenia Memory::Initialize refused its guest address-space mapping"⟩ }
  else
    let o := { o with guestMemory := o.guestMemory.initializeMemory }
    if ¬ setUp then
      { o with
        phase := .refused
        failure := ⟨.backendInitializationFailed,
          "Xenia Processor::Setup refused the host dynarec backend"⟩ }
    else
      let (thread, memory, failure) := o.thread.initializeThread X fresh
      { o with
        thread := thread
        memory := some memory
        phase := if failure.Ok then .composed else .refused
        failure := failure }

def composeSession (platform : Platform) (o : XeniaOwner η) (s : SystemSession) : XeniaOwner η :=
  let (s, failure) := s.composeConsole { platform with acquired := true }
  { o with
    session := some s
    memory := if s.emulator then some fresh else none
    phase := if failure.Ok then .composed else .refused
    failure := failure }

/-- The image's exact range, allocated. -/
def mapImage (m : XeniaMemory η) (image : ImageIdentity) : Bool × XeniaMemory η :=
  match X.lookupHeap image.base with
  | none => (false, m)
  | some heap =>
    X.allocFixed heap image.base image.size 0 (memoryAllocationReserve ||| memoryAllocationCommit)
      (memoryProtectRead ||| memoryProtectWrite) m

def releaseImage (m : XeniaMemory η) (address : GuestAddress) : XeniaMemory η :=
  match X.lookupHeap address with
  | none => m
  | some heap => (X.release heap address m).2

/-- A call that a load has made on the image's heap. The load's bytes are there before the
reservation is given up. -/
def heapCall (image : ImageIdentity) (bytes : Memory UInt8) (m : XeniaMemory η) :
    HeapCall → XeniaMemory η
  | .allocFixed _ => { (mapImage X m image).2 with bytes := bytes }
  | .release base => releaseImage X m base

/-- `Runtime.loadModule` over Xenia's heaps: they answer the allocation, and the calls that the
load makes are made on them. An allocation that is refused changes nothing. -/
def loadModule (o : XeniaOwner η) (m : XeniaMemory η) (call : LoadCall) : Option (XeniaOwner η) :=
  let image := call.module.descriptor.image
  let before := { o.runtime with guest := { o.runtime.guest with memory := m.bytes } }
  match before.loadModule (fun address => (X.lookupHeap address).isSome)
      { call with allocFixed := (mapImage X m image).1 } with
  | .error _ => none
  | .ok (loaded, _) =>
    let calls := loaded.heapCalls.drop o.runtime.heapCalls.length
    some { o with
      runtime := loaded
      memory := some (calls.foldl (heapCall X image loaded.memory) m) }

/-- The thread's blocks go first, then the image, then the title's blocks, then the memory. -/
def tearDown (o : XeniaOwner η) : XeniaOwner η × Option (XeniaMemory η) :=
  let memory := o.memory.map fun m =>
    let (_, m) := o.thread.reset X m
    let m := if o.runtime.imageAddress ≠ 0 then releaseImage X m o.runtime.imageAddress else m
    (o.guestMemory.reset X m).2
  ({ o with memory := none, thread := {}, guestMemory := {}, phase := .tornDown }, memory)

/-- What a step leaves: the owner and the flag, a memory that is no more, and the status that a
launched session's destructor ends the process with. -/
structure Outcome (η : Type) where
  owner : XeniaOwner η
  active : Bool
  destroyed : Option (XeniaMemory η) := none
  exitStatus : Option Nat := none

def step (o : XeniaOwner η) (active : Bool) : OwnerStep → Option (Outcome η)
  | .acquireContext =>
    if o.phase = .constructed ∧ o.session = none then
      let (o, active) := o.acquireLease active
      some ⟨o, active, none, none⟩
    else none
  | .acquireSession platform =>
    match o.session with
    | some s =>
      if o.phase = .constructed then
        let (o, active) := o.acquireSession platform s active
        some ⟨o, active, none, none⟩
      else none
    | none => none
  | .composeContext mapped setUp =>
    if o.phase = .acquired ∧ o.session = none then
      some ⟨o.composeContext X fresh mapped setUp, active, none, none⟩
    else none
  | .composeSession platform =>
    match o.session with
    | some s =>
      if o.phase = .acquired then some ⟨o.composeSession fresh platform s, active, none, none⟩
      else none
    | none => none
  | .shared call =>
    match o.memory with
    | some m =>
      if o.phase = .composed ∧ o.session = none then
        let s := SharedMemory.call X ⟨o.guestMemory, m⟩ call
        some ⟨{ o with guestMemory := s.guest, memory := some s.memory }, active, none, none⟩
      else none
    | none => none
  | .loadModule call =>
    match o.memory with
    | some m =>
      if o.phase = .composed ∧ o.session = none then
        (o.loadModule X m call).map fun o => ⟨o, active, none, none⟩
      else none
    | none => none
  | .launch platform path =>
    match o.session with
    | some s =>
      if o.phase = .composed then
        some ⟨{ o with session := some (s.launch platform path).1 }, active, none, none⟩
      else none
    | none => none
  | .tearDown =>
    if o.phase = .composed ∨ o.phase = .refused then
      match o.session.bind SystemSession.destroy with
      | some status => some ⟨o, active, none, some status⟩
      | none =>
        let (o, memory) := o.tearDown X
        some ⟨o, active, memory, none⟩
    else none
  | .leave =>
    if o.phase = .tornDown then
      some ⟨{ o with phase := .gone, lease := {} }, o.lease.release active, none, none⟩
    else none

end

/-- The blocks of the system heap that the owner has. -/
def blocks {η : Type} (o : XeniaOwner η) : List GuestAddress :=
  o.thread.blocks ++ o.guestMemory.blocks

end XeniaOwner

/-! ## The process -/

structure XeniaProcess (η : Type) where
  /-- The flag that the leases share. -/
  instanceActive : Bool := false
  owners : List (XeniaOwner η) := []
  exitStatus : Option Nat := none
  /-- The memories that were, as they were left. -/
  destroyed : List (XeniaMemory η) := []

inductive ProcessEvent where
  | construct (config : Option SystemSessionConfig)
  | owner (index : Nat) (step : OwnerStep)

namespace XeniaProcess

def step {η : Type} (X : Xenia η) (fresh : XeniaMemory η) (s : XeniaProcess η) :
    ProcessEvent → Option (XeniaProcess η)
  | .construct config =>
    if s.exitStatus = none then
      some { s with owners := s.owners ++ [{ session := config.map ({ config := · }) }] }
    else none
  | .owner index ownerStep =>
    if s.exitStatus = none then
      s.owners[index]?.bind fun o =>
        (o.step X fresh s.instanceActive ownerStep).map fun outcome =>
          { instanceActive := outcome.active
            owners := s.owners.set index outcome.owner
            exitStatus := outcome.exitStatus
            destroyed := outcome.destroyed.toList ++ s.destroyed }
    else none

end XeniaProcess

end X360Port
