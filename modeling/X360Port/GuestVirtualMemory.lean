import X360Port.XeniaMemory

/-!
# The kernel's virtual-memory exports

`NtAllocateVirtualMemory`, `NtFreeVirtualMemory` and `NtQueryVirtualMemory`
over Xenia's heaps. The service keeps no record of its own: what is reserved
and committed is what the heaps say. The in/out parameters are words in guest
memory, read and written through the call's checked accesses
(`GuestWordSlot`).

An export answers the memory after the call and the call with its status or
its refusal.
-/

namespace X360Port

/-! ## The words of the interface -/

def statusSuccess : UInt64 := 0
def statusUnsuccessful : UInt64 := 0xc0000001
def statusInvalidParameter : UInt64 := 0xc000000d
def statusNoMemory : UInt64 := 0xc0000017
def statusAccessDenied : UInt64 := 0xc0000022
def statusMemoryNotAllocated : UInt64 := 0xc00000a0

def memCommit : UInt32 := 0x1000
def memReserve : UInt32 := 0x2000
def memDecommit : UInt32 := 0x4000
def memRelease : UInt32 := 0x8000
def memFree : UInt32 := 0x10000
def memPrivate : UInt32 := 0x20000
def memReset : UInt32 := 0x80000
def memTopDown : UInt32 := 0x100000
def memNozero : UInt32 := 0x800000
def memLargePages : UInt32 := 0x20000000

namespace GuestVirtualMemory

def smallPageSize : UInt32 := 4 * 1024
def largePageSize : UInt32 := 64 * 1024

/-- One in/out guest word. -/
structure GuestWordSlot where
  address : GuestAddress
  deriving DecidableEq, Repr

structure RequestedRegion where
  base : UInt32
  size : UInt32
  deriving DecidableEq, Repr

structure AllocationPolicy where
  allocType : UInt32
  protect : UInt32
  deriving DecidableEq, Repr

structure CommittedRange where
  address : UInt32
  size : UInt32
  deriving DecidableEq, Repr

structure AllocationRequest where
  base : UInt32
  size : UInt32
  pageSize : UInt32
  deriving DecidableEq, Repr

structure Allocation where
  heap : Option BaseHeap := none
  address : UInt32 := 0
  wasCommitted : Bool := false
  pageSizeConflict : Bool := false
  deriving DecidableEq, Repr

def fromGuestWord : List UInt8 → UInt32
  | [b0, b1, b2, b3] => loadGuestWord b0 b1 b2 b3
  | _ => 0

def normalizeRequestedSize (size : UInt32) : UInt32 :=
  if size.toInt32 < 0 then (-size.toInt32).toUInt32 else size

/-- Xenia's `round_up`, in 32 bits. -/
def roundUp (value multiple : UInt32) : UInt32 := (value + multiple - 1) / multiple * multiple

def allocationFlags (allocType : UInt32) : UInt32 :=
  (if allocType &&& memReserve ≠ 0 then memoryAllocationReserve else 0) |||
    if allocType &&& memCommit ≠ 0 then memoryAllocationCommit else 0

def guestAllocationState (state : UInt32) : UInt32 :=
  if state &&& memoryAllocationCommit ≠ 0 then memCommit
  else if state &&& memoryAllocationReserve ≠ 0 then memReserve
  else memFree

section

variable {η : Type} (X : Xenia η) (m : XeniaMemory η)

def GuestWordSlot.present (slot : GuestWordSlot) : Bool := slot.address ≠ 0

def GuestWordSlot.read (slot : GuestWordSlot) : Option UInt32 :=
  (X.readMemory m slot.address 4).map fromGuestWord

def GuestWordSlot.write (slot : GuestWordSlot) (value : UInt32) : Option (XeniaMemory η) :=
  X.writeMemory m slot.address (guestWordBytes value)

def encodeRegionInfo (info : HeapAllocationInfo) : List UInt8 :=
  [info.baseAddress, info.allocationBase, X.toXdkProtectFlags info.allocationProtect,
    info.regionSize, guestAllocationState info.state, X.toXdkProtectFlags info.protect,
    memPrivate].flatMap guestWordBytes

/-- Pages are zeroed under write access, whatever access they are to have. -/
def zeroNewlyCommittedPages (heap : BaseHeap) (range : CommittedRange)
    (policy : AllocationPolicy) : XeniaMemory η :=
  if policy.allocType &&& memNozero ≠ 0 ∨ policy.allocType &&& memCommit = 0 then m
  else if policy.protect &&& memoryProtectWrite ≠ 0 then m.zero range.address range.size
  else
    let opened := X.protect heap range.address range.size
      (memoryProtectRead ||| memoryProtectWrite) m
    X.protect heap range.address range.size policy.protect (opened.zero range.address range.size)

def lookupVirtualHeap (address : UInt32) : Option BaseHeap :=
  match X.lookupHeap address with
  | none => none
  | some heap => if heap.heapType ≠ .guestVirtual then none else some heap

/-- The page size of a request: the heap's where the caller names a base. -/
def requestPageSize (requested : RequestedRegion) (allocType : UInt32) : Option UInt32 :=
  if requested.base ≠ 0 then (lookupVirtualHeap X requested.base).map (·.pageSize)
  else some (if allocType &&& memLargePages ≠ 0 then largePageSize else smallPageSize)

def prepareRequest (requested : RequestedRegion) (allocType : UInt32) :
    Option AllocationRequest :=
  match requestPageSize X requested allocType with
  | none => none
  | some pageSize =>
    let base := requested.base - requested.base % pageSize
    let size := roundUp (normalizeRequestedSize requested.size)
      (if base ≠ 0 then pageSize else largePageSize)
    if size = 0 then none else some { base, size, pageSize }

def performAllocation (request : AllocationRequest) (policy : AllocationPolicy) :
    Allocation × XeniaMemory η :=
  let flags := allocationFlags policy.allocType
  if request.base ≠ 0 then
    match X.lookupHeap request.base with
    | none => ({}, m)
    | some heap =>
      if heap.pageSize ≠ request.pageSize then
        ({ heap := some heap, pageSizeConflict := true }, m)
      else
        let wasCommitted : Bool := match X.queryRegionInfo heap request.base m.heaps with
          | none => false
          | some info => info.state &&& memoryAllocationCommit ≠ 0
        let (allocated, m) := X.allocFixed heap request.base request.size request.pageSize flags
          policy.protect m
        ({ heap := some heap, wasCommitted, address := if allocated then request.base else 0 }, m)
  else
    match X.lookupHeapByType false request.pageSize with
    | none => ({}, m)
    | some heap =>
      let topDown : Bool := policy.allocType &&& memTopDown ≠ 0
      let (address, m) := X.alloc heap request.size request.pageSize flags policy.protect topDown m
      ({ heap := some heap, address }, m)

/-- The two words handed back, and the status. -/
def answerRegion (call : GuestImportContext) (baseSlot sizeSlot : GuestWordSlot)
    (region : CommittedRange) : XeniaMemory η × GuestImportContext :=
  match baseSlot.write X m region.address with
  | none => (m, call.refuse .invalidGuestMemory)
  | some m =>
    match sizeSlot.write X m region.size with
    | none => (m, call.refuse .invalidGuestMemory)
    | some m => (m, call.setReturnValue statusSuccess)

/-- `AllocateVirtualMemory` once the request is prepared. -/
def allocatePrepared (call : GuestImportContext) (baseSlot sizeSlot : GuestWordSlot)
    (request : AllocationRequest) (policy : AllocationPolicy) :
    XeniaMemory η × GuestImportContext :=
  let (allocation, m) := performAllocation X m request policy
  if allocation.pageSizeConflict then (m, call.setReturnValue statusAccessDenied)
  else
    match allocation.heap with
    | none => (m, call.setReturnValue statusNoMemory)
    | some heap =>
      if allocation.address = 0 then (m, call.setReturnValue statusNoMemory)
      else
        let m :=
          if allocation.wasCommitted then m
          else zeroNewlyCommittedPages X m heap ⟨allocation.address, request.size⟩ policy
        answerRegion X m call baseSlot sizeSlot ⟨allocation.address, request.size⟩

/-- `AllocateVirtualMemory` once the in/out words are read. -/
def allocateRequested (call : GuestImportContext) (baseSlot sizeSlot : GuestWordSlot)
    (requested : RequestedRegion) (allocType protectBits : UInt32) :
    XeniaMemory η × GuestImportContext :=
  if requested.size = 0 ∨ allocType &&& (memCommit ||| memReserve ||| memReset) = 0 ∨
      (allocType &&& memReset ≠ 0 ∧ allocType &&& ~~~ memReset ≠ 0) then
    (m, call.setReturnValue statusInvalidParameter)
  else if allocType &&& memReset ≠ 0 then (m, call.refuse .unsupportedService)
  else
    match prepareRequest X requested allocType with
    | none => (m, call.setReturnValue statusInvalidParameter)
    | some request =>
      allocatePrepared X m call baseSlot sizeSlot request
        ⟨allocType, X.fromXdkProtectFlags protectBits⟩

def allocateVirtualMemory (call : GuestImportContext) : XeniaMemory η × GuestImportContext :=
  let basePointer := (call.argument 0).toUInt32
  let sizePointer := (call.argument 1).toUInt32
  if basePointer = 0 ∨ sizePointer = 0 then (m, call.setReturnValue statusInvalidParameter)
  else
    match GuestWordSlot.read X m ⟨basePointer⟩ with
    | none => (m, call.refuse .invalidGuestMemory)
    | some base =>
      match GuestWordSlot.read X m ⟨sizePointer⟩ with
      | none => (m, call.refuse .invalidGuestMemory)
      | some size =>
        allocateRequested X m call ⟨basePointer⟩ ⟨sizePointer⟩ ⟨base, size⟩
          (call.argument 2).toUInt32 (call.argument 3).toUInt32

/-- A free that keeps the reservation. -/
def decommitOnly (freeType : UInt32) : Bool :=
  freeType &&& memDecommit ≠ 0 ∧ freeType &&& memRelease = 0

/-- The words that a free hands back; the size has a slot only if the guest gave one. -/
def answerFree (call : GuestImportContext) (baseSlot sizeSlot : GuestWordSlot)
    (address size : UInt32) : XeniaMemory η × GuestImportContext :=
  match baseSlot.write X m address with
  | none => (m, call.refuse .invalidGuestMemory)
  | some m =>
    if ¬ sizeSlot.present then (m, call.setReturnValue statusSuccess)
    else
      match sizeSlot.write X m size with
      | none => (m, call.refuse .invalidGuestMemory)
      | some m => (m, call.setReturnValue statusSuccess)

/-- `FreeVirtualMemory` in the heap of the address. -/
def freeInHeap (call : GuestImportContext) (baseSlot sizeSlot : GuestWordSlot)
    (address freeType : UInt32) (heap : BaseHeap) : XeniaMemory η × GuestImportContext :=
  if decommitOnly freeType then
    match if sizeSlot.present then sizeSlot.read X m else none with
    | none => (m, call.setReturnValue statusInvalidParameter)
    | some requested =>
      let size := roundUp requested heap.pageSize
      if size = 0 then (m, call.setReturnValue statusUnsuccessful)
      else
        let (decommitted, m) := X.decommit heap address size m
        if ¬ decommitted then (m, call.setReturnValue statusUnsuccessful)
        else answerFree X m call baseSlot sizeSlot address size
  else
    match X.release heap address m with
    | (none, m) => (m, call.setReturnValue statusUnsuccessful)
    | (some size, m) => answerFree X m call baseSlot sizeSlot address size

def freeVirtualMemory (call : GuestImportContext) : XeniaMemory η × GuestImportContext :=
  let basePointer := (call.argument 0).toUInt32
  let sizePointer := (call.argument 1).toUInt32
  if basePointer = 0 then (m, call.setReturnValue statusInvalidParameter)
  else
    match GuestWordSlot.read X m ⟨basePointer⟩ with
    | none => (m, call.refuse .invalidGuestMemory)
    | some address =>
      -- answered without a heap: a title frees pointers it never filled in
      if address = 0 then (m, call.setReturnValue statusMemoryNotAllocated)
      else
        match lookupVirtualHeap X address with
        | none => (m, call.setReturnValue statusInvalidParameter)
        | some heap =>
          freeInHeap X m call ⟨basePointer⟩ ⟨sizePointer⟩ address (call.argument 2).toUInt32 heap

def queryVirtualMemory (call : GuestImportContext) : XeniaMemory η × GuestImportContext :=
  let address := (call.argument 0).toUInt32
  let informationPointer := (call.argument 1).toUInt32
  if informationPointer = 0 ∨ 2 < (call.argument 2).toUInt32 then
    (m, call.setReturnValue statusInvalidParameter)
  else
    match (X.lookupHeap address).bind fun heap => X.queryRegionInfo heap address m.heaps with
    | none => (m, call.setReturnValue statusInvalidParameter)
    | some info =>
      match X.writeMemory m informationPointer (encodeRegionInfo X info) with
      | none => (m, call.refuse .invalidGuestMemory)
      | some m => (m, call.setReturnValue statusSuccess)

end

end GuestVirtualMemory

end X360Port
