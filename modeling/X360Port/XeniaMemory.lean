import X360Port.GuestCall
import X360Port.GuestEndian

/-!
# Xenia's memory

The guest-memory services work on Xenia's `Memory`, which is not part of the
repository. `Xenia η` has a function for each member function they call, with
`η` for what the heaps record, and says nothing about the answers: what a
result needs of them is a hypothesis of its own. Queries look at the records
alone, so bytes never change an answer.

The bytes are modelled. `XeniaMemory` is the records and the bytes, and
`load`, `store` and `zero` are the copies from and to a translated guest
address. `readMemory` and `writeMemory` are the checked accesses that an import
handler gets from its call.
-/

namespace X360Port

open Library

/-! ## The heaps -/

inductive HeapType where
  | guestVirtual
  | guestXex
  | guestPhysical
  | hostPhysical
  deriving DecidableEq, Repr

/-- One heap; no two heaps have the same base. -/
structure BaseHeap where
  heapBase : UInt32
  heapType : HeapType
  pageSize : UInt32
  deriving DecidableEq, Repr

inductive PageAccess where
  | noAccess
  | readOnly
  | readWrite
  | executeReadOnly
  | executeReadWrite
  deriving DecidableEq, Repr

/-- The bits of the enumerator: read, write, execute. -/
def PageAccess.bits : PageAccess → UInt32
  | .noAccess => 0
  | .readOnly => 1
  | .readWrite => 3
  | .executeReadOnly => 5
  | .executeReadWrite => 7

def memoryAllocationReserve : UInt32 := 1
def memoryAllocationCommit : UInt32 := 2

def memoryProtectRead : UInt32 := 1
def memoryProtectWrite : UInt32 := 2

structure HeapAllocationInfo where
  baseAddress : UInt32 := 0
  allocationBase : UInt32 := 0
  allocationProtect : UInt32 := 0
  regionSize : UInt32 := 0
  state : UInt32 := 0
  protect : UInt32 := 0
  deriving DecidableEq, Repr

/-- The records of the heaps, and the bytes by guest address. -/
structure XeniaMemory (η : Type) where
  heaps : η
  bytes : Memory UInt8

/-- What the services call of Xenia. `alloc` answers the address it stores, zero where it
stores none, and `release` the size it stores where it succeeds. -/
structure Xenia (η : Type) where
  lookupHeap : GuestAddress → Option BaseHeap
  lookupHeapByType : Bool → UInt32 → Option BaseHeap
  queryRegionInfo : BaseHeap → GuestAddress → η → Option HeapAllocationInfo
  queryRangeAccess : BaseHeap → GuestAddress → GuestAddress → η → PageAccess
  /-- Whether a device range overlaps the addresses from the first to the last. -/
  lookupVirtualMappedRangeOverlapping : GuestAddress → GuestAddress → η → Bool
  allocFixed : BaseHeap → (base size alignment flags protect : UInt32) → XeniaMemory η →
    Bool × XeniaMemory η
  alloc : BaseHeap → (size alignment flags protect : UInt32) → (topDown : Bool) →
    XeniaMemory η → GuestAddress × XeniaMemory η
  protect : BaseHeap → (address size protect : UInt32) → XeniaMemory η → XeniaMemory η
  decommit : BaseHeap → (address size : UInt32) → XeniaMemory η → Bool × XeniaMemory η
  release : BaseHeap → GuestAddress → XeniaMemory η → Option UInt32 × XeniaMemory η
  systemHeapAlloc : UInt32 → XeniaMemory η → GuestAddress × XeniaMemory η
  systemHeapFree : GuestAddress → XeniaMemory η → XeniaMemory η
  fromXdkProtectFlags : UInt32 → UInt32
  toXdkProtectFlags : UInt32 → UInt32

namespace XeniaMemory

variable {η : Type}

/-- The bytes copied from a guest address. -/
def load (m : XeniaMemory η) (address : GuestAddress) (count : Nat) : List UInt8 :=
  (List.range count).map fun i => m.bytes (address.toNat + i)

/-- The bytes copied to a guest address. -/
def store (m : XeniaMemory η) (address : GuestAddress) (bytes : List UInt8) : XeniaMemory η :=
  { m with bytes := (Patch.mk address.toNat bytes).write m.bytes }

def zero (m : XeniaMemory η) (address size : UInt32) : XeniaMemory η :=
  m.store address (List.replicate size.toNat 0)

@[simp] theorem heaps_store (m : XeniaMemory η) (address : GuestAddress) (bytes : List UInt8) :
    (m.store address bytes).heaps = m.heaps := rfl

@[simp] theorem heaps_zero (m : XeniaMemory η) (address size : UInt32) :
    (m.zero address size).heaps = m.heaps := rfl

@[simp] theorem length_load (m : XeniaMemory η) (address : GuestAddress) (count : Nat) :
    (m.load address count).length = count := by
  rw [load, List.length_map, List.length_range]

/-- What is stored is loaded. -/
theorem load_store (m : XeniaMemory η) (address : GuestAddress) (bytes : List UInt8) :
    (m.store address bytes).load address bytes.length = bytes := by
  refine List.ext_getElem (length_load _ _ _) fun i hi _ => ?_
  have hheld := (Patch.mk address.toNat bytes).heldBy_write m.bytes
  have hi : i < bytes.length := by rwa [length_load] at hi
  have hcell := Patch.heldBy_iff_getElem?.1 hheld i _ (List.getElem?_eq_getElem hi)
  simp only [load, List.getElem_map, List.getElem_range]
  exact hcell

/-- A store leaves the bytes beside it alone. -/
theorem bytes_store {m : XeniaMemory η} {address : GuestAddress} {bytes : List UInt8} {x : Nat}
    (h : x < address.toNat ∨ address.toNat + bytes.length ≤ x) :
    (m.store address bytes).bytes x = m.bytes x := by
  apply Patch.write_of_not_covers
  unfold Patch.Covers
  simp only
  omega

end XeniaMemory

/-! ## The accesses of an import handler -/

namespace Xenia

variable {η : Type} (X : Xenia η)

def isReadable (access : PageAccess) : Bool := access = .readOnly ∨ access = .readWrite

def isWritable (access : PageAccess) : Bool := access = .readWrite

def isAccessible (m : XeniaMemory η) (address : GuestAddress) (size : Nat) (write : Bool) : Bool :=
  if 0xffffffff < size ∨ (size ≠ 0 ∧ 0xffffffff - (size - 1) < address.toNat) then false
  else if size = 0 then true
  else
    let last := address + .ofNat (size - 1)
    match X.lookupHeap address with
    | none => false
    | some heap =>
      if X.lookupHeap last ≠ some heap then false
      else
        let access := X.queryRangeAccess heap address last m.heaps
        if write then isWritable access else isReadable access

def readMemory (m : XeniaMemory η) (address : GuestAddress) (size : Nat) : Option (List UInt8) :=
  if X.isAccessible m address size false then some (m.load address size) else none

def writeMemory (m : XeniaMemory η) (address : GuestAddress) (source : List UInt8) :
    Option (XeniaMemory η) :=
  if X.isAccessible m address source.length true then some (m.store address source) else none

/-- A write changes no record of the heaps. -/
theorem heaps_writeMemory {m m' : XeniaMemory η} {address : GuestAddress} {source : List UInt8}
    (h : X.writeMemory m address source = some m') : m'.heaps = m.heaps := by
  rw [writeMemory] at h
  split at h
  · cases h
    rfl
  · cases h

end Xenia

end X360Port
