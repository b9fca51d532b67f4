import X360Port.GuestVirtualMemory.Outcomes

/-!
# What a heap operation does to its pages

A `HeapOperation` is what an operation of Xenia's heaps makes of the pages it
covers: their record, their state, and whether the guest may write them.
`Effect` says of two memories that the operation lies between them, and
`HeapEffects` is what is assumed of Xenia: an operation that fails changes
nothing, and one that succeeds has its effect.

`PageRecords` is the page table behind the queries, with what the operations
that name their pages make of it: a reservation makes its pages an allocation
of their own, and a commit of reserved pages leaves them with theirs.
-/

namespace X360Port

/-- The guest may write the byte. -/
def Xenia.WritableAt {η : Type} (X : Xenia η) (heaps : η) (x : GuestAddress) : Prop :=
  ∃ heap, X.lookupHeap x = some heap ∧ X.queryRangeAccess heap x x heaps = .readWrite

/-- What a heap keeps of a page: the allocation that it belongs to, the protection that it was
given there and the one that it has, and its state. -/
structure PageRecord where
  allocationBase : UInt32 := 0
  allocationSize : UInt32 := 0
  allocationProtect : UInt32 := 0
  protect : UInt32 := 0
  state : UInt32 := 0
  deriving DecidableEq, Repr

/-- What a heap operation makes of the pages of a run: their record, with their state, and
whether the guest may write them. -/
structure HeapOperation where
  run : PageRun
  record : PageRecord → PageRecord
  state : UInt32 → UInt32
  writable : Prop → Prop
  state_record : ∀ r, (record r).state = state r.state

section

variable {η : Type}

/-- The operation makes of some page what it was not. -/
def HeapOperation.Changes (X : Xenia η) (heaps : η) (op : HeapOperation) : Prop :=
  ∃ x, op.run.Covers X x ∧ op.state (X.state heaps x) ≠ X.state heaps x

open Classical in
/-- The memory after the operation. Its bytes are at issue only where the states stay. -/
structure HeapOperation.Effect (X : Xenia η) (op : HeapOperation) (m after : XeniaMemory η) :
    Prop where
  state : ∀ x, X.state after.heaps x =
    if op.run.Covers X x then op.state (X.state m.heaps x) else X.state m.heaps x
  writable : ∀ x, X.WritableAt after.heaps x ↔
    if op.run.Covers X x then op.writable (X.WritableAt m.heaps x) else X.WritableAt m.heaps x
  bytes : ¬ op.Changes X m.heaps → after.bytes = m.bytes

/-- Pages mapped with the flags and the protection: a new allocation, or more of the one that
they belong to. -/
def mapping (run : PageRun) (flags protect : UInt32) : HeapOperation where
  run := run
  record r :=
    { allocationBase :=
        if flags &&& memoryAllocationReserve ≠ 0 then .ofNat run.start else r.allocationBase
      allocationSize :=
        if flags &&& memoryAllocationReserve ≠ 0 then run.size else r.allocationSize
      allocationProtect := protect
      protect := protect
      state := memoryAllocationReserve ||| flags }
  state _ := memoryAllocationReserve ||| flags
  writable _ := protect &&& memoryProtectWrite ≠ 0
  state_record _ := rfl

/-- Pages that get another protection. -/
def protecting (run : PageRun) (protect : UInt32) : HeapOperation where
  run := run
  record r := { r with protect := protect }
  state := id
  writable _ := protect &&& memoryProtectWrite ≠ 0
  state_record _ := rfl

def decommitting (run : PageRun) : HeapOperation where
  run := run
  record r := { r with state := r.state &&& ~~~ memoryAllocationCommit }
  state state := state &&& ~~~ memoryAllocationCommit
  writable := id
  state_record _ := rfl

def releasing (run : PageRun) : HeapOperation where
  run := run
  record _ := {}
  state _ := 0
  writable _ := False
  state_record _ := rfl

/-- A protection that the exports give a page: one of the guest's, or read and write. -/
def GivenProtect (X : Xenia η) (protect : UInt32) : Prop :=
  protect = memoryProtectRead ||| memoryProtectWrite ∨
    ∃ bits, protect = X.fromXdkProtectFlags bits

/-- What is assumed of Xenia's heaps. -/
structure HeapEffects (X : Xenia η) : Prop where
  /-- A heap is a range of addresses. -/
  convex : ∀ heap (first x last : GuestAddress), X.lookupHeap first = some heap →
    X.lookupHeap last = some heap → first.toNat ≤ x.toNat → x.toNat ≤ last.toNat →
    X.lookupHeap x = some heap
  /-- The access to a range is the least of its bytes. -/
  byBytes : ∀ heap (first last : GuestAddress) heaps, X.lookupHeap first = some heap →
    X.lookupHeap last = some heap → first.toNat ≤ last.toNat →
    (X.queryRangeAccess heap first last heaps = .readWrite ↔
      ∀ x : GuestAddress, first.toNat ≤ x.toNat → x.toNat ≤ last.toNat →
        X.queryRangeAccess heap x x heaps = .readWrite)
  virtualPages : ∀ address heap, X.lookupHeap address = some heap → heap.heapType = .guestVirtual →
    heap.pageSize = GuestVirtualMemory.smallPageSize ∨
      heap.pageSize = GuestVirtualMemory.largePageSize
  byType : ∀ heap pageSize, pageSize = GuestVirtualMemory.smallPageSize ∨
    pageSize = GuestVirtualMemory.largePageSize →
    X.lookupHeapByType false pageSize = some heap → heap.pageSize = pageSize
  allocFixed_failed : ∀ heap base size alignment flags protect m,
    ¬ (X.allocFixed heap base size alignment flags protect m).1 →
    (X.allocFixed heap base size alignment flags protect m).2 = m
  allocFixed : ∀ heap base size alignment flags protect m, X.lookupHeap base = some heap →
    size.toNat % heap.pageSize.toNat = 0 → AllocatingFlags flags → GivenProtect X protect →
    (X.allocFixed heap base size alignment flags protect m).1 →
    (mapping ⟨heap, base, size⟩ flags protect).Effect X m
      (X.allocFixed heap base size alignment flags protect m).2
  alloc_failed : ∀ heap size alignment flags protect topDown m,
    (X.alloc heap size alignment flags protect topDown m).1 = 0 →
    (X.alloc heap size alignment flags protect topDown m).2 = m
  alloc : ∀ heap pageSize size alignment flags protect topDown m,
    X.lookupHeapByType false pageSize = some heap →
    size.toNat % heap.pageSize.toNat = 0 → AllocatingFlags flags → GivenProtect X protect →
    (X.alloc heap size alignment flags protect topDown m).1 ≠ 0 →
    X.lookupHeap (X.alloc heap size alignment flags protect topDown m).1 = some heap ∧
    (mapping ⟨heap, (X.alloc heap size alignment flags protect topDown m).1, size⟩ flags
      protect).Effect X m (X.alloc heap size alignment flags protect topDown m).2
  /-- Where it has the choice, a heap maps free pages. -/
  alloc_free : ∀ heap pageSize size alignment flags protect topDown m x,
    X.lookupHeapByType false pageSize = some heap → size.toNat % heap.pageSize.toNat = 0 →
    (X.alloc heap size alignment flags protect topDown m).1 ≠ 0 →
    PageRun.Covers X ⟨heap, (X.alloc heap size alignment flags protect topDown m).1, size⟩ x →
    X.state m.heaps x = 0
  protect : ∀ heap address size protect m, X.lookupHeap address = some heap →
    size.toNat % heap.pageSize.toNat = 0 → GivenProtect X protect →
    (protecting ⟨heap, address, size⟩ protect).Effect X m (X.protect heap address size protect m)
  decommit_failed : ∀ heap address size m, ¬ (X.decommit heap address size m).1 →
    (X.decommit heap address size m).2 = m
  decommit : ∀ heap address size m, X.lookupHeap address = some heap →
    size.toNat % heap.pageSize.toNat = 0 → (X.decommit heap address size m).1 →
    (decommitting ⟨heap, address, size⟩).Effect X m (X.decommit heap address size m).2
  release_failed : ∀ heap address m, (X.release heap address m).1 = none →
    (X.release heap address m).2 = m
  release : ∀ heap address size m, X.lookupHeap address = some heap →
    (X.release heap address m).1 = some size →
    (releasing ⟨heap, address, size⟩).Effect X m (X.release heap address m).2

open Classical in
/-- The records after the operation. -/
def HeapOperation.Records (X : Xenia η) (record : η → GuestAddress → PageRecord)
    (op : HeapOperation) (heaps after : η) : Prop :=
  ∀ x, record after x = if op.run.Covers X x then op.record (record heaps x) else record heaps x

/-- The page table of Xenia's heaps, and what is assumed of it. -/
structure PageRecords (X : Xenia η) where
  record : η → GuestAddress → PageRecord
  state : ∀ heaps x, X.state heaps x = (record heaps x).state
  /-- A query reports the page's record. -/
  reported : ∀ heap heaps x info, X.lookupHeap x = some heap →
    X.queryRegionInfo heap x heaps = some info →
    info.allocationBase = (record heaps x).allocationBase ∧
      info.allocationProtect = (record heaps x).allocationProtect ∧
      info.protect = (record heaps x).protect
  /-- A query looks at nothing but the records; the size of a region is a matter of several. -/
  determined : ∀ heaps heaps', (∀ x, record heaps x = record heaps' x) →
    ∀ heap x, X.queryRegionInfo heap x heaps = X.queryRegionInfo heap x heaps'
  allocFixed : ∀ heap base size alignment flags protect m, X.lookupHeap base = some heap →
    size.toNat % heap.pageSize.toNat = 0 → AllocatingFlags flags → GivenProtect X protect →
    (X.allocFixed heap base size alignment flags protect m).1 →
    (flags &&& memoryAllocationReserve ≠ 0 ∨ ∀ x, PageRun.Covers X ⟨heap, base, size⟩ x →
      (record m.heaps x).state &&& memoryAllocationReserve ≠ 0) →
    (mapping ⟨heap, base, size⟩ flags protect).Records X record m.heaps
      (X.allocFixed heap base size alignment flags protect m).2.heaps
  protect : ∀ heap address size protect m, X.lookupHeap address = some heap →
    size.toNat % heap.pageSize.toNat = 0 → GivenProtect X protect →
    (protecting ⟨heap, address, size⟩ protect).Records X record m.heaps
      (X.protect heap address size protect m).heaps
  decommit : ∀ heap address size m, X.lookupHeap address = some heap →
    size.toNat % heap.pageSize.toNat = 0 → (X.decommit heap address size m).1 →
    (decommitting ⟨heap, address, size⟩).Records X record m.heaps
      (X.decommit heap address size m).2.heaps
  release : ∀ heap address size m, X.lookupHeap address = some heap →
    (X.release heap address m).1 = some size →
    (releasing ⟨heap, address, size⟩).Records X record m.heaps (X.release heap address m).2.heaps

end

end X360Port
