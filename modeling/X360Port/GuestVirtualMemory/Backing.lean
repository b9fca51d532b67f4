import X360Port.GuestVirtualMemory

/-!
# What is backed by pages

An address is backed when its page is reserved and committed. `HeapLaws` is
what is assumed of Xenia's heaps: which of their calls can give a page back,
and that those give back the pages they name and no others.

The exports follow: an allocation keeps what is backed
(`backed_allocateVirtualMemory`), and a free gives back exactly the pages that
the guest's words name (`backed_freeVirtualMemory_iff`).
-/

namespace X360Port

/-- The state that Xenia reports for the page of an address. -/
def Xenia.state {η : Type} (X : Xenia η) (heaps : η) (address : GuestAddress) : UInt32 :=
  match (X.lookupHeap address).bind fun heap => X.queryRegionInfo heap address heaps with
  | none => 0
  | some info => info.state

/-- The page of the address is reserved and committed. -/
def Xenia.Backed {η : Type} (X : Xenia η) (heaps : η) (address : GuestAddress) : Prop :=
  X.state heaps address &&& memoryAllocationReserve ≠ 0 ∧
    X.state heaps address &&& memoryAllocationCommit ≠ 0

instance {η : Type} (X : Xenia η) (heaps : η) (address : GuestAddress) :
    Decidable (X.Backed heaps address) := by
  unfold Xenia.Backed; infer_instance

/-- Pages of a heap: those from the page of `address`, `size` bytes. -/
structure PageRun where
  heap : BaseHeap
  address : GuestAddress
  size : UInt32
  deriving DecidableEq, Repr

def PageRun.start (r : PageRun) : Nat :=
  r.address.toNat - r.address.toNat % r.heap.pageSize.toNat

/-- The address lies on one of the pages. -/
def PageRun.Covers {η : Type} (X : Xenia η) (r : PageRun) (x : GuestAddress) : Prop :=
  X.lookupHeap x = some r.heap ∧ r.start ≤ x.toNat ∧ x.toNat < r.start + r.size.toNat

/-- The flags of an allocation. -/
def AllocatingFlags (flags : UInt32) : Prop :=
  flags = memoryAllocationReserve ∨ flags = memoryAllocationCommit ∨
    flags = memoryAllocationReserve ||| memoryAllocationCommit

/-- What is assumed of Xenia's heaps. -/
structure HeapLaws {η : Type} (X : Xenia η) : Prop where
  allocFixed : ∀ heap base size alignment flags protect m x, AllocatingFlags flags →
    X.Backed m.heaps x →
    X.Backed (X.allocFixed heap base size alignment flags protect m).2.heaps x
  alloc : ∀ heap size alignment flags protect topDown m x, AllocatingFlags flags →
    X.Backed m.heaps x →
    X.Backed (X.alloc heap size alignment flags protect topDown m).2.heaps x
  protect : ∀ heap address size protect m x,
    X.Backed (X.protect heap address size protect m).heaps x ↔ X.Backed m.heaps x
  decommit : ∀ heap address size m x, X.lookupHeap address = some heap →
    heap.heapType = .guestVirtual → size.toNat % heap.pageSize.toNat = 0 →
    (X.decommit heap address size m).1 →
    (X.Backed (X.decommit heap address size m).2.heaps x ↔
      X.Backed m.heaps x ∧ ¬ PageRun.Covers X ⟨heap, address, size⟩ x)
  decommit_failed : ∀ heap address size m x, ¬ (X.decommit heap address size m).1 →
    (X.Backed (X.decommit heap address size m).2.heaps x ↔ X.Backed m.heaps x)
  release : ∀ heap address size m x, X.lookupHeap address = some heap →
    heap.heapType = .guestVirtual → (X.release heap address m).1 = some size →
    (X.Backed (X.release heap address m).2.heaps x ↔
      X.Backed m.heaps x ∧ ¬ PageRun.Covers X ⟨heap, address, size⟩ x)
  release_failed : ∀ heap address m x, (X.release heap address m).1 = none →
    (X.Backed (X.release heap address m).2.heaps x ↔ X.Backed m.heaps x)
  /-- The system heap hands out free pages of a guest-virtual heap, committed. -/
  systemHeapAlloc : ∀ size m, (X.systemHeapAlloc size m).1 ≠ 0 →
    (X.systemHeapAlloc size m).1.toNat + size.toNat ≤ 2 ^ 32 ∧
    (∃ heap, X.lookupHeap (X.systemHeapAlloc size m).1 = some heap ∧
      heap.heapType = .guestVirtual) ∧
    ∀ x : GuestAddress, (X.systemHeapAlloc size m).1.toNat ≤ x.toNat →
      x.toNat < (X.systemHeapAlloc size m).1.toNat + size.toNat →
      ¬ X.Backed m.heaps x ∧ X.Backed (X.systemHeapAlloc size m).2.heaps x
  systemHeapAlloc_keeps : ∀ size m x, X.Backed m.heaps x →
    X.Backed (X.systemHeapAlloc size m).2.heaps x
  /-- What the system heap handed out is released like the rest of the heap. -/
  systemHeapFree : ∀ heap address m, X.lookupHeap address = some heap →
    X.systemHeapFree address m = (X.release heap address m).2

namespace GuestVirtualMemory

section

variable {η : Type} {X : Xenia η} {m : XeniaMemory η} {call : GuestImportContext}
  {baseSlot sizeSlot : GuestWordSlot} {x : GuestAddress}

theorem heaps_write {slot : GuestWordSlot} {value : UInt32} {m' : XeniaMemory η}
    (h : slot.write X m value = some m') : m'.heaps = m.heaps := X.heaps_writeMemory h

/-- Handing the words back changes no record. -/
theorem heaps_answerRegion (region : CommittedRange) :
    (answerRegion X m call baseSlot sizeSlot region).1.heaps = m.heaps := by
  rw [answerRegion]
  cases hbase : baseSlot.write X m region.address with
  | none => rfl
  | some m1 =>
    simp only
    cases hsize : sizeSlot.write X m1 region.size with
    | none => exact heaps_write hbase
    | some m2 => exact (heaps_write hsize).trans (heaps_write hbase)

theorem heaps_answerFree (address size : UInt32) :
    (answerFree X m call baseSlot sizeSlot address size).1.heaps = m.heaps := by
  rw [answerFree]
  cases hbase : baseSlot.write X m address with
  | none => rfl
  | some m1 =>
    simp only
    split
    · exact heaps_write hbase
    · cases hsize : sizeSlot.write X m1 size with
      | none => exact heaps_write hbase
      | some m2 => exact (heaps_write hsize).trans (heaps_write hbase)

theorem heaps_queryVirtualMemory (m : XeniaMemory η) (call : GuestImportContext) :
    (queryVirtualMemory X m call).1.heaps = m.heaps := by
  rw [queryVirtualMemory]
  split
  · rfl
  · split
    · rfl
    · split
      · rfl
      · next h => exact X.heaps_writeMemory h

/-! ## Allocating -/

theorem and_or_left (a b c : UInt32) : a &&& (b ||| c) = (a &&& b) ||| (a &&& c) := by
  rw [← UInt32.toBitVec_inj, UInt32.toBitVec_and, UInt32.toBitVec_or, UInt32.toBitVec_or,
    UInt32.toBitVec_and, UInt32.toBitVec_and]
  exact BitVec.and_or_distrib_left

/-- An allocation type with a commit or a reserve gives the flags of an allocation. -/
theorem allocatingFlags_of_type {allocType : UInt32}
    (h : allocType &&& (memCommit ||| memReserve ||| memReset) ≠ 0)
    (hreset : ¬ allocType &&& memReset ≠ 0) : AllocatingFlags (allocationFlags allocType) := by
  rw [allocationFlags]
  by_cases hr : allocType &&& memReserve ≠ 0
  · rw [if_pos hr]
    by_cases hc : allocType &&& memCommit ≠ 0
    · rw [if_pos hc]
      exact .inr (.inr rfl)
    · rw [if_neg hc]
      exact .inl rfl
  · rw [if_neg hr]
    by_cases hc : allocType &&& memCommit ≠ 0
    · rw [if_pos hc]
      exact .inr (.inl rfl)
    · rw [not_not] at hr hc hreset
      rw [and_or_left, and_or_left, hc, hr, hreset] at h
      exact absurd rfl h

theorem backed_zeroNewlyCommittedPages_iff (laws : HeapLaws X) (heap : BaseHeap)
    (range : CommittedRange) (policy : AllocationPolicy) :
    X.Backed (zeroNewlyCommittedPages X m heap range policy).heaps x ↔ X.Backed m.heaps x := by
  rw [zeroNewlyCommittedPages]
  split
  · exact Iff.rfl
  · split
    · exact Iff.rfl
    · simp only
      rw [laws.protect, XeniaMemory.heaps_zero, laws.protect]

theorem backed_performAllocation (laws : HeapLaws X) {request : AllocationRequest}
    {policy : AllocationPolicy} (hflags : AllocatingFlags (allocationFlags policy.allocType))
    (h : X.Backed m.heaps x) : X.Backed (performAllocation X m request policy).2.heaps x := by
  rw [performAllocation]
  simp only
  split
  · split
    · exact h
    · split
      · exact h
      · exact laws.allocFixed _ _ _ _ _ _ _ _ hflags h
  · split
    · exact h
    · exact laws.alloc _ _ _ _ _ _ _ _ hflags h

theorem backed_allocatePrepared (laws : HeapLaws X) {request : AllocationRequest}
    {policy : AllocationPolicy} (hflags : AllocatingFlags (allocationFlags policy.allocType))
    (h : X.Backed m.heaps x) :
    X.Backed (allocatePrepared X m call baseSlot sizeSlot request policy).1.heaps x := by
  have hperformed : X.Backed (performAllocation X m request policy).2.heaps x :=
    backed_performAllocation laws hflags h
  rw [allocatePrepared]
  simp only
  split
  · exact hperformed
  · split
    · exact hperformed
    · split
      · exact hperformed
      · rw [heaps_answerRegion]
        split
        · exact hperformed
        · exact (backed_zeroNewlyCommittedPages_iff laws _ _ _).2 hperformed

/-- **An allocation keeps what is backed.** -/
theorem backed_allocateVirtualMemory (laws : HeapLaws X) (h : X.Backed m.heaps x) :
    X.Backed (allocateVirtualMemory X m call).1.heaps x := by
  rw [allocateVirtualMemory]
  split
  · exact h
  · split
    · exact h
    · split
      · exact h
      · rw [allocateRequested]
        split
        · exact h
        · next htype =>
          rw [not_or, not_or] at htype
          split
          · exact h
          · next hreset =>
            split
            · exact h
            · exact backed_allocatePrepared laws (allocatingFlags_of_type htype.2.1 hreset) h

/-! ## Freeing -/

/-- The pages that a free of an address gives back. -/
def freedInHeap (X : Xenia η) (m : XeniaMemory η) (sizeSlot : GuestWordSlot)
    (address freeType : UInt32) (heap : BaseHeap) : Option PageRun :=
  if decommitOnly freeType then
    match if sizeSlot.present then sizeSlot.read X m else none with
    | none => none
    | some requested =>
      let size := roundUp requested heap.pageSize
      if size ≠ 0 ∧ (X.decommit heap address size m).1 then some ⟨heap, address, size⟩ else none
  else (X.release heap address m).1.map fun size => ⟨heap, address, size⟩

/-- The pages that the guest's words name, where a free comes to give them back. -/
def freedByGuest (X : Xenia η) (m : XeniaMemory η) (call : GuestImportContext) : Option PageRun :=
  let basePointer := (call.argument 0).toUInt32
  if basePointer = 0 then none
  else
    match GuestWordSlot.read X m ⟨basePointer⟩ with
    | none => none
    | some address =>
      if address = 0 then none
      else
        match lookupVirtualHeap X address with
        | none => none
        | some heap =>
          freedInHeap X m ⟨(call.argument 1).toUInt32⟩ address (call.argument 2).toUInt32 heap

theorem toNat_roundUp_mod (value multiple : UInt32) :
    (roundUp value multiple).toNat % multiple.toNat = 0 := by
  have hle := Nat.div_mul_le_self (value + multiple - 1).toNat multiple.toNat
  have hlt := (value + multiple - 1).toNat_lt
  have hsmall : (value + multiple - 1).toNat / multiple.toNat * multiple.toNat < 2 ^ 32 :=
    Nat.lt_of_le_of_lt hle hlt
  rw [roundUp, UInt32.toNat_mul, UInt32.toNat_div, Nat.mod_eq_of_lt hsmall]
  exact Nat.mul_mod_left _ _

theorem lookupVirtualHeap_spec {address : GuestAddress} {heap : BaseHeap}
    (h : lookupVirtualHeap X address = some heap) :
    X.lookupHeap address = some heap ∧ heap.heapType = .guestVirtual := by
  rw [lookupVirtualHeap] at h
  split at h
  · cases h
  · next hlookup =>
    split at h
    · cases h
    · next htype =>
      cases h
      exact ⟨hlookup, not_not.1 htype⟩

theorem backed_freeInHeap_iff (laws : HeapLaws X) {address freeType : UInt32} {heap : BaseHeap}
    (hheap : X.lookupHeap address = some heap) (htype : heap.heapType = .guestVirtual) :
    X.Backed (freeInHeap X m call baseSlot sizeSlot address freeType heap).1.heaps x ↔
      X.Backed m.heaps x ∧
        ∀ r, freedInHeap X m sizeSlot address freeType heap = some r → ¬ r.Covers X x := by
  rw [freeInHeap, freedInHeap]
  split
  · cases hsize : if sizeSlot.present then sizeSlot.read X m else none with
    | none => simp
    | some requested =>
      simp only
      by_cases hzero : roundUp requested heap.pageSize = 0
      · simp [hzero]
      · rw [if_neg hzero]
        by_cases hdone : (X.decommit heap address (roundUp requested heap.pageSize) m).1
        · rw [if_neg (by simp [hdone]), if_pos ⟨hzero, hdone⟩, heaps_answerFree,
            laws.decommit _ _ _ _ _ hheap htype (toNat_roundUp_mod _ _) hdone]
          simp
        · rw [if_pos hdone, if_neg (fun h => hdone h.2), laws.decommit_failed _ _ _ _ _ hdone]
          simp
  · cases hrelease : X.release heap address m with
    | mk answer after =>
      cases answer with
      | none =>
        have hfailed := laws.release_failed heap address m x (by rw [hrelease])
        rw [hrelease] at hfailed
        simp [hfailed]
      | some size =>
        have hreleased := laws.release heap address size m x hheap htype (by rw [hrelease])
        rw [hrelease] at hreleased
        simp only [heaps_answerFree, hreleased, Option.map_some]
        simp

/-- **A free gives back the pages that the guest's words name.** -/
theorem backed_freeVirtualMemory_iff (laws : HeapLaws X) :
    X.Backed (freeVirtualMemory X m call).1.heaps x ↔
      X.Backed m.heaps x ∧ ∀ r, freedByGuest X m call = some r → ¬ r.Covers X x := by
  rw [freeVirtualMemory, freedByGuest]
  by_cases hbase : (call.argument 0).toUInt32 = 0
  · simp [hbase]
  · simp only [if_neg hbase]
    cases hread : GuestWordSlot.read X m ⟨(call.argument 0).toUInt32⟩ with
    | none => simp
    | some address =>
      simp only
      by_cases hzero : address = 0
      · simp [hzero]
      · simp only [if_neg hzero]
        cases hheap : lookupVirtualHeap X address with
        | none => simp
        | some heap =>
          obtain ⟨hlookup, htype⟩ := lookupVirtualHeap_spec hheap
          exact backed_freeInHeap_iff laws hlookup htype

/-! ## The system heap -/

/-- The pages that a release of a title's range gives back. -/
def freedBySystemHeap (X : Xenia η) (m : XeniaMemory η) (address : GuestAddress) :
    Option PageRun :=
  match X.lookupHeap address with
  | none => none
  | some heap => (X.release heap address m).1.map fun size => ⟨heap, address, size⟩

theorem backed_systemHeapFree_iff (laws : HeapLaws X) {address : GuestAddress} {heap : BaseHeap}
    (hheap : X.lookupHeap address = some heap) (htype : heap.heapType = .guestVirtual) :
    X.Backed (X.systemHeapFree address m).heaps x ↔
      X.Backed m.heaps x ∧ ∀ r, freedBySystemHeap X m address = some r → ¬ r.Covers X x := by
  rw [laws.systemHeapFree _ _ _ hheap, freedBySystemHeap, hheap]
  simp only
  cases hrelease : (X.release heap address m).1 with
  | none =>
    rw [laws.release_failed _ _ _ _ hrelease]
    simp
  | some size =>
    rw [laws.release _ _ _ _ _ hheap htype hrelease]
    simp

end

end GuestVirtualMemory

end X360Port
