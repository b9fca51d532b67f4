import X360Port.GuestMemory.MappedAccess
import X360Port.GuestVirtualMemory.Backing

/-!
# How the memory exports end

An allocation or a free goes through three phases: what the guest's words ask
for (`preparedRequest`, `freedPages`), the heap's own operation (`handedOut`,
`givenBack`), and the two words handed back. Up to the heap's operation
nothing has changed; a call that does not come to its end has changed what the
operation changed and the first word, if that was stored
(`allocateVirtualMemory_cases`, `freeVirtualMemory_cases`).
-/

namespace X360Port

open Library

namespace GuestVirtualMemory

/-- The call ended with `STATUS_SUCCESS`. -/
def Succeeded (call : GuestImportContext) : Prop :=
  call.refusal = none ∧ call.returnValue = statusSuccess

instance (call : GuestImportContext) : Decidable (Succeeded call) :=
  inferInstanceAs (Decidable (_ ∧ _))

/-- The address lies in the range. -/
def CommittedRange.Contains (range : CommittedRange) (x : GuestAddress) : Prop :=
  range.address.toNat ≤ x.toNat ∧ x.toNat < range.address.toNat + range.size.toNat

instance (range : CommittedRange) (x : GuestAddress) : Decidable (range.Contains x) :=
  inferInstanceAs (Decidable (_ ∧ _))

theorem not_succeeded_refuse (call : GuestImportContext) (reason : ImportRefusalReason) :
    ¬ Succeeded (call.refuse reason) := by
  simp [Succeeded, GuestImportContext.refuse]

theorem not_succeeded_setReturnValue (call : GuestImportContext) {status : UInt64}
    (h : status ≠ statusSuccess) : ¬ Succeeded (call.setReturnValue status) := fun hs => h hs.2

section

variable {η : Type} (X : Xenia η) (m : XeniaMemory η) (call : GuestImportContext)

/-! ## The two words -/

/-- The heaps let the guest store a word. -/
def Storable (heaps : η) (slot : GuestWordSlot) : Prop :=
  X.Grants heaps slot.address 4 fun access => access = .readWrite

/-- The memory with a word stored. -/
def stored (slot : GuestWordSlot) (value : UInt32) : XeniaMemory η :=
  m.store slot.address (guestWordBytes value)

@[simp] theorem heaps_stored (slot : GuestWordSlot) (value : UInt32) :
    (stored m slot value).heaps = m.heaps := rfl

theorem bytes_stored {m : XeniaMemory η} {slot : GuestWordSlot} {value : UInt32} {x : Nat}
    (h : x < slot.address.toNat ∨ slot.address.toNat + 4 ≤ x) :
    (stored m slot value).bytes x = m.bytes x := XeniaMemory.bytes_store h

variable {X m call}

theorem write_of_storable {slot : GuestWordSlot} {value : UInt32} (h : Storable X m.heaps slot) :
    slot.write X m value = some (stored m slot value) := by
  rw [GuestWordSlot.write, Xenia.writeMemory]
  exact if_pos ((Xenia.isAccessible_write_iff (by decide)).2 h)

theorem write_of_not_storable {slot : GuestWordSlot} {value : UInt32}
    (h : ¬ Storable X m.heaps slot) : slot.write X m value = none := by
  rw [GuestWordSlot.write, Xenia.writeMemory]
  exact if_neg fun haccess => h ((Xenia.isAccessible_write_iff (by decide)).1 haccess)

variable {baseSlot sizeSlot : GuestWordSlot}

/-- Handing back a region: both words are stored, or the first one only, or none. -/
theorem answerRegion_cases (X : Xenia η) (m : XeniaMemory η) (call : GuestImportContext)
    (baseSlot sizeSlot : GuestWordSlot) (region : CommittedRange) :
    (Storable X m.heaps baseSlot ∧ Storable X m.heaps sizeSlot ∧
      answerRegion X m call baseSlot sizeSlot region =
        (stored (stored m baseSlot region.address) sizeSlot region.size,
          call.setReturnValue statusSuccess)) ∨
    (Storable X m.heaps baseSlot ∧ ¬ Storable X m.heaps sizeSlot ∧
      answerRegion X m call baseSlot sizeSlot region =
        (stored m baseSlot region.address, call.refuse .invalidGuestMemory)) ∨
    (¬ Storable X m.heaps baseSlot ∧
      answerRegion X m call baseSlot sizeSlot region =
        (m, call.refuse .invalidGuestMemory)) := by
  by_cases hbase : Storable X m.heaps baseSlot
  · have hkept : Storable X (stored m baseSlot region.address).heaps sizeSlot ↔
        Storable X m.heaps sizeSlot := by rw [heaps_stored]
    by_cases hsize : Storable X m.heaps sizeSlot
    · refine .inl ⟨hbase, hsize, ?_⟩
      simp only [answerRegion, write_of_storable hbase, write_of_storable (hkept.2 hsize)]
    · refine .inr (.inl ⟨hbase, hsize, ?_⟩)
      simp only [answerRegion, write_of_storable hbase,
        write_of_not_storable fun h => hsize (hkept.1 h)]
  · exact .inr (.inr ⟨hbase, by simp only [answerRegion, write_of_not_storable hbase]⟩)

/-! ## Allocating -/

variable (X m call)

/-- The region that the guest's words name. -/
def requestedRegion : Option RequestedRegion :=
  if (call.argument 0).toUInt32 = 0 ∨ (call.argument 1).toUInt32 = 0 then none
  else
    (GuestWordSlot.read X m ⟨(call.argument 0).toUInt32⟩).bind fun base =>
      (GuestWordSlot.read X m ⟨(call.argument 1).toUInt32⟩).map fun size => ⟨base, size⟩

/-- How the guest asks for it to be mapped. -/
def policyOf : AllocationPolicy :=
  ⟨(call.argument 2).toUInt32, X.fromXdkProtectFlags (call.argument 3).toUInt32⟩

/-- A size, and a type that allocates. -/
def Allocates (requested : RequestedRegion) (allocType : UInt32) : Prop :=
  requested.size ≠ 0 ∧ allocType &&& (memCommit ||| memReserve ||| memReset) ≠ 0 ∧
    allocType &&& memReset = 0

instance (requested : RequestedRegion) (allocType : UInt32) :
    Decidable (Allocates requested allocType) :=
  inferInstanceAs (Decidable (_ ∧ _ ∧ _))

/-- What a call asks of the heap, where it comes to that. -/
def preparedRequest : Option AllocationRequest :=
  (requestedRegion X m call).bind fun requested =>
    if Allocates requested (call.argument 2).toUInt32 then
      prepareRequest X requested (call.argument 2).toUInt32
    else none

/-- What the heap hands out, and the memory it leaves, newly committed pages zeroed. -/
def handedOut (request : AllocationRequest) (policy : AllocationPolicy) :
    Option (CommittedRange × XeniaMemory η) :=
  let performed := performAllocation X m request policy
  match performed.1.heap with
  | none => none
  | some heap =>
    if performed.1.pageSizeConflict ∨ performed.1.address = 0 then none
    else
      let region : CommittedRange := ⟨performed.1.address, request.size⟩
      some (region, if performed.1.wasCommitted then performed.2
        else zeroNewlyCommittedPages X performed.2 heap region policy)

variable {X m call}

theorem allocateRequested_cases (X : Xenia η) (m : XeniaMemory η) (call : GuestImportContext)
    (baseSlot sizeSlot : GuestWordSlot) (requested : RequestedRegion)
    (allocType protectBits : UInt32) :
    (∃ request, Allocates requested allocType ∧ prepareRequest X requested allocType =
        some request ∧
      allocateRequested X m call baseSlot sizeSlot requested allocType protectBits =
        allocatePrepared X m call baseSlot sizeSlot request
          ⟨allocType, X.fromXdkProtectFlags protectBits⟩) ∨
    ((Allocates requested allocType → prepareRequest X requested allocType = none) ∧
      (allocateRequested X m call baseSlot sizeSlot requested allocType protectBits).1 = m ∧
      ¬ Succeeded
        (allocateRequested X m call baseSlot sizeSlot requested allocType protectBits).2) := by
  by_cases hallocates : Allocates requested allocType
  · obtain ⟨hsize, htype, hreset⟩ := hallocates
    have hguard : ¬ (requested.size = 0 ∨
        allocType &&& (memCommit ||| memReserve ||| memReset) = 0 ∨
        (allocType &&& memReset ≠ 0 ∧ allocType &&& ~~~ memReset ≠ 0)) := by
      rintro (h | h | h)
      · exact hsize h
      · exact htype h
      · exact h.1 hreset
    cases hprepare : prepareRequest X requested allocType with
    | none =>
      refine .inr ⟨fun _ => rfl, ?_⟩
      rw [allocateRequested, if_neg hguard, if_neg (not_not.2 hreset), hprepare]
      exact ⟨rfl, not_succeeded_setReturnValue call (by decide)⟩
    | some request =>
      refine .inl ⟨request, ⟨hsize, htype, hreset⟩, rfl, ?_⟩
      rw [allocateRequested, if_neg hguard, if_neg (not_not.2 hreset), hprepare]
  · refine .inr ⟨fun h => absurd h hallocates, ?_⟩
    rw [allocateRequested]
    split
    · exact ⟨rfl, not_succeeded_setReturnValue call (by decide)⟩
    · next hguard =>
      rw [not_or, not_or] at hguard
      split
      · exact ⟨rfl, not_succeeded_refuse call _⟩
      · next hreset =>
        exact absurd ⟨hguard.1, hguard.2.1, not_not.1 hreset⟩ hallocates

theorem allocatePrepared_cases (X : Xenia η) (m : XeniaMemory η) (call : GuestImportContext)
    (baseSlot sizeSlot : GuestWordSlot) (request : AllocationRequest) (policy : AllocationPolicy) :
    (∃ region after, handedOut X m request policy = some (region, after) ∧
      allocatePrepared X m call baseSlot sizeSlot request policy =
        answerRegion X after call baseSlot sizeSlot region) ∨
    (handedOut X m request policy = none ∧
      (allocatePrepared X m call baseSlot sizeSlot request policy).1 =
        (performAllocation X m request policy).2 ∧
      ¬ Succeeded (allocatePrepared X m call baseSlot sizeSlot request policy).2) := by
  rw [allocatePrepared, handedOut]
  simp only
  by_cases hconflict : (performAllocation X m request policy).1.pageSizeConflict
  · refine .inr ⟨?_, ?_⟩
    · split
      · rfl
      · rw [if_pos (.inl hconflict)]
    · rw [if_pos hconflict]
      exact ⟨rfl, not_succeeded_setReturnValue call (by decide)⟩
  · rw [if_neg hconflict]
    cases hheap : (performAllocation X m request policy).1.heap with
    | none =>
      exact .inr ⟨rfl, rfl, not_succeeded_setReturnValue call (by decide)⟩
    | some heap =>
      by_cases haddress : (performAllocation X m request policy).1.address = 0
      · refine .inr ⟨if_pos (.inr haddress), ?_⟩
        simp only [if_pos haddress]
        exact ⟨trivial, not_succeeded_setReturnValue call (by decide)⟩
      · refine .inl ⟨_, _, if_neg (not_or.2 ⟨hconflict, haddress⟩), ?_⟩
        simp only [if_neg haddress]

/-- **How an allocation ends.** -/
theorem allocateVirtualMemory_cases (X : Xenia η) (m : XeniaMemory η) (call : GuestImportContext) :
    (∃ request region after, preparedRequest X m call = some request ∧
      handedOut X m request (policyOf X call) = some (region, after) ∧
      allocateVirtualMemory X m call = answerRegion X after call ⟨(call.argument 0).toUInt32⟩
        ⟨(call.argument 1).toUInt32⟩ region) ∨
    (∃ request, preparedRequest X m call = some request ∧
      handedOut X m request (policyOf X call) = none ∧
      (allocateVirtualMemory X m call).1 =
        (performAllocation X m request (policyOf X call)).2 ∧
      ¬ Succeeded (allocateVirtualMemory X m call).2) ∨
    (preparedRequest X m call = none ∧ (allocateVirtualMemory X m call).1 = m ∧
      ¬ Succeeded (allocateVirtualMemory X m call).2) := by
  rw [allocateVirtualMemory, preparedRequest, requestedRegion]
  by_cases hpointers : (call.argument 0).toUInt32 = 0 ∨ (call.argument 1).toUInt32 = 0
  · refine .inr (.inr ⟨?_, ?_⟩)
    · rw [if_pos hpointers]
      rfl
    · simp only [if_pos hpointers]
      exact ⟨trivial, not_succeeded_setReturnValue call (by decide)⟩
  · simp only [if_neg hpointers]
    cases hbase : GuestWordSlot.read X m ⟨(call.argument 0).toUInt32⟩ with
    | none => exact .inr (.inr ⟨rfl, rfl, not_succeeded_refuse call _⟩)
    | some base =>
      cases hsize : GuestWordSlot.read X m ⟨(call.argument 1).toUInt32⟩ with
      | none => exact .inr (.inr ⟨rfl, rfl, not_succeeded_refuse call _⟩)
      | some size =>
        simp only [Option.bind_some, Option.map_some]
        obtain ⟨request, hallocates, hprepare, heq⟩ | ⟨hnone, hsame, hno⟩ :=
          allocateRequested_cases X m call ⟨(call.argument 0).toUInt32⟩
            ⟨(call.argument 1).toUInt32⟩ ⟨base, size⟩ (call.argument 2).toUInt32
            (call.argument 3).toUInt32
        · rw [if_pos hallocates, hprepare, heq]
          obtain ⟨region, after, hout, heq'⟩ | ⟨hout, hsame, hno⟩ :=
            allocatePrepared_cases X m call ⟨(call.argument 0).toUInt32⟩
              ⟨(call.argument 1).toUInt32⟩ request (policyOf X call)
          · exact .inl ⟨request, region, after, rfl, hout, heq'⟩
          · exact .inr (.inl ⟨request, rfl, hout, hsame, hno⟩)
        · refine .inr (.inr ⟨?_, hsame, hno⟩)
          by_cases hallocates : Allocates ⟨base, size⟩ (call.argument 2).toUInt32
          · rw [if_pos hallocates, hnone hallocates]
          · rw [if_neg hallocates]

/-! ## The heap's operation -/

/-- The page of the address is committed. -/
def Committed (X : Xenia η) (heaps : η) (x : GuestAddress) : Prop :=
  X.state heaps x &&& memoryAllocationCommit ≠ 0

instance (X : Xenia η) (heaps : η) (x : GuestAddress) : Decidable (Committed X heaps x) :=
  inferInstanceAs (Decidable (_ ≠ _))

/-- The fixed allocation of a request. -/
def allocFixedFor (X : Xenia η) (m : XeniaMemory η) (request : AllocationRequest)
    (policy : AllocationPolicy) (heap : BaseHeap) : Bool × XeniaMemory η :=
  X.allocFixed heap request.base request.size request.pageSize (allocationFlags policy.allocType)
    policy.protect m

/-- The allocation of a request wherever the heap has room. -/
def allocFor (X : Xenia η) (m : XeniaMemory η) (request : AllocationRequest)
    (policy : AllocationPolicy) (heap : BaseHeap) : GuestAddress × XeniaMemory η :=
  X.alloc heap request.size request.pageSize (allocationFlags policy.allocType) policy.protect
    (decide (policy.allocType &&& memTopDown ≠ 0)) m

theorem performAllocation_fixed (m : XeniaMemory η) {request : AllocationRequest}
    (policy : AllocationPolicy) {heap : BaseHeap} (hbase : request.base ≠ 0)
    (hheap : X.lookupHeap request.base = some heap)
    (hpage : heap.pageSize = request.pageSize) :
    performAllocation X m request policy =
      ({ heap := some heap
         wasCommitted := decide (Committed X m.heaps request.base)
         address := if (allocFixedFor X m request policy heap).1 then request.base else 0 },
        (allocFixedFor X m request policy heap).2) := by
  have hnone : X.queryRegionInfo heap request.base m.heaps = none →
      ¬ Committed X m.heaps request.base := by
    intro hquery
    unfold Committed Xenia.state
    simp only [hheap, Option.bind_some, hquery]
    exact fun h => h rfl
  have hsome : ∀ info, X.queryRegionInfo heap request.base m.heaps = some info →
      (Committed X m.heaps request.base ↔ info.state &&& memoryAllocationCommit ≠ 0) := by
    intro info hquery
    unfold Committed Xenia.state
    simp only [hheap, Option.bind_some, hquery]
  rw [performAllocation]
  simp only [if_pos hbase, hheap, ne_eq, hpage, not_true_eq_false, if_false]
  cases hquery : X.queryRegionInfo heap request.base m.heaps with
  | none =>
    rw [decide_eq_false (hnone hquery)]
    rfl
  | some info =>
    rw [decide_eq_decide.2 (hsome info hquery)]
    rfl

theorem performAllocation_chosen (m : XeniaMemory η) {request : AllocationRequest}
    (policy : AllocationPolicy) {heap : BaseHeap} (hbase : request.base = 0)
    (hheap : X.lookupHeapByType false request.pageSize = some heap) :
    performAllocation X m request policy =
      ({ heap := some heap, address := (allocFor X m request policy heap).1 },
        (allocFor X m request policy heap).2) := by
  rw [performAllocation]
  simp only [if_neg (not_not.2 hbase), hheap]
  rfl

theorem handedOut_fixed {request : AllocationRequest} {policy : AllocationPolicy}
    {heap : BaseHeap} (hbase : request.base ≠ 0) (hheap : X.lookupHeap request.base = some heap)
    (hpage : heap.pageSize = request.pageSize) (hdone : (allocFixedFor X m request policy heap).1) :
    handedOut X m request policy = some (⟨request.base, request.size⟩,
      if Committed X m.heaps request.base then (allocFixedFor X m request policy heap).2
      else zeroNewlyCommittedPages X (allocFixedFor X m request policy heap).2 heap
        ⟨request.base, request.size⟩ policy) := by
  rw [handedOut, performAllocation_fixed m policy hbase hheap hpage]
  simp [hdone, hbase]

theorem handedOut_chosen {request : AllocationRequest} {policy : AllocationPolicy}
    {heap : BaseHeap} (hbase : request.base = 0)
    (hheap : X.lookupHeapByType false request.pageSize = some heap)
    (hne : (allocFor X m request policy heap).1 ≠ 0) :
    handedOut X m request policy =
      some (⟨(allocFor X m request policy heap).1, request.size⟩,
        zeroNewlyCommittedPages X (allocFor X m request policy heap).2 heap
          ⟨(allocFor X m request policy heap).1, request.size⟩ policy) := by
  rw [handedOut, performAllocation_chosen m policy hbase hheap]
  simp [hne]

/-- **What a request comes to.** The heap maps the pages that the request names,
or pages of its own choice where the request names none, or refuses; a request
that no heap takes ends before. -/
theorem handedOut_cases (X : Xenia η) (m : XeniaMemory η) (request : AllocationRequest)
    (policy : AllocationPolicy) :
    (∃ heap, request.base ≠ 0 ∧ X.lookupHeap request.base = some heap ∧
      heap.pageSize = request.pageSize ∧ (allocFixedFor X m request policy heap).1 ∧
      handedOut X m request policy = some (⟨request.base, request.size⟩,
        if Committed X m.heaps request.base then (allocFixedFor X m request policy heap).2
        else zeroNewlyCommittedPages X (allocFixedFor X m request policy heap).2 heap
          ⟨request.base, request.size⟩ policy)) ∨
    (∃ heap, request.base = 0 ∧ X.lookupHeapByType false request.pageSize = some heap ∧
      (allocFor X m request policy heap).1 ≠ 0 ∧
      handedOut X m request policy =
        some (⟨(allocFor X m request policy heap).1, request.size⟩,
          zeroNewlyCommittedPages X (allocFor X m request policy heap).2 heap
            ⟨(allocFor X m request policy heap).1, request.size⟩ policy)) ∨
    (handedOut X m request policy = none ∧
      ((performAllocation X m request policy).2 = m ∨
        (∃ heap, X.lookupHeap request.base = some heap ∧
          ¬ (allocFixedFor X m request policy heap).1 ∧
          (performAllocation X m request policy).2 = (allocFixedFor X m request policy heap).2) ∨
        ∃ heap, (allocFor X m request policy heap).1 = 0 ∧
          (performAllocation X m request policy).2 = (allocFor X m request policy heap).2)) := by
  by_cases hbase : request.base = 0
  · cases hheap : X.lookupHeapByType false request.pageSize with
    | none =>
      have hperform : performAllocation X m request policy = ({}, m) := by
        rw [performAllocation]
        simp only [if_neg (not_not.2 hbase), hheap]
      exact .inr (.inr ⟨by rw [handedOut, hperform], .inl (by rw [hperform])⟩)
    | some heap =>
      have hperform := performAllocation_chosen m policy hbase hheap
      by_cases haddress : (allocFor X m request policy heap).1 = 0
      · refine .inr (.inr ⟨?_, .inr (.inr ⟨heap, haddress, by rw [hperform]⟩)⟩)
        rw [handedOut, hperform]
        exact if_pos (.inr haddress)
      · exact .inr (.inl ⟨heap, hbase, rfl, haddress, handedOut_chosen hbase hheap haddress⟩)
  · cases hheap : X.lookupHeap request.base with
    | none =>
      have hperform : performAllocation X m request policy = ({}, m) := by
        rw [performAllocation]
        simp only [ne_eq, hbase, not_false_eq_true, if_true, hheap]
      exact .inr (.inr ⟨by rw [handedOut, hperform], .inl (by rw [hperform])⟩)
    | some heap =>
      by_cases hpage : heap.pageSize = request.pageSize
      · have hperform := performAllocation_fixed m policy hbase hheap hpage
        by_cases hdone : (allocFixedFor X m request policy heap).1
        · exact .inl ⟨heap, hbase, rfl, hpage, hdone, handedOut_fixed hbase hheap hpage hdone⟩
        · refine .inr (.inr ⟨?_, .inr (.inl ⟨heap, rfl, hdone, by rw [hperform]⟩)⟩)
          rw [handedOut, hperform]
          simp [hdone]
      · have hperform : performAllocation X m request policy =
            ({ heap := some heap, pageSizeConflict := true }, m) := by
          rw [performAllocation]
          simp only [ne_eq, hbase, not_false_eq_true, if_true, hheap, hpage]
        exact .inr (.inr ⟨by rw [handedOut, hperform]; simp, .inl (by rw [hperform])⟩)

/-- The words a successful call hands back, and where they lie. -/
theorem allocateVirtualMemory_succeeded
    (h : Succeeded (allocateVirtualMemory X m call).2) :
    ∃ request region after, preparedRequest X m call = some request ∧
      handedOut X m request (policyOf X call) = some (region, after) ∧
      (allocateVirtualMemory X m call).1 =
        stored (stored after ⟨(call.argument 0).toUInt32⟩ region.address)
          ⟨(call.argument 1).toUInt32⟩ region.size := by
  obtain ⟨request, region, after, hrequest, hout, heq⟩ | ⟨_, _, _, _, hno⟩ | ⟨_, _, hno⟩ :=
    allocateVirtualMemory_cases X m call
  · refine ⟨request, region, after, hrequest, hout, ?_⟩
    rw [heq] at h ⊢
    obtain ⟨-, -, hanswer⟩ | ⟨-, -, hanswer⟩ | ⟨-, hanswer⟩ :=
      answerRegion_cases X after call ⟨(call.argument 0).toUInt32⟩ ⟨(call.argument 1).toUInt32⟩
        region
    · rw [hanswer]
    · rw [hanswer] at h
      exact absurd h (not_succeeded_refuse call _)
    · rw [hanswer] at h
      exact absurd h (not_succeeded_refuse call _)
  · exact absurd h hno
  · exact absurd h hno

variable (X m call) in
/-- The range that the heap maps for a call, before the words are handed back. -/
def mappedRange : Option CommittedRange :=
  (preparedRequest X m call).bind fun request =>
    (handedOut X m request (policyOf X call)).map Prod.fst

theorem mappedRange_eq {request : AllocationRequest} {region : CommittedRange}
    {after : XeniaMemory η} (hrequest : preparedRequest X m call = some request)
    (hout : handedOut X m request (policyOf X call) = some (region, after)) :
    mappedRange X m call = some region := by
  rw [mappedRange, hrequest, Option.bind_some, hout, Option.map_some]

variable (X m call) in
/-- The range that the guest reads back out of its two words. -/
def returnedWords : CommittedRange :=
  ⟨loadWordAt (allocateVirtualMemory X m call).1.bytes (call.argument 0).toUInt32.toNat,
    loadWordAt (allocateVirtualMemory X m call).1.bytes (call.argument 1).toUInt32.toNat⟩

/-- The two words of a call share no byte. -/
def WordsApart (call : GuestImportContext) : Prop :=
  (call.argument 0).toUInt32.toNat + 4 ≤ (call.argument 1).toUInt32.toNat ∨
    (call.argument 1).toUInt32.toNat + 4 ≤ (call.argument 0).toUInt32.toNat

instance (call : GuestImportContext) : Decidable (WordsApart call) :=
  inferInstanceAs (Decidable (_ ∨ _))

/-- A base and a size stored as a call's two words: no byte is to hold both in two ways. -/
def WordsAgree (call : GuestImportContext) (range : CommittedRange) : Prop :=
  (wordPatch (call.argument 0).toUInt32.toNat range.address).Agrees
    (wordPatch (call.argument 1).toUInt32.toNat range.size)

theorem wordsAgree_of_apart (h : WordsApart call) (range : CommittedRange) :
    WordsAgree call range := Patch.agrees_of_disjoint h

/-- After a success the guest's words are the mapped range, except that the size, which is
stored last, may have gone over the base. -/
theorem words_of_succeeded (h : Succeeded (allocateVirtualMemory X m call).2) :
    ∃ range, mappedRange X m call = some range ∧
      (returnedWords X m call).size = range.size ∧
      ((returnedWords X m call).address = range.address ↔ WordsAgree call range) := by
  obtain ⟨request, region, after, hrequest, hout, hafter⟩ := allocateVirtualMemory_succeeded h
  have hsize : (wordPatch (call.argument 1).toUInt32.toNat region.size).HeldBy
      (allocateVirtualMemory X m call).1.bytes := by
    rw [hafter]
    exact Patch.heldBy_write _ _
  refine ⟨region, mappedRange_eq hrequest hout, heldBy_wordPatch_iff.1 hsize, ?_⟩
  rw [returnedWords, ← heldBy_wordPatch_iff]
  constructor
  · exact fun hbase => hbase.agrees hsize
  · intro hagree
    rw [hafter]
    exact (Patch.heldBy_write _ _).write hagree

end

end GuestVirtualMemory

end X360Port
