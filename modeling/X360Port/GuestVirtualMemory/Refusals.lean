import X360Port.GuestVirtualMemory.PagedEffects

/-!
# What an unsuccessful call leaves behind

The in/out words are read before the heap's operation and stored after it, and
either store can be refused. Nothing is taken back then.

A call that ends in anything but success has changed nothing, neither a page's
record nor a byte, exactly when its heap operation failed, or both words could
be stored after it, or it made nothing of its pages that they were not
(`unsuccessful_unchanged_iff`). A page that becomes part of another allocation or
gets another protection is not what it was.
-/

namespace X360Port

open Library

namespace GuestVirtualMemory

section

variable {η : Type}

/-- The records of all pages, what the heaps answer about any of them, and all bytes are the
same. -/
structure Unchanged {X : Xenia η} (records : PageRecords X) (m after : XeniaMemory η) : Prop where
  records : ∀ x, records.record after.heaps x = records.record m.heaps x
  queries : ∀ heap x, X.queryRegionInfo heap x after.heaps = X.queryRegionInfo heap x m.heaps
  bytes : after.bytes = m.bytes

/-- The operation makes another record of some page. -/
def Alters {X : Xenia η} (records : PageRecords X) (heaps : η) (op : HeapOperation) : Prop :=
  ∃ x, op.run.Covers X x ∧ op.record (records.record heaps x) ≠ records.record heaps x

open Classical in
/-- The guest may store the word once the operation is done. -/
def StorableAfter (X : Xenia η) (heaps : η) (op : HeapOperation) (slot : GuestWordSlot) : Prop :=
  slot.address.toNat + 4 ≤ 2 ^ 32 ∧
    (∃ heap, X.lookupHeap slot.address = some heap ∧
      X.lookupHeap (Xenia.lastOf slot.address 4) = some heap) ∧
    ∀ x : GuestAddress, slot.address.toNat ≤ x.toNat → x.toNat < slot.address.toNat + 4 →
      if op.run.Covers X x then op.writable (X.WritableAt heaps x) else X.WritableAt heaps x

/-- Nothing is left to undo: the words that are asked for can be stored after the operation,
or the operation alters no page and the word that is stored, if any, is the one read. -/
def Settled {X : Xenia η} (records : PageRecords X) (heaps : η) (op : HeapOperation)
    (baseSlot sizeSlot : GuestWordSlot) (base : UInt32) : Prop :=
  (StorableAfter X heaps op baseSlot ∧
    (sizeSlot.present → StorableAfter X heaps op sizeSlot)) ∨
  (¬ Alters records heaps op ∧ (StorableAfter X heaps op baseSlot → op.run.address = base))

variable {X : Xenia η} {m after : XeniaMemory η} {op : HeapOperation}

/-! ## Storing after an operation -/

theorem storable_iff (laws : HeapEffects X) {heaps : η} {slot : GuestWordSlot} :
    Storable X heaps slot ↔ slot.address.toNat + 4 ≤ 2 ^ 32 ∧
      (∃ heap, X.lookupHeap slot.address = some heap ∧
        X.lookupHeap (Xenia.lastOf slot.address 4) = some heap) ∧
      ∀ x : GuestAddress, slot.address.toNat ≤ x.toNat → x.toNat < slot.address.toNat + 4 →
        X.WritableAt heaps x := by
  rw [Storable, Xenia.Grants]
  constructor
  · rintro ⟨-, hwrap, heap, hfirst, hlast, haccess⟩
    have hend := Xenia.toNat_lastOf hwrap
    refine ⟨hwrap, ⟨heap, hfirst, hlast⟩, fun x hbegin hbelow => ⟨heap, ?_, ?_⟩⟩
    · exact laws.convex heap _ x _ hfirst hlast hbegin (by omega)
    · exact (laws.byBytes heap _ _ heaps hfirst hlast (by omega)).1 haccess x hbegin (by omega)
  · rintro ⟨hwrap, ⟨heap, hfirst, hlast⟩, hbytes⟩
    have hend := Xenia.toNat_lastOf hwrap
    refine ⟨by decide, hwrap, heap, hfirst, hlast, ?_⟩
    refine (laws.byBytes heap _ _ heaps hfirst hlast (by omega)).2 fun x hbegin hbelow => ?_
    obtain ⟨heap', hheap', haccess⟩ := hbytes x hbegin (by omega)
    have hsame := laws.convex heap _ x _ hfirst hlast hbegin hbelow
    rw [hsame, Option.some.injEq] at hheap'
    exact hheap' ▸ haccess

theorem storable_after_iff (laws : HeapEffects X) (heffect : op.Effect X m after)
    (slot : GuestWordSlot) :
    Storable X after.heaps slot ↔ StorableAfter X m.heaps op slot := by
  rw [storable_iff laws, StorableAfter]
  simp only [heffect.writable]

/-! ## The records after an operation -/

/-- The records are kept where the operation alters none, and nowhere else. -/
def Accounts (X : Xenia η) (op : HeapOperation) (m after : XeniaMemory η) : Prop :=
  ∀ records : PageRecords X, (∀ x, records.record after.heaps x = records.record m.heaps x) ↔
    ¬ Alters records m.heaps op

theorem accounts_of_records
    (h : ∀ records : PageRecords X, op.Records X records.record m.heaps after.heaps) :
    Accounts X op m after := by
  intro records
  simp only [h records _, Alters, not_exists, not_and, not_not]
  refine forall_congr' fun x => ?_
  split
  · next hcovers => simp [hcovers]
  · next hcovers => simp [hcovers]

/-- Another state is another record. -/
theorem alters_of_changes (records : PageRecords X) {heaps : η} (h : op.Changes X heaps) :
    Alters records heaps op := by
  obtain ⟨x, hcovers, hstate⟩ := h
  refine ⟨x, hcovers, fun hsame => hstate ?_⟩
  rw [records.state, ← op.state_record, hsame]

theorem accounts_of_changes (heffect : op.Effect X m after) (h : op.Changes X m.heaps) :
    Accounts X op m after := by
  intro records
  refine iff_of_false (fun hkept => ?_) fun hno => hno (alters_of_changes records h)
  obtain ⟨x, hcovers, hstate⟩ := h
  have hafter := heffect.state x
  rw [if_pos hcovers] at hafter
  apply hstate
  rw [← hafter, records.state, records.state, hkept]

/-! ## One word -/

theorem read_eq_loadWordAt {slot : GuestWordSlot} {value : UInt32}
    (h : slot.read X m = some value) : loadWordAt m.bytes slot.address.toNat = value := by
  rw [GuestWordSlot.read, Xenia.readMemory] at h
  split at h
  · rw [Option.map_some, Option.some.injEq] at h
    exact h
  · simp at h

/-- A word that is stored where it stands already changes nothing. -/
theorem stored_eq_iff {slot : GuestWordSlot} {value : UInt32} :
    (stored m slot value).bytes = m.bytes ↔ loadWordAt m.bytes slot.address.toNat = value := by
  have hheld := (wordPatch slot.address.toNat value).heldBy_write m.bytes
  constructor
  · intro h
    rw [← heldBy_wordPatch_iff]
    exact h ▸ hheld
  · intro h
    have hword := heldBy_wordPatch_iff.2 h
    funext x
    cases hcell : (wordPatch slot.address.toNat value).cellAt x with
    | none =>
      show ((wordPatch slot.address.toNat value).cellAt x).getD (m.bytes x) = m.bytes x
      rw [hcell]
      rfl
    | some b => exact (hheld x b hcell).trans (hword x b hcell).symm

/-- What a call hands back after its operation: nothing is changed in the end exactly when
nothing is left to undo. -/
theorem unchanged_iff (laws : HeapEffects X) (records : PageRecords X) (call : GuestImportContext)
    (heffect : op.Effect X m after) (haccounts : Accounts X op m after)
    {baseSlot sizeSlot : GuestWordSlot} {base : UInt32}
    (hbase : baseSlot.read X m = some base) {result : XeniaMemory η × GuestImportContext}
    (hanswer : (Storable X after.heaps baseSlot ∧
        (sizeSlot.present → Storable X after.heaps sizeSlot) ∧ Succeeded result.2) ∨
      (Storable X after.heaps baseSlot ∧ ¬ (sizeSlot.present → Storable X after.heaps sizeSlot) ∧
        result = (stored after baseSlot op.run.address, call.refuse .invalidGuestMemory)) ∨
      (¬ Storable X after.heaps baseSlot ∧ result = (after, call.refuse .invalidGuestMemory))) :
    (¬ Succeeded result.2 → Unchanged records m result.1) ↔
      Settled records m.heaps op baseSlot sizeSlot base := by
  have hunchanged : ∀ m' : XeniaMemory η, m'.heaps = after.heaps →
      (Unchanged records m m' ↔ ¬ Alters records m.heaps op ∧ m'.bytes = m.bytes) := by
    intro m' hheaps
    rw [← haccounts records, ← hheaps]
    refine ⟨fun h => ⟨h.records, h.bytes⟩, fun h => ⟨h.1, ?_, h.2⟩⟩
    exact records.determined _ _ h.1
  have hkeptBytes : ¬ Alters records m.heaps op → after.bytes = m.bytes := fun hkept =>
    heffect.bytes fun hchanges => hkept (alters_of_changes records hchanges)
  have hno : ¬ Succeeded (call.refuse .invalidGuestMemory) := not_succeeded_refuse call _
  rw [Settled, ← storable_after_iff laws heffect, ← storable_after_iff laws heffect]
  obtain ⟨hb, hs, hsucceeded⟩ | ⟨hb, hs, rfl⟩ | ⟨hb, rfl⟩ := hanswer
  · exact iff_of_true (fun hno => absurd hsucceeded hno) (.inl ⟨hb, hs⟩)
  · rw [hunchanged _ (heaps_stored _ _ _)]
    have hword : ¬ Alters records m.heaps op →
        ((stored after baseSlot op.run.address).bytes = m.bytes ↔ op.run.address = base) := by
      intro hkept
      have hsame := hkeptBytes hkept
      rw [← hsame, stored_eq_iff, hsame, read_eq_loadWordAt hbase]
      exact eq_comm
    constructor
    · intro h
      obtain ⟨hkept, hbytes⟩ := h hno
      exact .inr ⟨hkept, fun _ => (hword hkept).1 hbytes⟩
    · rintro (⟨-, hstore⟩ | ⟨hkept, hrepeat⟩) _
      · exact absurd hstore hs
      · exact ⟨hkept, (hword hkept).2 (hrepeat hb)⟩
  · rw [hunchanged _ rfl]
    constructor
    · intro h
      exact .inr ⟨(h hno).1, fun hstore => absurd hstore hb⟩
    · rintro (⟨hstore, -⟩ | ⟨hkept, -⟩) _
      · exact absurd hstore hb
      · exact ⟨hkept, hkeptBytes hkept⟩

/-! ## Allocating -/

/-- The heap operation of an allocation, where it succeeds. -/
def allocateOperation (X : Xenia η) (m : XeniaMemory η) (call : GuestImportContext) :
    Option HeapOperation :=
  (preparedRequest X m call).bind fun request =>
    if request.base ≠ 0 then
      (X.lookupHeap request.base).bind fun heap =>
        if heap.pageSize = request.pageSize ∧
            (allocFixedFor X m request (policyOf X call) heap).1 then
          some (mapping ⟨heap, request.base, request.size⟩
            (allocationFlags (policyOf X call).allocType) (policyOf X call).protect)
        else none
    else
      (X.lookupHeapByType false request.pageSize).bind fun heap =>
        if (allocFor X m request (policyOf X call) heap).1 ≠ 0 then
          some (mapping
            ⟨heap, (allocFor X m request (policyOf X call) heap).1, request.size⟩
            (allocationFlags (policyOf X call).allocType) (policyOf X call).protect)
        else none

/-- An effect is a matter of the heaps, and of the bytes where no page changes. -/
theorem effect_of_heaps (h : op.Effect X m after) {after' : XeniaMemory η}
    (hheaps : after'.heaps = after.heaps)
    (hbytes : ¬ op.Changes X m.heaps → after'.bytes = m.bytes) : op.Effect X m after' where
  state x := hheaps ▸ h.state x
  writable x := hheaps ▸ h.writable x
  bytes := hbytes

/-- Zeroing leaves the pages as the mapping made them. -/
theorem effect_zeroed (laws : HeapEffects X) {heap : BaseHeap} (range : CommittedRange)
    {policy : AllocationPolicy} {flags : UInt32}
    (hheap : X.lookupHeap range.address = some heap)
    (hsize : range.size.toNat % heap.pageSize.toNat = 0) (hprotect : GivenProtect X policy.protect)
    (hchanges : policy.allocType &&& memCommit ≠ 0 →
      (mapping ⟨heap, range.address, range.size⟩ flags policy.protect).Changes X m.heaps)
    (h : (mapping ⟨heap, range.address, range.size⟩ flags policy.protect).Effect X m after) :
    (mapping ⟨heap, range.address, range.size⟩ flags policy.protect).Effect X m
      (zeroNewlyCommittedPages X after heap range policy) := by
  rw [zeroNewlyCommittedPages]
  split
  · exact h
  · next hguard =>
    rw [not_or] at hguard
    have hnew := hchanges hguard.2
    split
    · exact effect_of_heaps h rfl fun hno => absurd hnew hno
    · have hopened := laws.protect heap range.address range.size
        (memoryProtectRead ||| memoryProtectWrite) after hheap hsize (.inl rfl)
      have hclosed := laws.protect heap range.address range.size policy.protect
        ((X.protect heap range.address range.size (memoryProtectRead ||| memoryProtectWrite)
          after).zero range.address range.size) hheap hsize hprotect
      refine ⟨fun x => ?_, fun x => ?_, fun hno => absurd hnew hno⟩
      · rw [hclosed.state, XeniaMemory.heaps_zero, hopened.state, h.state]
        by_cases hcovers : PageRun.Covers X ⟨heap, range.address, range.size⟩ x
        · simp only [protecting, mapping, hcovers, if_true, id_eq]
        · simp only [protecting, mapping, hcovers, if_false]
      · rw [hclosed.writable, XeniaMemory.heaps_zero, hopened.writable, h.writable]
        by_cases hcovers : PageRun.Covers X ⟨heap, range.address, range.size⟩ x
        · simp only [protecting, mapping, hcovers, if_true]
        · simp only [protecting, mapping, hcovers, if_false]

/-- The same of the records. -/
theorem records_zeroed (records : PageRecords X) {heaps : η} {heap : BaseHeap}
    (range : CommittedRange) {policy : AllocationPolicy} {flags : UInt32}
    (hheap : X.lookupHeap range.address = some heap)
    (hsize : range.size.toNat % heap.pageSize.toNat = 0) (hprotect : GivenProtect X policy.protect)
    (h : (mapping ⟨heap, range.address, range.size⟩ flags policy.protect).Records X records.record
      heaps after.heaps) :
    (mapping ⟨heap, range.address, range.size⟩ flags policy.protect).Records X records.record heaps
      (zeroNewlyCommittedPages X after heap range policy).heaps := by
  rw [zeroNewlyCommittedPages]
  split
  · exact h
  · split
    · exact h
    · intro x
      rw [records.protect heap range.address range.size policy.protect _ hheap hsize hprotect x,
        XeniaMemory.heaps_zero, records.protect heap range.address range.size
          (memoryProtectRead ||| memoryProtectWrite) after hheap hsize (.inl rfl) x, h x]
      by_cases hcovers : PageRun.Covers X ⟨heap, range.address, range.size⟩ x
      · simp only [protecting, mapping, hcovers, if_true]
      · simp only [protecting, mapping, hcovers, if_false]

/-- Every page of a whole number of pages, its first among them. -/
theorem covers_first {heap : BaseHeap} {address size : UInt32}
    (hheap : X.lookupHeap address = some heap)
    (hsize : size.toNat % heap.pageSize.toNat = 0) (hne : size ≠ 0) :
    PageRun.Covers X ⟨heap, address, size⟩ address := by
  have hpos : 0 < size.toNat := Word.toNat_pos hne
  have hpage : 0 < heap.pageSize.toNat := by
    rw [Nat.pos_iff_ne_zero]
    intro hzero
    rw [hzero, Nat.mod_zero] at hsize
    omega
  have hle : heap.pageSize.toNat ≤ size.toNat := Nat.le_of_dvd hpos (Nat.dvd_of_mod_eq_zero hsize)
  have hmod := Nat.mod_lt address.toNat hpage
  have hmodle := Nat.mod_le address.toNat heap.pageSize.toNat
  refine ⟨hheap, ?_, ?_⟩
  · exact Nat.sub_le _ _
  · simp only [PageRun.start]
    omega

/-- The flags of a commit commit. -/
theorem commit_of_flags {allocType : UInt32} (h : allocType &&& memCommit ≠ 0) :
    (memoryAllocationReserve ||| allocationFlags allocType) &&& memoryAllocationCommit ≠ 0 := by
  rw [allocationFlags, if_pos h]
  split
  · decide
  · decide

/-- A request is for a whole number of pages of the heap that serves it. -/
theorem preparedRequest_spec (laws : HeapEffects X) {call : GuestImportContext}
    {request : AllocationRequest} (h : preparedRequest X m call = some request) :
    AllocatingFlags (allocationFlags (policyOf X call).allocType) ∧ request.size ≠ 0 ∧
      (request.base ≠ 0 → request.size.toNat % request.pageSize.toNat = 0) ∧
      (request.base = 0 → request.size.toNat % largePageSize.toNat = 0 ∧
        (request.pageSize = smallPageSize ∨ request.pageSize = largePageSize)) := by
  rw [preparedRequest, Option.bind_eq_some_iff] at h
  obtain ⟨requested, -, h⟩ := h
  rw [Option.ite_none_right_eq_some] at h
  obtain ⟨⟨-, htype, hreset⟩, h⟩ := h
  refine ⟨allocatingFlags_of_type htype (not_not.2 hreset), ?_⟩
  rw [prepareRequest] at h
  cases hpage : requestPageSize X requested (call.argument 2).toUInt32 with
  | none => simp [hpage] at h
  | some pageSize =>
    simp only [hpage, Option.ite_none_left_eq_some, Option.some.injEq] at h
    obtain ⟨hsize, rfl⟩ := h
    refine ⟨hsize, fun hbase => ?_, fun hbase => ⟨?_, ?_⟩⟩
    · simp only [if_pos hbase]
      exact toNat_roundUp_mod _ _
    · simp only [if_neg (not_not.2 hbase)]
      exact toNat_roundUp_mod _ _
    · rw [requestPageSize] at hpage
      split at hpage
      · obtain ⟨heap, hheap, rfl⟩ := Option.map_eq_some_iff.1 hpage
        obtain ⟨hlookup, htype⟩ := lookupVirtualHeap_spec hheap
        exact laws.virtualPages _ _ hlookup htype
      · rw [Option.some.injEq] at hpage
        rw [← hpage]
        split
        · exact .inr rfl
        · exact .inl rfl

/-- A size in the larger pages is one in the heap's. -/
theorem whole_of_chosen (laws : HeapEffects X) {request : AllocationRequest} {heap : BaseHeap}
    (hlarge : request.size.toNat % largePageSize.toNat = 0)
    (hpages : request.pageSize = smallPageSize ∨ request.pageSize = largePageSize)
    (hheap : X.lookupHeapByType false request.pageSize = some heap) :
    request.size.toNat % heap.pageSize.toNat = 0 := by
  have h4 : smallPageSize.toNat = 4096 := rfl
  have h64 : largePageSize.toNat = 65536 := rfl
  rw [laws.byType heap request.pageSize hpages hheap]
  rcases hpages with hp | hp
  · rw [hp, h4]
    rw [h64] at hlarge
    omega
  · rwa [hp]

/-- The pages that a request names, mapped and zeroed where they were not committed. -/
theorem fixed_effect (laws : HeapEffects X) {request : AllocationRequest}
    {policy : AllocationPolicy} {heap : BaseHeap} (hflags : AllocatingFlags
      (allocationFlags policy.allocType)) (hprotect : GivenProtect X policy.protect)
    (hsize : request.size ≠ 0) (hheap : X.lookupHeap request.base = some heap)
    (hwhole : request.size.toNat % heap.pageSize.toNat = 0)
    (hdone : (allocFixedFor X m request policy heap).1) :
    (mapping ⟨heap, request.base, request.size⟩ (allocationFlags policy.allocType)
      policy.protect).Effect X m
      (if Committed X m.heaps request.base then (allocFixedFor X m request policy heap).2
      else zeroNewlyCommittedPages X (allocFixedFor X m request policy heap).2 heap
        ⟨request.base, request.size⟩ policy) := by
  have heffect := laws.allocFixed heap request.base request.size request.pageSize
    (allocationFlags policy.allocType) policy.protect m hheap hwhole hflags hprotect hdone
  split
  · exact heffect
  · next hfirst =>
    refine effect_zeroed laws ⟨request.base, request.size⟩ hheap hwhole hprotect
      (fun hcommit => ?_) heffect
    refine ⟨request.base, covers_first hheap hwhole hsize, fun hsame => hfirst ?_⟩
    rw [Committed, ← hsame]
    exact commit_of_flags hcommit

/-- A page that is not reserved gets another state. -/
theorem changes_of_unreserved {heap : BaseHeap} {address size flags protect : UInt32}
    (hflags : AllocatingFlags flags) {x : GuestAddress}
    (hcovers : PageRun.Covers X ⟨heap, address, size⟩ x) {heaps : η}
    (h : X.state heaps x &&& memoryAllocationReserve = 0) :
    (mapping ⟨heap, address, size⟩ flags protect).Changes X heaps := by
  refine ⟨x, hcovers, fun hsame => ?_⟩
  have hsame : memoryAllocationReserve ||| flags = X.state heaps x := hsame
  rw [← hsame] at h
  rcases hflags with rfl | rfl | rfl
  · exact absurd h (by decide)
  · exact absurd h (by decide)
  · exact absurd h (by decide)

/-- What becomes of the records of pages that a request names. -/
theorem fixed_accounts (laws : HeapEffects X) {request : AllocationRequest}
    {policy : AllocationPolicy} {heap : BaseHeap} (hflags : AllocatingFlags
      (allocationFlags policy.allocType)) (hprotect : GivenProtect X policy.protect)
    (hsize : request.size ≠ 0) (hheap : X.lookupHeap request.base = some heap)
    (hwhole : request.size.toNat % heap.pageSize.toNat = 0)
    (hdone : (allocFixedFor X m request policy heap).1) :
    Accounts X (mapping ⟨heap, request.base, request.size⟩ (allocationFlags policy.allocType)
      policy.protect) m
      (if Committed X m.heaps request.base then (allocFixedFor X m request policy heap).2
      else zeroNewlyCommittedPages X (allocFixedFor X m request policy heap).2 heap
        ⟨request.base, request.size⟩ policy) := by
  by_cases hwithin : allocationFlags policy.allocType &&& memoryAllocationReserve ≠ 0 ∨
      ∀ x, PageRun.Covers X ⟨heap, request.base, request.size⟩ x →
        X.state m.heaps x &&& memoryAllocationReserve ≠ 0
  · refine accounts_of_records fun records => ?_
    have hmapped := records.allocFixed heap request.base request.size request.pageSize
      (allocationFlags policy.allocType) policy.protect m hheap hwhole hflags hprotect hdone
      (hwithin.imp_right fun h x hx => records.state m.heaps x ▸ h x hx)
    split
    · exact hmapped
    · exact records_zeroed records ⟨request.base, request.size⟩ hheap hwhole hprotect hmapped
  · obtain ⟨-, hunreserved⟩ := not_or.1 hwithin
    simp only [not_forall, not_not] at hunreserved
    obtain ⟨x, hcovers, hx⟩ := hunreserved
    exact accounts_of_changes (fixed_effect laws hflags hprotect hsize hheap hwhole hdone)
      (changes_of_unreserved hflags hcovers hx)

/-- Pages of the heap's choice: they were free. -/
theorem chosen_effect (laws : HeapEffects X) {request : AllocationRequest}
    {policy : AllocationPolicy} {heap : BaseHeap} (hflags : AllocatingFlags
      (allocationFlags policy.allocType)) (hprotect : GivenProtect X policy.protect)
    (hsize : request.size ≠ 0) (hheap : X.lookupHeapByType false request.pageSize = some heap)
    (hwhole : request.size.toNat % heap.pageSize.toNat = 0)
    (hdone : (allocFor X m request policy heap).1 ≠ 0) :
    (mapping ⟨heap, (allocFor X m request policy heap).1, request.size⟩
      (allocationFlags policy.allocType) policy.protect).Effect X m
      (zeroNewlyCommittedPages X (allocFor X m request policy heap).2 heap
        ⟨(allocFor X m request policy heap).1, request.size⟩ policy) := by
  obtain ⟨haddress, heffect⟩ := laws.alloc heap request.pageSize request.size
    request.pageSize (allocationFlags policy.allocType) policy.protect
    (decide (policy.allocType &&& memTopDown ≠ 0)) m hheap hwhole hflags hprotect hdone
  refine effect_zeroed laws ⟨(allocFor X m request policy heap).1, request.size⟩ haddress hwhole
    hprotect (fun _ => ?_) heffect
  have hcovers := covers_first haddress hwhole hsize
  have hfree := laws.alloc_free heap request.pageSize request.size request.pageSize
    (allocationFlags policy.allocType) policy.protect
    (decide (policy.allocType &&& memTopDown ≠ 0)) m _ hheap hwhole hdone hcovers
  exact changes_of_unreserved hflags hcovers (by rw [hfree, UInt32.zero_and])

theorem chosen_accounts (laws : HeapEffects X) {request : AllocationRequest}
    {policy : AllocationPolicy} {heap : BaseHeap} (hflags : AllocatingFlags
      (allocationFlags policy.allocType)) (hprotect : GivenProtect X policy.protect)
    (hsize : request.size ≠ 0) (hheap : X.lookupHeapByType false request.pageSize = some heap)
    (hwhole : request.size.toNat % heap.pageSize.toNat = 0)
    (hdone : (allocFor X m request policy heap).1 ≠ 0) :
    Accounts X (mapping ⟨heap, (allocFor X m request policy heap).1, request.size⟩
      (allocationFlags policy.allocType) policy.protect) m
      (zeroNewlyCommittedPages X (allocFor X m request policy heap).2 heap
        ⟨(allocFor X m request policy heap).1, request.size⟩ policy) := by
  obtain ⟨haddress, -⟩ := laws.alloc heap request.pageSize request.size
    request.pageSize (allocationFlags policy.allocType) policy.protect
    (decide (policy.allocType &&& memTopDown ≠ 0)) m hheap hwhole hflags hprotect hdone
  have hcovers := covers_first haddress hwhole hsize
  have hfree := laws.alloc_free heap request.pageSize request.size request.pageSize
    (allocationFlags policy.allocType) policy.protect
    (decide (policy.allocType &&& memTopDown ≠ 0)) m _ hheap hwhole hdone hcovers
  refine accounts_of_changes (chosen_effect laws hflags hprotect hsize hheap hwhole hdone)
    (changes_of_unreserved hflags hcovers ?_)
  rw [hfree, UInt32.zero_and]

/-- A request that no heap serves is no operation. -/
theorem allocateOperation_eq_none {call : GuestImportContext} {request : AllocationRequest}
    (h : preparedRequest X m call = some request)
    (hout : handedOut X m request (policyOf X call) = none) :
    allocateOperation X m call = none := by
  rw [allocateOperation, h, Option.bind_some]
  by_cases hbase : request.base = 0
  · rw [if_neg (not_not.2 hbase)]
    cases hheap : X.lookupHeapByType false request.pageSize with
    | none => rfl
    | some heap =>
      refine if_neg fun hne => ?_
      rw [handedOut_chosen hbase hheap hne] at hout
      simp at hout
  · rw [if_pos hbase]
    cases hheap : X.lookupHeap request.base with
    | none => rfl
    | some heap =>
      refine if_neg fun hdone => ?_
      rw [handedOut_fixed hbase hheap hdone.1 hdone.2] at hout
      simp at hout

/-- What an allocation has done by the time it hands back the words. -/
theorem handedOut_effect (laws : HeapEffects X) {call : GuestImportContext}
    {request : AllocationRequest} (h : preparedRequest X m call = some request) :
    (∃ op region after, allocateOperation X m call = some op ∧
      handedOut X m request (policyOf X call) = some (region, after) ∧
      op.run.address = region.address ∧ op.Effect X m after ∧ Accounts X op m after) ∨
    (allocateOperation X m call = none ∧ handedOut X m request (policyOf X call) = none ∧
      (performAllocation X m request (policyOf X call)).2 = m) := by
  obtain ⟨hflags, hsize, hfixed, hchosen⟩ := preparedRequest_spec laws h
  have hprotect : GivenProtect X (policyOf X call).protect := .inr ⟨_, rfl⟩
  obtain ⟨heap, hbase, hheap, hpage, hdone, hout⟩ | ⟨heap, hbase, hheap, hdone, hout⟩ |
      ⟨hout, hkept⟩ := handedOut_cases X m request (policyOf X call)
  · have hwhole : request.size.toNat % heap.pageSize.toNat = 0 := hpage ▸ hfixed hbase
    refine .inl ⟨_, _, _, ?_, hout, rfl,
      fixed_effect laws hflags hprotect hsize hheap hwhole hdone,
      fixed_accounts laws hflags hprotect hsize hheap hwhole hdone⟩
    rw [allocateOperation, h, Option.bind_some, if_pos hbase, hheap, Option.bind_some,
      if_pos ⟨hpage, hdone⟩]
  · obtain ⟨hlarge, hpages⟩ := hchosen hbase
    have hwhole := whole_of_chosen laws hlarge hpages hheap
    refine .inl ⟨_, _, _, ?_, hout, rfl,
      chosen_effect laws hflags hprotect hsize hheap hwhole hdone,
      chosen_accounts laws hflags hprotect hsize hheap hwhole hdone⟩
    rw [allocateOperation, h, Option.bind_some, if_neg (not_not.2 hbase), hheap, Option.bind_some,
      if_pos hdone]
  · refine .inr ⟨allocateOperation_eq_none h hout, hout, ?_⟩
    obtain hkept | ⟨heap, -, hdone, hkept⟩ | ⟨heap, hdone, hkept⟩ := hkept
    · exact hkept
    · rw [hkept]
      exact laws.allocFixed_failed _ _ _ _ _ _ _ hdone
    · rw [hkept]
      exact laws.alloc_failed _ _ _ _ _ _ _ hdone

theorem unchanged_refl (records : PageRecords X) (m : XeniaMemory η) : Unchanged records m m :=
  ⟨fun _ => rfl, fun _ _ => rfl, rfl⟩

theorem requestedRegion_spec {call : GuestImportContext} {requested : RequestedRegion}
    (h : requestedRegion X m call = some requested) :
    (call.argument 1).toUInt32 ≠ 0 ∧
      GuestWordSlot.read X m ⟨(call.argument 0).toUInt32⟩ = some requested.base := by
  rw [requestedRegion, Option.ite_none_left_eq_some, not_or] at h
  obtain ⟨⟨-, hsize⟩, h⟩ := h
  obtain ⟨base, hbase, h⟩ := Option.bind_eq_some_iff.1 h
  obtain ⟨size, -, rfl⟩ := Option.map_eq_some_iff.1 h
  exact ⟨hsize, hbase⟩

/-- An allocation whose heap operation succeeds has nothing to undo. -/
def AllocationSettled {X : Xenia η} (records : PageRecords X) (m : XeniaMemory η)
    (call : GuestImportContext) : Prop :=
  ∀ op requested, allocateOperation X m call = some op →
    requestedRegion X m call = some requested →
    Settled records m.heaps op ⟨(call.argument 0).toUInt32⟩ ⟨(call.argument 1).toUInt32⟩
      requested.base

theorem allocate_unchanged_iff (laws : HeapEffects X) (records : PageRecords X)
    {call : GuestImportContext} (hcall : call.refusal = none) :
    (¬ Succeeded (allocateVirtualMemory X m call).2 →
      Unchanged records m (allocateVirtualMemory X m call).1) ↔
      AllocationSettled records m call := by
  obtain ⟨request, region, after, hrequest, hout, heq⟩ | ⟨request, hrequest, hout, hmemory, -⟩ |
      ⟨hrequest, hmemory, -⟩ := allocateVirtualMemory_cases X m call
  · obtain ⟨op, region', after', hop, hout', haddress, heffect, haccounts⟩ | ⟨-, hno, -⟩ :=
      handedOut_effect laws hrequest
    · rw [hout, Option.some.injEq, Prod.mk.injEq] at hout'
      obtain ⟨rfl, rfl⟩ := hout'
      obtain ⟨requested, hrequested, -⟩ := Option.bind_eq_some_iff.1 hrequest
      obtain ⟨hsize, hread⟩ := requestedRegion_spec hrequested
      have hpresent : (GuestWordSlot.mk (call.argument 1).toUInt32).present := by
        simpa [GuestWordSlot.present] using hsize
      have hsettled : AllocationSettled records m call ↔
          Settled records m.heaps op ⟨(call.argument 0).toUInt32⟩ ⟨(call.argument 1).toUInt32⟩
            requested.base := by
        constructor
        · exact fun h => h op requested hop hrequested
        · intro h op' requested' hop' hrequested'
          rw [hop, Option.some.injEq] at hop'
          rw [hrequested, Option.some.injEq] at hrequested'
          subst hop' hrequested'
          exact h
      rw [hsettled]
      rw [heq]
      refine unchanged_iff laws records call heffect haccounts hread ?_
      rw [haddress]
      obtain ⟨hb, hs, h⟩ | ⟨hb, hs, h⟩ | ⟨hb, h⟩ := answerRegion_cases X after call
        ⟨(call.argument 0).toUInt32⟩ ⟨(call.argument 1).toUInt32⟩ region
      · exact .inl ⟨hb, fun _ => hs, by rw [h]; exact ⟨hcall, rfl⟩⟩
      · exact .inr (.inl ⟨hb, fun hstore => hs (hstore hpresent), h⟩)
      · exact .inr (.inr ⟨hb, h⟩)
    · rw [hout] at hno
      simp at hno
  · obtain ⟨_, _, _, _, hout', _⟩ | ⟨hop, -, hkept⟩ := handedOut_effect laws hrequest
    · rw [hout] at hout'
      simp at hout'
    · rw [hmemory, hkept]
      refine iff_of_true (fun _ => unchanged_refl records m) fun op requested hop' _ => ?_
      rw [hop] at hop'
      simp at hop'
  · rw [hmemory]
    refine iff_of_true (fun _ => unchanged_refl records m) fun op requested hop _ => ?_
    rw [allocateOperation, hrequest] at hop
    simp at hop

/-! ## Freeing -/

/-- What a free does to its pages. -/
def freeing (freeType : UInt32) (run : PageRun) : HeapOperation :=
  if decommitOnly freeType then decommitting run else releasing run

theorem freeing_run (freeType : UInt32) (run : PageRun) : (freeing freeType run).run = run := by
  rw [freeing]
  split
  · rfl
  · rfl

/-- The heap operation of a free, where it succeeds. -/
def freeOperation (X : Xenia η) (m : XeniaMemory η) (call : GuestImportContext) :
    Option HeapOperation :=
  (freedByGuest X m call).map (freeing (call.argument 2).toUInt32)

/-- A free whose heap operation succeeds has nothing to undo. -/
def FreeSettled {X : Xenia η} (records : PageRecords X) (m : XeniaMemory η)
    (call : GuestImportContext) : Prop :=
  ∀ op, freeOperation X m call = some op →
    Settled records m.heaps op ⟨(call.argument 0).toUInt32⟩ ⟨(call.argument 1).toUInt32⟩
      op.run.address

/-- A free hands back its words: those that it has, or the first only, or none. -/
theorem answerFree_cases (X : Xenia η) (m : XeniaMemory η) {call : GuestImportContext}
    (hcall : call.refusal = none) (baseSlot sizeSlot : GuestWordSlot) (address size : UInt32) :
    (Storable X m.heaps baseSlot ∧ (sizeSlot.present → Storable X m.heaps sizeSlot) ∧
      Succeeded (answerFree X m call baseSlot sizeSlot address size).2) ∨
    (Storable X m.heaps baseSlot ∧ ¬ (sizeSlot.present → Storable X m.heaps sizeSlot) ∧
      answerFree X m call baseSlot sizeSlot address size =
        (stored m baseSlot address, call.refuse .invalidGuestMemory)) ∨
    (¬ Storable X m.heaps baseSlot ∧
      answerFree X m call baseSlot sizeSlot address size =
        (m, call.refuse .invalidGuestMemory)) := by
  rw [answerFree]
  by_cases hbase : Storable X m.heaps baseSlot
  · rw [write_of_storable hbase]
    by_cases hpresent : sizeSlot.present
    · have hkept : Storable X (stored m baseSlot address).heaps sizeSlot ↔
          Storable X m.heaps sizeSlot := by rw [heaps_stored]
      by_cases hsize : Storable X m.heaps sizeSlot
      · refine .inl ⟨hbase, fun _ => hsize, ?_⟩
        simp only [hpresent, write_of_storable (hkept.2 hsize)]
        exact ⟨hcall, rfl⟩
      · refine .inr (.inl ⟨hbase, fun h => hsize (h hpresent), ?_⟩)
        simp only [hpresent, write_of_not_storable fun h => hsize (hkept.1 h)]
        rfl
    · refine .inl ⟨hbase, fun h => absurd h hpresent, ?_⟩
      simp only [hpresent]
      exact ⟨hcall, rfl⟩
  · refine .inr (.inr ⟨hbase, ?_⟩)
    rw [write_of_not_storable hbase]

theorem freedInHeap_effect (laws : HeapEffects X) (call : GuestImportContext)
    (baseSlot sizeSlot : GuestWordSlot) {address : GuestAddress} (freeType : UInt32)
    {heap : BaseHeap} (hheap : X.lookupHeap address = some heap) :
    (∃ size after, freedInHeap X m sizeSlot address freeType heap = some ⟨heap, address, size⟩ ∧
      (freeing freeType ⟨heap, address, size⟩).Effect X m after ∧
      Accounts X (freeing freeType ⟨heap, address, size⟩) m after ∧
      freeInHeap X m call baseSlot sizeSlot address freeType heap =
        answerFree X after call baseSlot sizeSlot address size) ∨
    (freedInHeap X m sizeSlot address freeType heap = none ∧
      (freeInHeap X m call baseSlot sizeSlot address freeType heap).1 = m) := by
  simp only [freedInHeap, freeInHeap, freeing]
  by_cases hdecommit : decommitOnly freeType
  · simp only [if_pos hdecommit]
    cases hsize : if sizeSlot.present then sizeSlot.read X m else none with
    | none => exact .inr ⟨rfl, rfl⟩
    | some requested =>
      simp only
      by_cases hzero : roundUp requested heap.pageSize = 0
      · exact .inr ⟨if_neg fun h => h.1 hzero, by rw [if_pos hzero]⟩
      · rw [if_neg hzero]
        by_cases hdone : (X.decommit heap address (roundUp requested heap.pageSize) m).1
        · have heffect := laws.decommit heap address (roundUp requested heap.pageSize) m hheap
            (toNat_roundUp_mod _ _) hdone
          have haccounts := accounts_of_records fun records : PageRecords X =>
            records.decommit heap address (roundUp requested heap.pageSize) m hheap
              (toNat_roundUp_mod _ _) hdone
          exact .inl ⟨_, _, if_pos ⟨hzero, hdone⟩, heffect, haccounts,
            by rw [if_neg (by simp [hdone])]⟩
        · refine .inr ⟨if_neg fun h => hdone h.2, ?_⟩
          rw [if_pos hdone]
          exact laws.decommit_failed _ _ _ _ hdone
  · simp only [if_neg hdecommit]
    cases hrelease : X.release heap address m with
    | mk answer after =>
      cases answer with
      | none =>
        have hkept := laws.release_failed heap address m (by rw [hrelease])
        rw [hrelease] at hkept
        exact .inr ⟨rfl, hkept⟩
      | some size =>
        have heffect := laws.release heap address size m hheap (by rw [hrelease])
        have haccounts := accounts_of_records fun records : PageRecords X =>
          records.release heap address size m hheap (by rw [hrelease])
        rw [hrelease] at heffect haccounts
        exact .inl ⟨size, after, rfl, heffect, haccounts, rfl⟩

/-- What a free has done by the time it hands back the words. -/
theorem freedByGuest_effect (laws : HeapEffects X) (call : GuestImportContext) :
    (∃ run after, freedByGuest X m call = some run ∧
      GuestWordSlot.read X m ⟨(call.argument 0).toUInt32⟩ = some run.address ∧
      (freeing (call.argument 2).toUInt32 run).Effect X m after ∧
      Accounts X (freeing (call.argument 2).toUInt32 run) m after ∧
      freeVirtualMemory X m call = answerFree X after call ⟨(call.argument 0).toUInt32⟩
        ⟨(call.argument 1).toUInt32⟩ run.address run.size) ∨
    (freedByGuest X m call = none ∧ (freeVirtualMemory X m call).1 = m) := by
  rw [freedByGuest, freeVirtualMemory]
  by_cases hpointer : (call.argument 0).toUInt32 = 0
  · exact .inr ⟨if_pos hpointer, by rw [if_pos hpointer]⟩
  · simp only [if_neg hpointer]
    cases hread : GuestWordSlot.read X m ⟨(call.argument 0).toUInt32⟩ with
    | none => exact .inr ⟨rfl, rfl⟩
    | some address =>
      by_cases hzero : address = 0
      · exact .inr ⟨if_pos hzero, by simp only [if_pos hzero]⟩
      · simp only [if_neg hzero]
        cases hheap : lookupVirtualHeap X address with
        | none => exact .inr ⟨rfl, rfl⟩
        | some heap =>
          obtain ⟨hlookup, -⟩ := lookupVirtualHeap_spec hheap
          obtain ⟨size, after, hfreed, heffect, haccounts, heq⟩ | ⟨hfreed, hkept⟩ :=
            freedInHeap_effect (m := m) laws call ⟨(call.argument 0).toUInt32⟩
              ⟨(call.argument 1).toUInt32⟩ (call.argument 2).toUInt32 hlookup
          · exact .inl ⟨_, after, hfreed, rfl, heffect, haccounts, heq⟩
          · exact .inr ⟨hfreed, hkept⟩

theorem free_unchanged_iff (laws : HeapEffects X) (records : PageRecords X)
    {call : GuestImportContext} (hcall : call.refusal = none) :
    (¬ Succeeded (freeVirtualMemory X m call).2 →
      Unchanged records m (freeVirtualMemory X m call).1) ↔ FreeSettled records m call := by
  obtain ⟨run, after, hrun, hread, heffect, haccounts, heq⟩ | ⟨hrun, hmemory⟩ :=
    freedByGuest_effect (m := m) laws call
  · have hop : freeOperation X m call = some (freeing (call.argument 2).toUInt32 run) := by
      rw [freeOperation, hrun, Option.map_some]
    have haddress : (freeing (call.argument 2).toUInt32 run).run.address = run.address :=
      congrArg PageRun.address (freeing_run _ run)
    have hsettled : FreeSettled records m call ↔
        Settled records m.heaps (freeing (call.argument 2).toUInt32 run)
          ⟨(call.argument 0).toUInt32⟩ ⟨(call.argument 1).toUInt32⟩ run.address := by
      constructor
      · exact fun h => haddress ▸ h _ hop
      · intro h op' hop'
        rw [hop, Option.some.injEq] at hop'
        subst hop'
        exact haddress.symm ▸ h
    rw [hsettled]
    rw [heq]
    refine unchanged_iff laws records call heffect haccounts hread ?_
    rw [haddress]
    exact answerFree_cases X after hcall ⟨(call.argument 0).toUInt32⟩
      ⟨(call.argument 1).toUInt32⟩ run.address run.size
  · rw [hmemory]
    refine iff_of_true (fun _ => unchanged_refl records m) fun op hop => ?_
    rw [freeOperation, hrun] at hop
    simp at hop

/-- **Main result.** An allocation or a free that ends in anything but success has changed
nothing exactly when its heap operation failed or left nothing to undo. -/
theorem unsuccessful_unchanged_iff (laws : HeapEffects X) (records : PageRecords X)
    (m : XeniaMemory η) (call : GuestImportContext) (hcall : call.refusal = none) :
    ((¬ Succeeded (allocateVirtualMemory X m call).2 →
        Unchanged records m (allocateVirtualMemory X m call).1) ↔
      AllocationSettled records m call) ∧
    ((¬ Succeeded (freeVirtualMemory X m call).2 →
        Unchanged records m (freeVirtualMemory X m call).1) ↔ FreeSettled records m call) :=
  ⟨allocate_unchanged_iff laws records hcall, free_unchanged_iff laws records hcall⟩

end

/-! ## On the paged memory -/

section

open PageTable

/-- A writable page for the guest's words and one that is read-only, with the words of an
allocation at `0x20000` and `0x21000` and that of a free at `0x21004`. -/
def lockedMemory : XeniaMemory PageTable where
  heaps p :=
    if p = 0x20 then taken 0x20 1 3 3
    else if p = 0x21 then taken 0x21 1 3 1
    else if p = 0x12 then taken 0x12 1 3 3
    else {}
  bytes a :=
    if a = 0x20001 then 1 else if a = 0x21002 then 0x10
    else if a = 0x21005 then 1 else if a = 0x21006 then 0x20
    else 0

/-- Nothing lies at `0x10000`, and the free says so. -/
theorem unsuccessful_unchanged_free :
    ¬ Succeeded (freeVirtualMemory paged lockedMemory (.make [0x20000, 0, 0x8000])).2 ∧
      Unchanged pagedRecords lockedMemory
        (freeVirtualMemory paged lockedMemory (.make [0x20000, 0, 0x8000])).1 := by
  have hno : ¬ Succeeded
      (freeVirtualMemory paged lockedMemory (.make [0x20000, 0, 0x8000])).2 := by decide +kernel
  have hfreed : freedByGuest paged lockedMemory (.make [0x20000, 0, 0x8000]) = none := by
    decide +kernel
  have hiff := (unsuccessful_unchanged_iff pagedEffects pagedRecords lockedMemory
    (.make [0x20000, 0, 0x8000]) rfl).2
  refine ⟨hno, hiff.2 (fun op hop => ?_) hno⟩
  rw [freeOperation, hfreed] at hop
  simp at hop

/-- An allocation of two committed pages, and the words of a request for the second one. -/
def reservedMemory : XeniaMemory PageTable where
  heaps p :=
    if p = 0x20 then taken 0x20 1 3 3
    else if p = 0x21 then taken 0x21 1 3 1
    else if p = 0x12 ∨ p = 0x13 then taken 0x12 2 3 3
    else {}
  bytes a :=
    if a = 0x20001 then 1 else if a = 0x20002 then 0x30 else if a = 0x21002 then 0x10 else 0

/-- The size word of an allocation and the base word of a free cannot be stored: the calls
are refused after the page is mapped, after it is released, and after a committed page of one
allocation is made one of its own. -/
theorem refused_after_operation : HeapEffects paged ∧
    (¬ Succeeded (allocateVirtualMemory paged lockedMemory
        (.make [0x20000, 0x21000, 0x3000, 0x04])).2 ∧
      ¬ Unchanged pagedRecords lockedMemory (allocateVirtualMemory paged lockedMemory
        (.make [0x20000, 0x21000, 0x3000, 0x04])).1) ∧
    (¬ Succeeded (freeVirtualMemory paged lockedMemory (.make [0x21004, 0, 0x8000])).2 ∧
      ¬ Unchanged pagedRecords lockedMemory
        (freeVirtualMemory paged lockedMemory (.make [0x21004, 0, 0x8000])).1) ∧
    (¬ Succeeded (allocateVirtualMemory paged reservedMemory
        (.make [0x20000, 0x21000, 0x3000, 0x04])).2 ∧
      ¬ Unchanged pagedRecords reservedMemory (allocateVirtualMemory paged reservedMemory
        (.make [0x20000, 0x21000, 0x3000, 0x04])).1) := by
  have hallocate : PageTable.record (allocateVirtualMemory paged lockedMemory
        (.make [0x20000, 0x21000, 0x3000, 0x04])).1.heaps 0x10000 ≠
      PageTable.record lockedMemory.heaps 0x10000 := by decide +kernel
  have hfree : PageTable.record (freeVirtualMemory paged lockedMemory
        (.make [0x21004, 0, 0x8000])).1.heaps 0x12000 ≠
      PageTable.record lockedMemory.heaps 0x12000 := by decide +kernel
  have hrebased : PageTable.record (allocateVirtualMemory paged reservedMemory
        (.make [0x20000, 0x21000, 0x3000, 0x04])).1.heaps 0x13000 ≠
      PageTable.record reservedMemory.heaps 0x13000 := by decide +kernel
  refine ⟨pagedEffects, ⟨by decide +kernel, ?_⟩, ⟨by decide +kernel, ?_⟩, by decide +kernel, ?_⟩
  · exact fun h => hallocate (h.records 0x10000)
  · exact fun h => hfree (h.records 0x12000)
  · exact fun h => hrebased (h.records 0x13000)

end

end GuestVirtualMemory

end X360Port
