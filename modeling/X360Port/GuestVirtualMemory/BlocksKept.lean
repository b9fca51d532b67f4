import X360Port.GuestVirtualMemory.Outcomes
import X360Port.GuestVirtualMemory.SharedHeap
import X360Port.XeniaMemory.Recorded

/-!
# Blocks that the heaps' other callers leave alone

The guest and the image loader map and give back pages of the heap that the
system heap's blocks come from. `BlocksKept` is what is assumed of Xenia's
heaps: a call changes the pages that it names, so a block with no byte on them
stays out. None of these calls is one of the system heap, so the ledger stays
as it is.

An allocation and a free of the guest then keep the blocks that are out
wherever the pages named by the guest's words miss them.
-/

namespace X360Port

open Library GuestVirtualMemory

/-- No byte of the block lies on the pages. -/
def PageRun.Misses {η : Type} (X : Xenia η) (r : PageRun) (a : GuestAddress) (n : Nat) : Prop :=
  ∀ x, r.Covers X x → x.toNat < a.toNat ∨ a.toNat + n ≤ x.toNat

/-- The pages that a heap maps at a place of the caller's: it rounds the size up. -/
def fixedRun (heap : BaseHeap) (base size : UInt32) : PageRun :=
  ⟨heap, base, roundUp size heap.pageSize⟩

/-- What is assumed of Xenia's heaps. A call that fails names no pages. -/
structure BlocksKept {η : Type} {X : Xenia η} (system : SystemHeap X) : Prop where
  allocFixed : ∀ heap base size alignment flags protect m b k, X.lookupHeap base = some heap →
    ((X.allocFixed heap base size alignment flags protect m).1 →
      (fixedRun heap base size).Misses X b k) →
    system.Live m.heaps b k →
    system.Live (X.allocFixed heap base size alignment flags protect m).2.heaps b k
  alloc : ∀ heap size alignment flags protect topDown m b k, system.Live m.heaps b k →
    system.Live (X.alloc heap size alignment flags protect topDown m).2.heaps b k
  protect : ∀ heap address size protect m b k, system.Live m.heaps b k →
    system.Live (X.protect heap address size protect m).heaps b k
  decommit : ∀ heap address size m b k, X.lookupHeap address = some heap →
    size.toNat % heap.pageSize.toNat = 0 →
    ((X.decommit heap address size m).1 → PageRun.Misses X ⟨heap, address, size⟩ b k) →
    system.Live m.heaps b k → system.Live (X.decommit heap address size m).2.heaps b k
  release : ∀ heap address m b k, X.lookupHeap address = some heap →
    (∀ size, (X.release heap address m).1 = some size →
      PageRun.Misses X ⟨heap, address, size⟩ b k) →
    system.Live m.heaps b k → system.Live (X.release heap address m).2.heaps b k

section

variable {η : Type} {X : Xenia η} {system : SystemHeap X} {blocks : List GuestAddress}
  {m m' m'' : XeniaMemory (Recorded η)}

/-- The blocks that are out stay out, and the ledger has no new entry. -/
structure KeepsLive (system : SystemHeap X) (blocks : List GuestAddress)
    (m m' : XeniaMemory (Recorded η)) : Prop where
  ledger : m'.heaps.ledger = m.heaps.ledger
  live : ∀ a ∈ blocks, ∀ n, system.Live m.heaps.heaps a n → system.Live m'.heaps.heaps a n

/-- The pages miss each of the blocks. -/
def MissesBlocks (system : SystemHeap X) (m : XeniaMemory (Recorded η))
    (blocks : List GuestAddress) (r : PageRun) : Prop :=
  ∀ a ∈ blocks, ∀ n, system.Live m.heaps.heaps a n → r.Misses X a n

theorem KeepsLive.of_heaps (h : m'.heaps = m.heaps) : KeepsLive system blocks m m' :=
  ⟨congrArg _ h, fun _ _ _ hlive => h ▸ hlive⟩

theorem KeepsLive.trans (h : KeepsLive system blocks m m') (h' : KeepsLive system blocks m' m'') :
    KeepsLive system blocks m m'' where
  ledger := h'.ledger.trans h.ledger
  live a ha n hlive := h'.live a ha n (h.live a ha n hlive)

theorem BlocksOut.keep (h : BlocksOut system m blocks) (hk : KeepsLive system blocks m m') :
    BlocksOut system m' blocks where
  nodup := h.nodup
  out := by rw [hk.ledger, h.out]
  live a ha := by
    obtain ⟨n, hn⟩ := h.live a ha
    exact ⟨n, hk.live a ha n hn⟩

/-! ## The calls of the heaps -/

theorem keeps_allocFixed (laws : BlocksKept system) {heap : BaseHeap} {base : UInt32}
    (hheap : X.lookupHeap base = some heap) {size alignment flags protect : UInt32}
    (h : (X.recording.allocFixed heap base size alignment flags protect m).1 →
      MissesBlocks system m blocks (fixedRun heap base size)) :
    KeepsLive system blocks m
      (X.recording.allocFixed heap base size alignment flags protect m).2 where
  ledger := rfl
  live a ha n hlive := by
    refine laws.allocFixed heap base size alignment flags protect m.unrecorded a n hheap
      (fun hdone => ?_) hlive
    exact h hdone a ha n hlive

theorem keeps_alloc (laws : BlocksKept system) (heap : BaseHeap)
    (size alignment flags protect : UInt32) (topDown : Bool) :
    KeepsLive system blocks m
      (X.recording.alloc heap size alignment flags protect topDown m).2 where
  ledger := rfl
  live a _ n := laws.alloc heap size alignment flags protect topDown m.unrecorded a n

theorem keeps_protect (laws : BlocksKept system) (heap : BaseHeap)
    (address size protect : UInt32) :
    KeepsLive system blocks m (X.recording.protect heap address size protect m) where
  ledger := rfl
  live a _ n := laws.protect heap address size protect m.unrecorded a n

theorem keeps_decommit (laws : BlocksKept system) {heap : BaseHeap} {address size : UInt32}
    (hheap : X.lookupHeap address = some heap) (hsize : size.toNat % heap.pageSize.toNat = 0)
    (h : (X.recording.decommit heap address size m).1 →
      MissesBlocks system m blocks ⟨heap, address, size⟩) :
    KeepsLive system blocks m (X.recording.decommit heap address size m).2 where
  ledger := rfl
  live a ha n hlive := by
    refine laws.decommit heap address size m.unrecorded a n hheap hsize (fun hdone => ?_) hlive
    exact h hdone a ha n hlive

theorem keeps_release (laws : BlocksKept system) {heap : BaseHeap} {address : GuestAddress}
    (hheap : X.lookupHeap address = some heap)
    (h : ∀ size, (X.recording.release heap address m).1 = some size →
      MissesBlocks system m blocks ⟨heap, address, size⟩) :
    KeepsLive system blocks m (X.recording.release heap address m).2 where
  ledger := rfl
  live a ha n hlive := by
    refine laws.release heap address m.unrecorded a n hheap (fun size hdone => ?_) hlive
    exact h size hdone a ha n hlive

/-! ## The guest's allocations -/

/-- The pages that the guest's words name for an allocation, where the heap maps them. -/
def mappedByGuest {η : Type} (X : Xenia η) (m : XeniaMemory η) (call : GuestImportContext) :
    Option PageRun :=
  (preparedRequest X m call).bind fun request =>
    if request.base = 0 then none
    else
      (X.lookupHeap request.base).bind fun heap =>
        if heap.pageSize = request.pageSize ∧
            (allocFixedFor X m request (policyOf X call) heap).1 then
          some (fixedRun heap request.base request.size)
        else none

theorem mappedByGuest_eq {call : GuestImportContext} {request : AllocationRequest}
    (hrequest : preparedRequest X.recording m call = some request) (hbase : request.base ≠ 0)
    {heap : BaseHeap} (hheap : X.lookupHeap request.base = some heap)
    (hpage : heap.pageSize = request.pageSize)
    (hdone : (allocFixedFor X.recording m request (policyOf X.recording call) heap).1) :
    mappedByGuest X.recording m call = some (fixedRun heap request.base request.size) := by
  have hheap : X.recording.lookupHeap request.base = some heap := hheap
  rw [mappedByGuest, hrequest, Option.bind_some, if_neg hbase, hheap, Option.bind_some,
    if_pos ⟨hpage, hdone⟩]

theorem keeps_zeroNewlyCommittedPages (laws : BlocksKept system) (heap : BaseHeap)
    (range : CommittedRange) (policy : AllocationPolicy) :
    KeepsLive system blocks m (zeroNewlyCommittedPages X.recording m heap range policy) := by
  rw [zeroNewlyCommittedPages]
  split
  · exact .of_heaps rfl
  · split
    · exact .of_heaps rfl
    · have hopened : KeepsLive system blocks m (X.recording.protect heap range.address range.size
          (memoryProtectRead ||| memoryProtectWrite) m) := keeps_protect laws _ _ _ _
      have hzeroed := hopened.trans
        (.of_heaps (XeniaMemory.heaps_zero _ range.address range.size))
      exact hzeroed.trans (keeps_protect laws heap range.address range.size policy.protect)

/-- **An allocation of the guest** keeps the blocks that it names no page of. -/
theorem keeps_allocateVirtualMemory (laws : BlocksKept system) {call : GuestImportContext}
    (h : ∀ r, mappedByGuest X.recording m call = some r → MissesBlocks system m blocks r) :
    KeepsLive system blocks m (allocateVirtualMemory X.recording m call).1 := by
  obtain ⟨request, region, after, hrequest, hout, heq⟩ | ⟨request, hrequest, hout, hmemory, -⟩ |
      ⟨-, hmemory, -⟩ := allocateVirtualMemory_cases X.recording m call
  · rw [heq]
    suffices hafter : KeepsLive system blocks m after from
      hafter.trans (.of_heaps (heaps_answerRegion region))
    obtain ⟨heap, hbase, hheap, hpage, hdone, hsome⟩ | ⟨heap, -, -, -, hsome⟩ | ⟨hnone, -⟩ :=
      handedOut_cases X.recording m request (policyOf X.recording call)
    · rw [hsome, Option.some.injEq, Prod.mk.injEq] at hout
      obtain ⟨-, rfl⟩ := hout
      have hmapped : KeepsLive system blocks m
          (allocFixedFor X.recording m request (policyOf X.recording call) heap).2 :=
        keeps_allocFixed laws hheap fun _ => h _ (mappedByGuest_eq hrequest hbase hheap hpage hdone)
      split
      · exact hmapped
      · exact hmapped.trans (keeps_zeroNewlyCommittedPages laws _ _ _)
    · rw [hsome, Option.some.injEq, Prod.mk.injEq] at hout
      obtain ⟨-, rfl⟩ := hout
      exact (keeps_alloc laws _ _ _ _ _ _).trans (keeps_zeroNewlyCommittedPages laws _ _ _)
    · rw [hnone] at hout
      cases hout
  · rw [hmemory]
    obtain ⟨_, _, _, _, _, hsome⟩ | ⟨_, _, _, _, hsome⟩ |
        ⟨-, hkept | ⟨heap, hheap, hdone, hkept⟩ | ⟨heap, -, hkept⟩⟩ :=
      handedOut_cases X.recording m request (policyOf X.recording call)
    · rw [hout] at hsome
      cases hsome
    · rw [hout] at hsome
      cases hsome
    · exact .of_heaps (congrArg _ hkept)
    · rw [hkept]
      exact keeps_allocFixed laws hheap fun hsome => absurd hsome hdone
    · rw [hkept]
      exact keeps_alloc laws _ _ _ _ _ _
  · exact .of_heaps (congrArg _ hmemory)

/-! ## The guest's frees -/

theorem keeps_freeInHeap (laws : BlocksKept system) {call : GuestImportContext}
    {baseSlot sizeSlot : GuestWordSlot} {address freeType : UInt32} {heap : BaseHeap}
    (hheap : X.lookupHeap address = some heap)
    (h : ∀ r, freedInHeap X.recording m sizeSlot address freeType heap = some r →
      MissesBlocks system m blocks r) :
    KeepsLive system blocks m
      (freeInHeap X.recording m call baseSlot sizeSlot address freeType heap).1 := by
  rw [freedInHeap] at h
  rw [freeInHeap]
  split at h
  · next honly =>
    rw [if_pos honly]
    cases hsize : if sizeSlot.present then sizeSlot.read X.recording m else none with
    | none => exact .of_heaps rfl
    | some requested =>
      rw [hsize] at h
      simp only at h ⊢
      by_cases hzero : roundUp requested heap.pageSize = 0
      · rw [if_pos hzero]
        exact .of_heaps rfl
      · rw [if_neg hzero]
        have hkeeps : KeepsLive system blocks m
            (X.recording.decommit heap address (roundUp requested heap.pageSize) m).2 :=
          keeps_decommit laws hheap (toNat_roundUp_mod _ _) fun hdone =>
            h _ (if_pos ⟨hzero, hdone⟩)
        split
        · exact hkeeps
        · exact hkeeps.trans (.of_heaps (heaps_answerFree _ _))
  · next honly =>
    rw [if_neg honly]
    have hkeeps : KeepsLive system blocks m (X.recording.release heap address m).2 :=
      keeps_release laws hheap fun size hdone => h _ (by rw [hdone]; rfl)
    cases hrelease : X.recording.release heap address m with
    | mk answer after =>
      rw [hrelease] at hkeeps
      cases answer with
      | none => exact hkeeps
      | some size => exact hkeeps.trans (.of_heaps (heaps_answerFree _ _))

/-- **A free of the guest** keeps the blocks that it gives no page of back. -/
theorem keeps_freeVirtualMemory (laws : BlocksKept system) {call : GuestImportContext}
    (h : ∀ r, freedByGuest X.recording m call = some r → MissesBlocks system m blocks r) :
    KeepsLive system blocks m (freeVirtualMemory X.recording m call).1 := by
  rw [freedByGuest] at h
  rw [freeVirtualMemory]
  by_cases hbase : (call.argument 0).toUInt32 = 0
  · rw [if_pos hbase]
    exact .of_heaps rfl
  · simp only [if_neg hbase] at h ⊢
    cases hread : GuestWordSlot.read X.recording m ⟨(call.argument 0).toUInt32⟩ with
    | none => exact .of_heaps rfl
    | some address =>
      rw [hread] at h
      simp only at h ⊢
      by_cases hzero : address = 0
      · rw [if_pos hzero]
        exact .of_heaps rfl
      · simp only [if_neg hzero] at h ⊢
        cases hheap : lookupVirtualHeap X.recording address with
        | none => exact .of_heaps rfl
        | some heap =>
          rw [hheap] at h
          exact keeps_freeInHeap laws (lookupVirtualHeap_spec hheap).1 h

end

/-! ## The paged memory -/

section

open PageTable

variable {t : PageTable} {a : GuestAddress} {n first count : Nat}

/-- A block that misses a run has none of its pages. -/
theorem live_onPages (h : t.Live a n) {f : PageEntry → PageEntry}
    (hmiss : ∀ q, first ≤ q → q < first + count → q < 0x40000 →
      q * 0x1000 < a.toNat ∨ a.toNat + n ≤ q * 0x1000) :
    (t.onPages first count f).Live a n := by
  have haligned := h.aligned
  have hbelow := h.below
  have hextent := h.extent
  refine h.congr fun q hbegin hend => onPages_of_not_mem fun hin => ?_
  simp only [page] at hbegin hend hextent
  have hq := hmiss q hin.1 hin.2 (by omega)
  omega

/-- Pages in the words of their addresses. -/
theorem misses_pages {address size : UInt32} {heap : BaseHeap}
    (hheap : lookup address = some heap) (hsize : size.toNat % 0x1000 = 0)
    (h : PageRun.Misses paged ⟨heap, address, size⟩ a n) {q : Nat} (hbegin : page address ≤ q)
    (hend : q < page address + size.toNat / 0x1000) (hq : q < 0x40000) :
    q * 0x1000 < a.toNat ∨ a.toNat + n ≤ q * 0x1000 := by
  have haddress : (UInt32.ofNat (q * 0x1000)).toNat = q * 0x1000 :=
    Library.Word.toNat_ofNat (by omega)
  have hpage : page (.ofNat (q * 0x1000)) = q := by
    rw [page, haddress]
    omega
  rw [← haddress]
  refine h _ ((covers_iff hheap hsize).2 ⟨by omega, ?_, ?_⟩)
  · rw [hpage]
    exact hbegin
  · rw [hpage]
    exact hend

/-- A protection is no matter of the allocation. -/
theorem live_protect {m : XeniaMemory PageTable} (h : m.heaps.Live a n)
    (address size protect : UInt32) :
    (PageTable.protect address size protect m).heaps.Live a n := by
  have hentry : ∀ q, ((PageTable.protect address size protect m).heaps q).baseAddress =
        (m.heaps q).baseAddress ∧
      ((PageTable.protect address size protect m).heaps q).regionPageCount =
        (m.heaps q).regionPageCount ∧
      ((PageTable.protect address size protect m).heaps q).state = (m.heaps q).state := by
    intro q
    simp only [PageTable.protect, onPages]
    split
    · exact ⟨rfl, rfl, rfl⟩
    · exact ⟨rfl, rfl, rfl⟩
  refine ⟨h.aligned, h.below, ?_, h.positive, fun q hbegin hend => ?_⟩
  · rw [(hentry _).2.1]
    exact h.extent
  · rw [(hentry _).2.1] at hend
    rw [(hentry q).1, (hentry q).2.2]
    exact h.pages q hbegin hend

theorem pagedBlocksKept : BlocksKept pagedSystemHeap where
  allocFixed heap base size alignment flags protect m b k hheap hmiss hlive := by
    have heq := heap_of_lookup hheap
    subst heq
    have hmiss : (PageTable.allocFixed base size flags protect m).1 →
      (fixedRun PageTable.heap base size).Misses paged b k := hmiss
    show (PageTable.allocFixed base size flags protect m).2.heaps.Live b k
    rw [PageTable.allocFixed] at hmiss ⊢
    split at hmiss
    · next hguard =>
      rw [if_pos hguard]
      exact hlive
    · next hguard =>
      rw [if_neg hguard]
      rw [not_or, Nat.not_lt] at hguard
      have hsmall : size.toNat ≤ 0x40000000 := by
        have hcount := hguard.1
        rw [pageCount] at hcount
        omega
      have hpages := toNat_roundUp_page hsmall
      refine live_onPages hlive fun q hbegin hend hq => ?_
      rw [← hpages] at hend
      exact misses_pages hheap (toNat_roundUp_mod size 0x1000) (hmiss rfl) hbegin hend hq
  alloc heap size alignment flags protect topDown m b k hlive := by
    show (PageTable.alloc size flags protect m).2.heaps.Live b k
    rw [PageTable.alloc]
    split
    · exact hlive
    · next first hfit =>
      have hfree := free_iff.1 (firstFit_spec hfit).2.2.2
      show (m.heaps.onPages first (pageCount size) fun _ =>
        taken first (pageCount size) flags protect).Live b k
      refine hlive.congr fun q hbegin hend => onPages_of_not_mem fun hin => ?_
      exact (hlive.pages q hbegin hend).2 (hfree q hin.1 hin.2)
  protect heap address size protect m b k hlive := live_protect hlive address size protect
  decommit heap address size m b k hheap hsize hmiss hlive := by
    have heq := heap_of_lookup hheap
    subst heq
    have hsize : size.toNat % 0x1000 = 0 := hsize
    show (m.heaps.onPages (page address) (pageCount size) fun entry =>
      { entry with state := entry.state &&& ~~~ memoryAllocationCommit }).Live b k
    refine live_onPages hlive fun q hbegin hend hq => ?_
    rw [pageCount_of_mod hsize] at hend
    exact misses_pages hheap hsize (hmiss rfl) hbegin hend hq
  release heap address m b k hheap hmiss hlive := by
    have heq := heap_of_lookup hheap
    subst heq
    show (PageTable.release address m).2.heaps.Live b k
    obtain hnone | ⟨hsome, hheaps⟩ := PageTable.release_cases address m
    · rw [hnone]
      exact hlive
    · have hcount := (m.heaps (page address)).regionPageCount.isLt
      have hbytes : (UInt32.ofNat ((m.heaps (page address)).regionPageCount.toNat * 0x1000)).toNat =
          (m.heaps (page address)).regionPageCount.toNat * 0x1000 :=
        Library.Word.toNat_ofNat (by omega)
      rw [hheaps]
      refine live_onPages hlive fun q hbegin hend hq => ?_
      refine misses_pages hheap ?_ (hmiss _ hsome) hbegin ?_ hq
      · rw [hbytes]
        omega
      · rw [hbytes]
        omega

end

end X360Port
