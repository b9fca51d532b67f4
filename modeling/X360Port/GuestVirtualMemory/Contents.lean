import X360Port.GuestVirtualMemory.Zeroing
import X360Port.Library.Replay

/-!
# What the exports store

An allocation writes zeroes over the pages that it takes for new ones and the
two words of its answer, a free its two words, and a query the information that
it was asked for. `allocateWrites`, `freeWrites` and `queryWrites` are these as
patches.

Heaps do more to their pages than that, but a byte on a page that was backed
before a call and is backed after it has changed by its patches only
(`bytes_allocateVirtualMemory`, `bytes_freeVirtualMemory`,
`bytes_queryVirtualMemory`).
-/

namespace X360Port

open Library

/-- Bytes on pages that are backed in both memories are the same. -/
def Xenia.KeepsBacked {η : Type} (X : Xenia η) (m after : XeniaMemory η) : Prop :=
  ∀ x : GuestAddress, X.Backed m.heaps x → X.Backed after.heaps x →
    after.bytes x.toNat = m.bytes x.toNat

namespace GuestVirtualMemory

/-- What is assumed of Xenia's heaps: their operations leave the contents of pages that stay
backed alone. -/
structure ContentsKept {η : Type} (X : Xenia η) : Prop where
  allocFixed : ∀ heap base size alignment flags protect m,
    X.KeepsBacked m (X.allocFixed heap base size alignment flags protect m).2
  alloc : ∀ heap size alignment flags protect topDown m,
    X.KeepsBacked m (X.alloc heap size alignment flags protect topDown m).2
  protect : ∀ heap address size protect m,
    X.KeepsBacked m (X.protect heap address size protect m)
  decommit : ∀ heap address size m, X.KeepsBacked m (X.decommit heap address size m).2
  release : ∀ heap address m, X.KeepsBacked m (X.release heap address m).2
  systemHeapAlloc : ∀ size m, X.KeepsBacked m (X.systemHeapAlloc size m).2

section

variable {η : Type} (X : Xenia η) (m : XeniaMemory η) (call : GuestImportContext)

/-- The words that a call hands back over a memory: those up to the first that the guest may not
store. -/
def wordsStored : List (GuestWordSlot × UInt32) → List (Patch UInt8)
  | [] => []
  | (slot, value) :: words =>
    if X.isAccessible m slot.address 4 true then
      wordPatch slot.address.toNat value :: wordsStored words
    else []

def zeroPatch (range : CommittedRange) : Patch UInt8 :=
  ⟨range.address.toNat, List.replicate range.size.toNat 0⟩

/-- An allocation takes its pages for new ones where it commits them and the first was not
committed, or the heap chose them. -/
def ZeroesRange (request : AllocationRequest) : Prop :=
  CommitsZeroed call ∧ ¬ (request.base ≠ 0 ∧ Committed X m.heaps request.base)

instance (request : AllocationRequest) : Decidable (ZeroesRange X m call request) :=
  inferInstanceAs (Decidable (_ ∧ ¬ (_ ∧ _)))

def allocateWrites : List (Patch UInt8) :=
  match preparedRequest X m call, mappedRange X m call with
  | some request, some range =>
    (if ZeroesRange X m call request then [zeroPatch range] else []) ++
      wordsStored X (allocateVirtualMemory X m call).1
        [(⟨(call.argument 0).toUInt32⟩, range.address), (⟨(call.argument 1).toUInt32⟩, range.size)]
  | _, _ => []

def freeWrites : List (Patch UInt8) :=
  match freedByGuest X m call with
  | none => []
  | some run =>
    wordsStored X (freeVirtualMemory X m call).1
      ((⟨(call.argument 0).toUInt32⟩, run.address) ::
        if (call.argument 1).toUInt32 = 0 then [] else [(⟨(call.argument 1).toUInt32⟩, run.size)])

def queryWrites : List (Patch UInt8) :=
  let address := (call.argument 0).toUInt32
  let informationPointer := (call.argument 1).toUInt32
  match (X.lookupHeap address).bind fun heap => X.queryRegionInfo heap address m.heaps with
  | none => []
  | some info =>
    if informationPointer = 0 ∨ 2 < (call.argument 2).toUInt32 ∨
        ¬ X.isAccessible m informationPointer 28 true then []
    else [⟨informationPointer.toNat, encodeRegionInfo X info⟩]

end

section

variable {η : Type} {X : Xenia η} {m after : XeniaMemory η} {call : GuestImportContext}
  {x : GuestAddress}

/-! ## The words -/

theorem wordsStored_of_storable (h : after.heaps = m.heaps) {slot : GuestWordSlot}
    (hstorable : Storable X m.heaps slot) (value : UInt32) (words : List (GuestWordSlot × UInt32)) :
    wordsStored X after ((slot, value) :: words) =
      wordPatch slot.address.toNat value :: wordsStored X after words := by
  rw [wordsStored, if_pos]
  rwa [Xenia.isAccessible_write_iff (by decide), h]

theorem wordsStored_of_not_storable (h : after.heaps = m.heaps) {slot : GuestWordSlot}
    (hstorable : ¬ Storable X m.heaps slot) (value : UInt32)
    (words : List (GuestWordSlot × UInt32)) :
    wordsStored X after ((slot, value) :: words) = [] := by
  rw [wordsStored, if_neg]
  rwa [Xenia.isAccessible_write_iff (by decide), h]

theorem bytes_answerRegion (X : Xenia η) (m : XeniaMemory η) (call : GuestImportContext)
    (baseSlot sizeSlot : GuestWordSlot) (region : CommittedRange) :
    (answerRegion X m call baseSlot sizeSlot region).1.bytes =
      writeAll (wordsStored X (answerRegion X m call baseSlot sizeSlot region).1
        [(baseSlot, region.address), (sizeSlot, region.size)]) m.bytes := by
  have hheaps : (answerRegion X m call baseSlot sizeSlot region).1.heaps = m.heaps :=
    heaps_answerRegion region
  obtain ⟨hbase, hsize, heq⟩ | ⟨hbase, hsize, heq⟩ | ⟨hbase, heq⟩ :=
    answerRegion_cases X m call baseSlot sizeSlot region
  · rw [wordsStored_of_storable hheaps hbase, wordsStored_of_storable hheaps hsize, heq]
    rfl
  · rw [wordsStored_of_storable hheaps hbase, wordsStored_of_not_storable hheaps hsize, heq]
    rfl
  · rw [wordsStored_of_not_storable hheaps hbase, heq]
    rfl

theorem bytes_answerFree (X : Xenia η) (m : XeniaMemory η) (call : GuestImportContext)
    (baseSlot sizeSlot : GuestWordSlot) (address size : UInt32) :
    (answerFree X m call baseSlot sizeSlot address size).1.bytes =
      writeAll (wordsStored X (answerFree X m call baseSlot sizeSlot address size).1
        ((baseSlot, address) :: if sizeSlot.address = 0 then [] else [(sizeSlot, size)]))
        m.bytes := by
  have hheaps : (answerFree X m call baseSlot sizeSlot address size).1.heaps = m.heaps :=
    heaps_answerFree address size
  by_cases hbase : Storable X m.heaps baseSlot
  · rw [wordsStored_of_storable hheaps hbase]
    by_cases hpresent : sizeSlot.address = 0
    · rw [if_pos hpresent, answerFree, write_of_storable hbase]
      simp only [GuestWordSlot.present, hpresent]
      rfl
    · have hpresent' : sizeSlot.present := by simpa [GuestWordSlot.present] using hpresent
      have hkept : Storable X (stored m baseSlot address).heaps sizeSlot ↔
          Storable X m.heaps sizeSlot := by rw [heaps_stored]
      rw [if_neg hpresent]
      by_cases hsize : Storable X m.heaps sizeSlot
      · rw [wordsStored_of_storable hheaps hsize, answerFree, write_of_storable hbase]
        simp only [hpresent', write_of_storable (hkept.2 hsize)]
        rfl
      · rw [wordsStored_of_not_storable hheaps hsize, answerFree, write_of_storable hbase]
        simp only [hpresent', write_of_not_storable fun h => hsize (hkept.1 h)]
        rfl
  · rw [wordsStored_of_not_storable hheaps hbase, answerFree, write_of_not_storable hbase]
    rfl

/-! ## Allocating -/

/-- New pages are zeroed, and protecting them changes no byte. -/
theorem bytes_zeroed (laws : HeapLaws X) (kept : ContentsKept X) (heap : BaseHeap)
    (range : CommittedRange) (hx : X.Backed m.heaps x) :
    (zeroNewlyCommittedPages X m heap range (policyOf X call)).bytes x.toNat =
      writeAll (if CommitsZeroed call then [zeroPatch range] else []) m.bytes x.toNat := by
  have hguard : (¬ ((policyOf X call).allocType &&& memNozero ≠ 0 ∨
      (policyOf X call).allocType &&& memCommit = 0)) ↔ CommitsZeroed call := by
    rw [not_or, not_not, and_comm]
    rfl
  rw [zeroNewlyCommittedPages]
  by_cases hzeroes : CommitsZeroed call
  · rw [if_neg (hguard.2 hzeroes), if_pos hzeroes]
    split
    · rfl
    · have hopened : X.Backed (X.protect heap range.address range.size
          (memoryProtectRead ||| memoryProtectWrite) m).heaps x := (laws.protect _ _ _ _ _ x).2 hx
      have hbytes := kept.protect _ _ _ _ _ x hx hopened
      simp only
      generalize X.protect heap range.address range.size
        (memoryProtectRead ||| memoryProtectWrite) m = opened at hopened hbytes ⊢
      have hzeroed : X.Backed (opened.zero range.address range.size).heaps x := hopened
      rw [kept.protect _ _ _ _ _ x hzeroed ((laws.protect _ _ _ _ _ x).2 hzeroed)]
      show writeAll [zeroPatch range] opened.bytes x.toNat = _
      exact writeAll_congr hbytes
  · rw [if_pos (not_not.1 fun h => hzeroes (hguard.1 h)), if_neg hzeroes]
    rfl

theorem allocatingFlags_of_prepared {request : AllocationRequest}
    (h : preparedRequest X m call = some request) :
    AllocatingFlags (allocationFlags (policyOf X call).allocType) := by
  obtain ⟨requested, -, hprepared⟩ := Option.bind_eq_some_iff.1 h
  split at hprepared
  · next hallocates => exact allocatingFlags_of_type hallocates.2.1 (not_not.2 hallocates.2.2)
  · cases hprepared

/-- What the heap hands out has the contents that it had, or zeroes. -/
theorem bytes_handedOut (laws : HeapLaws X) (kept : ContentsKept X) {request : AllocationRequest}
    {region : CommittedRange} (hrequest : preparedRequest X m call = some request)
    (hout : handedOut X m request (policyOf X call) = some (region, after))
    (hx : X.Backed m.heaps x) :
    after.bytes x.toNat = writeAll (if ZeroesRange X m call request then [zeroPatch region] else [])
      m.bytes x.toNat := by
  have hflags := allocatingFlags_of_prepared hrequest
  obtain ⟨heap, hbase, -, -, hdone, heq⟩ | ⟨heap, hbase, -, hne, heq⟩ | ⟨heq, -⟩ :=
    handedOut_cases X m request (policyOf X call)
  · rw [heq, Option.some.injEq, Prod.mk.injEq] at hout
    obtain ⟨rfl, rfl⟩ := hout
    have hmapped : X.Backed (allocFixedFor X m request (policyOf X call) heap).2.heaps x :=
      laws.allocFixed _ _ _ _ _ _ _ _ hflags hx
    have hsame : (allocFixedFor X m request (policyOf X call) heap).2.bytes x.toNat =
        m.bytes x.toNat := kept.allocFixed _ _ _ _ _ _ m x hx hmapped
    by_cases hfirst : Committed X m.heaps request.base
    · rw [if_pos hfirst, if_neg fun h => h.2 ⟨hbase, hfirst⟩]
      exact hsame
    · have hzeroes : ZeroesRange X m call request ↔ CommitsZeroed call :=
        and_iff_left fun h => hfirst h.2
      rw [if_neg hfirst, bytes_zeroed laws kept heap _ hmapped, if_congr hzeroes rfl rfl]
      exact writeAll_congr hsame
  · rw [heq, Option.some.injEq, Prod.mk.injEq] at hout
    obtain ⟨rfl, rfl⟩ := hout
    have hmapped : X.Backed (allocFor X m request (policyOf X call) heap).2.heaps x :=
      laws.alloc _ _ _ _ _ _ _ _ hflags hx
    have hzeroes : ZeroesRange X m call request ↔ CommitsZeroed call :=
      and_iff_left fun h => h.1 hbase
    rw [bytes_zeroed laws kept heap _ hmapped, if_congr hzeroes rfl rfl]
    exact writeAll_congr (kept.alloc _ _ _ _ _ _ m x hx hmapped)
  · rw [heq] at hout
    cases hout

/-- **An allocation** changes a backed byte by its patches only. -/
theorem bytes_allocateVirtualMemory (laws : HeapLaws X) (kept : ContentsKept X)
    (call : GuestImportContext) (hx : X.Backed m.heaps x) :
    (allocateVirtualMemory X m call).1.bytes x.toNat =
      writeAll (allocateWrites X m call) m.bytes x.toNat := by
  obtain ⟨request, region, after, hrequest, hout, heq⟩ | ⟨request, hrequest, hout, hmemory, -⟩ |
      ⟨hrequest, hmemory, -⟩ := allocateVirtualMemory_cases X m call
  · have hwrites := bytes_answerRegion X after call ⟨(call.argument 0).toUInt32⟩
      ⟨(call.argument 1).toUInt32⟩ region
    simp only [allocateWrites, hrequest, mappedRange_eq hrequest hout, heq, writeAll_append]
    rw [hwrites]
    exact writeAll_congr (bytes_handedOut laws kept hrequest hout hx)
  · have hnone : allocateWrites X m call = [] := by
      simp only [allocateWrites, hrequest, mappedRange, Option.bind_some, hout, Option.map_none]
    have hflags := allocatingFlags_of_prepared hrequest
    rw [hnone, hmemory]
    obtain ⟨_, _, _, _, _, hsome⟩ | ⟨_, _, _, _, hsome⟩ |
        ⟨-, hkept | ⟨heap, -, -, hkept⟩ | ⟨heap, -, hkept⟩⟩ :=
      handedOut_cases X m request (policyOf X call)
    · rw [hout] at hsome
      cases hsome
    · rw [hout] at hsome
      cases hsome
    · rw [hkept]
      rfl
    · rw [hkept]
      exact kept.allocFixed _ _ _ _ _ _ m x hx (laws.allocFixed _ _ _ _ _ _ _ _ hflags hx)
    · rw [hkept]
      exact kept.alloc _ _ _ _ _ _ m x hx (laws.alloc _ _ _ _ _ _ _ _ hflags hx)
  · have hnone : allocateWrites X m call = [] := by
      simp only [allocateWrites, hrequest]
    rw [hnone, hmemory]
    rfl

/-! ## Freeing and querying -/

/-- **A query** changes what its patches say. -/
theorem bytes_queryVirtualMemory (X : Xenia η) (m : XeniaMemory η) (call : GuestImportContext) :
    (queryVirtualMemory X m call).1.bytes = writeAll (queryWrites X m call) m.bytes := by
  rw [queryVirtualMemory, queryWrites]
  have hlength : ∀ info, (encodeRegionInfo X info).length = 28 := fun info => rfl
  by_cases hguard : (call.argument 1).toUInt32 = 0 ∨ 2 < (call.argument 2).toUInt32
  · rw [if_pos hguard]
    split
    · rfl
    · rw [if_pos (hguard.imp_right .inl)]
      rfl
  · rw [not_or] at hguard
    rw [if_neg (not_or.2 hguard)]
    cases (X.lookupHeap (call.argument 0).toUInt32).bind fun heap =>
        X.queryRegionInfo heap (call.argument 0).toUInt32 m.heaps with
    | none => rfl
    | some info =>
      simp only [Xenia.writeMemory, hlength]
      by_cases haccess : X.isAccessible m (call.argument 1).toUInt32 28 true
      · rw [if_pos haccess, if_neg]
        · rfl
        · rintro (h | h | h)
          · exact hguard.1 h
          · exact hguard.2 h
          · exact h haccess
      · rw [if_neg haccess, if_pos (.inr (.inr haccess))]
        rfl

theorem bytes_freeInHeap (kept : ContentsKept X) (baseSlot sizeSlot : GuestWordSlot)
    (address freeType : UInt32) (heap : BaseHeap) (hx : X.Backed m.heaps x)
    (hafter : X.Backed
      (freeInHeap X m call baseSlot sizeSlot address freeType heap).1.heaps x) :
    (freeInHeap X m call baseSlot sizeSlot address freeType heap).1.bytes x.toNat =
      writeAll ((freedInHeap X m sizeSlot address freeType heap).elim [] fun run =>
        wordsStored X (freeInHeap X m call baseSlot sizeSlot address freeType heap).1
          ((baseSlot, run.address) ::
            if sizeSlot.address = 0 then [] else [(sizeSlot, run.size)])) m.bytes x.toNat := by
  rw [freeInHeap] at hafter ⊢
  rw [freedInHeap]
  split at hafter
  · next hdecommit =>
    simp only [if_pos hdecommit]
    cases hsize : if sizeSlot.present then sizeSlot.read X m else none with
    | none => rfl
    | some requested =>
      simp only [hsize] at hafter ⊢
      by_cases hzero : roundUp requested heap.pageSize = 0
      · rw [if_pos hzero, if_neg fun h => h.1 hzero]
        rfl
      · rw [if_neg hzero] at hafter ⊢
        have hkept := kept.decommit heap address (roundUp requested heap.pageSize) m x hx
        by_cases hdone : (X.decommit heap address (roundUp requested heap.pageSize) m).1
        · rw [if_neg (by simp [hdone])] at hafter ⊢
          rw [if_pos ⟨hzero, hdone⟩, Option.elim_some, bytes_answerFree]
          rw [heaps_answerFree] at hafter
          exact writeAll_congr (hkept hafter)
        · rw [if_pos hdone] at hafter ⊢
          rw [if_neg fun h => hdone h.2]
          exact hkept hafter
  · next hdecommit =>
    simp only [if_neg hdecommit]
    have hkept := kept.release heap address m x hx
    cases hrelease : X.release heap address m with
    | mk answer released =>
      rw [hrelease] at hkept hafter
      cases answer with
      | none => exact hkept hafter
      | some size =>
        simp only [heaps_answerFree, Option.map_some, Option.elim_some] at hafter ⊢
        rw [bytes_answerFree]
        exact writeAll_congr (hkept hafter)

/-- **A free** changes a byte that stays backed by its patches only. -/
theorem bytes_freeVirtualMemory (kept : ContentsKept X) (call : GuestImportContext)
    (hx : X.Backed m.heaps x) (hafter : X.Backed (freeVirtualMemory X m call).1.heaps x) :
    (freeVirtualMemory X m call).1.bytes x.toNat =
      writeAll (freeWrites X m call) m.bytes x.toNat := by
  rw [freeWrites, freedByGuest]
  rw [freeVirtualMemory] at hafter ⊢
  by_cases hpointer : (call.argument 0).toUInt32 = 0
  · simp only [if_pos hpointer]
    rfl
  · simp only [if_neg hpointer] at hafter ⊢
    cases hread : GuestWordSlot.read X m ⟨(call.argument 0).toUInt32⟩ with
    | none => rfl
    | some address =>
      simp only [hread] at hafter ⊢
      by_cases hzero : address = 0
      · simp only [if_pos hzero]
        rfl
      · simp only [if_neg hzero] at hafter ⊢
        cases hheap : lookupVirtualHeap X address with
        | none => rfl
        | some heap =>
          simp only [hheap] at hafter ⊢
          have hfree := bytes_freeInHeap kept ⟨(call.argument 0).toUInt32⟩
            ⟨(call.argument 1).toUInt32⟩ address (call.argument 2).toUInt32 heap hx hafter
          rw [hfree]
          cases freedInHeap X m ⟨(call.argument 1).toUInt32⟩ address
            (call.argument 2).toUInt32 heap with
          | none => rfl
          | some run => rfl

end

end GuestVirtualMemory

end X360Port
