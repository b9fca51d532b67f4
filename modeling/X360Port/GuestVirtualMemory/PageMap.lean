import X360Port.GuestVirtualMemory.Refusals
import X360Port.GuestVirtualMemory.SharedHeap
import X360Port.Library.Replay

/-!
# The pages as the guest sees them

To the guest a page is free, reserved or committed. `PageMap` is this for every
address, and a `PageOperation` is what a call does to it: pages are mapped,
decommitted or released.

Over a shared memory the calls of the title and of the guest leave such
operations (`operations`), and the records of Xenia's heaps follow them
(`pageMap_play`). So what `NtQueryVirtualMemory` reports of a page is what the
operations of the run made of it (`play_query`).
-/

namespace X360Port

open Library GuestVirtualMemory

inductive PageUse where
  | free
  | reserved
  | committed
  deriving DecidableEq, Repr

/-- The word that stands for it in the information of a region. -/
def PageUse.word : PageUse → UInt32
  | .free => memFree
  | .reserved => memReserve
  | .committed => memCommit

/-- What a state says to the guest. -/
def PageUse.ofState (state : UInt32) : PageUse :=
  if state &&& memoryAllocationCommit ≠ 0 then .committed
  else if state &&& memoryAllocationReserve ≠ 0 then .reserved
  else .free

abbrev PageMap := GuestAddress → PageUse

/-- What becomes of a page. -/
inductive PageAction where
  | commit
  | reserve
  | decommit
  | release
  deriving DecidableEq, Repr

def PageAction.apply : PageAction → PageUse → PageUse
  | .commit, _ => .committed
  | .reserve, _ => .reserved
  | .decommit, .committed => .reserved
  | .decommit, use => use
  | .release, _ => .free

structure PageOperation where
  run : PageRun
  action : PageAction
  deriving DecidableEq, Repr

section

variable {η : Type}

instance (X : Xenia η) (run : PageRun) (x : GuestAddress) : Decidable (run.Covers X x) :=
  inferInstanceAs (Decidable (_ ∧ _ ∧ _))

def PageOperation.apply (X : Xenia η) (pages : PageMap) (op : PageOperation) : PageMap := fun x =>
  if op.run.Covers X x then op.action.apply (pages x) else pages x

/-- The pages as the heaps record them. -/
def Xenia.pageMap (X : Xenia η) (heaps : η) : PageMap := fun x => .ofState (X.state heaps x)

/-- No page is committed that is not reserved. -/
def Xenia.Regular (X : Xenia η) (heaps : η) : Prop :=
  ∀ x, X.state heaps x &&& memoryAllocationCommit ≠ 0 →
    X.state heaps x &&& memoryAllocationReserve ≠ 0

/-! ## States -/

theorem guestAllocationState_eq (state : UInt32) :
    guestAllocationState state = (PageUse.ofState state).word := by
  unfold guestAllocationState PageUse.ofState
  split
  · rfl
  · split
    · rfl
    · rfl

/-- The action of an allocation of a type. -/
def mappingAction (allocType : UInt32) : PageAction :=
  if allocType &&& memCommit ≠ 0 then .commit else .reserve

theorem ofState_mapped (allocType : UInt32) (use : PageUse) :
    PageUse.ofState (memoryAllocationReserve ||| allocationFlags allocType) =
      (mappingAction allocType).apply use := by
  unfold allocationFlags mappingAction
  by_cases hcommit : allocType &&& memCommit ≠ 0
  · rw [if_pos hcommit, if_pos hcommit]
    split
    · rfl
    · rfl
  · rw [if_neg hcommit, if_neg hcommit]
    split
    · rfl
    · rfl

theorem decommitted_commit (state : UInt32) :
    (state &&& ~~~ memoryAllocationCommit) &&& memoryAllocationCommit = 0 := by
  rw [UInt32.and_assoc]
  exact UInt32.and_zero

theorem decommitted_reserve (state : UInt32) :
    (state &&& ~~~ memoryAllocationCommit) &&& memoryAllocationReserve =
      state &&& memoryAllocationReserve := by
  rw [UInt32.and_assoc]
  rfl

theorem ofState_decommitted {state : UInt32} (h : state &&& memoryAllocationCommit ≠ 0 →
    state &&& memoryAllocationReserve ≠ 0) :
    PageUse.ofState (state &&& ~~~ memoryAllocationCommit) =
      PageAction.decommit.apply (.ofState state) := by
  unfold PageUse.ofState
  rw [decommitted_commit, decommitted_reserve, if_neg (not_not.2 rfl)]
  by_cases hcommit : state &&& memoryAllocationCommit ≠ 0
  · rw [if_pos hcommit, if_pos (h hcommit)]
    rfl
  · rw [if_neg hcommit]
    split
    · rfl
    · rfl

/-! ## Operations -/

/-- An operation on states does an action to what they say, and leaves no page committed that is
not reserved. -/
structure PageAction.Follows (action : PageAction) (f : UInt32 → UInt32) : Prop where
  use : ∀ state, (state &&& memoryAllocationCommit ≠ 0 → state &&& memoryAllocationReserve ≠ 0) →
    PageUse.ofState (f state) = action.apply (.ofState state)
  regular : ∀ state, f state &&& memoryAllocationCommit ≠ 0 →
    f state &&& memoryAllocationReserve ≠ 0

theorem follows_map (allocType : UInt32) : (mappingAction allocType).Follows fun _ =>
    memoryAllocationReserve ||| allocationFlags allocType where
  use state _ := ofState_mapped allocType _
  regular _ _ := by
    unfold allocationFlags
    split
    · split
      · decide
      · decide
    · split
      · decide
      · decide

theorem follows_decommit : PageAction.decommit.Follows fun state =>
    state &&& ~~~ memoryAllocationCommit where
  use _ h := ofState_decommitted h
  regular state h := absurd (decommitted_commit state) h

theorem follows_release : PageAction.release.Follows fun _ => 0 where
  use _ _ := rfl
  regular _ h := absurd rfl h

variable {X : Xenia η} {m after : XeniaMemory η}

/-- The pages of a memory are those of another one after the operations, and as regular. -/
structure PagesAfter (X : Xenia η) (m after : XeniaMemory η) (ops : List PageOperation) :
    Prop where
  regular : X.Regular after.heaps
  pages : X.pageMap after.heaps = ops.foldl (PageOperation.apply X) (X.pageMap m.heaps)

theorem PagesAfter.same (hregular : X.Regular m.heaps) (h : after.heaps = m.heaps) :
    PagesAfter X m after [] where
  regular := by rwa [h]
  pages := by rw [h, List.foldl_nil]

theorem PagesAfter.single (hregular : X.Regular m.heaps) {run : PageRun} {action : PageAction}
    {f : UInt32 → UInt32} (hfollows : action.Follows f)
    (hin : ∀ x, run.Covers X x → X.state after.heaps x = f (X.state m.heaps x))
    (hout : ∀ x, ¬ run.Covers X x → X.state after.heaps x = X.state m.heaps x) :
    PagesAfter X m after [⟨run, action⟩] := by
  constructor
  · intro x
    by_cases hx : run.Covers X x
    · rw [hin x hx]
      exact hfollows.regular _
    · rw [hout x hx]
      exact hregular x
  · funext x
    rw [List.foldl_cons, List.foldl_nil, PageOperation.apply]
    by_cases hx : run.Covers X x
    · rw [if_pos hx, Xenia.pageMap, hin x hx]
      exact hfollows.use _ (hregular x)
    · rw [if_neg hx, Xenia.pageMap, hout x hx, Xenia.pageMap]

/-- What a heap operation does to the states, seen by the guest. -/
theorem PagesAfter.of_effect (hregular : X.Regular m.heaps) {op : HeapOperation}
    {action : PageAction} (hfollows : action.Follows op.state) (heffect : op.Effect X m after) :
    PagesAfter X m after [⟨op.run, action⟩] :=
  .single hregular hfollows (fun x hx => by rw [heffect.state, if_pos hx])
    fun x hx => by rw [heffect.state, if_neg hx]

/-- Bytes are no matter of the pages. -/
theorem PagesAfter.of_heaps {ops : List PageOperation} (h : PagesAfter X m after ops)
    {after' : XeniaMemory η} (hheaps : after'.heaps = after.heaps) : PagesAfter X m after' ops where
  regular := by
    rw [hheaps]
    exact h.regular
  pages := by rw [hheaps, h.pages]

/-! ## The exports -/

def allocatedPages (X : Xenia η) (m : XeniaMemory η) (call : GuestImportContext) :
    Option PageOperation :=
  (allocateOperation X m call).map fun op =>
    ⟨op.run, mappingAction (call.argument 2).toUInt32⟩

def freedPages (X : Xenia η) (m : XeniaMemory η) (call : GuestImportContext) :
    Option PageOperation :=
  (freedByGuest X m call).map fun run =>
    ⟨run, if decommitOnly (call.argument 2).toUInt32 then .decommit else .release⟩

/-- Whatever pages an allocation takes, it maps them as the guest asks. -/
theorem allocateOperation_state {call : GuestImportContext} {op : HeapOperation}
    (h : allocateOperation X m call = some op) : op.state = fun _ =>
      memoryAllocationReserve ||| allocationFlags (call.argument 2).toUInt32 := by
  obtain ⟨request, -, h⟩ := Option.bind_eq_some_iff.1 h
  split at h
  · obtain ⟨heap, -, h⟩ := Option.bind_eq_some_iff.1 h
    obtain ⟨-, h⟩ := Option.ite_none_right_eq_some.1 h
    cases h
    rfl
  · obtain ⟨heap, -, h⟩ := Option.bind_eq_some_iff.1 h
    obtain ⟨-, h⟩ := Option.ite_none_right_eq_some.1 h
    cases h
    rfl

theorem pages_allocateVirtualMemory (laws : HeapEffects X) (hregular : X.Regular m.heaps)
    (call : GuestImportContext) : PagesAfter X m (allocateVirtualMemory X m call).1
      (allocatedPages X m call).toList := by
  rw [allocatedPages]
  obtain ⟨request, region, given, hrequest, hout, heq⟩ | ⟨request, hrequest, hout, hmemory, -⟩ |
      ⟨hrequest, hmemory, -⟩ := allocateVirtualMemory_cases X m call
  · obtain ⟨op, region', given', hop, hout', -, heffect, -⟩ | ⟨-, hno, -⟩ :=
      handedOut_effect laws hrequest
    · rw [hout, Option.some.injEq, Prod.mk.injEq] at hout'
      obtain ⟨rfl, rfl⟩ := hout'
      rw [hop, Option.map_some, Option.toList_some, heq]
      have hpages : PagesAfter X m given
          [⟨op.run, mappingAction (call.argument 2).toUInt32⟩] :=
        .of_effect hregular (allocateOperation_state hop ▸ follows_map _) heffect
      exact hpages.of_heaps (heaps_answerRegion _)
    · rw [hout] at hno
      cases hno
  · obtain ⟨_, _, _, _, hout', _⟩ | ⟨hop, -, hkept⟩ := handedOut_effect laws hrequest
    · rw [hout] at hout'
      cases hout'
    · rw [hop, hmemory]
      exact .same hregular (by rw [hkept])
  · have hop : allocateOperation X m call = none := by
      rw [allocateOperation, hrequest, Option.bind_none]
    rw [hop, hmemory]
    exact .same hregular rfl

theorem pages_freeVirtualMemory (laws : HeapEffects X) (hregular : X.Regular m.heaps)
    (call : GuestImportContext) : PagesAfter X m (freeVirtualMemory X m call).1
      (freedPages X m call).toList := by
  obtain ⟨run, freed, hrun, -, heffect, -, heq⟩ | ⟨hrun, hmemory⟩ :=
    freedByGuest_effect (m := m) laws call
  · rw [freedPages, hrun, Option.map_some, Option.toList_some, heq]
    rw [freeing] at heffect
    by_cases hdecommit : decommitOnly (call.argument 2).toUInt32
    · rw [if_pos hdecommit] at heffect ⊢
      have hpages : PagesAfter X m freed [⟨run, .decommit⟩] :=
        .of_effect hregular follows_decommit heffect
      exact hpages.of_heaps (heaps_answerFree _ _)
    · rw [if_neg hdecommit] at heffect ⊢
      have hpages : PagesAfter X m freed [⟨run, .release⟩] :=
        .of_effect hregular follows_release heffect
      exact hpages.of_heaps (heaps_answerFree _ _)
  · rw [freedPages, hrun, hmemory]
    exact .same hregular rfl

/-- A query that succeeds hands back the words of the region that the heap finds. -/
theorem words_queryVirtualMemory {call : GuestImportContext}
    (h : Succeeded (queryVirtualMemory X m call).2) :
    ∃ heap info, X.lookupHeap (call.argument 0).toUInt32 = some heap ∧
      X.queryRegionInfo heap (call.argument 0).toUInt32 m.heaps = some info ∧
      ∀ i word, [info.baseAddress, info.allocationBase, X.toXdkProtectFlags info.allocationProtect,
        info.regionSize, guestAllocationState info.state, X.toXdkProtectFlags info.protect,
        memPrivate][i]? = some word →
        loadWordAt (queryVirtualMemory X m call).1.bytes
          ((call.argument 1).toUInt32.toNat + i * 4) = word := by
  rw [queryVirtualMemory] at h ⊢
  split at h
  · exact absurd h (not_succeeded_setReturnValue call (by decide))
  · next hguard =>
    rw [if_neg hguard]
    split at h
    · exact absurd h (not_succeeded_setReturnValue call (by decide))
    · next info hinfo =>
      obtain ⟨heap, hheap, hquery⟩ := Option.bind_eq_some_iff.1 hinfo
      refine ⟨heap, info, hheap, hquery, fun i word hword => ?_⟩
      cases hwrite : X.writeMemory m (call.argument 1).toUInt32 (encodeRegionInfo X info) with
      | none =>
        rw [hwrite] at h
        exact absurd h (not_succeeded_refuse call _)
      | some after =>
        obtain ⟨-, hstored⟩ := Option.ite_none_right_eq_some.1 hwrite
        cases hstored
        exact loadWordAt_of_heldBy (Patch.heldBy_write _ m.bytes) hword

/-! ## The system heap -/

/-- What is assumed of Xenia's system heap: it maps free pages for the title, whole ones, or fails
with nothing changed, and takes them back like any other. -/
structure SystemHeapEffects (X : Xenia η) : Prop where
  alloc_failed : ∀ size m, (X.systemHeapAlloc size m).1 = 0 →
    (X.systemHeapAlloc size m).2.heaps = m.heaps
  alloc : ∀ size m, (X.systemHeapAlloc size m).1 ≠ 0 →
    ∃ heap, X.lookupHeap (X.systemHeapAlloc size m).1 = some heap ∧
      ∀ x, X.state (X.systemHeapAlloc size m).2.heaps x =
        if PageRun.Covers X ⟨heap, (X.systemHeapAlloc size m).1, roundUp size heap.pageSize⟩ x then
          memoryAllocationReserve ||| memoryAllocationCommit
        else X.state m.heaps x
  free : ∀ heap address m, X.lookupHeap address = some heap →
    X.systemHeapFree address m = (X.release heap address m).2

/-- The pages that the system heap hands out. -/
def systemHeapPages (X : Xenia η) (m : XeniaMemory η) (size : UInt32) : Option PageOperation :=
  if (X.systemHeapAlloc size m).1 = 0 then none
  else
    (X.lookupHeap (X.systemHeapAlloc size m).1).map fun heap =>
      ⟨⟨heap, (X.systemHeapAlloc size m).1, roundUp size heap.pageSize⟩, .commit⟩

theorem pages_systemHeapAlloc (system : SystemHeapEffects X) (hregular : X.Regular m.heaps)
    (size : UInt32) :
    PagesAfter X m (X.systemHeapAlloc size m).2 (systemHeapPages X m size).toList := by
  rw [systemHeapPages]
  by_cases hzero : (X.systemHeapAlloc size m).1 = 0
  · rw [if_pos hzero]
    exact .same hregular (system.alloc_failed size m hzero)
  · obtain ⟨heap, hheap, hstate⟩ := system.alloc size m hzero
    rw [if_neg hzero, hheap, Option.map_some, Option.toList_some]
    exact .single hregular (follows_map memCommit) (fun x hx => by rw [hstate, if_pos hx]; rfl)
      fun x hx => by rw [hstate, if_neg hx]

theorem pages_systemHeapFree (laws : HeapEffects X) (system : SystemHeapEffects X)
    (hregular : X.Regular m.heaps) {address : GuestAddress} {heap : BaseHeap}
    (hheap : X.lookupHeap address = some heap) :
    PagesAfter X m (X.systemHeapFree address m)
      ((freedBySystemHeap X m address).map (PageOperation.mk · .release)).toList := by
  rw [system.free heap address m hheap, freedBySystemHeap, hheap]
  simp only
  cases hrelease : (X.release heap address m).1 with
  | none =>
    have hkept := laws.release_failed heap address m hrelease
    exact .same hregular (congrArg XeniaMemory.heaps hkept)
  | some size =>
    exact .of_effect hregular follows_release (laws.release heap address size m hheap hrelease)

end

namespace SharedMemory

section

variable {η : Type} {X : Xenia η} {s s' : SharedMemory η}

/-! ## Runs -/

/-- What a call does to the pages. -/
def operations (X : Xenia η) (s : SharedMemory η) : SharedCall → List PageOperation
  | .allocateGuestMemory size =>
    if ¬ s.guest.initialized ∨ size = 0 then [] else (systemHeapPages X s.memory size).toList
  | .releaseGuestMemory a =>
    if s.guest.initialized ∧ a.address ≠ 0 ∧ a.size ≠ 0 ∧
        s.guest.allocations.find a.address = some a.size then
      ((freedBySystemHeap X s.memory a.address).map (PageOperation.mk · .release)).toList
    else []
  | .ntAllocateVirtualMemory call => (allocatedPages X s.memory call).toList
  | .ntFreeVirtualMemory call => (freedPages X s.memory call).toList
  | .ntQueryVirtualMemory _ => []
  | .store _ _ => []

/-- The ranges of the table lie in the heaps, and the pages are regular. -/
structure Placed (X : Xenia η) (s : SharedMemory η) : Prop where
  regular : X.Regular s.memory.heaps
  entries : ∀ e ∈ s.guest.allocations.entries, ∃ heap, X.lookupHeap e.1 = some heap

theorem pages_allocateGuestMemory (system : SystemHeapEffects X) (h : Placed X s) (size : UInt32) :
    PagesAfter X s.memory (s.call X (.allocateGuestMemory size)).memory
      (s.operations X (.allocateGuestMemory size)) := by
  have hpages := pages_systemHeapAlloc system h.regular size
  simp only [SharedMemory.call, operations, GuestMemory.allocate]
  by_cases hguard : ¬ s.guest.initialized ∨ size = 0
  · rw [if_pos hguard, if_pos hguard]
    exact .same h.regular rfl
  · rw [if_neg hguard, if_neg hguard]
    split
    · exact hpages
    · exact hpages

theorem pages_releaseGuestMemory (laws : HeapEffects X) (system : SystemHeapEffects X)
    (h : Placed X s) (a : GuestMemoryAllocation) :
    PagesAfter X s.memory (s.call X (.releaseGuestMemory a)).memory
      (s.operations X (.releaseGuestMemory a)) := by
  simp only [SharedMemory.call, operations, GuestMemory.release]
  by_cases hguard : ¬ s.guest.initialized ∨ a.address = 0 ∨ a.size = 0
  · rw [if_pos hguard, if_neg]
    · exact .same h.regular rfl
    · rintro ⟨hinit, haddress, hsize, -⟩
      exact hguard.elim (fun hno => hno hinit) fun hzero => hzero.elim haddress hsize
  · rw [if_neg hguard]
    rw [not_or, not_or, not_not] at hguard
    by_cases hfind : s.guest.allocations.find a.address = some a.size
    · obtain ⟨heap, hheap⟩ := h.entries _ (OrderedMap.find_eq_some_iff.1 hfind)
      rw [if_neg (not_not.2 hfind), if_pos ⟨hguard.1, hguard.2.1, hguard.2.2, hfind⟩]
      exact pages_systemHeapFree laws system h.regular hheap
    · rw [if_pos hfind, if_neg fun hno => hfind hno.2.2.2]
      exact .same h.regular rfl

/-- **One call** does to the pages what its operations say. -/
theorem pages_step (laws : HeapEffects X) (system : SystemHeapEffects X) (h : Placed X s)
    (c : SharedCall) : PagesAfter X s.memory (s.call X c).memory (s.operations X c) := by
  cases c with
  | allocateGuestMemory size => exact pages_allocateGuestMemory system h size
  | releaseGuestMemory a => exact pages_releaseGuestMemory laws system h a
  | ntAllocateVirtualMemory call => exact pages_allocateVirtualMemory laws h.regular call
  | ntFreeVirtualMemory call => exact pages_freeVirtualMemory laws h.regular call
  | ntQueryVirtualMemory call => exact .same h.regular (heaps_queryVirtualMemory s.memory call)
  | store address bytes => exact .same h.regular rfl

theorem placed_entries (system : SystemHeapEffects X) (h : Placed X s) (c : SharedCall) :
    ∀ e ∈ (s.call X c).guest.allocations.entries, ∃ heap, X.lookupHeap e.1 = some heap := by
  cases c with
  | allocateGuestMemory size =>
    rcases s.guest.allocate_cases (X := X) s.memory size with
      ⟨hguest, -, -⟩ | ⟨-, -, hne, hfind, heq⟩
    · simpa only [SharedMemory.call, hguest] using h.entries
    · simp only [SharedMemory.call, heq]
      intro e he
      rcases (OrderedMap.mem_emplace_iff hfind).1 he with rfl | he
      · obtain ⟨heap, hheap, -⟩ := system.alloc size s.memory hne
        exact ⟨heap, hheap⟩
      · exact h.entries e he
  | releaseGuestMemory a =>
    rcases s.guest.release_cases (X := X) s.memory a with ⟨hguest, -, -, -⟩ | ⟨-, heq⟩
    · simpa only [SharedMemory.call, hguest] using h.entries
    · simp only [SharedMemory.call, heq]
      exact fun e he => h.entries e (OrderedMap.mem_erase_iff.1 he).1
  | ntAllocateVirtualMemory call => exact h.entries
  | ntFreeVirtualMemory call => exact h.entries
  | ntQueryVirtualMemory call => exact h.entries
  | store address bytes => exact h.entries

/-- **Runs.** The records of the heaps are the page map after the operations of the run. -/
theorem pageMap_play (laws : HeapEffects X) (system : SystemHeapEffects X) {m : XeniaMemory η}
    (hregular : X.Regular m.heaps) {calls : List SharedCall}
    (hplay : play (step X) (fresh m) calls = some s) :
    X.pageMap s.memory.heaps = (recordsAlong (step X) (operations X) (fresh m) calls).foldl
      (PageOperation.apply X) (X.pageMap m.heaps) := by
  have hstep : ∀ s c s', Placed X s → True → step X s c = some s' → Placed X s' ∧
      X.pageMap s'.memory.heaps =
        (s.operations X c).foldl (PageOperation.apply X) (X.pageMap s.memory.heaps) := by
    rintro s c s' h - hs
    cases hs
    obtain ⟨hregular, hpages⟩ := pages_step laws system h c
    exact ⟨⟨hregular, placed_entries system h c⟩, hpages⟩
  have hstart : Placed X (fresh m) := ⟨hregular, fun _ h => nomatch h⟩
  exact (view_of_play hstep hstart (everyStep_of_forall fun _ _ => trivial) hplay).2

/-- **Main result.** What a query says of a page is what the operations of the run, the title's
and the guest's, made of it. -/
theorem play_query (laws : HeapEffects X) (system : SystemHeapEffects X) {m : XeniaMemory η}
    (hregular : X.Regular m.heaps) {calls : List SharedCall}
    (hplay : play (step X) (fresh m) calls = some s) {call : GuestImportContext}
    (hsucceeded : Succeeded (queryVirtualMemory X s.memory call).2) :
    loadWordAt (queryVirtualMemory X s.memory call).1.bytes
        ((call.argument 1).toUInt32.toNat + 16) =
      ((recordsAlong (step X) (operations X) (fresh m) calls).foldl (PageOperation.apply X)
        (X.pageMap m.heaps) (call.argument 0).toUInt32).word := by
  obtain ⟨heap, info, hheap, hquery, hwords⟩ := words_queryVirtualMemory hsucceeded
  have hstate : X.state s.memory.heaps (call.argument 0).toUInt32 = info.state := by
    rw [Xenia.state, hheap, Option.bind_some, hquery]
  rw [← pageMap_play laws system hregular hplay, Xenia.pageMap, hstate, ← guestAllocationState_eq]
  exact hwords 4 _ rfl

end

/-! ## On the paged memory -/

section

open PageTable

theorem pagedSystemEffects : SystemHeapEffects paged where
  alloc_failed size m hzero := by
    rcases systemHeapAlloc_cases size m with heq | ⟨first, hfit, -, haddress, -⟩
    · exact congrArg (fun answer => answer.2.heaps) heq
    · have hfirst := (firstFit_spec hfit).1
      have hzero : (PageTable.systemHeapAlloc size m).1 = 0 := hzero
      rw [hzero] at haddress
      have hword : (0 : UInt32).toNat = 0 := rfl
      omega
  alloc size m hne := by
    rcases systemHeapAlloc_cases size m with heq | ⟨first, hfit, hpage, haddress, hheaps⟩
    · exact absurd (congrArg Prod.fst heq) hne
    · obtain ⟨-, -, hend, -⟩ := firstFit_spec hfit
      have hlookup : lookup (PageTable.systemHeapAlloc size m).1 = some PageTable.heap :=
        if_pos (by omega)
      have hsize : size.toNat ≤ 0x40000000 := by
        unfold pageCount at hend
        have hfirst := (firstFit_spec hfit).1
        omega
      refine ⟨PageTable.heap, hlookup, fun x => ?_⟩
      show paged.state (PageTable.systemHeapAlloc size m).2.heaps x = if PageRun.Covers paged
        ⟨PageTable.heap, (PageTable.systemHeapAlloc size m).1, roundUp size 0x1000⟩ x then _ else _
      have hcovers := covers_iff (x := x) hlookup (toNat_roundUp_mod size 0x1000)
      rw [toNat_roundUp_page hsize, hpage] at hcovers
      rw [paged_state, paged_state, hheaps]
      by_cases hx : x.toNat < 0x40000000
      · rw [if_pos hx, if_pos hx]
        by_cases hin : first ≤ page x ∧ page x < first + pageCount size
        · rw [if_pos (hcovers.2 ⟨hx, hin⟩), onPages_of_mem hin]
          rfl
        · rw [if_neg fun h => hin (hcovers.1 h).2, onPages_of_not_mem hin]
      · rw [if_neg hx, if_neg hx, if_neg fun h => hx (hcovers.1 h).1]
  free heap address m _ := rfl

/-- Behind the title's page the guest commits two and decommits the second. -/
def decommitCalls : List SharedCall :=
  [.allocateGuestMemory 0x1000, storeWords 0x11000 0x2000,
    .ntAllocateVirtualMemory (.make [0x20000, 0x20004, 0x3000, 0x04]), storeWords 0x12000 0x1000,
    .ntFreeVirtualMemory (.make [0x20000, 0x20004, 0x4000])]

def afterDecommit : SharedMemory PageTable :=
  decommitCalls.foldl (SharedMemory.call paged) (fresh stackMemory)

theorem regular_stackMemory : paged.Regular stackMemory.heaps := by
  have hentry : ∀ p, stackMemory.heaps p = taken 0x20 1 3 3 ∨ stackMemory.heaps p = {} :=
    fun p => ite_eq_or_eq _ _ _
  intro x hcommit
  rw [paged_state] at hcommit ⊢
  split at hcommit
  · next hx =>
    rw [if_pos hx]
    rcases hentry (page x) with h | h
    · rw [h]
      decide
    · rw [h] at hcommit
      exact absurd rfl hcommit
  · exact absurd rfl hcommit

theorem play_query_decommit : ∃ s, play (step paged) (fresh stackMemory) decommitCalls = some s ∧
    loadWordAt (queryVirtualMemory paged s.memory (.make [0x12000, 0x20010, 0])).1.bytes 0x20020 =
      memReserve := by
  have hplay : play (step paged) (fresh stackMemory) decommitCalls = some afterDecommit := rfl
  have hsucceeded : Succeeded (queryVirtualMemory paged afterDecommit.memory
      (.make [0x12000, 0x20010, 0])).2 := by decide +kernel
  have hquery := play_query pagedEffects pagedSystemEffects regular_stackMemory hplay hsucceeded
  refine ⟨afterDecommit, hplay, hquery.trans ?_⟩
  decide +kernel

end

end SharedMemory

end X360Port
