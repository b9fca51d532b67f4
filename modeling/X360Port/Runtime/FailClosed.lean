import X360Port.Runtime.Loading

/-!
# Loads that fail

A context loads at most one module, and a load that fails before the image is
mapped leaves the context as it was. A load that fails later leaves no module
either, unless it was the watch that was refused: the module, its code range
and its watch are set by then, and stay.
-/

namespace X360Port

open Library

namespace Runtime

/-- What the other operations answer on a context without a module. -/
structure HoldsNoModule (s : Runtime) : Prop where
  overrides : ∀ address handler context accepted,
    (s.installOverride address handler context accepted).2.error = .loadStateInvalid
  writes : ∀ address size, (s.notifyExecutableWrite address size).2.error = .loadStateInvalid
  code : ∀ address, s.isInCodeRange address = false

theorem holdsNoModule {s : Runtime} (hm : s.module = false) (hi : s.invalidation = none) :
    s.HoldsNoModule where
  overrides address handler context accepted := by
    rw [installOverride, if_pos (by rw [hm]; exact Bool.false_ne_true)]
  writes address size := by rw [notifyExecutableWrite, hi]
  code address := by rw [isInCodeRange, hm, Bool.false_and]

/-- A context with a module takes the call to the override table, which is bound. -/
theorem not_holdsNoModule {s : Runtime} (hm : s.module = true) (hb : s.overrides.bound = true) :
    ¬ s.HoldsNoModule := by
  intro h
  have ho := h.overrides 0 none 0 true
  rw [installOverride, if_neg (not_not_intro hm)] at ho
  exact OverrideDispatch.install_bound hb 0 none 0 s.codeRange true ho

end Runtime

/-- What a failing call must leave behind, and that no second call succeeds. -/
structure FailsClosed (lookupHeap : GuestAddress → Bool) (memory : Memory UInt8)
    (h : LoadHistory) (s : Runtime) (outcome : CallOutcome) : Prop where
  once : outcome.Succeeded → ¬ h.Loaded
  unmapped : s.heapCalls = h.context.heapCalls → s = h.context
  asFresh : s.heapCalls = [] → ∀ call,
    s.loadModule lookupHeap call = (Runtime.fresh memory).loadModule lookupHeap call
  noModule : ¬ outcome.Succeeded → ¬ h.Loaded → s.HoldsNoModule

/-- The call ends, and fails closed. -/
def LoadHistory.FailsClosed (lookupHeap : GuestAddress → Bool) (memory : Memory UInt8)
    (h : LoadHistory) (call : LoadCall) : Prop :=
  ∃ s outcome, h.context.loadModule lookupHeap call = .ok (s, outcome) ∧
    X360Port.FailsClosed lookupHeap memory h s outcome

/-- Where a context is between loads, as long as no watch is refused. -/
inductive LoadState (memory : Memory UInt8) (h : LoadHistory) : Prop
  | untouched (hs : h.context = .fresh memory) (hl : ¬ h.Loaded)
  | stopped (hf : h.context.loadFailed = true) (hm : h.context.module = false)
      (hi : h.context.invalidation = none) (hc : h.context.heapCalls ≠ []) (hl : ¬ h.Loaded)
  | loaded (hm : h.context.module = true) (hc : h.context.heapCalls ≠ []) (hl : h.Loaded)

section

variable {lookupHeap : GuestAddress → Bool} {memory : Memory UInt8} {h : LoadHistory}
  {call : LoadCall} {s : Runtime} {outcome : CallOutcome}

theorem LoadHistory.not_loaded_cons (hl : ¬ h.Loaded) (ho : ¬ outcome.Succeeded) :
    ¬ (LoadHistory.mk s (outcome :: h.outcomes)).Loaded := by
  rintro ⟨o, hm, hs⟩
  rcases List.mem_cons.1 hm with rfl | hm
  · exact ho hs
  · exact hl ⟨o, hm, hs⟩

/-- A context that has no image range is as it was created. -/
theorem LoadState.eq_fresh (hs : LoadState memory h) (hc : h.context.heapCalls = []) :
    h.context = .fresh memory := by
  cases hs with
  | untouched hs => exact hs
  | stopped hf hm hi hne => exact absurd hc hne
  | loaded hm hne => exact absurd hc hne

theorem LoadState.untouched_of_idle (hs : LoadState memory h) (hi : h.context.Idle) :
    h.context = .fresh memory ∧ ¬ h.Loaded := by
  cases hs with
  | untouched hs hl => exact ⟨hs, hl⟩
  | stopped hf => exact Bool.noConfusion (hf.symm.trans hi.1)
  | loaded hm => exact Bool.noConfusion (hm.symm.trans hi.2)

theorem LoadState.noModule (hs : LoadState memory h) (hl : ¬ h.Loaded) :
    h.context.HoldsNoModule := by
  cases hs with
  | untouched hs => exact hs ▸ Runtime.holdsNoModule rfl rfl
  | stopped _ hm hi => exact Runtime.holdsNoModule hm hi
  | loaded _ _ hloaded => exact absurd hloaded hl

/-- The heap is called, so the context is no longer what it was. -/
theorem heapCalls_ne {calls rest : List HeapCall} {call : HeapCall} :
    calls ++ call :: rest ≠ calls :=
  fun he => List.cons_ne_nil _ _ (List.append_right_eq_self.1 he)

theorem heapCalls_ne_nil {calls : List HeapCall} {call : HeapCall} : calls ++ [call] ≠ [] :=
  List.append_ne_nil_of_right_ne_nil _ (List.cons_ne_nil _ _)

/-- **One call fails closed** exactly when it is granted the watch it asks for. -/
theorem LoadState.failsClosed_iff (hs : LoadState memory h) :
    h.FailsClosed lookupHeap memory call ↔ h.WatchGranted lookupHeap call := by
  obtain ⟨s, outcome, hl, hloading⟩ := Runtime.loadModule_loading lookupHeap h.context call
  have hclosed : h.FailsClosed lookupHeap memory call ↔
      FailsClosed lookupHeap memory h s outcome := by
    constructor
    · rintro ⟨s', outcome', hl', hf⟩
      rw [hl] at hl'
      cases hl'
      exact hf
    · exact fun hf => ⟨s, outcome, hl, hf⟩
  rw [hclosed]
  cases hloading with
  | refused failure hf hr =>
    refine ⟨fun _ imports guest hreach => absurd hreach (hr imports guest), fun _ => ?_⟩
    exact ⟨fun hok => absurd hok hf, fun _ => rfl,
      fun hc call => by rw [hs.eq_fresh hc], fun _ hnl => hs.noModule hnl⟩
  | stopped imports guest outcome hi hf hr =>
    refine ⟨fun _ imports guest hreach => absurd hreach (hr imports guest), fun _ => ?_⟩
    obtain ⟨hfresh, hnl⟩ := hs.untouched_of_idle hi
    refine ⟨fun hok => absurd hok hf, fun hc => ?_, fun hc => ?_, fun _ _ => ?_⟩
    · exact absurd ((List.append_assoc _ _ _).symm.trans hc) heapCalls_ne
    · exact absurd hc heapCalls_ne_nil
    · exact Runtime.holdsNoModule (congrArg Runtime.module hfresh)
        (congrArg Runtime.invalidation hfresh)
  | unwatched imports guest failure hr ha hf =>
    obtain ⟨hfresh, hnl⟩ := hs.untouched_of_idle hr.idle
    refine ⟨fun hclosed => ?_, fun hg => absurd (hg imports guest hr) ha⟩
    refine absurd (hclosed.noModule hf hnl) (Runtime.not_holdsNoModule rfl ?_)
    exact congrArg (fun context => context.overrides.bound) hfresh
  | loaded imports guest hr ha =>
    obtain ⟨hfresh, hnl⟩ := hs.untouched_of_idle hr.idle
    refine ⟨fun _ _ _ _ => ha, fun _ => ?_⟩
    refine ⟨fun _ => hnl, fun hc => absurd hc heapCalls_ne, fun hc => ?_, fun hn => absurd rfl hn⟩
    · exact absurd hc heapCalls_ne_nil

/-- A call that is granted its watch keeps the context in one of these states. -/
theorem LoadState.step (hs : LoadState memory h) (hg : h.WatchGranted lookupHeap call)
    {h' : LoadHistory} (hstep : h.step lookupHeap call = some h') : LoadState memory h' := by
  obtain ⟨s, outcome, hl, hloading⟩ := Runtime.loadModule_loading lookupHeap h.context call
  rw [LoadHistory.step_of_loadModule hl] at hstep
  cases hstep
  cases hloading with
  | refused failure hf hr =>
    cases hs with
    | untouched hs hnl => exact .untouched hs (LoadHistory.not_loaded_cons hnl hf)
    | stopped hfail hm hi hc hnl =>
      exact .stopped hfail hm hi hc (LoadHistory.not_loaded_cons hnl hf)
    | loaded hm hc hloaded =>
      obtain ⟨o, hmem, ho⟩ := hloaded
      exact .loaded hm hc ⟨o, List.mem_cons_of_mem _ hmem, ho⟩
  | stopped imports guest outcome hi hf hr =>
    obtain ⟨hfresh, hnl⟩ := hs.untouched_of_idle hi
    exact .stopped rfl (congrArg Runtime.module hfresh) (congrArg Runtime.invalidation hfresh)
      heapCalls_ne_nil (LoadHistory.not_loaded_cons hnl hf)
  | unwatched imports guest failure hr ha hf => exact absurd (hg imports guest hr) ha
  | loaded imports guest hr ha =>
    exact .loaded rfl heapCalls_ne_nil ⟨_, List.mem_cons_self, rfl⟩

end

/-- **Main result.** Every call of a run fails closed if and only if every call that asks
Xenia for the watch is granted it. -/
theorem loadModule_failsClosed_iff (lookupHeap : GuestAddress → Bool) (memory : Memory UInt8)
    (calls : List LoadCall) :
    EveryStep (LoadHistory.step lookupHeap) (LoadHistory.FailsClosed lookupHeap memory)
        (.start memory) calls ↔
      EveryStep (LoadHistory.step lookupHeap) (LoadHistory.WatchGranted lookupHeap)
        (.start memory) calls :=
  everyStep_congr (P := LoadState memory) (fun _ _ hs => hs.failsClosed_iff)
    (fun _ _ _ hs hg hstep => hs.step hg hstep) (.untouched rfl (by rintro ⟨_, hm, -⟩; cases hm))
    calls

/-- A context whose watch was refused keeps its module. -/
theorem not_loadModule_failsClosed :
    ¬ ∀ (lookupHeap : GuestAddress → Bool) (memory : Memory UInt8) (calls : List LoadCall),
      EveryStep (LoadHistory.step lookupHeap) (LoadHistory.FailsClosed lookupHeap memory)
        (.start memory) calls := by
  intro hall
  have h := (hall (fun _ => true) (fun _ => 0) [syntheticLoad false]).1
  have hs : LoadState (fun _ => 0) (.start fun _ => 0) :=
    .untouched rfl (by rintro ⟨_, hm, -⟩; cases hm)
  obtain ⟨guest, hr⟩ := syntheticLoad_reachesArming (fun _ => 0) false
  exact absurd (hs.failsClosed_iff.1 h _ guest hr) (by decide)

end X360Port
