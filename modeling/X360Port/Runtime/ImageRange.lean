import X360Port.Runtime.Loading

/-!
# The image range

The range of an image belongs to the reservation of the call that allocated it,
and after a commit to the context, which releases it when it is destroyed. The
context takes `imageAddress` before the commit, so a call that is refused the
watch leaves two owners; and it knows no image at the null address, so that one
has none.
-/

namespace X360Port

open Library

namespace Runtime

/-- After the context is destroyed every range has been released as often as allocated. -/
def Balanced (lookupHeap : GuestAddress → Bool) (s : Runtime) : Prop :=
  ∀ base, (s.destroy lookupHeap).count (.release base) =
    (s.destroy lookupHeap).count (.allocFixed base)

/-- A call releases the range it allocated, unless it succeeds. -/
def ReleasesOwn (s s' : Runtime) (outcome : CallOutcome) : Prop :=
  s'.heapCalls = s.heapCalls ∨ ∃ base, s'.heapCalls = s.heapCalls ++
    .allocFixed base :: if outcome.Succeeded then [] else [.release base]

end Runtime

namespace LoadHistory

/-- The call ends, and releases its own range unless it succeeds. -/
def ReleasesOwn (lookupHeap : GuestAddress → Bool) (h : LoadHistory) (call : LoadCall) : Prop :=
  ∃ s outcome, h.context.loadModule lookupHeap call = .ok (s, outcome) ∧
    h.context.ReleasesOwn s outcome

/-- Each range that the calls of a run allocate is released exactly once: by its own call when
that fails, and otherwise when the context is destroyed after the run. -/
def ReleasedOnce (lookupHeap : GuestAddress → Bool) (h : LoadHistory) (calls : List LoadCall) :
    Prop :=
  EveryStep (step lookupHeap) (ReleasesOwn lookupHeap) h calls ∧
    ∃ h', play (step lookupHeap) h calls = some h' ∧ h'.context.Balanced lookupHeap

/-- A call that asks for the watch is granted it exactly when its image is not at the null
address. -/
def OwnerAgrees (lookupHeap : GuestAddress → Bool) (h : LoadHistory) (call : LoadCall) : Prop :=
  ∀ imports guest, h.context.ReachesArming lookupHeap call imports guest →
    (call.Armed ↔ call.module.descriptor.image.base ≠ 0)

end LoadHistory

/-! ## One call -/

section

variable {lookupHeap : GuestAddress → Bool} {s s' : Runtime} {call : LoadCall}
  {outcome : CallOutcome}

theorem Runtime.Loading.releasesOwn (h : Runtime.Loading lookupHeap s call s' outcome) :
    s.ReleasesOwn s' outcome := by
  cases h with
  | refused => exact .inl rfl
  | stopped imports guest outcome hi hf =>
    refine .inr ⟨call.module.descriptor.image.base, ?_⟩
    rw [if_neg hf]
    exact List.append_assoc _ _ _
  | unwatched imports guest failure hr ha hf =>
    refine .inr ⟨call.module.descriptor.image.base, ?_⟩
    rw [if_neg (show ¬ (CallOutcome.returned failure).Succeeded from hf)]
    exact List.append_assoc _ _ _
  | loaded => exact .inr ⟨call.module.descriptor.image.base, rfl⟩

theorem count_allocFixed_release (base base' : GuestAddress) :
    [HeapCall.allocFixed base', .release base'].count (.release base) =
      [HeapCall.allocFixed base', .release base'].count (.allocFixed base) := by
  by_cases hb : base' = base
  · subst hb
    simp
  · simp [hb]

/-- Without an image the destructor releases nothing. -/
theorem Runtime.destroy_of_no_image (h : s.imageAddress = 0) :
    s.destroy lookupHeap = s.heapCalls := by
  rw [Runtime.destroy, if_neg (fun hc => hc.1 h)]

theorem Runtime.destroy_of_image {base : GuestAddress} (h : s.imageAddress = base)
    (hb : base ≠ 0) (hh : lookupHeap base = true) :
    s.destroy lookupHeap = s.heapCalls ++ [.release base] := by
  rw [Runtime.destroy, h, if_pos ⟨hb, hh⟩]
  rfl

/-- A context that nothing was loaded into, and whose ranges are all released. -/
structure Runtime.Unowned (s : Runtime) : Prop where
  image : s.imageAddress = 0
  calls : ∀ base, s.heapCalls.count (.release base) = s.heapCalls.count (.allocFixed base)

theorem Runtime.Unowned.balanced (h : s.Unowned) : s.Balanced lookupHeap := by
  intro base
  rw [Runtime.destroy_of_no_image h.image]
  exact h.calls base

theorem Runtime.Unowned.count_pair (h : s.Unowned) (base base' : GuestAddress) :
    (s.heapCalls ++ [HeapCall.allocFixed base, .release base]).count (.release base') =
      (s.heapCalls ++ [HeapCall.allocFixed base, .release base]).count (.allocFixed base') := by
  rw [List.count_append, List.count_append, h.calls base', count_allocFixed_release]

/-- A stopped call leaves no owner. -/
theorem Runtime.Unowned.stopped (h : s.Unowned) (base : GuestAddress) {t : Runtime}
    (ht : t.imageAddress = s.imageAddress)
    (hc : t.heapCalls = s.heapCalls ++ [.allocFixed base, .release base]) : t.Unowned where
  image := ht.trans h.image
  calls base' := by
    rw [hc]
    exact h.count_pair base base'

/-- Two owners, unless the address is null. -/
theorem Runtime.Unowned.balanced_unwatched_iff (h : s.Unowned) {base : GuestAddress}
    (hh : lookupHeap base = true) {t : Runtime} (ht : t.imageAddress = base)
    (hc : t.heapCalls = s.heapCalls ++ [.allocFixed base, .release base]) :
    t.Balanced lookupHeap ↔ base = 0 := by
  by_cases hb : base = 0
  · refine iff_of_true (fun base' => ?_) hb
    rw [Runtime.destroy_of_no_image (ht.trans hb), hc]
    exact h.count_pair base base'
  · refine iff_of_false (fun hbal => ?_) hb
    have hbase := hbal base
    rw [Runtime.destroy_of_image ht hb hh, hc, List.count_append, h.count_pair base base,
      List.count_append] at hbase
    simp at hbase

/-- One owner, unless the address is null. -/
theorem Runtime.Unowned.balanced_loaded_iff (h : s.Unowned) {base : GuestAddress}
    (hh : lookupHeap base = true) {t : Runtime} (ht : t.imageAddress = base)
    (hc : t.heapCalls = s.heapCalls ++ [.allocFixed base]) :
    t.Balanced lookupHeap ↔ base ≠ 0 := by
  by_cases hb : base = 0
  · refine iff_of_false (fun hbal => ?_) (not_not_intro hb)
    have hbase := hbal base
    rw [Runtime.destroy_of_no_image (ht.trans hb), hc, List.count_append, List.count_append,
      h.calls base] at hbase
    simp at hbase
  · refine iff_of_true (fun base' => ?_) hb
    rw [Runtime.destroy_of_image ht hb hh, hc, List.append_assoc]
    exact h.count_pair base base'

end

/-! ## Runs -/

section

variable {lookupHeap : GuestAddress → Bool}

theorem LoadHistory.releasesOwn (h : LoadHistory) (call : LoadCall) :
    h.ReleasesOwn lookupHeap call := by
  obtain ⟨s, outcome, hl, hloading⟩ := Runtime.loadModule_loading lookupHeap h.context call
  exact ⟨s, outcome, hl, hloading.releasesOwn⟩

/-- Once an image was mapped, every later call is refused. -/
theorem LoadHistory.play_busy (lookupHeap : GuestAddress → Bool) {h : LoadHistory}
    (hb : ¬ h.context.Idle) (calls : List LoadCall) :
    (∃ h', play (step lookupHeap) h calls = some h' ∧ h'.context = h.context) ∧
      EveryStep (step lookupHeap) (OwnerAgrees lookupHeap) h calls := by
  induction calls generalizing h with
  | nil => exact ⟨⟨h, rfl, rfl⟩, trivial⟩
  | cons call calls ih =>
    obtain ⟨s, outcome, hl, hloading⟩ := Runtime.loadModule_loading lookupHeap h.context call
    have hs : s = h.context := by
      cases hloading with
      | refused => rfl
      | stopped _ _ _ hi => exact absurd hi hb
      | unwatched _ _ _ hr => exact absurd hr.idle hb
      | loaded _ _ hr => exact absurd hr.idle hb
    subst hs
    have hstep := step_of_loadModule hl
    obtain ⟨⟨h', hplay, hcontext⟩, hevery⟩ := ih (h := ⟨h.context, outcome :: h.outcomes⟩) hb
    refine ⟨⟨h', play_cons_iff.2 ⟨_, hstep, hplay⟩, hcontext⟩, ?_, fun h1 h1step => ?_⟩
    · exact fun imports guest hr => absurd hr.idle hb
    · cases hstep.symm.trans h1step
      exact hevery

/-- The end of a run, where its first call maps an image. -/
theorem LoadHistory.balanced_cons_iff {h h1 : LoadHistory} {call : LoadCall}
    {calls : List LoadCall} (hstep : h.step lookupHeap call = some h1) (hb : ¬ h1.context.Idle)
    (hcall : h1.context.Balanced lookupHeap ↔ h.OwnerAgrees lookupHeap call) :
    (∃ h', play (step lookupHeap) h (call :: calls) = some h' ∧ h'.context.Balanced lookupHeap) ↔
      EveryStep (step lookupHeap) (OwnerAgrees lookupHeap) h (call :: calls) := by
  obtain ⟨⟨h', hplay, hcontext⟩, hevery⟩ := play_busy lookupHeap hb calls
  have hrun := play_cons_iff.2 ⟨h1, hstep, hplay⟩
  refine ⟨fun ⟨h2, hplay2, hbal⟩ => ⟨?_, fun h3 hstep3 => ?_⟩, fun hall => ⟨h', hrun, ?_⟩⟩
  · cases hrun.symm.trans hplay2
    rw [hcontext] at hbal
    exact hcall.1 hbal
  · cases hstep.symm.trans hstep3
    exact hevery
  · rw [hcontext]
    exact hcall.2 hall.1

/-- **The last owner.** From a context without an image the ranges balance at the end of a run
if and only if every call agrees. -/
theorem LoadHistory.balanced_iff {h : LoadHistory} (hu : h.context.Unowned)
    (calls : List LoadCall) :
    (∃ h', play (step lookupHeap) h calls = some h' ∧ h'.context.Balanced lookupHeap) ↔
      EveryStep (step lookupHeap) (OwnerAgrees lookupHeap) h calls := by
  induction calls generalizing h with
  | nil => exact iff_of_true ⟨h, rfl, hu.balanced⟩ trivial
  | cons call calls ih =>
    obtain ⟨s, outcome, hl, hloading⟩ := Runtime.loadModule_loading lookupHeap h.context call
    have hstep := step_of_loadModule hl
    cases hloading with
    | refused failure hf hr =>
      have hrest := ih (h := ⟨h.context, .returned failure :: h.outcomes⟩) hu
      refine ⟨fun ⟨h', hplay, hbal⟩ => ⟨?_, fun h1 h1step => ?_⟩, fun hall => ?_⟩
      · exact fun imports guest hreach => absurd hreach (hr imports guest)
      · cases hstep.symm.trans h1step
        obtain ⟨h2, hstep2, hplay2⟩ := play_cons_iff.1 hplay
        cases hstep.symm.trans hstep2
        exact hrest.1 ⟨h', hplay2, hbal⟩
      · obtain ⟨h', hplay, hbal⟩ := hrest.2 (hall.2 _ hstep)
        exact ⟨h', play_cons_iff.2 ⟨_, hstep, hplay⟩, hbal⟩
    | stopped imports guest outcome hi hf hr =>
      refine balanced_cons_iff hstep (fun hidle => Bool.noConfusion hidle.1)
        (iff_of_true (Runtime.Unowned.balanced ?_) ?_)
      · exact hu.stopped call.module.descriptor.image.base rfl (List.append_assoc _ _ _)
      · exact fun imports guest hreach => absurd hreach (hr imports guest)
    | unwatched imports guest failure hr ha hf =>
      refine balanced_cons_iff hstep (fun hidle => Bool.noConfusion hidle.1) ?_
      rw [hu.balanced_unwatched_iff hr.heap rfl (List.append_assoc _ _ _)]
      refine ⟨fun h0 _ _ _ => iff_of_false ha (not_not_intro h0), fun hall => ?_⟩
      exact Decidable.not_not.1 fun h0 => ha ((hall imports guest hr).2 h0)
    | loaded imports guest hr ha =>
      refine balanced_cons_iff hstep (fun hidle => Bool.noConfusion hidle.2) ?_
      rw [hu.balanced_loaded_iff hr.heap rfl rfl]
      exact ⟨fun h0 _ _ _ => iff_of_true ha h0, fun hall => (hall imports guest hr).1 ha⟩

end

/-- **Main result.** Over a run of loads and the destruction of the context each image range is
released exactly once if and only if every call that asks for the watch is granted it exactly
when its image is not at the null address. -/
theorem loadModule_releasedOnce_iff (lookupHeap : GuestAddress → Bool) (memory : Memory UInt8)
    (calls : List LoadCall) :
    (LoadHistory.start memory).ReleasedOnce lookupHeap calls ↔
      EveryStep (LoadHistory.step lookupHeap) (LoadHistory.OwnerAgrees lookupHeap)
        (.start memory) calls := by
  rw [LoadHistory.ReleasedOnce, LoadHistory.balanced_iff ⟨rfl, fun _ => rfl⟩]
  apply and_iff_right
  generalize LoadHistory.start memory = h
  induction calls generalizing h with
  | nil => trivial
  | cons call calls ih => exact ⟨h.releasesOwn call, fun h1 _ => ih h1⟩

/-- A refused watch: the call releases the range, and the destructor releases it again. -/
theorem not_loadModule_releasedOnce :
    ¬ ∀ (lookupHeap : GuestAddress → Bool) (memory : Memory UInt8) (calls : List LoadCall),
      (LoadHistory.start memory).ReleasedOnce lookupHeap calls := by
  intro hall
  have h := (hall (fun _ => true) (fun _ => 0) [syntheticLoad false]).2
  have hu : (LoadHistory.start fun _ => 0).context.Unowned := ⟨rfl, fun _ => rfl⟩
  obtain ⟨guest, hr⟩ := syntheticLoad_reachesArming (fun _ => 0) false
  have hagrees := ((LoadHistory.balanced_iff hu _).1 h).1 _ guest hr
  exact absurd hagrees (by decide)

end X360Port
