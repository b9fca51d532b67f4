import X360Port.DesktopInput.Steps

/-!
# The pointer's travel is conserved

A `TravelLedger` keeps, beside the threads, what the calls that found the pointer
captured were given to add to each axis, and what releases have discarded. What
was given is what the snapshots have taken, what was discarded, what is pending
and what the call under way still owes, in 32-bit words, after every step of every
interleaving. After a release nothing is taken until the pointer is captured
again.
-/

namespace X360Port

open Library

/-! ## Sums of words -/

section

variable {α : Type} (f : α → Int32)

theorem sum_filter_add (p : α → Bool) (l : List α) :
    ((l.filter p).map f).sum + ((l.filter fun x => ! p x).map f).sum = (l.map f).sum := by
  induction l with
  | nil => rfl
  | cons x l ih =>
    rw [List.filter_cons, List.filter_cons, List.map_cons, List.sum_cons, ← ih]
    cases p x <;> simp <;> grind

theorem sum_set_add {l : List α} {index : Nat} {x : α} (y : α) (h : l[index]? = some x) :
    ((l.set index y).map f).sum + f x = (l.map f).sum + f y := by
  induction l generalizing index with
  | nil => simp at h
  | cons z l ih =>
    cases index with
    | zero =>
      rw [List.getElem?_cons_zero, Option.some.injEq] at h
      subst h
      simp only [List.set_cons_zero, List.map_cons, List.sum_cons]
      grind
    | succ index =>
      rw [List.getElem?_cons_succ] at h
      have hrest := ih h
      simp only [List.set_cons_succ, List.map_cons, List.sum_cons]
      grind

end

/-! ## The ledger -/

def UiStep.adds (a : Axis) : UiStep → Int32
  | .fetchAddDx dx => if a = .x then dx else 0
  | .fetchAddDy dy => if a = .y then dy else 0
  | _ => 0

/-- The travel that a call is given to add. -/
def UiOperation.travel (a : Axis) : UiOperation → Int32
  | .addPointerTravel dx dy =>
    match a with
    | .x => dx
    | .y => dy
  | _ => 0

/-- The travel that the step throws away. -/
def UiStep.discards (s : DesktopInputState) (a : Axis) : UiStep → Int32
  | .clearDx => if a = .x then s.pointerDx else 0
  | .clearDy => if a = .y then s.pointerDy else 0
  | _ => 0

/-- The UI thread's atomic operation in the event. -/
def DesktopInput.uiStep (s : DesktopInput) : DesktopEvent → Option UiStep
  | .start operation => operation.steps.head?
  | .resume => s.ui.head?
  | _ => none

/-- The travel of a call that begins while the pointer is captured. -/
def DesktopInput.given (s : DesktopInput) (a : Axis) : DesktopEvent → Int32
  | .start operation => if s.shared.pointerCaptured then operation.travel a else 0
  | _ => 0

/-- What the call under way has yet to add. -/
def DesktopInput.owed (s : DesktopInput) (a : Axis) : Int32 := (s.ui.map (·.adds a)).sum

/-- What snapshots have taken so far, the ones under way included. -/
def DesktopInput.reported (s : DesktopInput) (a : Axis) : Int32 :=
  (s.completed.map fun t => a.travel t.snapshot).sum +
    (s.taking.map fun t => a.travel t.snapshot).sum

structure TravelLedger where
  input : DesktopInput := {}
  added : Axis → Int32 := fun _ => 0
  discarded : Axis → Int32 := fun _ => 0

namespace TravelLedger

def step (l : TravelLedger) (event : DesktopEvent) : Option TravelLedger :=
  (l.input.step event).map fun input =>
    { input := input
      added := fun a => l.added a + l.input.given a event
      discarded := fun a =>
        l.discarded a + ((l.input.uiStep event).map (·.discards l.input.shared a)).getD 0 }

/-- Nothing is lost and nothing is there twice, on either axis. -/
def Conserved (l : TravelLedger) : Prop :=
  ∀ a : Axis, l.added a =
    l.input.reported a + l.discarded a + a.pending l.input.shared + l.input.owed a

end TravelLedger

/-! ## One step -/

section

variable {s s' : DesktopInput} {event : DesktopEvent}

theorem reported_advance (s : DesktopInput) (taking : List TakingSnapshot)
    (shared : DesktopInputState) (ui : List UiStep) (a : Axis) :
    (s.advance taking shared ui).reported a =
      (s.completed.map fun t => a.travel t.snapshot).sum +
        (taking.map fun t => a.travel t.snapshot).sum := by
  have hsum := sum_filter_add (fun t : TakingSnapshot => a.travel t.snapshot)
    (fun t => decide (t.reads = [])) (taking.map (TakingSnapshot.observe ui s.shared shared))
  have hkept : ((taking.map (TakingSnapshot.observe ui s.shared shared)).map
      fun t => a.travel t.snapshot) = taking.map fun t => a.travel t.snapshot := by
    rw [List.map_map]
    rfl
  rw [hkept] at hsum
  simp only [DesktopInput.reported, DesktopInput.advance, List.map_append, List.sum_append,
    ne_eq, decide_not]
  grind

/-- A call adds what it was given, if it finds the pointer captured. -/
theorem owed_started {operation : UiOperation} {u : UiStep} {rest : List UiStep}
    (shared : DesktopInputState) (hop : operation.steps = u :: rest) (a : Axis) :
    u.adds a + ((u.more shared ++ rest).map (·.adds a)).sum =
      if shared.pointerCaptured then operation.travel a else 0 := by
  cases operation with
  | setKey virtualKey down =>
    cases hop
    cases down <;> simp [UiStep.adds, UiStep.more, UiOperation.travel]
  | setMouseButton button down =>
    cases hop
    cases down <;> simp [UiStep.adds, UiStep.more, UiOperation.travel]
  | addPointerTravel dx dy =>
    cases hop
    simp only [UiStep.more, UiOperation.travel]
    split <;> cases a <;> simp [UiStep.adds]
  | setPointerCaptured captured =>
    cases hop
    cases captured <;> simp [UiStep.adds, UiStep.more, UiOperation.travel]
  | releaseAll =>
    cases hop
    simp [UiStep.adds, UiStep.more, UiOperation.travel, UiOperation.setPointerCapturedSteps]

theorem owed_resumed {u : UiStep} {rest : List UiStep} (shared : DesktopInputState)
    (h : Remaining (u :: rest)) (a : Axis) :
    u.adds a + ((u.more shared ++ rest).map (·.adds a)).sum =
      ((u :: rest).map (·.adds a)).sum := by
  rw [h.more_eq_nil shared, List.nil_append, List.map_cons, List.sum_cons]

/-- What a UI step adds and discards is what it changes. -/
theorem pending_run (s : DesktopInputState) (u : UiStep) (a : Axis) :
    a.pending (u.run s) + u.discards s a = a.pending s + u.adds a := by
  cases u <;> cases a <;> simp [UiStep.run, UiStep.adds, UiStep.discards, Axis.pending]

/-- What a read takes away is what it reports. -/
theorem pending_after (s : DesktopInputState) (r : SnapshotRead) (snapshot : DesktopSnapshot)
    (a : Axis) (h : r = a.read → a.travel snapshot = 0) :
    a.travel (r.report s snapshot) + a.pending (r.after s) =
      a.travel snapshot + a.pending s := by
  by_cases hr : r = a.read
  · rw [h hr]
    subst hr
    cases a <;> simp [Axis.read, SnapshotRead.report, SnapshotRead.after, Axis.travel, Axis.pending]
  · cases r with
    | pointerDx => cases a <;> first | rfl | exact absurd rfl hr
    | pointerDy => cases a <;> first | rfl | exact absurd rfl hr
    | _ => cases a <;> rfl

/-- A snapshot reports no travel before it has taken it. -/
structure Fresh (t : TakingSnapshot) : Prop where
  reads : t.reads <:+ snapshotReads
  untaken : ∀ a : Axis, a.read ∈ t.reads → a.travel t.snapshot = 0

theorem fresh_begun (number : Nat) (points : List DesktopInputState) :
    Fresh { number, points } where
  reads := List.suffix_rfl
  untaken a _ := by cases a <;> rfl

theorem nodup_snapshotReads : snapshotReads.Nodup := by decide

theorem Fresh.next {t : TakingSnapshot} {r : SnapshotRead} {reads : List SnapshotRead}
    (h : Fresh t) (hr : t.reads = r :: reads) (shared : DesktopInputState) :
    Fresh (t.next shared r reads) where
  reads := (List.suffix_cons r reads).trans (hr ▸ h.reads)
  untaken a hmem := by
    have hnodup : (r :: reads).Nodup := (hr ▸ h.reads).sublist.nodup nodup_snapshotReads
    have hne : r ≠ a.read := by
      rintro rfl
      exact (List.nodup_cons.1 hnodup).1 hmem
    have huntaken := h.untaken a (hr ▸ List.mem_cons_of_mem r hmem)
    cases r with
    | pointerDx => cases a <;> first | exact huntaken | exact absurd rfl hne
    | pointerDy => cases a <;> first | exact huntaken | exact absurd rfl hne
    | _ => cases a <;> exact huntaken

theorem fresh_advance {taking : List TakingSnapshot} {shared : DesktopInputState}
    {ui : List UiStep} (h : ∀ t ∈ taking, Fresh t) :
    ∀ t ∈ (s.advance taking shared ui).taking, Fresh t := by
  intro t ht
  obtain ⟨t0, ht0, rfl⟩ := DesktopInput.exists_of_mem_taking ht
  exact ⟨(h t0 ht0).reads, (h t0 ht0).untaken⟩

theorem fresh_step (h : ∀ t ∈ s.taking, Fresh t) (hs : s.step event = some s') :
    ∀ t ∈ s'.taking, Fresh t := by
  cases DesktopInput.step_cases hs with
  | started hui hop => exact fresh_advance h
  | resumed hui => exact fresh_advance h
  | begun =>
    intro t ht
    rcases List.mem_append.1 ht with ht | ht
    · exact h t ht
    · rw [List.mem_singleton.1 ht]
      exact fresh_begun _ _
  | read ht hr =>
    refine fresh_advance fun t hmem => ?_
    rcases List.mem_or_eq_of_mem_set hmem with hmem | rfl
    · exact h t hmem
    · exact (h _ (List.mem_of_getElem? ht)).next hr _

end

/-! ## Runs -/

namespace TravelLedger

variable {l l' : TravelLedger} {event : DesktopEvent}

theorem step_input (h : l.step event = some l') : l.input.step event = some l'.input := by
  obtain ⟨input, hinput, rfl⟩ := Option.map_eq_some_iff.1 h
  exact hinput

theorem Conserved.runUi {u : UiStep} {rest : List UiStep} (h : l.Conserved)
    (hstep : l.input.uiStep event = some u) (hs : l.input.step event = some (l.input.runUi u rest))
    (howed : ∀ a, u.adds a + ((u.more l.input.shared ++ rest).map (·.adds a)).sum =
      l.input.given a event + l.input.owed a)
    (hl : l.step event = some l') : l'.Conserved := by
  rw [step, hs, Option.map_some, Option.some.injEq] at hl
  subst hl
  intro a
  have hbefore := h a
  have hrun := pending_run l.input.shared u a
  have hreported := reported_advance l.input l.input.taking (u.run l.input.shared)
    (u.more l.input.shared ++ rest) a
  have howed := howed a
  simp only [hstep, Option.map_some, Option.getD_some]
  show _ = (l.input.advance _ _ _).reported a + _ + a.pending (u.run l.input.shared) +
    ((u.more l.input.shared ++ rest).map (·.adds a)).sum
  rw [hreported, hbefore, DesktopInput.reported]
  grind

/-- **What one step keeps.** -/
theorem Conserved.step (h : l.Conserved) (hfresh : ∀ t ∈ l.input.taking, Fresh t)
    (hui : Remaining l.input.ui) (hl : l.step event = some l') : l'.Conserved := by
  have hl' := hl
  rw [TravelLedger.step, Option.map_eq_some_iff] at hl'
  obtain ⟨input, hinput, rfl⟩ := hl'
  cases DesktopInput.step_cases hinput with
  | started hidle hop =>
    refine h.runUi (by rw [DesktopInput.uiStep, hop]; rfl) hinput (fun a => ?_) hl
    rw [owed_started _ hop, DesktopInput.owed, hidle]
    exact (Int32.add_zero _).symm
  | resumed hrest =>
    refine h.runUi (by rw [DesktopInput.uiStep, hrest]; rfl) hinput (fun a => ?_) hl
    rw [owed_resumed _ (hrest ▸ hui), DesktopInput.owed, hrest]
    exact (Int32.zero_add _).symm
  | begun =>
    intro a
    have hbefore := h a
    have htravel : a.travel {} = 0 := by cases a <;> rfl
    simp only [DesktopInput.uiStep, DesktopInput.given, Option.map_none, Option.getD_none,
      DesktopInput.reported, DesktopInput.owed, List.map_append, List.sum_append, List.map_cons,
      List.map_nil, List.sum_cons, List.sum_nil, htravel]
    rw [DesktopInput.reported, DesktopInput.owed] at hbefore
    rw [hbefore]
    grind
  | @read index t r reads ht hr =>
    intro a
    have hbefore := h a
    have htaken := pending_after l.input.shared r t.snapshot a fun heq =>
      (hfresh t (List.mem_of_getElem? ht)).untaken a (by rw [hr, heq]; exact List.mem_cons_self)
    have hset := sum_set_add (fun t : TakingSnapshot => a.travel t.snapshot)
      (t.next l.input.shared r reads) ht
    have hnext : a.travel (t.next l.input.shared r reads).snapshot =
        a.travel (r.report l.input.shared t.snapshot) := rfl
    rw [hnext] at hset
    simp only [DesktopInput.uiStep, DesktopInput.given, Option.map_none, Option.getD_none]
    rw [reported_advance, hbefore, DesktopInput.reported]
    show _ = _ + _ + a.pending (r.after l.input.shared) + l.input.owed a
    grind

/-- Snapshots under way are fresh, the call under way has a shape, and the ledger is balanced. -/
structure Balanced (l : TravelLedger) : Prop where
  fresh : ∀ t ∈ l.input.taking, Fresh t
  released : Released l.input.shared l.input.ui
  conserved : l.Conserved

theorem balanced_fresh : Balanced {} where
  fresh _ ht := absurd ht List.not_mem_nil
  released := released_fresh
  conserved a := by cases a <;> rfl

theorem Balanced.step (h : l.Balanced) (hl : l.step event = some l') : l'.Balanced where
  fresh := fresh_step h.fresh (step_input hl)
  released := DesktopInput.Released.step h.released (step_input hl)
  conserved := h.conserved.step h.fresh h.released.remaining hl

theorem play_conserved {events : List DesktopEvent} (h : play step {} events = some l) :
    l.Conserved :=
  (play_invariant (P := Balanced) (fun _ _ _ hb hl => hb.step hl) balanced_fresh h).conserved

theorem play_input {events : List DesktopEvent} (h : play step l events = some l') :
    play DesktopInput.step l.input events = some l'.input :=
  play_map TravelLedger.input (fun _ _ _ => step_input) h

end TravelLedger

/-! ## After a release -/

section

variable {s s' : DesktopInput} {event : DesktopEvent}

theorem play_released {events : List DesktopEvent} (h : play DesktopInput.step {} events = some s) :
    Released s.shared s.ui :=
  play_invariant (P := fun s : DesktopInput => Released s.shared s.ui)
    (fun _ _ _ hr hs => DesktopInput.Released.step hr hs) released_fresh h

/-- The pointer is not captured and no travel is pending. -/
structure AtRest (s : DesktopInput) : Prop where
  released : Released s.shared s.ui
  uncaptured : s.shared.pointerCaptured = false
  still : ∀ a : Axis, a.pending s.shared = 0

theorem atRest_of_released (h : Released s.shared s.ui) (hui : s.ui = [])
    (hc : s.shared.pointerCaptured = false) : AtRest s := by
  refine ⟨h, hc, fun a => ?_⟩
  rw [hui] at h
  exact h.pending_eq_zero hc a

/-- A UI step at rest: nothing but a capture ends it. -/
theorem AtRest.run {u : UiStep} (h : AtRest s) (hu : ∀ (a : Axis) (d : Int32), u ≠ a.add d)
    (hcapture : u ≠ .storeCaptured true) :
    (u.run s.shared).pointerCaptured = false ∧ ∀ a : Axis, a.pending (u.run s.shared) = 0 := by
  have hx := h.still .x
  have hy := h.still .y
  cases u with
  | fetchAddDx dx => exact absurd rfl (hu .x dx)
  | fetchAddDy dy => exact absurd rfl (hu .y dy)
  | storeCaptured captured =>
    cases captured with
    | true => exact absurd rfl hcapture
    | false => exact ⟨rfl, fun a => by cases a <;> assumption⟩
  | clearDx => exact ⟨h.uncaptured, fun a => by cases a <;> first | rfl | assumption⟩
  | clearDy => exact ⟨h.uncaptured, fun a => by cases a <;> first | rfl | assumption⟩
  | _ => exact ⟨h.uncaptured, fun a => by cases a <;> assumption⟩

theorem AtRest.step (h : AtRest s) (hs : s.step event = some s')
    (hevent : event ≠ .start (.setPointerCaptured true)) : AtRest s' := by
  have hreleased := DesktopInput.Released.step h.released hs
  cases DesktopInput.step_cases hs with
  | @started operation u rest hui hop =>
    have hrun := h.run (u := u) (fun a d heq => ?_) fun heq => ?_
    · exact ⟨hreleased, hrun.1, hrun.2⟩
    · subst heq
      cases operation with
      | setKey virtualKey down => cases a <;> cases down <;> cases hop
      | setMouseButton button down => cases a <;> cases down <;> cases hop
      | _ => cases a <;> cases hop
    · subst heq
      cases operation with
      | setKey virtualKey down => cases down <;> cases hop
      | setMouseButton button down => cases down <;> cases hop
      | setPointerCaptured captured =>
        cases hop
        exact hevent rfl
      | _ => cases hop
  | @resumed u rest hui =>
    have hrun := h.run (u := u) (fun a d heq => ?_) fun heq => ?_
    · exact ⟨hreleased, hrun.1, hrun.2⟩
    · have hadding := h.released.adding a d (by rw [hui, heq]; exact List.mem_cons_self)
      rw [h.uncaptured] at hadding
      cases hadding
    · have hremaining := h.released.remaining
      rw [hui, heq] at hremaining
      cases hremaining with
      | releasing hsuffix =>
        have hmem := hsuffix.subset List.mem_cons_self
        simp at hmem
  | begun => exact ⟨hreleased, h.uncaptured, h.still⟩
  | @read index t r reads ht hr =>
    have hx := h.still .x
    have hy := h.still .y
    refine ⟨hreleased, ?_, fun a => ?_⟩
    · show (r.after s.shared).pointerCaptured = false
      rw [← h.uncaptured]
      cases r <;> rfl
    · show a.pending (r.after s.shared) = 0
      cases r <;> cases a <;> first | rfl | assumption

/-- Nothing is taken between a release and the next capture. -/
theorem AtRest.play {events : List DesktopEvent} (h : AtRest s)
    (hevents : ∀ event ∈ events, event ≠ .start (.setPointerCaptured true))
    (hs : play DesktopInput.step s events = some s') : AtRest s' :=
  play_invariant_where (fun _ _ _ hrest hevent hstep => hrest.step hstep hevent) h
    (everyStep_of_forall hevents) hs

theorem AtRest.takes_nothing (h : AtRest s) (a : Axis) (t : TakingSnapshot)
    (reads : List SnapshotRead) : a.travel (t.next s.shared a.read reads).snapshot = 0 := by
  have hstill := h.still a
  cases a <;> exact hstill

end

/-- **Main result.** In every run each axis is conserved; and from the end of a release on, until
the pointer is captured again, no travel is pending and a snapshot's exchange takes none. -/
theorem play_travel (events after : List DesktopEvent) (l l' : TravelLedger)
    (h : play TravelLedger.step {} events = some l)
    (h' : play TravelLedger.step l after = some l') :
    l.Conserved ∧ (l.input.ui = [] → l.input.shared.pointerCaptured = false →
      (∀ event ∈ after, event ≠ .start (.setPointerCaptured true)) → ∀ a : Axis,
        a.pending l'.input.shared = 0 ∧ ∀ t ∈ l'.input.taking, ∀ reads,
          t.reads = a.read :: reads →
            a.travel (t.next l'.input.shared a.read reads).snapshot = 0) := by
  refine ⟨TravelLedger.play_conserved h, fun hui hc hafter a => ?_⟩
  have hreleased := play_released (TravelLedger.play_input h)
  have hrest := (atRest_of_released hreleased hui hc).play hafter (TravelLedger.play_input h')
  exact ⟨hrest.still a, fun t _ reads _ => hrest.takes_nothing a t reads⟩

/-- The pointer is captured, travels and is released. -/
def releasedPointer : List DesktopEvent :=
  [.start (.setPointerCaptured true), .start (.addPointerTravel 3 4), .resume, .resume,
    .start (.setPointerCaptured false), .resume, .resume]

theorem play_travel_released : ∃ l l', play TravelLedger.step {} releasedPointer = some l ∧
    play TravelLedger.step l [.beginSnapshot, .read 0] = some l' ∧ l.added .x = 3 ∧
    l.Conserved ∧ ∀ a : Axis, a.pending l'.input.shared = 0 := by
  have htravel := play_travel releasedPointer [.beginSnapshot, .read 0] _ _ rfl rfl
  exact ⟨_, _, rfl, rfl, rfl, htravel.1, fun a => (htravel.2 rfl rfl (by decide) a).1⟩

/-- The reads of one snapshot. -/
def eightReads : List DesktopEvent := List.replicate 8 (.read 0)

/-- A snapshot starts after a release, and takes its travel after the next capture. -/
theorem not_released_reports_nothing : ¬ ∀ (events after : List DesktopEvent) (s s' : DesktopInput),
    play DesktopInput.step {}
      (events ++ [.start (.setPointerCaptured false), .resume, .resume]) = some s →
    s.taking = [] → s.completed = [] →
    play DesktopInput.step s (.beginSnapshot :: after) = some s' →
    (∀ event ∈ after, event ≠ .beginSnapshot) →
    ∀ t ∈ s'.completed, ∀ a : Axis, a.travel t.snapshot = 0 := by
  intro hall
  have h := hall [] ([.start (.setPointerCaptured true), .start (.addPointerTravel 3 4), .resume,
    .resume] ++ eightReads) _ _ rfl rfl rfl rfl (by decide) _ List.mem_cons_self .x
  exact absurd h (by decide +kernel)

end X360Port
