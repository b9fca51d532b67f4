import X360Port.DesktopInput.Snapshot
import X360Port.DesktopInput.Travel

/-!
# No motion is split

A `MotionLedger` keeps, beside the threads, the calls whose travel is pending on
an axis, and those whose travel a snapshot's exchange takes. In a run whose
steps are untorn no call has its travel on one axis in the report of one
snapshot and its travel on the other axis in another's. A snapshot that has
taken travel on the first axis is overtaken, so no other one may touch the
second; and a motion that comes between a snapshot's two exchanges changes both
of them, so it may not come.
-/

namespace X360Port

open Library

/-- A snapshot's exchange of one axis. -/
structure Take where
  axis : Axis
  snapshot : Nat
  amount : Int32
  /-- The calls that the travel is from. -/
  calls : List Nat

structure MotionLedger where
  input : DesktopInput := {}
  /-- The UI thread's calls so far; the one under way is the last. -/
  calls : Nat := 0
  pending : Axis → List Nat := fun _ => []
  takes : List Take := []

/-- The calls with travel pending after an operation of the call. -/
def UiStep.track (call : Nat) (a : Axis) (u : UiStep) (pending : List Nat) : List Nat :=
  if u = a.discard then [] else if u.adds a ≠ 0 then call :: pending else pending

def SnapshotRead.axis? : SnapshotRead → Option Axis
  | .pointerDx => some .x
  | .pointerDy => some .y
  | _ => none

/-- The snapshot that the event is an operation of, and the operation. -/
def DesktopInput.nextRead (s : DesktopInput) : DesktopEvent → Option (TakingSnapshot × SnapshotRead)
  | .read index => s.taking[index]?.bind fun t => t.reads.head?.map (t, ·)
  | _ => none

namespace MotionLedger

def callsAfter (l : MotionLedger) : DesktopEvent → Nat
  | .start _ => l.calls + 1
  | _ => l.calls

def step (l : MotionLedger) (event : DesktopEvent) : Option MotionLedger :=
  (l.input.step event).map fun input =>
    match l.input.nextRead event with
    | some (t, r) =>
      { input := input
        calls := l.callsAfter event
        pending := fun a => if r = a.read then [] else l.pending a
        takes :=
          (r.axis?.map fun a => ⟨a, t.number, a.pending l.input.shared, l.pending a⟩).toList ++
            l.takes }
    | none =>
      { input := input
        calls := l.callsAfter event
        pending := fun a => match l.input.uiStep event with
          | some u => u.track (l.callsAfter event) a (l.pending a)
          | none => l.pending a
        takes := l.takes }

/-- No call's travel is reported in halves: by one snapshot on one axis and by another one on the
other. -/
def Unsplit (l : MotionLedger) : Prop :=
  ∀ T ∈ l.takes, ∀ T' ∈ l.takes, T.axis = .x → T'.axis = .y → T.amount ≠ 0 → T'.amount ≠ 0 →
    ∀ k ∈ T.calls, k ∈ T'.calls → T.snapshot = T'.snapshot

/-- The numbers of calls. -/
structure Numbered (l : MotionLedger) : Prop where
  pending : ∀ a, ∀ k ∈ l.pending a, k ≤ l.calls
  taken : ∀ T ∈ l.takes, ∀ k ∈ T.calls, k ≤ l.calls
  earlier : l.input.ui ≠ [] → ∀ T ∈ l.takes, ∀ k ∈ T.calls, k < l.calls
  freshDx : ∀ d, .fetchAddDx d ∈ l.input.ui → ∀ a, l.calls ∉ l.pending a
  freshDy : ∀ d, .fetchAddDy d ∈ l.input.ui → l.calls ∉ l.pending .y

/-- Where the halves of a motion can be. -/
structure Apart (l : MotionLedger) : Prop where
  unsplit : l.Unsplit
  /-- The other half of what was taken is for the same snapshot. -/
  owed : ∀ T ∈ l.takes, T.axis = .x → T.amount ≠ 0 → ∀ k ∈ T.calls, k ∈ l.pending .y →
    ∃ t ∈ l.input.taking, t.number = T.snapshot ∧ t.overtaken = true ∧ .pointerDy ∈ t.reads
  gone : ∀ T ∈ l.takes, T.axis = .y → ∀ k ∈ T.calls, k ∉ l.pending .x
  halfway : ∀ t ∈ l.input.taking, .pointerDx ∈ t.done → .pointerDy ∈ t.reads →
    ∀ k ∈ l.pending .x, k ∉ l.pending .y
  adding : ∀ d, .fetchAddDy d ∈ l.input.ui → l.calls ∈ l.pending .x →
    ∀ t ∈ l.input.taking, .pointerDx ∈ t.done → t.overtaken = true

end MotionLedger

/-! ## One step -/

theorem numbered_fresh : MotionLedger.Numbered {} where
  pending _ _ hk := absurd hk List.not_mem_nil
  taken _ hT := absurd hT List.not_mem_nil
  earlier _ _ hT := absurd hT List.not_mem_nil
  freshDx _ hd := absurd hd List.not_mem_nil
  freshDy _ hd := absurd hd List.not_mem_nil

theorem apart_fresh : MotionLedger.Apart {} where
  unsplit _ hT := absurd hT List.not_mem_nil
  owed _ hT := absurd hT List.not_mem_nil
  gone _ hT := absurd hT List.not_mem_nil
  halfway _ ht := absurd ht List.not_mem_nil
  adding _ hd := absurd hd List.not_mem_nil

/-- A call's first operation adds no travel. -/
theorem adds_started {operation : UiOperation} {u : UiStep} {rest : List UiStep}
    (h : operation.steps = u :: rest) (a : Axis) : u.adds a = 0 := by
  cases operation with
  | setKey virtualKey down =>
    cases h
    cases down <;> rfl
  | setMouseButton button down =>
    cases h
    cases down <;> rfl
  | _ =>
    cases h
    rfl

/-- What adds travel has a call of two or one operations left. -/
theorem Remaining.add_cases {u : UiStep} {rest : List UiStep} (h : Remaining (u :: rest)) :
    (∃ dx dy, u = .fetchAddDx dx ∧ rest = [.fetchAddDy dy]) ∨
      (∃ dy, u = .fetchAddDy dy ∧ rest = []) ∨
      (∀ a, u.adds a = 0) ∧ ∀ (a : Axis) d, a.add d ∉ rest := by
  generalize hui : u :: rest = ui at h
  cases h with
  | adding dx dy =>
    cases hui
    exact .inl ⟨dx, dy, rfl, rfl⟩
  | added dy =>
    cases hui
    exact .inr (.inl ⟨dy, rfl, rfl⟩)
  | releasing h =>
    refine .inr (.inr ⟨fun a => ?_, fun a d hmem => ?_⟩)
    · have hmem := h.subset (hui ▸ List.mem_cons_self)
      simp only [List.mem_cons, List.not_mem_nil, or_false] at hmem
      rcases hmem with rfl | rfl | rfl | rfl | rfl | rfl | rfl <;> rfl
    · have hmem := h.subset (hui ▸ List.mem_cons_of_mem u hmem)
      cases a <;> simp [Axis.add] at hmem

theorem mem_of_mem_track {call k : Nat} {a : Axis} {u : UiStep} {pending : List Nat}
    (h : k ∈ u.track call a pending) : k ∈ pending ∨ k = call ∧ u.adds a ≠ 0 := by
  unfold UiStep.track at h
  split at h
  · cases h
  split at h
  · next hadds => exact (List.mem_cons.1 h).elim (fun hk => .inr ⟨hk, hadds⟩) .inl
  · exact .inl h

theorem mem_taking_advance {s : DesktopInput} {taking : List TakingSnapshot}
    {shared : DesktopInputState} {ui : List UiStep} {t : TakingSnapshot} (h : t ∈ taking)
    (hreads : t.reads ≠ []) :
    t.observe ui s.shared shared ∈ (s.advance taking shared ui).taking :=
  List.mem_filter.2 ⟨List.mem_map_of_mem h, decide_eq_true hreads⟩

namespace MotionLedger

variable {l l' : MotionLedger} {event : DesktopEvent}

/-- What a step can be. -/
inductive StepOf (l : MotionLedger) : DesktopEvent → MotionLedger → Prop where
  | started {operation : UiOperation} {u : UiStep} {rest : List UiStep} (hui : l.input.ui = [])
      (hop : operation.steps = u :: rest) : StepOf l (.start operation) { l with
        input := l.input.runUi u rest
        calls := l.calls + 1
        pending := fun a => u.track (l.calls + 1) a (l.pending a) }
  | resumed {u : UiStep} {rest : List UiStep} (hui : l.input.ui = u :: rest) :
      StepOf l .resume { l with
        input := l.input.runUi u rest
        pending := fun a => u.track l.calls a (l.pending a) }
  | begun {t : TakingSnapshot} (hdone : t.done = []) :
      StepOf l .beginSnapshot { l with
        input := { l.input with taking := l.input.taking ++ [t] } }
  | read {index : Nat} {t : TakingSnapshot} {r : SnapshotRead} {reads : List SnapshotRead}
      (ht : l.input.taking[index]? = some t) (hr : t.reads = r :: reads) :
      StepOf l (.read index) { l with
        input := l.input.advance (l.input.taking.set index (t.next l.input.shared r reads))
          (r.after l.input.shared) l.input.ui
        pending := fun a => if r = a.read then [] else l.pending a
        takes :=
          (r.axis?.map fun a => ⟨a, t.number, a.pending l.input.shared, l.pending a⟩).toList ++
            l.takes }

theorem step_cases (h : l.step event = some l') :
    l.input.step event = some l'.input ∧ StepOf l event l' := by
  rw [step, Option.map_eq_some_iff] at h
  obtain ⟨input, hinput, rfl⟩ := h
  cases DesktopInput.step_cases hinput with
  | started hui hop =>
    refine ⟨hinput, ?_⟩
    simp only [DesktopInput.nextRead, DesktopInput.uiStep, hop, List.head?_cons]
    exact .started hui hop
  | resumed hui =>
    refine ⟨hinput, ?_⟩
    simp only [DesktopInput.nextRead, DesktopInput.uiStep, hui, List.head?_cons]
    exact .resumed hui
  | begun => exact ⟨hinput, .begun rfl⟩
  | @read index t r reads ht hr =>
    have hnext : l.input.nextRead (.read index) = some (t, r) := by
      simp only [DesktopInput.nextRead, ht, Option.bind_some, hr, List.head?_cons, Option.map_some]
    rw [hnext]
    exact ⟨hinput, .read ht hr⟩

/-! ## The numbers of calls -/

theorem Numbered.step (h : l.Numbered) (hremaining : Remaining l.input.ui)
    (hbetween : l.input.betweenCalls event) (hs : StepOf l event l') : l'.Numbered := by
  cases hs with
  | @started operation u rest hui hop =>
    have hpending : ∀ a k, k ∈ u.track (l.calls + 1) a (l.pending a) → k ≤ l.calls := by
      intro a k hk
      rcases mem_of_mem_track hk with hk | ⟨-, hadds⟩
      · exact h.pending a k hk
      · exact absurd (adds_started hop a) hadds
    have hfresh : ∀ a, l.calls + 1 ∉ u.track (l.calls + 1) a (l.pending a) := fun a hmem =>
      absurd (hpending a _ hmem) (Nat.not_succ_le_self l.calls)
    refine ⟨fun a k hk => Nat.le_succ_of_le (hpending a k hk), fun T hT k hk => ?_,
      fun _ T hT k hk => ?_, fun _ _ => hfresh, fun _ _ => hfresh .y⟩
    · exact Nat.le_succ_of_le (h.taken T hT k hk)
    · exact Nat.lt_succ_of_le (h.taken T hT k hk)
  | @resumed u rest hui =>
    have hne : l.input.ui ≠ [] := by
      rw [hui]
      exact List.cons_ne_nil u rest
    rw [hui] at hremaining
    have hrest : (l.input.runUi u rest).ui = rest := by
      show u.more l.input.shared ++ rest = rest
      rw [hremaining.more_eq_nil, List.nil_append]
    refine ⟨fun a k hk => ?_, h.taken, fun _ => h.earlier hne, fun d hd => ?_, fun d hd => ?_⟩
    · rcases mem_of_mem_track hk with hk | ⟨hk, -⟩
      · exact h.pending a k hk
      · exact Nat.le_of_eq hk
    · have hmem : .fetchAddDx d ∈ rest := hrest ▸ hd
      rcases hremaining.add_cases with ⟨dx, dy, -, rfl⟩ | ⟨dy, -, rfl⟩ | ⟨-, hnone⟩
      · simp at hmem
      · cases hmem
      · exact absurd hmem (hnone .x d)
    · have hmem : .fetchAddDy d ∈ rest := hrest ▸ hd
      rcases hremaining.add_cases with ⟨dx, dy, rfl, -⟩ | ⟨dy, -, rfl⟩ | ⟨-, hnone⟩
      · exact h.freshDx dx (by rw [hui]; exact List.mem_cons_self) .y
      · cases hmem
      · exact absurd hmem (hnone .y d)
  | begun hdone => exact ⟨h.pending, h.taken, h.earlier, h.freshDx, h.freshDy⟩
  | @read index t r reads ht hr =>
    have hsubset : ∀ a k, k ∈ (if r = a.read then [] else l.pending a) → k ∈ l.pending a := by
      intro a k hk
      split at hk
      · cases hk
      · exact hk
    have hui : l.input.ui = [] := hbetween
    refine ⟨fun a k hk => h.pending a k (hsubset a k hk), fun T hT k hk => ?_,
      fun hne => absurd hui hne, fun d hd => ?_, fun d hd => ?_⟩
    · rcases List.mem_append.1 hT with hT | hT
      · obtain ⟨a, -, rfl⟩ := Option.map_eq_some_iff.1 (Option.mem_toList.1 hT)
        exact h.pending a k hk
      · exact h.taken T hT k hk
    · exact absurd (hui ▸ hd) List.not_mem_nil
    · exact absurd (hui ▸ hd) List.not_mem_nil

/-! ## The halves of a motion -/

/-- An operation of the UI thread in the call with the given number. -/
theorem Apart.runUi {u : UiStep} {rest : List UiStep} {calls : Nat} (h : l.Apart)
    (hnew : ∀ T ∈ l.takes, ∀ k ∈ T.calls, k ≠ calls)
    (hdx : u.adds .x ≠ 0 → calls ∉ l.pending .y)
    (hdy : u.adds .y ≠ 0 → calls ∈ l.pending .x →
      ∀ t ∈ l.input.taking, .pointerDx ∈ t.done → .pointerDy ∉ t.reads)
    (hadding : ∀ d, .fetchAddDy d ∈ u.more l.input.shared ++ rest →
      calls ∈ u.track calls .x (l.pending .x) → ∀ t ∈ l.input.taking, .pointerDx ∈ t.done →
      t.overtaken = true ∨ ¬ SnapshotRead.Same l.input.shared (u.run l.input.shared) .pointerDx) :
    Apart { l with
      input := l.input.runUi u rest
      calls := calls
      pending := fun a => u.track calls a (l.pending a) } where
  unsplit := h.unsplit
  owed T hT haxis hamount k hk hpending := by
    have hpending : k ∈ l.pending .y :=
      (mem_of_mem_track hpending).resolve_right fun hcall => hnew T hT k hk hcall.1
    obtain ⟨t, ht, hnumber, hover, hreads⟩ := h.owed T hT haxis hamount k hk hpending
    refine ⟨_, mem_taking_advance ht (List.ne_nil_of_mem hreads), hnumber, ?_, hreads⟩
    simp [TakingSnapshot.observe, hover]
  gone T hT haxis k hk hpending := by
    refine h.gone T hT haxis k hk ?_
    exact (mem_of_mem_track hpending).resolve_right fun hcall => hnew T hT k hk hcall.1
  halfway t ht hdone hreads k hx hy := by
    obtain ⟨t0, ht0, rfl⟩ := DesktopInput.exists_of_mem_taking ht
    rcases mem_of_mem_track hx with hpx | ⟨rfl, hax⟩ <;>
      rcases mem_of_mem_track hy with hpy | ⟨hk, hay⟩
    · exact h.halfway t0 ht0 hdone hreads k hpx hpy
    · exact hdy hay (hk ▸ hpx) t0 ht0 hdone hreads
    · exact hdx hax hpy
    · cases u <;> simp [UiStep.adds] at hax hay
  adding d hd hcalls t ht hdone := by
    obtain ⟨t0, ht0, rfl⟩ := DesktopInput.exists_of_mem_taking ht
    rcases hadding d hd hcalls t0 ht0 hdone with hover | hchanged
    · simp [TakingSnapshot.observe, hover]
    · rw [← Bool.not_eq_false, observe_eq_false_iff, not_and]
      exact fun _ hsame => hchanged (hsame .pointerDx hdone)

theorem add_right_ne {x d : Int32} (h : d ≠ 0) : x + d ≠ x := by
  grind

theorem Apart.resumed {u : UiStep} {rest : List UiStep} (h : l.Apart) (hn : l.Numbered)
    (hui : l.input.ui = u :: rest) (hremaining : Remaining (u :: rest))
    (hstays : ∀ t ∈ l.input.taking, t.overtaken = true →
      ∀ r ∈ t.reads, r.Same l.input.shared (u.run l.input.shared)) :
    Apart { l with
      input := l.input.runUi u rest
      pending := fun a => u.track l.calls a (l.pending a) } := by
  have hnew : ∀ T ∈ l.takes, ∀ k ∈ T.calls, k ≠ l.calls := fun T hT k hk =>
    Nat.ne_of_lt (hn.earlier (by rw [hui]; exact List.cons_ne_nil u rest) T hT k hk)
  rcases hremaining.add_cases with ⟨dx, dy, rfl, rfl⟩ | ⟨dy, rfl, rfl⟩ | ⟨hnone, hrest⟩
  · have hfresh := hn.freshDx dx (by rw [hui]; exact List.mem_cons_self)
    refine h.runUi hnew (fun _ => hfresh .y) (fun hdy => absurd rfl hdy) fun d _ hcalls t ht _ => ?_
    obtain ⟨-, hadds⟩ := (mem_of_mem_track hcalls).resolve_left (hfresh .x)
    exact .inr (add_right_ne hadds)
  · refine h.runUi hnew (fun hdx => absurd rfl hdx) (fun hdy hcalls t ht hdone hreads => ?_)
      fun d hd => absurd hd List.not_mem_nil
    have hover := h.adding dy (by rw [hui]; exact List.mem_cons_self) hcalls t ht hdone
    exact add_right_ne hdy (hstays t ht hover .pointerDy hreads)
  · refine h.runUi hnew (fun hdx => absurd (hnone .x) hdx) (fun hdy => absurd (hnone .y) hdy)
      fun d hd => ?_
    rw [hremaining.more_eq_nil, List.nil_append] at hd
    exact absurd hd (hrest .y d)

theorem Apart.started {operation : UiOperation} {u : UiStep} {rest : List UiStep} (h : l.Apart)
    (hn : l.Numbered) (hop : operation.steps = u :: rest) :
    Apart { l with
      input := l.input.runUi u rest
      calls := l.calls + 1
      pending := fun a => u.track (l.calls + 1) a (l.pending a) } := by
  refine h.runUi (fun T hT k hk => ?_) (fun hdx => absurd (adds_started hop .x) hdx)
    (fun hdy => absurd (adds_started hop .y) hdy) fun d _ hcalls => ?_
  · exact Nat.ne_of_lt (Nat.lt_succ_of_le (hn.taken T hT k hk))
  · rcases mem_of_mem_track hcalls with hmem | ⟨-, hadds⟩
    · exact absurd (hn.pending .x _ hmem) (Nat.not_succ_le_self l.calls)
    · exact absurd (adds_started hop .x) hadds

theorem Apart.begun {t : TakingSnapshot} (h : l.Apart) (hdone : t.done = []) :
    Apart { l with input := { l.input with taking := l.input.taking ++ [t] } } where
  unsplit := h.unsplit
  owed T hT haxis hamount k hk hpending := by
    obtain ⟨t', ht', howed⟩ := h.owed T hT haxis hamount k hk hpending
    exact ⟨t', List.mem_append_left _ ht', howed⟩
  gone := h.gone
  halfway t' ht' hdone' := by
    rcases List.mem_append.1 ht' with ht' | ht'
    · exact h.halfway t' ht' hdone'
    · rw [List.mem_singleton.1 ht', hdone] at hdone'
      cases hdone'
  adding d hd hcalls t' ht' hdone' := by
    rcases List.mem_append.1 ht' with ht' | ht'
    · exact h.adding d hd hcalls t' ht' hdone'
    · rw [List.mem_singleton.1 ht', hdone] at hdone'
      cases hdone'

/-! ## A read -/

section

variable {index : Nat} {t : TakingSnapshot} {r : SnapshotRead} {reads : List SnapshotRead}

/-- The ledger after the next read of a snapshot. -/
def afterRead (l : MotionLedger) (index : Nat) (t : TakingSnapshot) (r : SnapshotRead)
    (reads : List SnapshotRead) : MotionLedger where
  input := l.input.advance (l.input.taking.set index (t.next l.input.shared r reads))
    (r.after l.input.shared) l.input.ui
  calls := l.calls
  pending := fun a => if r = a.read then [] else l.pending a
  takes := (r.axis?.map fun a => ⟨a, t.number, a.pending l.input.shared, l.pending a⟩).toList ++
    l.takes

theorem mem_takes_read {T : Take} (h : T ∈ (l.afterRead index t r reads).takes) :
    T ∈ l.takes ∨ r = T.axis.read ∧ T.snapshot = t.number ∧
      T.amount = T.axis.pending l.input.shared ∧ T.calls = l.pending T.axis := by
  rcases List.mem_append.1 h with h | h
  · obtain ⟨a, ha, rfl⟩ := Option.map_eq_some_iff.1 (Option.mem_toList.1 h)
    refine .inr ⟨?_, rfl, rfl, rfl⟩
    cases r <;> cases ha <;> rfl
  · exact .inl h

theorem mem_pending_read {a : Axis} {k : Nat} (h : k ∈ (l.afterRead index t r reads).pending a) :
    r ≠ a.read ∧ k ∈ l.pending a := by
  change k ∈ (if r = a.read then [] else l.pending a) at h
  split at h
  · cases h
  · next hne => exact ⟨hne, h⟩

/-- A call's travel on the first axis is taken, and this read takes the rest: it is the same
snapshot's, for no other one sees the second axis change once it is overtaken. -/
theorem Apart.unsplit_read (h : l.Apart)
    (hstays : ∀ t ∈ l.input.taking.eraseIdx index, t.overtaken = true →
      ∀ r' ∈ t.reads, r'.Same l.input.shared (r.after l.input.shared))
    (ht : l.input.taking[index]? = some t) : (l.afterRead index t r reads).Unsplit := by
  intro T hT T' hT' haxis haxis' hamount hamount' k hk hk'
  rcases mem_takes_read hT with hT | ⟨rfl, -, -, hcalls⟩ <;>
    rcases mem_takes_read hT' with hT' | ⟨hread', hsnapshot', hvalue', hcalls'⟩
  · exact h.unsplit T hT T' hT' haxis haxis' hamount hamount' k hk hk'
  · rw [hcalls', haxis'] at hk'
    obtain ⟨t0, ht0, hnumber, hover, hreads⟩ := h.owed T hT haxis hamount k hk hk'
    rcases eq_or_mem_eraseIdx ht ht0 with rfl | hother
    · exact hnumber.symm.trans hsnapshot'.symm
    · have hsame := hstays t0 hother hover .pointerDy hreads
      rw [haxis'] at hread' hvalue'
      subst hread'
      exact absurd (hvalue'.trans hsame.symm) hamount'
  · rw [hcalls, haxis] at hk
    exact absurd hk (h.gone T' hT' haxis' k hk')
  · rw [haxis, haxis'] at hread'
    cases hread'

/-- A snapshot that takes travel on the first axis is overtaken by that, with the second axis
still to read. -/
theorem Apart.owed_read (h : l.Apart) (hwhole : Whole l.input.ui l.input.shared t)
    (ht : l.input.taking[index]? = some t) (hr : t.reads = r :: reads) {T : Take}
    (hT : T ∈ (l.afterRead index t r reads).takes) (haxis : T.axis = .x) (hamount : T.amount ≠ 0)
    {k : Nat} (hk : k ∈ T.calls) (hpending : k ∈ (l.afterRead index t r reads).pending .y) :
    ∃ t' ∈ (l.afterRead index t r reads).input.taking,
      t'.number = T.snapshot ∧ t'.overtaken = true ∧ .pointerDy ∈ t'.reads := by
  have hnext : t.next l.input.shared r reads ∈
      l.input.taking.set index (t.next l.input.shared r reads) :=
    List.mem_set (List.getElem?_eq_some_iff.1 ht).1 _
  obtain ⟨hne, hpending⟩ := mem_pending_read hpending
  rcases mem_takes_read hT with hT | ⟨hread, hsnapshot, hvalue, -⟩
  · obtain ⟨t0, ht0, hnumber, hover, hreads⟩ := h.owed T hT haxis hamount k hk hpending
    rcases eq_or_mem_eraseIdx ht ht0 with rfl | hother
    · have hreads' : .pointerDy ∈ reads := by
        rw [hr] at hreads
        exact (List.mem_cons.1 hreads).resolve_left fun heq => hne heq.symm
      refine ⟨_, mem_taking_advance hnext (List.ne_nil_of_mem hreads'), hnumber, ?_, hreads'⟩
      simp [TakingSnapshot.observe, TakingSnapshot.next, hover]
    · have hset := mem_set_of_mem_eraseIdx (t.next l.input.shared r reads) hother
      refine ⟨_, mem_taking_advance hset (List.ne_nil_of_mem hreads), hnumber, ?_, hreads⟩
      simp [TakingSnapshot.observe, hover]
  · rw [haxis] at hread hvalue
    subst hread
    have hreads : .pointerDy ∈ reads := hwhole.mem_rest hr (by decide)
    refine ⟨_, mem_taking_advance hnext (List.ne_nil_of_mem hreads), hsnapshot.symm, ?_, hreads⟩
    rw [← Bool.not_eq_false, observe_eq_false_iff, not_and]
    intro _ hsame
    have hzero := hsame .pointerDx (List.mem_append_right _ List.mem_cons_self)
    exact hamount (hvalue.trans hzero.symm)

theorem Apart.gone_read (h : l.Apart) (hwhole : Whole l.input.ui l.input.shared t)
    (ht : l.input.taking[index]? = some t) (hr : t.reads = r :: reads) {T : Take}
    (hT : T ∈ (l.afterRead index t r reads).takes) (haxis : T.axis = .y) {k : Nat}
    (hk : k ∈ T.calls) : k ∉ (l.afterRead index t r reads).pending .x := by
  intro hpending
  obtain ⟨-, hpending⟩ := mem_pending_read hpending
  rcases mem_takes_read hT with hT | ⟨hread, -, -, hcalls⟩
  · exact h.gone T hT haxis k hk hpending
  · rw [haxis] at hread hcalls
    subst hread
    rw [hcalls] at hk
    have hdone : .pointerDx ∈ t.done := hwhole.mem_done hr (by decide)
    have hreads : .pointerDy ∈ t.reads := by
      rw [hr]
      exact List.mem_cons_self
    exact h.halfway t (List.mem_of_getElem? ht) hdone hreads k hpending hk

theorem Apart.halfway_read (h : l.Apart) (ht : l.input.taking[index]? = some t)
    (hr : t.reads = r :: reads) {t' : TakingSnapshot}
    (ht' : t' ∈ (l.afterRead index t r reads).input.taking) (hdone : .pointerDx ∈ t'.done)
    (hreads : .pointerDy ∈ t'.reads) {k : Nat}
    (hx : k ∈ (l.afterRead index t r reads).pending .x) :
    k ∉ (l.afterRead index t r reads).pending .y := by
  intro hy
  obtain ⟨hne, hx⟩ := mem_pending_read hx
  obtain ⟨-, hy⟩ := mem_pending_read hy
  obtain ⟨t0, ht0, rfl⟩ := DesktopInput.exists_of_mem_taking ht'
  rcases List.mem_or_eq_of_mem_set ht0 with ht0 | rfl
  · exact h.halfway t0 ht0 hdone hreads k hx hy
  · have hdone : .pointerDx ∈ t.done := by
      refine (List.mem_append.1 hdone).resolve_right fun heq => hne ?_
      exact (List.mem_singleton.1 heq).symm
    refine h.halfway t (List.mem_of_getElem? ht) hdone ?_ k hx hy
    rw [hr]
    exact List.mem_cons_of_mem r hreads

theorem Apart.read (h : l.Apart) (hwhole : ∀ t ∈ l.input.taking, Whole l.input.ui l.input.shared t)
    (hui : l.input.ui = [])
    (hstays : ∀ t ∈ l.input.taking.eraseIdx index, t.overtaken = true →
      ∀ r' ∈ t.reads, r'.Same l.input.shared (r.after l.input.shared))
    (ht : l.input.taking[index]? = some t) (hr : t.reads = r :: reads) :
    (l.afterRead index t r reads).Apart where
  unsplit := h.unsplit_read hstays ht
  owed _ hT haxis hamount _ hk hpending :=
    h.owed_read (hwhole t (List.mem_of_getElem? ht)) ht hr hT haxis hamount hk hpending
  gone _ hT haxis _ hk := h.gone_read (hwhole t (List.mem_of_getElem? ht)) ht hr hT haxis hk
  halfway _ ht' hdone hreads _ hx := h.halfway_read ht hr ht' hdone hreads hx
  adding _ hd := absurd (hui ▸ hd) List.not_mem_nil

end

/-- **What one step keeps.** -/
theorem Apart.step (h : l.Apart) (hn : l.Numbered) (hi : Intact l.input)
    (hu : l.input.Untorn event) (hs : l.step event = some l') : l'.Apart := by
  obtain ⟨hinput, hs⟩ := step_cases hs
  have hstays := hu.2
  rw [step_shared hinput] at hstays
  cases hs with
  | started hui hop => exact h.started hn hop
  | resumed hui =>
    have hremaining := hi.released.remaining
    rw [hui] at hremaining
    exact h.resumed hn hui hremaining hstays
  | begun hdone => exact h.begun hdone
  | read ht hr => exact h.read hi.whole hu.1 hstays ht hr

end MotionLedger

/-! ## Runs -/

/-- Every snapshot has a number of its own. -/
def DesktopInput.NumbersApart (s : DesktopInput) : Prop :=
  ((s.taking ++ s.completed).map (·.number)).Perm
    (List.range (s.taking.length + s.completed.length))

theorem perm_advance (s : DesktopInput) (taking : List TakingSnapshot)
    (shared : DesktopInputState) (ui : List UiStep) :
    ((s.advance taking shared ui).taking ++ (s.advance taking shared ui).completed).Perm
      (taking.map (TakingSnapshot.observe ui s.shared shared) ++ s.completed) := by
  have hparts := List.filter_append_perm (fun t : TakingSnapshot => decide (t.reads ≠ []))
    (taking.map (TakingSnapshot.observe ui s.shared shared))
  simp only [decide_not, Bool.not_not] at hparts
  simpa [DesktopInput.advance, List.append_assoc] using hparts.append_right s.completed

theorem NumbersApart.advance {s : DesktopInput} {taking : List TakingSnapshot}
    {shared : DesktopInputState} {ui : List UiStep} (h : s.NumbersApart)
    (htaking : taking.map (·.number) = s.taking.map (·.number)) :
    (s.advance taking shared ui).NumbersApart := by
  have hperm := (perm_advance s taking shared ui).map (·.number)
  have hlength := hperm.length_eq
  have hcount := congrArg List.length htaking
  simp only [List.length_map, List.length_append] at hlength hcount
  unfold DesktopInput.NumbersApart at h ⊢
  rw [hlength, hcount]
  refine (hperm.trans ?_).trans h
  rw [List.map_append, List.map_append, List.map_map, ← htaking]
  exact .rfl

theorem NumbersApart.step {s s' : DesktopInput} {event : DesktopEvent} (h : s.NumbersApart)
    (hs : s.step event = some s') : s'.NumbersApart := by
  cases DesktopInput.step_cases hs with
  | started hui hop => exact NumbersApart.advance h rfl
  | resumed hui => exact NumbersApart.advance h rfl
  | begun =>
    unfold DesktopInput.NumbersApart at h ⊢
    rw [List.append_assoc, List.length_append, List.length_singleton, Nat.add_right_comm,
      List.range_succ]
    simp only [List.singleton_append]
    refine (List.perm_middle.map _).trans ?_
    rw [List.map_cons]
    exact (List.perm_append_singleton _ _).symm.trans (h.append_right _)
  | @read index t r reads ht hr =>
    refine NumbersApart.advance h ?_
    rw [List.map_set]
    refine List.ext_getElem? fun i => ?_
    by_cases hi : index = i
    · subst hi
      have hlt := (List.getElem?_eq_some_iff.1 ht).1
      rw [List.getElem?_set_self (by rw [List.length_map]; exact hlt), List.getElem?_map, ht]
      rfl
    · rw [List.getElem?_set_ne hi]

theorem numbersApart_fresh : DesktopInput.NumbersApart {} := List.Perm.refl []

theorem play_numbersApart {events : List DesktopEvent} {s : DesktopInput}
    (h : play DesktopInput.step {} events = some s) : s.NumbersApart :=
  play_invariant (P := DesktopInput.NumbersApart) (fun _ _ _ hn hs => NumbersApart.step hn hs)
    numbersApart_fresh h

namespace MotionLedger

theorem play_input {events : List DesktopEvent} {l l' : MotionLedger}
    (h : play step l events = some l') : play DesktopInput.step l.input events = some l'.input :=
  play_map MotionLedger.input (fun _ _ _ hs => (step_cases hs).1) h

/-- What the steps of an untorn run keep. -/
structure Kept (l : MotionLedger) : Prop where
  intact : Intact l.input
  numbered : l.Numbered
  apart : l.Apart

theorem Kept.step {l l' : MotionLedger} {event : DesktopEvent} (h : l.Kept)
    (hu : l.input.Untorn event) (hs : l.step event = some l') : l'.Kept := by
  obtain ⟨hinput, hcases⟩ := step_cases hs
  exact ⟨h.intact.step hu hinput, h.numbered.step h.intact.released.remaining hu.1 hcases,
    h.apart.step h.numbered h.intact hu hs⟩

end MotionLedger

/-- **Main result.** In a run whose steps are untorn every snapshot that has returned is
consistent, and reports no travel of an uncaptured pointer; and no call's travel is reported in
halves by two snapshots. -/
theorem play_consistent (events : List DesktopEvent) (l : MotionLedger)
    (hu : EveryStep MotionLedger.step (fun l event => l.input.Untorn event) {} events)
    (h : play MotionLedger.step {} events = some l) :
    (∀ t ∈ l.input.completed, t.Consistent ∧
      (t.snapshot.pointerCaptured = false → ∀ a : Axis, a.travel t.snapshot = 0)) ∧
    l.Unsplit ∧ l.input.NumbersApart := by
  have hkept := play_invariant_where (P := MotionLedger.Kept) (fun _ _ _ hk hu hs => hk.step hu hs)
    ⟨intact_fresh, numbered_fresh, apart_fresh⟩ hu h
  exact ⟨hkept.intact.completed, hkept.apart.unsplit, play_numbersApart (MotionLedger.play_input h)⟩

/-- After a snapshot's first read the pointer travels, and a key goes down in the word that it
has read. -/
def callsInsideSnapshot : List DesktopEvent :=
  [.start (.setPointerCaptured true), .beginSnapshot, .read 0, .start (.addPointerTravel 3 4),
    .resume, .resume, .start (.setKey 1 true)] ++ .replicate 7 (.read 0)

theorem play_consistent_motion : ∃ l, play MotionLedger.step {} callsInsideSnapshot = some l ∧
    l.takes.map (fun T => (T.amount, T.calls)) = [(4, [2]), (3, [2])] ∧
    l.input.completed.map (·.overtaken) = [true] ∧ ∀ t ∈ l.input.completed, t.Consistent := by
  have h := play_consistent callsInsideSnapshot _ (by decide +kernel) rfl
  exact ⟨_, rfl, by decide +kernel, by decide +kernel, fun t ht => (h.1 t ht).1⟩

/-- A snapshot in the middle of a motion. -/
def tornSnapshot : List DesktopEvent :=
  [.start (.setPointerCaptured true), .beginSnapshot, .start (.addPointerTravel 3 4), .resume] ++
    .replicate 8 (.read 0)

/-- It reports one half of the motion. -/
theorem not_consistent_torn : ¬ ∀ (events : List DesktopEvent) (s : DesktopInput),
    play DesktopInput.step {} events = some s → ∀ t ∈ s.completed, t.Consistent := by
  intro hall
  have htorn : ((play DesktopInput.step {} tornSnapshot).all fun s =>
      s.completed.all fun t => t.Consistent) = false := by decide +kernel
  have hconsistent : ((play DesktopInput.step {} tornSnapshot).all fun s =>
      s.completed.all fun t => t.Consistent) = true := by
    simp only [Option.all_eq_true, List.all_eq_true, decide_eq_true_eq]
    exact hall tornSnapshot
  rw [htorn] at hconsistent
  cases hconsistent

end X360Port
