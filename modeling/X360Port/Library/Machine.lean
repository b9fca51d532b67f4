import Mathlib.Algebra.Ring.Nat

/-!
# Machines that take events

A machine is a partial step function: `step s e` is the state after event `e`,
or `none` where `e` cannot happen in `s`. `play` takes a list of events.

* `play_invariant`: what every step keeps, every run keeps.
* `play_invariant_where`: the same for the runs all of whose steps meet a
  condition on the event and the state before it (`EveryStep`).
* `everyStep_congr`: two such conditions that agree along a run.
* `everyStep_iff_prefixes`: where a step meets the condition exactly when it keeps
  a property, a run meets it exactly when the property holds in all its states; the
  invariant behind it may rest on the property.
* `play_cost`: a measure grows over a run by no more than the run's events cost.
* `play_length`: a measure that every event lowers bounds the length of a run.
* `play_map`: a run of a machine is a run of the machine that it keeps a record beside.
-/

namespace X360Port.Library

section

variable {σ ε : Type} {step : σ → ε → Option σ}

/-- The state after the events, if all of them can happen. -/
def play (step : σ → ε → Option σ) : σ → List ε → Option σ
  | s, [] => some s
  | s, e :: es => (step s e).bind (play step · es)

/-- Every step of the run from `s` meets the condition. -/
def EveryStep (step : σ → ε → Option σ) (condition : σ → ε → Prop) : σ → List ε → Prop
  | _, [] => True
  | s, e :: es => condition s e ∧ ∀ s', step s e = some s' → EveryStep step condition s' es

instance EveryStep.decidable {condition : σ → ε → Prop} [∀ s e, Decidable (condition s e)] :
    (s : σ) → (es : List ε) → Decidable (EveryStep step condition s es)
  | _, [] => .isTrue trivial
  | s, e :: es =>
    match h : step s e with
    | none => decidable_of_iff (condition s e)
        ⟨fun hc => ⟨hc, fun s' hs => by rw [h] at hs; cases hs⟩, And.left⟩
    | some s' =>
      have : Decidable (EveryStep step condition s' es) := EveryStep.decidable s' es
      decidable_of_iff (condition s e ∧ EveryStep step condition s' es)
        ⟨fun ⟨hc, hr⟩ => ⟨hc, fun _ hs => by rw [h] at hs; cases hs; exact hr⟩,
          fun ⟨hc, hr⟩ => ⟨hc, hr s' h⟩⟩

@[simp] theorem play_nil (s : σ) : play step s [] = some s := rfl

theorem play_cons_iff {s s' : σ} {e : ε} {es : List ε} :
    play step s (e :: es) = some s' ↔ ∃ s1, step s e = some s1 ∧ play step s1 es = some s' := by
  rw [play, Option.bind_eq_some_iff]

theorem play_append (s : σ) (es es' : List ε) :
    play step s (es ++ es') = (play step s es).bind (play step · es') := by
  induction es generalizing s with
  | nil => rfl
  | cons e es ih =>
    rw [List.cons_append, play, play, Option.bind_assoc]
    exact congrArg _ (funext fun s' => ih s')

/-- A machine that takes every event takes every list of them. -/
theorem exists_play (htotal : ∀ s e, ∃ s', step s e = some s') (s : σ) (es : List ε) :
    ∃ s', play step s es = some s' := by
  induction es generalizing s with
  | nil => exact ⟨s, rfl⟩
  | cons e es ih =>
    obtain ⟨s1, h1⟩ := htotal s e
    obtain ⟨s', h'⟩ := ih s1
    exact ⟨s', play_cons_iff.2 ⟨s1, h1, h'⟩⟩

/-- A condition on the events alone. -/
theorem everyStep_of_forall {allowed : ε → Prop} {es : List ε} (h : ∀ e ∈ es, allowed e) {s : σ} :
    EveryStep step (fun _ e => allowed e) s es := by
  induction es generalizing s with
  | nil => trivial
  | cons e es ih =>
    obtain ⟨he, hes⟩ := List.forall_mem_cons.1 h
    exact ⟨he, fun s' _ => ih hes⟩

/-- A weaker condition. -/
theorem EveryStep.mono {condition condition' : σ → ε → Prop}
    (himp : ∀ s e, condition s e → condition' s e) {s : σ} {es : List ε}
    (h : EveryStep step condition s es) : EveryStep step condition' s es := by
  induction es generalizing s with
  | nil => trivial
  | cons e es ih => exact ⟨himp s e h.1, fun s1 h1 => ih (h.2 s1 h1)⟩

theorem EveryStep.and {condition condition' : σ → ε → Prop} {s : σ} {es : List ε}
    (h : EveryStep step condition s es) (h' : EveryStep step condition' s es) :
    EveryStep step (fun s e => condition s e ∧ condition' s e) s es := by
  induction es generalizing s with
  | nil => trivial
  | cons e es ih => exact ⟨⟨h.1, h'.1⟩, fun s1 h1 => ih (h.2 s1 h1) (h'.2 s1 h1)⟩

theorem everyStep_append_iff {condition : σ → ε → Prop} {s : σ} {es es' : List ε} :
    EveryStep step condition s (es ++ es') ↔ EveryStep step condition s es ∧
      ∀ s', play step s es = some s' → EveryStep step condition s' es' := by
  induction es generalizing s with
  | nil => exact ⟨fun h => ⟨trivial, fun s' hs => by cases hs; exact h⟩, fun h => h.2 s rfl⟩
  | cons e es ih =>
    rw [List.cons_append, EveryStep, EveryStep, and_assoc]
    refine and_congr_right fun _ => ?_
    constructor
    · refine fun h => ⟨fun s1 h1 => (ih.1 (h s1 h1)).1, fun s' hs => ?_⟩
      obtain ⟨s1, h1, hs⟩ := play_cons_iff.1 hs
      exact (ih.1 (h s1 h1)).2 s' hs
    · intro h s1 h1
      exact ih.2 ⟨h.1 s1 h1, fun s' hs => h.2 s' (play_cons_iff.2 ⟨s1, h1, hs⟩)⟩

/-- **Invariants over runs whose steps meet a condition.** -/
theorem play_invariant_where {P : σ → Prop} {condition : σ → ε → Prop}
    (hstep : ∀ s e s', P s → condition s e → step s e = some s' → P s') {s s' : σ} {es : List ε}
    (h0 : P s) (hc : EveryStep step condition s es) (h : play step s es = some s') : P s' := by
  induction es generalizing s with
  | nil =>
    cases h
    exact h0
  | cons e es ih =>
    obtain ⟨s1, h1, h⟩ := play_cons_iff.1 h
    exact ih (hstep s e s1 h0 hc.1 h1) (hc.2 s1 h1) h

/-- **Invariants over runs.** -/
theorem play_invariant {P : σ → Prop} (hstep : ∀ s e s', P s → step s e = some s' → P s')
    {s s' : σ} {es : List ε} (h0 : P s) (h : play step s es = some s') : P s' :=
  play_invariant_where (fun s e s' hP (_ : True) hs => hstep s e s' hP hs) h0
    (everyStep_of_forall fun _ _ => trivial) h

/-- Two conditions that agree wherever an invariant holds, which the steps that meet the
second one keep. -/
theorem everyStep_congr {P : σ → Prop} {condition condition' : σ → ε → Prop}
    (hiff : ∀ s e, P s → (condition s e ↔ condition' s e))
    (hstep : ∀ s e s', P s → condition' s e → step s e = some s' → P s') {s : σ} (h0 : P s)
    (es : List ε) : EveryStep step condition s es ↔ EveryStep step condition' s es := by
  induction es generalizing s with
  | nil => exact Iff.rfl
  | cons e es ih =>
    rw [EveryStep, EveryStep, hiff s e h0]
    refine and_congr_right fun hc => forall_congr' fun s1 => ?_
    exact forall_congr' fun h1 => ih (hstep s e s1 h0 hc h1)

/-- **Conditions and states.** Where a step meets the condition exactly when it keeps a property,
the steps of a run all meet it exactly when the property holds in every state of the run. -/
theorem everyStep_iff_prefixes {I P : σ → Prop} {condition : σ → ε → Prop}
    (hkeep : ∀ s e s', I s → P s → step s e = some s' → P s' → I s')
    (hiff : ∀ s e s', I s → P s → step s e = some s' → (condition s e ↔ P s')) {s last : σ}
    (hI : I s) (hP : P s) {es : List ε} (hplay : play step s es = some last) :
    EveryStep step condition s es ↔
      ∀ front, front <+: es → ∀ s', play step s front = some s' → P s' := by
  induction es generalizing s with
  | nil =>
    refine iff_of_true trivial fun front hfront s' h => ?_
    rw [List.prefix_nil.1 hfront] at h
    cases h
    exact hP
  | cons e es ih =>
    obtain ⟨s1, h1, hplay⟩ := play_cons_iff.1 hplay
    have hcond := hiff s e s1 hI hP h1
    constructor
    · rintro ⟨hc, hrest⟩ front hfront s' h
      rcases List.prefix_cons_iff.1 hfront with rfl | ⟨tail, rfl, htail⟩
      · cases h
        exact hP
      · obtain ⟨s2, h2, h⟩ := play_cons_iff.1 h
        rw [h1] at h2
        cases h2
        have hP1 := hcond.1 hc
        exact (ih (hkeep s e s1 hI hP h1 hP1) hP1 hplay).1 (hrest s1 h1) tail htail s' h
    · intro h
      have hP1 : P s1 := h [e] (List.prefix_cons_iff.2 (.inr ⟨[], rfl, List.nil_prefix⟩)) s1
        (play_cons_iff.2 ⟨s1, h1, rfl⟩)
      refine ⟨hcond.2 hP1, fun s2 h2 => ?_⟩
      rw [h1] at h2
      cases h2
      refine (ih (hkeep s e s1 hI hP h1 hP1) hP1 hplay).2 fun front hfront s' hs' => ?_
      exact h (e :: front) (List.prefix_cons_iff.2 (.inr ⟨front, rfl, hfront⟩)) s'
        (play_cons_iff.2 ⟨s1, h1, hs'⟩)

/-- **Costs.** A measure that no step raises by more than the event's cost. -/
theorem play_cost {P : σ → Prop} (measure : σ → Nat) (cost : ε → Nat)
    (hstep : ∀ s e s', P s → step s e = some s' → P s' ∧ measure s' ≤ measure s + cost e)
    {s s' : σ} {es : List ε} (h0 : P s) (h : play step s es = some s') :
    measure s' ≤ measure s + (es.map cost).sum := by
  induction es generalizing s with
  | nil =>
    cases h
    exact Nat.le_add_right _ _
  | cons e es ih =>
    obtain ⟨s1, h1, h⟩ := play_cons_iff.1 h
    obtain ⟨hP, hm⟩ := hstep s e s1 h0 h1
    have := ih hP h
    rw [List.map_cons, List.sum_cons]
    omega

/-- **Bounds.** Events that all lower a measure are no more than it allows. -/
theorem play_length {allowed : ε → Prop} (measure : σ → Nat)
    (hstep : ∀ s e s', allowed e → step s e = some s' → measure s' < measure s) {s s' : σ}
    {es : List ε} (hes : ∀ e ∈ es, allowed e) (h : play step s es = some s') :
    es.length + measure s' ≤ measure s := by
  induction es generalizing s with
  | nil =>
    cases h
    exact Nat.le_of_eq (Nat.zero_add _)
  | cons e es ih =>
    obtain ⟨s1, h1, h⟩ := play_cons_iff.1 h
    obtain ⟨he, hes⟩ := List.forall_mem_cons.1 hes
    have hlower := hstep s e s1 he h1
    have hrest := ih hes h
    rw [List.length_cons]
    omega

/-- **Projections.** What maps every step of a machine to a step of another one maps its runs. -/
theorem play_map {τ : Type} {step' : τ → ε → Option τ} (f : σ → τ)
    (hstep : ∀ s e s', step s e = some s' → step' (f s) e = some (f s')) {s s' : σ} {es : List ε}
    (h : play step s es = some s') : play step' (f s) es = some (f s') := by
  induction es generalizing s with
  | nil =>
    cases h
    rfl
  | cons e es ih =>
    obtain ⟨s1, h1, h⟩ := play_cons_iff.1 h
    exact play_cons_iff.2 ⟨f s1, hstep s e s1 h1, ih h⟩

end

end X360Port.Library
