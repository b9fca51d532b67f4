import X360Port.DesktopInput

/-!
# One step of the desktop threads

`StepOf` lists what a step can be. Between its atomic operations a call of the
UI thread has one of the shapes of `Remaining`, and `Released` is what the
shapes keep: an uncaptured pointer has no travel but what the call is about to
discard.
-/

namespace X360Port

open Library

/-- An axis of the pointer's travel. -/
inductive Axis where
  | x
  | y
  deriving DecidableEq, Repr

namespace Axis

def pending : Axis → DesktopInputState → Int32
  | .x => (·.pointerDx)
  | .y => (·.pointerDy)

def travel : Axis → DesktopSnapshot → Int32
  | .x => (·.pointerDx)
  | .y => (·.pointerDy)

/-- The exchange that takes the travel. -/
def read : Axis → SnapshotRead
  | .x => .pointerDx
  | .y => .pointerDy

def add : Axis → Int32 → UiStep
  | .x => .fetchAddDx
  | .y => .fetchAddDy

/-- The store that discards the travel. -/
def discard : Axis → UiStep
  | .x => .clearDx
  | .y => .clearDy

end Axis

/-! ## Calls of the UI thread -/

/-- What can be left of a call after one of its atomic operations. -/
inductive Remaining : List UiStep → Prop where
  | adding (dx dy : Int32) : Remaining [.fetchAddDx dx, .fetchAddDy dy]
  | added (dy : Int32) : Remaining [.fetchAddDy dy]
  | releasing {ui : List UiStep}
      (h : ui <:+ [.clearKey 1, .clearKey 2, .clearKey 3, .clearButtons, .storeCaptured false,
        .clearDx, .clearDy]) : Remaining ui

theorem Remaining.nil : Remaining [] := .releasing (List.nil_suffix)

theorem remaining_started {operation : UiOperation} {u : UiStep} {rest : List UiStep}
    (s : DesktopInputState) (h : operation.steps = u :: rest) :
    Remaining (u.more s ++ rest) := by
  cases operation with
  | setKey virtualKey down =>
    cases h
    cases down <;> exact .nil
  | setMouseButton button down =>
    cases h
    cases down <;> exact .nil
  | addPointerTravel dx dy =>
    cases h
    show Remaining ((if s.pointerCaptured then _ else _) ++ [])
    split
    · exact .adding dx dy
    · exact .nil
  | setPointerCaptured captured =>
    cases h
    cases captured with
    | false => exact .releasing ⟨[_, _, _, _, _], rfl⟩
    | true => exact .nil
  | releaseAll =>
    cases h
    exact .releasing List.suffix_rfl

/-- Only a call's first operation looks at what it loads. -/
theorem Remaining.more_eq_nil {u : UiStep} {rest : List UiStep} (s : DesktopInputState)
    (h : Remaining (u :: rest)) : u.more s = [] := by
  generalize hui : u :: rest = ui at h
  cases h with
  | adding dx dy =>
    cases hui
    rfl
  | added dy =>
    cases hui
    rfl
  | releasing h =>
    have hmem := h.subset (hui ▸ List.mem_cons_self)
    simp only [List.mem_cons, List.not_mem_nil, or_false] at hmem
    rcases hmem with rfl | rfl | rfl | rfl | rfl | rfl | rfl <;> rfl

theorem Remaining.resumed {u : UiStep} {rest : List UiStep} (s : DesktopInputState)
    (h : Remaining (u :: rest)) : Remaining (u.more s ++ rest) := by
  rw [h.more_eq_nil s, List.nil_append]
  generalize hui : u :: rest = ui at h
  cases h with
  | adding dx dy =>
    cases hui
    exact .added dy
  | added dy =>
    cases hui
    exact .nil
  | releasing h => exact .releasing ((List.suffix_cons u rest).trans (hui ▸ h))

/-- The travel of an uncaptured pointer is gone or about to be discarded, and a call that adds
travel has found the pointer captured. -/
structure Released (s : DesktopInputState) (ui : List UiStep) : Prop where
  remaining : Remaining ui
  travel : ∀ a : Axis, s.pointerCaptured = false → a.pending s = 0 ∨ a.discard ∈ ui
  adding : ∀ (a : Axis) (d : Int32), a.add d ∈ ui → s.pointerCaptured = true

theorem released_fresh : Released {} [] where
  remaining := .nil
  travel a _ := by cases a <;> exact .inl rfl
  adding _ _ h := nomatch h

section

variable {s : DesktopInputState} {ui : List UiStep}

/-- Between two calls an uncaptured pointer has no travel. -/
theorem Released.pending_eq_zero (h : Released s []) (hc : s.pointerCaptured = false) (a : Axis) :
    a.pending s = 0 := (h.travel a hc).resolve_right nofun

/-- A snapshot's reads take travel away, and nothing else. -/
theorem Released.read (h : Released s ui) (r : SnapshotRead) : Released (r.after s) ui where
  remaining := h.remaining
  travel a hc := by
    have hc : s.pointerCaptured = false := by
      rw [← hc]
      cases r <;> rfl
    refine (h.travel a hc).imp_left fun hzero => ?_
    cases r with
    | pointerDx =>
      cases a with
      | x => rfl
      | y => exact hzero
    | pointerDy =>
      cases a with
      | x => exact hzero
      | y => rfl
    | _ => exact hzero
  adding a d hmem := by
    have hkept := h.adding a d hmem
    rw [← hkept]
    cases r <;> rfl

/-- Keys and buttons. -/
def UiStep.quiet : UiStep → Bool
  | .fetchAddDx _ => false
  | .fetchAddDy _ => false
  | .storeCaptured _ => false
  | .clearDx => false
  | .clearDy => false
  | _ => true

theorem run_of_quiet {u : UiStep} (s : DesktopInputState) (h : u.quiet = true) :
    (u.run s).pointerCaptured = s.pointerCaptured ∧
      ∀ a : Axis, a.pending (u.run s) = a.pending s := by
  cases u with
  | fetchAddDx | fetchAddDy | storeCaptured | clearDx | clearDy => cases h
  | _ => exact ⟨rfl, fun a => by cases a <;> rfl⟩

theorem ne_discard_of_quiet {u : UiStep} (h : u.quiet = true) (a : Axis) : a.discard ≠ u := by
  rintro rfl
  cases a <;> cases h

/-- A quiet operation, with nothing to add travel after it. -/
theorem Released.quiet {u : UiStep} {ui' rest : List UiStep} (h : Released s ui')
    (hui : ∀ a : Axis, a.discard ∈ ui' → a.discard ∈ rest) (hq : u.quiet = true)
    (hremaining : Remaining rest) (hadding : ∀ (a : Axis) (d : Int32), a.add d ∉ rest) :
    Released (u.run s) rest where
  remaining := hremaining
  travel a hc := by
    obtain ⟨hcaptured, hpending⟩ := run_of_quiet s hq
    rw [hpending]
    exact (h.travel a (hcaptured.symm.trans hc)).imp_right (hui a)
  adding a d hmem := absurd hmem (hadding a d)

/-- The pointer is released: what is left of the call discards its travel. -/
theorem released_storeCaptured (s : DesktopInputState) :
    Released ((UiStep.storeCaptured false).run s) [.clearDx, .clearDy] where
  remaining := .releasing ⟨[_, _, _, _, _], rfl⟩
  travel a _ := by cases a <;> exact .inr (by simp [Axis.discard])
  adding a d hmem := by cases a <;> simp [Axis.add] at hmem

/-- A call's first operation. -/
theorem Released.started {operation : UiOperation} {u : UiStep} {rest : List UiStep}
    (h : Released s []) (hop : operation.steps = u :: rest) :
    Released (u.run s) (u.more s ++ rest) := by
  have hremaining := remaining_started s hop
  cases operation with
  | setKey virtualKey down =>
    cases hop
    cases down <;> exact h.quiet (fun _ => id) rfl .nil fun _ _ => List.not_mem_nil
  | setMouseButton button down =>
    cases hop
    cases down <;> exact h.quiet (fun _ => id) rfl .nil fun _ _ => List.not_mem_nil
  | addPointerTravel dx dy =>
    cases hop
    refine ⟨hremaining, fun a hc => .inl (h.pending_eq_zero hc a), fun a d hmem => ?_⟩
    show s.pointerCaptured = true
    by_contra hc
    have hnone : (UiStep.loadCaptured dx dy).more s = [] := if_neg hc
    rw [hnone] at hmem
    cases hmem
  | setPointerCaptured captured =>
    cases hop
    cases captured with
    | false => exact released_storeCaptured s
    | true => exact ⟨hremaining, fun _ hc => Bool.noConfusion hc, fun _ _ _ => rfl⟩
  | releaseAll =>
    cases hop
    refine h.quiet (fun _ hmem => nomatch hmem) rfl hremaining fun a d hmem => ?_
    cases a <;> simp [UiStep.more, Axis.add, UiOperation.setPointerCapturedSteps] at hmem

/-- A later operation of a call. -/
theorem Released.resumed {u : UiStep} {rest : List UiStep} (h : Released s (u :: rest)) :
    Released (u.run s) (u.more s ++ rest) := by
  have hremaining := h.remaining.resumed s
  have hshape := h.remaining
  generalize hui : u :: rest = ui at hshape
  cases hshape with
  | adding dx dy =>
    cases hui
    have hc : s.pointerCaptured = true := h.adding .x dx List.mem_cons_self
    exact ⟨hremaining, fun _ hc' => absurd hc' (by simp [UiStep.run, hc]), fun _ _ _ => hc⟩
  | added dy =>
    cases hui
    have hc : s.pointerCaptured = true := h.adding .y dy List.mem_cons_self
    exact ⟨hremaining, fun _ hc' => absurd hc' (by simp [UiStep.run, hc]), nofun⟩
  | releasing hsuffix =>
    subst hui
    have hno : ∀ (a : Axis) (d : Int32), a.add d ∉ rest := by
      intro a d hmem
      have hmem := hsuffix.subset (List.mem_cons_of_mem _ hmem)
      cases a <;> simp [Axis.add] at hmem
    have hquiet : u.quiet = true → u.more s = [] → Released (u.run s) (u.more s ++ rest) := by
      intro hq hmore
      rw [hmore] at hremaining ⊢
      refine h.quiet (fun a hmem => ?_) hq hremaining hno
      exact (List.mem_cons.1 hmem).resolve_left (ne_discard_of_quiet hq a)
    simp only [List.suffix_cons_iff, List.cons.injEq, List.suffix_nil, reduceCtorEq,
      or_false] at hsuffix
    rcases hsuffix with ⟨rfl, rfl⟩ | ⟨rfl, rfl⟩ | ⟨rfl, rfl⟩ | ⟨rfl, rfl⟩ | ⟨rfl, rfl⟩ |
      ⟨rfl, rfl⟩ | ⟨rfl, rfl⟩
    · exact hquiet rfl rfl
    · exact hquiet rfl rfl
    · exact hquiet rfl rfl
    · exact hquiet rfl rfl
    · exact released_storeCaptured s
    · refine ⟨hremaining, fun a hc => ?_, fun a d hmem => absurd hmem (hno a d)⟩
      cases a with
      | x => exact .inl rfl
      | y => exact .inr List.mem_cons_self
    · refine ⟨hremaining, fun a hc => .inl ?_, fun a d hmem => absurd hmem (hno a d)⟩
      cases a with
      | x => exact (h.travel .x hc).resolve_right (by simp [Axis.discard])
      | y => rfl

end

/-! ## Lists with one place set -/

section

variable {α : Type} {xs : List α} {index : Nat} {x y : α}

/-- What is in a list with one place set is what was set, or stands in another place. -/
theorem mem_set_cases (h : y ∈ xs.set index x) : y = x ∨ y ∈ xs.eraseIdx index := by
  obtain ⟨i, hi⟩ := List.mem_iff_getElem?.1 h
  by_cases hindex : index = i
  · subst hindex
    have hlt := (List.getElem?_eq_some_iff.1 hi).1
    rw [List.length_set] at hlt
    rw [List.getElem?_set_self hlt, Option.some.injEq] at hi
    exact .inl hi.symm
  · rw [List.getElem?_set_ne hindex] at hi
    exact .inr (List.mem_eraseIdx_iff_getElem?.2 ⟨i, Ne.symm hindex, hi⟩)

theorem mem_set_of_mem_eraseIdx (x : α) (h : y ∈ xs.eraseIdx index) : y ∈ xs.set index x := by
  obtain ⟨i, hindex, hi⟩ := List.mem_eraseIdx_iff_getElem?.1 h
  refine List.mem_iff_getElem?.2 ⟨i, ?_⟩
  rw [List.getElem?_set_ne (Ne.symm hindex), hi]

theorem eq_or_mem_eraseIdx (hx : xs[index]? = some x) (hy : y ∈ xs) :
    y = x ∨ y ∈ xs.eraseIdx index := by
  obtain ⟨hlt, rfl⟩ := List.getElem?_eq_some_iff.1 hx
  apply mem_set_cases
  rwa [List.set_getElem_self]

end

/-! ## Steps -/

namespace DesktopInput

/-- What a step can be. -/
inductive StepOf (s : DesktopInput) : DesktopEvent → DesktopInput → Prop where
  | started {operation : UiOperation} {u : UiStep} {rest : List UiStep} (hui : s.ui = [])
      (hop : operation.steps = u :: rest) : StepOf s (.start operation) (s.runUi u rest)
  | resumed {u : UiStep} {rest : List UiStep} (hui : s.ui = u :: rest) :
      StepOf s .resume (s.runUi u rest)
  | begun : StepOf s .beginSnapshot
      { s with taking := s.taking ++ [{
        number := s.taking.length + s.completed.length
        points := if s.ui = [] then [s.shared] else [] }] }
  | read {index : Nat} {t : TakingSnapshot} {r : SnapshotRead} {reads : List SnapshotRead}
      (ht : s.taking[index]? = some t) (hr : t.reads = r :: reads) :
      StepOf s (.read index)
        (s.advance (s.taking.set index (t.next s.shared r reads)) (r.after s.shared) s.ui)

theorem step_cases {s s' : DesktopInput} {event : DesktopEvent} (h : s.step event = some s') :
    StepOf s event s' := by
  cases event with
  | start operation =>
    simp only [step] at h
    split at h
    · next hui hop =>
      cases h
      exact .started hui hop
    · cases h
  | resume =>
    simp only [step] at h
    split at h
    · next hui =>
      cases h
      exact .resumed hui
    · cases h
  | beginSnapshot =>
    cases h
    exact .begun
  | read index =>
    simp only [step] at h
    split at h
    · cases h
    · next ht =>
      split at h
      · cases h
      · next hr =>
        cases h
        exact .read ht hr

/-- A snapshot under way after a step has seen it. -/
theorem exists_of_mem_taking {s : DesktopInput} {taking : List TakingSnapshot}
    {shared : DesktopInputState} {ui : List UiStep} {t : TakingSnapshot}
    (h : t ∈ (s.advance taking shared ui).taking) :
    ∃ t0 ∈ taking, t0.observe ui s.shared shared = t :=
  List.mem_map.1 (List.mem_filter.1 h).1

/-- A snapshot that has returned by the end of a step. -/
theorem exists_of_mem_completed {s : DesktopInput} {taking : List TakingSnapshot}
    {shared : DesktopInputState} {ui : List UiStep} {t : TakingSnapshot}
    (h : t ∈ (s.advance taking shared ui).completed) :
    t ∈ s.completed ∨
      ∃ t0 ∈ taking, t0.reads = [] ∧ t0.observe ui s.shared shared = t := by
  rcases List.mem_append.1 h with h | h
  · obtain ⟨hmem, hreads⟩ := List.mem_filter.1 h
    obtain ⟨t0, ht0, rfl⟩ := List.mem_map.1 hmem
    exact .inr ⟨t0, ht0, of_decide_eq_true hreads, rfl⟩
  · exact .inl h

theorem Released.step {s s' : DesktopInput} {event : DesktopEvent}
    (h : X360Port.Released s.shared s.ui) (hs : s.step event = some s') :
    X360Port.Released s'.shared s'.ui := by
  cases step_cases hs with
  | started hui hop =>
    rw [hui] at h
    exact h.started hop
  | resumed hui =>
    rw [hui] at h
    exact h.resumed
  | begun => exact h
  | read ht hr => exact h.read _

end DesktopInput

end X360Port
