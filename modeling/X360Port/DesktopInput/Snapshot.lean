import Mathlib.Data.Fin.Basic
import Mathlib.Data.List.Basic
import Mathlib.Tactic.Push
import X360Port.DesktopInput.Steps

/-!
# Consistent snapshots

A snapshot is consistent when it is what `TakeSnapshot` would have returned at
one of its points, undisturbed. That holds in the runs whose steps are
`Untorn`: no snapshot reads in the middle of a call of the UI thread, and once
a snapshot is overtaken, the words that it has still to read stay as they are.
The point is then the state before the first word that it had read changed.
-/

namespace X360Port

open Library

/-! ## Words -/

namespace SnapshotRead

variable {r : SnapshotRead} {s s' s'' : DesktopInputState}

theorem Same.refl (r : SnapshotRead) (s : DesktopInputState) : r.Same s s := by
  cases r <;> rfl

theorem Same.trans (h : r.Same s s') (h' : r.Same s' s'') : r.Same s s'' := by
  cases r <;> exact Eq.trans h' h

theorem report_congr (h : r.Same s s') (snapshot : DesktopSnapshot) :
    r.report s' snapshot = r.report s snapshot := by
  cases r with
  | keyWord word =>
    have hword : s'.keys[word] = s.keys[word] := h
    simp only [report, hword]
  | mouseButtons =>
    have hword : s'.mouseButtons = s.mouseButtons := h
    simp only [report, hword]
  | pointerDx =>
    have hword : s'.pointerDx = s.pointerDx := h
    simp only [report, hword]
  | pointerDy =>
    have hword : s'.pointerDy = s.pointerDy := h
    simp only [report, hword]
  | pointerCaptured =>
    have hword : s'.pointerCaptured = s.pointerCaptured := h
    simp only [report, hword]

/-- A read changes no word but its own. -/
theorem same_after {r' : SnapshotRead} (s : DesktopInputState) (h : r' ≠ r) :
    r'.Same s (r.after s) := by
  cases r with
  | pointerDx => cases r' <;> first | rfl | exact absurd rfl h
  | pointerDy => cases r' <;> first | rfl | exact absurd rfl h
  | _ => exact .refl r' s

/-- The place in the order of `snapshotReads`. -/
def pos : SnapshotRead → Nat
  | .keyWord word => word.val
  | .mouseButtons => 4
  | .pointerDx => 5
  | .pointerDy => 6
  | .pointerCaptured => 7

end SnapshotRead

theorem pairwise_snapshotReads : snapshotReads.Pairwise fun r r' => r.pos < r'.pos := by decide

theorem mem_snapshotReads (r : SnapshotRead) : r ∈ snapshotReads := by
  cases r with
  | keyWord word =>
    revert word
    decide
  | _ => decide

/-- The word that the operation writes. -/
def UiStep.target : UiStep → Option SnapshotRead
  | .fetchOrKey word _ => some (.keyWord word)
  | .fetchAndKey word _ => some (.keyWord word)
  | .clearKey word => some (.keyWord word)
  | .fetchOrButtons _ => some .mouseButtons
  | .fetchAndButtons _ => some .mouseButtons
  | .clearButtons => some .mouseButtons
  | .loadCaptured _ _ => none
  | .fetchAddDx _ => some .pointerDx
  | .fetchAddDy _ => some .pointerDy
  | .storeCaptured _ => some .pointerCaptured
  | .clearDx => some .pointerDx
  | .clearDy => some .pointerDy

theorem same_setKey (s : DesktopInputState) {word : Fin 4} (bits : UInt64) {r : SnapshotRead}
    (h : .keyWord word ≠ r) :
    r.Same s { s with keys := s.keys.set word.val bits word.isLt } := by
  cases r with
  | keyWord word' =>
    have hne : word.val ≠ word'.val := fun heq => h (by rw [Fin.ext heq])
    exact Vector.getElem_set_ne word.isLt word'.isLt hne
  | _ => rfl

/-- An operation changes no word but its target. -/
theorem UiStep.same_run (s : DesktopInputState) {u : UiStep} {r : SnapshotRead}
    (h : u.target ≠ some r) : r.Same s (u.run s) := by
  have hne : ∀ r', u.target = some r' → r' ≠ r := fun r' hr' heq => h (heq ▸ hr')
  cases u with
  | fetchOrKey word mask => exact same_setKey s _ (hne _ rfl)
  | fetchAndKey word mask => exact same_setKey s _ (hne _ rfl)
  | clearKey word => exact same_setKey s _ (hne _ rfl)
  | loadCaptured => exact .refl r s
  | _ => cases r <;> first | rfl | exact absurd rfl (hne _ rfl)

/-- The operation writes no word that comes before this one's, the discarded travel aside. -/
def UiStep.Before (u v : UiStep) : Prop :=
  ∀ r r', u.target = some r → v.target = some r' → r.pos ≤ r'.pos ∨ v = .clearDx ∨ v = .clearDy

theorem pairwise_releasing : List.Pairwise UiStep.Before [.clearKey 1, .clearKey 2, .clearKey 3,
    .clearButtons, .storeCaptured false, .clearDx, .clearDy] := by
  simp [UiStep.Before, UiStep.target, SnapshotRead.pos]

theorem before_started {operation : UiOperation} {u : UiStep} {rest : List UiStep}
    (s : DesktopInputState) (h : operation.steps = u :: rest) :
    ∀ v ∈ u.more s ++ rest, u.Before v := by
  cases operation with
  | setKey virtualKey down =>
    cases h
    cases down <;> exact fun _ hv => absurd hv List.not_mem_nil
  | setMouseButton button down =>
    cases h
    cases down <;> exact fun _ hv => absurd hv List.not_mem_nil
  | addPointerTravel dx dy =>
    cases h
    exact fun _ _ _ _ hr => nomatch hr
  | setPointerCaptured captured =>
    cases h
    cases captured with
    | false =>
      intro v hv r r' _ _
      simp only [UiStep.more, Bool.false_eq_true, if_false, List.nil_append, List.mem_cons,
        List.not_mem_nil, or_false] at hv
      exact .inr hv
    | true => exact fun _ hv => absurd hv List.not_mem_nil
  | releaseAll =>
    cases h
    intro v _ r r' hr _
    cases hr
    exact .inl (Nat.zero_le _)

theorem before_resumed {u : UiStep} {rest : List UiStep} (s : DesktopInputState)
    (h : Remaining (u :: rest)) : ∀ v ∈ u.more s ++ rest, u.Before v := by
  rw [h.more_eq_nil s, List.nil_append]
  generalize hui : u :: rest = ui at h
  cases h with
  | adding dx dy =>
    cases hui
    intro v hv r r' hr hr'
    rw [List.mem_singleton.1 hv] at hr'
    cases hr
    cases hr'
    exact .inl (by decide)
  | added dy =>
    cases hui
    exact fun _ hv => absurd hv List.not_mem_nil
  | releasing h =>
    have hpair := pairwise_releasing.sublist h.sublist
    rw [← hui] at hpair
    exact (List.pairwise_cons.1 hpair).1

/-! ## Snapshots -/

/-- What the reads report in one state. -/
def reportAll (s : DesktopInputState) (reads : List SnapshotRead) : DesktopSnapshot :=
  reads.foldl (fun snapshot r => r.report s snapshot) {}

theorem reportAll_concat (s : DesktopInputState) (reads : List SnapshotRead) (r : SnapshotRead) :
    reportAll s (reads ++ [r]) = r.report s (reportAll s reads) := by
  rw [reportAll, List.foldl_append]
  rfl

theorem reportAll_congr {s s' : DesktopInputState} {reads : List SnapshotRead}
    (h : ∀ r ∈ reads, r.Same s s') : reportAll s' reads = reportAll s reads := by
  apply List.foldl_ext
  intro snapshot r hr
  exact SnapshotRead.report_congr (h r hr) snapshot

/-- No read of an undisturbed snapshot sees what another one took. -/
theorem takeSnapshot_eq (s : DesktopInputState) :
    s.takeSnapshot.1 = reportAll s snapshotReads := rfl

/-- The snapshot is one reading of a state between two calls of the UI thread, which it has lived
through. -/
def TakingSnapshot.Consistent (t : TakingSnapshot) : Prop :=
  ∃ p ∈ t.points, t.snapshot = p.takeSnapshot.1

instance TakingSnapshot.Consistent.decidable (t : TakingSnapshot) : Decidable t.Consistent :=
  inferInstanceAs (Decidable (∃ p ∈ t.points, t.snapshot = p.takeSnapshot.1))

namespace DesktopInput

/-- The snapshots under way that the event is no step of. -/
def others (s : DesktopInput) : DesktopEvent → List TakingSnapshot
  | .read index => s.taking.eraseIdx index
  | _ => s.taking

def betweenCalls (s : DesktopInput) : DesktopEvent → Prop
  | .read _ => s.ui = []
  | _ => True

/-- No snapshot reads in the middle of a call, and no word that an overtaken one has still to
read changes. -/
def Untorn (s : DesktopInput) (event : DesktopEvent) : Prop :=
  s.betweenCalls event ∧
    ∀ t ∈ s.others event, t.overtaken = true → ∀ r ∈ t.reads,
      r.Same s.shared ((s.step event).map (·.shared) |>.getD s.shared)

instance Untorn.decidable (s : DesktopInput) (event : DesktopEvent) :
    Decidable (s.Untorn event) := by
  have : Decidable (s.betweenCalls event) := by
    cases event with
    | read index => exact inferInstanceAs (Decidable (s.ui = []))
    | _ => exact .isTrue trivial
  unfold Untorn
  infer_instance

end DesktopInput

/-! ## Snapshots under way -/

/-- The travel that the snapshot has looked at is gone. -/
def Emptied (s : DesktopInputState) (t : TakingSnapshot) : Prop :=
  t.overtaken = false → ∀ a : Axis, a.read ∈ t.done → a.pending s = 0

/-- A snapshot under way, with `ui` left of the UI thread's call. -/
structure Whole (ui : List UiStep) (s : DesktopInputState) (t : TakingSnapshot) : Prop where
  order : t.done ++ t.reads = snapshotReads
  released : ∀ p ∈ t.points, Released p []
  current : ui = [] → s ∈ t.points
  kept : t.overtaken = false → t.snapshot = reportAll s t.done
  /-- What the call has written so far comes after all that the snapshot has read. -/
  untouched : t.overtaken = false → t.done ≠ [] → (∃ p ∈ t.points, ∀ r : SnapshotRead, r.Same p s) ∨
    ∀ u ∈ ui, ∀ r ∈ t.done, u.target = some r → u = .clearDx ∨ u = .clearDy
  chosen : t.overtaken = true →
    ∃ p ∈ t.points, t.snapshot = reportAll p t.done ∧ ∀ r ∈ t.reads, r.Same p s

section

variable {ui ui' : List UiStep} {s s' : DesktopInputState} {t : TakingSnapshot}

theorem Whole.pos_lt (h : Whole ui s t) {r r' : SnapshotRead} (hr : r ∈ t.done)
    (hr' : r' ∈ t.reads) : r.pos < r'.pos := by
  have hpair := pairwise_snapshotReads
  rw [← h.order, List.pairwise_append] at hpair
  exact hpair.2.2 r hr r' hr'

theorem Whole.mem_reads (h : Whole ui s t) {r : SnapshotRead} (hr : r ∉ t.done) : r ∈ t.reads := by
  have hall := mem_snapshotReads r
  rw [← h.order] at hall
  exact (List.mem_append.1 hall).resolve_left hr

section

variable {r r' : SnapshotRead} {reads : List SnapshotRead}

theorem Whole.pos_lt_rest (h : Whole ui s t) (hr : t.reads = r :: reads) (hmem : r' ∈ reads) :
    r.pos < r'.pos := by
  have hpair := pairwise_snapshotReads
  rw [← h.order, hr, List.pairwise_append] at hpair
  exact (List.pairwise_cons.1 hpair.2.1).1 r' hmem

theorem Whole.not_mem_reads (h : Whole ui s t) (hr : t.reads = r :: reads) : r ∉ reads :=
  fun hmem => absurd (h.pos_lt_rest hr hmem) (Nat.lt_irrefl _)

/-- What comes before the next read is done. -/
theorem Whole.mem_done (h : Whole ui s t) (hr : t.reads = r :: reads) (hlt : r'.pos < r.pos) :
    r' ∈ t.done := by
  by_contra hdone
  have hreads := h.mem_reads hdone
  rw [hr] at hreads
  rcases List.mem_cons.1 hreads with rfl | hmem
  · exact Nat.lt_irrefl _ hlt
  · exact Nat.lt_asymm hlt (h.pos_lt_rest hr hmem)

/-- What comes after the next read is still to read. -/
theorem Whole.mem_rest (h : Whole ui s t) (hr : t.reads = r :: reads) (hlt : r.pos < r'.pos) :
    r' ∈ reads := by
  have hnext : r ∈ t.reads := by
    rw [hr]
    exact List.mem_cons_self
  have hreads := h.mem_reads fun hdone => Nat.lt_asymm hlt (h.pos_lt hdone hnext)
  rw [hr] at hreads
  rcases List.mem_cons.1 hreads with rfl | hmem
  · exact absurd hlt (Nat.lt_irrefl _)
  · exact hmem

end

theorem observe_eq_false_iff :
    (t.observe ui s s').overtaken = false ↔ t.overtaken = false ∧ ∀ r ∈ t.done, r.Same s s' := by
  simp [TakingSnapshot.observe]

theorem mem_points_observe {p : DesktopInputState} (h : p ∈ t.points) :
    p ∈ (t.observe ui s s').points := by
  show p ∈ if ui = [] then s' :: t.points else t.points
  split
  · exact List.mem_cons_of_mem _ h
  · exact h

theorem whole_begun (h : Released s ui) (number : Nat) :
    Whole ui s { number, points := if ui = [] then [s] else [] } where
  order := rfl
  released p hp := by
    split at hp
    · next hui =>
      subst hui
      rw [List.mem_singleton.1 hp]
      exact h
    · cases hp
  current hui := by
    rw [if_pos hui]
    exact List.mem_singleton_self s
  kept _ := rfl
  untouched _ hdone := absurd rfl hdone
  chosen h := nomatch h

/-- A step of any thread, seen by a snapshot that it is no read of. The words that change are
either all read already, with the state before at one of the points, or all still to read. -/
theorem Whole.observe (h : Whole ui s t) (hreleased : Released s' ui')
    (hstays : t.overtaken = true → ∀ r ∈ t.reads, r.Same s s')
    (hpoint : t.overtaken = false → ∀ r ∈ t.done, ¬ r.Same s s' →
      (∃ p ∈ t.points, ∀ r : SnapshotRead, r.Same p s) ∧ ∀ r ∈ t.reads, r.Same s s')
    (huntouched : t.overtaken = false → t.done ≠ [] → (∀ r ∈ t.done, r.Same s s') →
      (∃ p ∈ (t.observe ui' s s').points, ∀ r : SnapshotRead, r.Same p s') ∨
        ∀ u ∈ ui', ∀ r ∈ t.done, u.target = some r → u = .clearDx ∨ u = .clearDy) :
    Whole ui' s' (t.observe ui' s s') where
  order := h.order
  released p hp := by
    change p ∈ (if ui' = [] then s' :: t.points else t.points) at hp
    split at hp
    · next hui =>
      subst hui
      rcases List.mem_cons.1 hp with rfl | hp
      · exact hreleased
      · exact h.released p hp
    · exact h.released p hp
  current hui := by
    show s' ∈ if ui' = [] then s' :: t.points else t.points
    rw [if_pos hui]
    exact List.mem_cons_self
  kept hnot := by
    obtain ⟨hnot, hsame⟩ := observe_eq_false_iff.1 hnot
    exact (h.kept hnot).trans (reportAll_congr hsame).symm
  untouched hnot hdone := by
    obtain ⟨hnot, hsame⟩ := observe_eq_false_iff.1 hnot
    exact huntouched hnot hdone hsame
  chosen hover := by
    cases hwas : t.overtaken with
    | true =>
      obtain ⟨p, hp, hreport, hreads⟩ := h.chosen hwas
      exact ⟨p, mem_points_observe hp, hreport, fun r hr => (hreads r hr).trans (hstays hwas r hr)⟩
    | false =>
      have hchanged : ¬ ∀ r ∈ t.done, r.Same s s' := fun hsame => by
        rw [observe_eq_false_iff.2 ⟨hwas, hsame⟩] at hover
        cases hover
      push Not at hchanged
      obtain ⟨r, hr, hne⟩ := hchanged
      obtain ⟨⟨p, hp, hp'⟩, hreads⟩ := hpoint hwas r hr hne
      refine ⟨p, mem_points_observe hp, ?_, fun r hr => (hp' r).trans (hreads r hr)⟩
      exact (h.kept hwas).trans (reportAll_congr fun r _ => hp' r)

theorem Emptied.observe (h : Emptied s t) : Emptied s' (t.observe ui s s') := by
  intro hnot a hmem
  obtain ⟨hnot, hsame⟩ := observe_eq_false_iff.1 hnot
  have hzero := h hnot a hmem
  have hkept := hsame _ hmem
  cases a <;> exact Eq.trans hkept hzero

/-- An operation of the UI thread. -/
theorem Whole.run {u : UiStep} (h : Whole ui s t) (hempty : Emptied s t)
    (hreleased : Released (u.run s) ui') (hbefore : ∀ v ∈ ui', u.Before v)
    (hstays : t.overtaken = true → ∀ r ∈ t.reads, r.Same s (u.run s))
    (hwas : t.overtaken = false → t.done ≠ [] → (∃ p ∈ t.points, ∀ r : SnapshotRead, r.Same p s) ∨
      ∀ v ∈ u :: ui', ∀ r ∈ t.done, v.target = some r → v = .clearDx ∨ v = .clearDy) :
    Whole ui' (u.run s) (t.observe ui' s (u.run s)) := by
  have htarget : ∀ r : SnapshotRead, ¬ r.Same s (u.run s) → u.target = some r := by
    intro r hne
    by_contra h'
    exact hne (UiStep.same_run s h')
  refine h.observe hreleased hstays (fun hnot r hr hne => ?_) fun hnot hdone hsame => ?_
  · refine ⟨?_, fun r' hr' => UiStep.same_run s fun heq => ?_⟩
    · refine (hwas hnot (List.ne_nil_of_mem hr)).resolve_right fun hclear => hne ?_
      have hu := htarget r hne
      rcases hclear u List.mem_cons_self r hr hu with rfl | rfl
      · cases hu
        exact (hempty hnot .x hr).symm
      · cases hu
        exact (hempty hnot .y hr).symm
    · rw [htarget r hne] at heq
      cases heq
      exact absurd (h.pos_lt hr hr') (Nat.lt_irrefl _)
  · by_cases hnone : ∀ r : SnapshotRead, r.Same s (u.run s)
    · rcases hwas hnot hdone with ⟨p, hp, hp'⟩ | hclear
      · exact .inl ⟨p, mem_points_observe hp, fun r => (hp' r).trans (hnone r)⟩
      · exact .inr fun v hv => hclear v (List.mem_cons_of_mem u hv)
    · push Not at hnone
      obtain ⟨r, hne⟩ := hnone
      have hreads : r ∈ t.reads := h.mem_reads fun hr => hne (hsame r hr)
      refine .inr fun v hv r' hr' hv' => (hbefore v hv r r' (htarget r hne) hv').resolve_left ?_
      exact Nat.not_le.2 (h.pos_lt hr' hreads)

/-- A read between two calls, by another snapshot or already recorded as done. -/
theorem Whole.after {r : SnapshotRead} (h : Whole [] s t) (hreleased : Released s [])
    (hstays : t.overtaken = true → ∀ r' ∈ t.reads, r'.Same s (r.after s)) :
    Whole [] (r.after s) (t.observe [] s (r.after s)) := by
  refine h.observe (hreleased.read r) hstays (fun _ r' hr' hne => ?_) fun _ _ _ => .inr nofun
  have heq : r' = r := by
    by_contra h'
    exact hne (SnapshotRead.same_after s h')
  subst heq
  refine ⟨⟨s, h.current rfl, fun r => .refl r s⟩, fun r'' hr'' => SnapshotRead.same_after s ?_⟩
  rintro rfl
  exact absurd (h.pos_lt hr' hr'') (Nat.lt_irrefl _)

/-- The snapshot's own next read. -/
theorem Whole.next {r : SnapshotRead} {reads : List SnapshotRead} (h : Whole [] s t)
    (hr : t.reads = r :: reads) : Whole [] s (t.next s r reads) where
  order := by
    rw [← h.order, hr]
    exact List.append_assoc t.done [r] reads
  released := h.released
  current := h.current
  kept hnot := by
    show r.report s t.snapshot = reportAll s (t.done ++ [r])
    rw [reportAll_concat, h.kept hnot]
  untouched _ _ := .inr nofun
  chosen hover := by
    obtain ⟨p, hp, hreport, hreads⟩ := h.chosen hover
    rw [hr, List.forall_mem_cons] at hreads
    refine ⟨p, hp, ?_, hreads.2⟩
    show r.report s t.snapshot = reportAll p (t.done ++ [r])
    rw [reportAll_concat, ← hreport, SnapshotRead.report_congr hreads.1]

theorem Emptied.next {r : SnapshotRead} {reads : List SnapshotRead} (h : Emptied s t) :
    Emptied (r.after s) ((t.next s r reads).observe ui s (r.after s)) := by
  intro hnot a hmem
  obtain ⟨hnot, hsame⟩ := observe_eq_false_iff.1 hnot
  rcases List.mem_append.1 hmem with hmem' | hmem'
  · have hzero := h hnot a hmem'
    have hkept := hsame _ hmem
    cases a <;> exact Eq.trans hkept hzero
  · rw [← List.mem_singleton.1 hmem']
    cases a <;> rfl

/-- A snapshot that returns is consistent, and reports no travel of an uncaptured pointer. -/
theorem Whole.consistent (h : Whole [] s t) (hreads : t.reads = []) :
    t.Consistent ∧ (t.snapshot.pointerCaptured = false → ∀ a : Axis, a.travel t.snapshot = 0) := by
  have hdone : t.done = snapshotReads := by rw [← h.order, hreads, List.append_nil]
  have hpoint : ∃ p ∈ t.points, t.snapshot = p.takeSnapshot.1 := by
    cases hover : t.overtaken with
    | false => exact ⟨s, h.current rfl, by rw [h.kept hover, hdone, takeSnapshot_eq]⟩
    | true =>
      obtain ⟨p, hp, hreport, _⟩ := h.chosen hover
      exact ⟨p, hp, by rw [hreport, hdone, takeSnapshot_eq]⟩
  refine ⟨hpoint, fun hc a => ?_⟩
  obtain ⟨p, hp, hreport⟩ := hpoint
  rw [hreport] at hc ⊢
  have hzero := (h.released p hp).pending_eq_zero hc a
  cases a <;> exact hzero

end

/-! ## One step -/

/-- What the steps keep. -/
structure Intact (s : DesktopInput) : Prop where
  released : Released s.shared s.ui
  reading : ∀ t ∈ s.taking, t.reads ≠ []
  whole : ∀ t ∈ s.taking, Whole s.ui s.shared t
  emptied : ∀ t ∈ s.taking, Emptied s.shared t
  completed : ∀ t ∈ s.completed, t.Consistent ∧
    (t.snapshot.pointerCaptured = false → ∀ a : Axis, a.travel t.snapshot = 0)

theorem intact_fresh : Intact {} where
  released := released_fresh
  reading _ ht := absurd ht List.not_mem_nil
  whole _ ht := absurd ht List.not_mem_nil
  emptied _ ht := absurd ht List.not_mem_nil
  completed _ ht := absurd ht List.not_mem_nil

section

variable {s s' : DesktopInput} {event : DesktopEvent}

/-- Snapshots return only between two calls. -/
theorem Intact.advance {taking : List TakingSnapshot} {shared : DesktopInputState}
    {ui : List UiStep} (h : Intact s) (hreleased : Released shared ui)
    (hall : ∀ t ∈ taking, Whole ui shared (t.observe ui s.shared shared) ∧
      Emptied shared (t.observe ui s.shared shared))
    (hreturns : ∀ t ∈ taking, t.reads = [] → ui = []) : Intact (s.advance taking shared ui) where
  released := hreleased
  reading t ht := of_decide_eq_true (List.mem_filter.1 ht).2
  whole t ht := by
    obtain ⟨t0, ht0, rfl⟩ := DesktopInput.exists_of_mem_taking ht
    exact (hall t0 ht0).1
  emptied t ht := by
    obtain ⟨t0, ht0, rfl⟩ := DesktopInput.exists_of_mem_taking ht
    exact (hall t0 ht0).2
  completed t ht := by
    rcases DesktopInput.exists_of_mem_completed ht with ht | ⟨t0, ht0, hreads, rfl⟩
    · exact h.completed t ht
    · have hwhole := (hall t0 ht0).1
      have hui := hreturns t0 ht0 hreads
      subst hui
      exact hwhole.consistent hreads

theorem step_shared (hs : s.step event = some s') :
    ((s.step event).map (·.shared) |>.getD s.shared) = s'.shared := by
  rw [hs]
  rfl

/-- **What one step keeps.** -/
theorem Intact.step (h : Intact s) (hu : s.Untorn event) (hs : s.step event = some s') :
    Intact s' := by
  have hreleased := DesktopInput.Released.step h.released hs
  have hstays := hu.2
  rw [step_shared hs] at hstays
  cases DesktopInput.step_cases hs with
  | @started operation u rest hui hop =>
    refine h.advance hreleased (fun t ht => ⟨?_, (h.emptied t ht).observe⟩) fun t ht hreads =>
      absurd hreads (h.reading t ht)
    refine (h.whole t ht).run (h.emptied t ht) hreleased (before_started s.shared hop)
      (hstays t ht) fun _ _ => .inl ?_
    exact ⟨s.shared, (h.whole t ht).current hui, fun r => .refl r s.shared⟩
  | @resumed u rest hui =>
    have hremaining := h.released.remaining
    rw [hui] at hremaining
    refine h.advance hreleased (fun t ht => ⟨?_, (h.emptied t ht).observe⟩) fun t ht hreads =>
      absurd hreads (h.reading t ht)
    refine (h.whole t ht).run (h.emptied t ht) hreleased (before_resumed s.shared hremaining)
      (hstays t ht) fun hnot hdone => ?_
    have huntouched := (h.whole t ht).untouched hnot hdone
    rw [hremaining.more_eq_nil s.shared, List.nil_append, ← hui]
    exact huntouched
  | begun =>
    refine ⟨h.released, fun t ht => ?_, fun t ht => ?_, fun t ht => ?_, h.completed⟩ <;>
      rcases List.mem_append.1 ht with ht | ht
    · exact h.reading t ht
    · rw [List.mem_singleton.1 ht]
      exact List.cons_ne_nil _ _
    · exact h.whole t ht
    · rw [List.mem_singleton.1 ht]
      exact whole_begun h.released _
    · exact h.emptied t ht
    · rw [List.mem_singleton.1 ht]
      exact fun _ _ hmem => nomatch hmem
  | @read index t r reads ht hr =>
    have hui : s.ui = [] := hu.1
    have hmem := List.mem_of_getElem? ht
    have hwhole : ∀ t ∈ s.taking, Whole [] s.shared t := by
      intro t ht
      have hwhole := h.whole t ht
      rwa [hui] at hwhole
    have hreleased' := h.released
    rw [hui] at hreleased'
    refine h.advance hreleased ?_ fun _ _ _ => hui
    rw [hui]
    intro t' ht'
    rcases mem_set_cases ht' with rfl | hother
    · refine ⟨((hwhole t hmem).next hr).after hreleased' fun _ r' hr' => ?_,
        (h.emptied t hmem).next⟩
      refine SnapshotRead.same_after s.shared ?_
      rintro rfl
      exact (hwhole t hmem).not_mem_reads hr hr'
    · have hmem' := List.mem_of_mem_eraseIdx hother
      exact ⟨(hwhole t' hmem').after hreleased' (hstays t' hother), (h.emptied t' hmem').observe⟩

end

end X360Port
