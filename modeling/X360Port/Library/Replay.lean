import X360Port.Library.Machine
import X360Port.Library.Memory

/-!
# Replaying a run

Each step of a machine leaves records; `recordsAlong` is the records of a run,
in order. A view is what one looks at of a state. Where the records of a step
say what becomes of the view, those of a run do: the view at its end is the
records replayed on the view at its start (`view_of_play`).

For a memory the records are patches and the view is one cell. What the patches
make of it is what the last one that covers it wrote (`writeAll_eq_lastCell`).
-/

namespace X360Port.Library

section

variable {σ ε ρ ν : Type} {step : σ → ε → Option σ} {records : σ → ε → List ρ}
  {view : σ → ν} {apply : ν → ρ → ν}

/-- The records of a run, in order. -/
def recordsAlong (step : σ → ε → Option σ) (records : σ → ε → List ρ) : σ → List ε → List ρ
  | _, [] => []
  | s, e :: es => records s e ++ (step s e).elim [] (recordsAlong step records · es)

theorem recordsAlong_cons {s s1 : σ} {e : ε} (h : step s e = some s1) (es : List ε) :
    recordsAlong step records s (e :: es) = records s e ++ recordsAlong step records s1 es := by
  rw [recordsAlong, h, Option.elim_some]

/-- **A view over a run.** The steps may rest on an invariant and on a condition that they
meet. -/
theorem view_of_play {I : σ → Prop} {condition : σ → ε → Prop}
    (hstep : ∀ s e s', I s → condition s e → step s e = some s' →
      I s' ∧ view s' = (records s e).foldl apply (view s))
    {s s' : σ} {es : List ε} (h0 : I s) (hc : EveryStep step condition s es)
    (h : play step s es = some s') :
    I s' ∧ view s' = (recordsAlong step records s es).foldl apply (view s) := by
  induction es generalizing s with
  | nil =>
    cases h
    exact ⟨h0, rfl⟩
  | cons e es ih =>
    obtain ⟨s1, h1, h⟩ := play_cons_iff.1 h
    obtain ⟨hI, hview⟩ := hstep s e s1 h0 hc.1 h1
    obtain ⟨hend, hrest⟩ := ih hI (hc.2 s1 h1) h
    refine ⟨hend, ?_⟩
    rw [hrest, recordsAlong_cons h1, List.foldl_append, hview]

end

/-! ## Cells -/

section

variable {β : Type} {ps : List (Patch β)} {m : Memory β} {x : Nat}

/-- A cell after a patch. -/
def cellAfter (x : Nat) (b : β) (p : Patch β) : β := (p.cellAt x).getD b

theorem writeAll_apply (ps : List (Patch β)) (m : Memory β) (x : Nat) :
    writeAll ps m x = ps.foldl (cellAfter x) (m x) := by
  induction ps generalizing m with
  | nil => rfl
  | cons p ps ih => exact ih (p.write m)

/-- Patches make the same of the same cell. -/
theorem writeAll_congr {m' : Memory β} (h : m x = m' x) : writeAll ps m x = writeAll ps m' x := by
  rw [writeAll_apply, writeAll_apply, h]

/-- What the last of the patches that write `x` writes there. -/
def lastCell : List (Patch β) → Nat → Option β
  | [], _ => none
  | p :: ps, x => (lastCell ps x).or (p.cellAt x)

theorem writeAll_eq_lastCell (ps : List (Patch β)) (m : Memory β) (x : Nat) :
    writeAll ps m x = (lastCell ps x).getD (m x) := by
  induction ps generalizing m with
  | nil => rfl
  | cons p ps ih =>
    rw [writeAll_cons, ih, lastCell, Patch.write]
    cases lastCell ps x with
    | none => rfl
    | some b => rfl

end

end X360Port.Library
