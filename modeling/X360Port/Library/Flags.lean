import Mathlib.Data.List.Induction
import X360Port.Library.Machine

/-!
# Flags of a machine

A flag that some events put up and some put down. `Raised` looks at the run
alone: an event has put the flag up, and no later one down. `play_flag_iff`
says that this is what the machine's own flag says.
-/

namespace X360Port.Library

section

variable {σ ε : Type} {step : σ → ε → Option σ} {up : σ → ε → Prop} {down : ε → Prop}
  {s0 s s' : σ} {e : ε} {es : List ε}

/-- Some event of the run puts the flag up, in the state it happens in, and none after it
puts it down. -/
def Raised (step : σ → ε → Option σ) (up : σ → ε → Prop) (down : ε → Prop) (s0 : σ)
    (es : List ε) : Prop :=
  ∃ front e back s, es = front ++ e :: back ∧ play step s0 front = some s ∧ up s e ∧
    ∀ e' ∈ back, ¬ down e'

theorem not_raised_nil : ¬ Raised step up down s0 [] := by
  rintro ⟨front, e, back, s, h, -⟩
  exact List.append_ne_nil_of_right_ne_nil front (List.cons_ne_nil e back) h.symm

/-- One more event: it puts the flag up, or the flag was up and it does not put it down. -/
theorem raised_concat_iff (hs : play step s0 es = some s) :
    Raised step up down s0 (es ++ [e]) ↔ up s e ∨ Raised step up down s0 es ∧ ¬ down e := by
  constructor
  · rintro ⟨front, e', back, mid, h, hmid, hup, hback⟩
    rcases List.eq_nil_or_concat back with rfl | ⟨back, last, rfl⟩
    · obtain ⟨rfl, hlast⟩ := List.append_inj' h rfl
      cases hlast
      rw [hs] at hmid
      cases hmid
      exact .inl hup
    · rw [List.concat_eq_append, ← List.cons_append, ← List.append_assoc] at h
      obtain ⟨rfl, hlast⟩ := List.append_inj' h rfl
      cases hlast
      refine .inr ⟨⟨front, e', back, mid, rfl, hmid, hup, fun x hx => hback x ?_⟩, hback e ?_⟩
      · simp [hx]
      · simp
  · rintro (hup | ⟨⟨front, e', back, mid, rfl, hmid, hup, hback⟩, hdown⟩)
    · exact ⟨es, e, [], s, rfl, hs, hup, fun _ h => absurd h List.not_mem_nil⟩
    · refine ⟨front, e', back ++ [e], mid, by simp, hmid, hup, fun x hx => ?_⟩
      rcases List.mem_append.1 hx with hx | hx
      · exact hback x hx
      · exact List.mem_singleton.1 hx ▸ hdown

/-- **A flag over a run.** -/
theorem play_flag_iff (flag : σ → Prop)
    (hstep : ∀ s e s', step s e = some s' → (flag s' ↔ up s e ∨ flag s ∧ ¬ down e))
    (h0 : ¬ flag s0) (h : play step s0 es = some s) : flag s ↔ Raised step up down s0 es := by
  induction es using List.reverseRecOn generalizing s with
  | nil =>
    cases h
    exact iff_of_false h0 not_raised_nil
  | append_singleton es e ih =>
    rw [play_append, Option.bind_eq_some_iff] at h
    obtain ⟨mid, hmid, h⟩ := h
    obtain ⟨s', hs', h⟩ := play_cons_iff.1 h
    cases h
    rw [hstep mid e s hs', ih hmid, raised_concat_iff hmid]

end

end X360Port.Library
