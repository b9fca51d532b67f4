/-!
# Checked computations

A checked computation answers, or it is refused with a reason, or it leaves
the defined behaviour: an access outside its span, or an unsigned subtraction
that goes below zero.

`Meets P x` says that `x` stays defined and that its answer, if it answers,
satisfies `P`. Each operation has one rule, stated for the operation followed
by the rest of the computation, so a function is taken through its checks in
the order in which it makes them.
-/

namespace X360Port.Library

/-- Why a checked computation stopped. -/
inductive Stop (ρ : Type) where
  | refused (reason : ρ)
  | outOfSpan
  | underflow
  deriving DecidableEq, Repr

abbrev Checked (ρ : Type) := Except (Stop ρ)

section

variable {α β γ ρ : Type}

/-- The computation was refused, which is a defined outcome. -/
def Stop.IsRefusal : Stop ρ → Prop
  | .refused _ => True
  | .outOfSpan | .underflow => False

instance Stop.decidableIsRefusal : (stop : Stop ρ) → Decidable stop.IsRefusal
  | .refused _ => .isTrue trivial
  | .outOfSpan | .underflow => .isFalse id

/-- The same stop with its reason put in other words. -/
def Stop.map (f : ρ → γ) : Stop ρ → Stop γ
  | .refused reason => .refused (f reason)
  | .outOfSpan => .outOfSpan
  | .underflow => .underflow

theorem Stop.isRefusal_map (f : ρ → γ) (stop : Stop ρ) :
    (stop.map f).IsRefusal ↔ stop.IsRefusal := by
  cases stop with
  | refused reason => exact Iff.rfl
  | outOfSpan => exact Iff.rfl
  | underflow => exact Iff.rfl

def refuseIf (c : Prop) [Decidable c] (reason : ρ) : Checked ρ Unit :=
  if c then .error (.refused reason) else .ok ()

/-- A check that is made only under a condition. -/
def checkWhen (c : Prop) [Decidable c] (check : Checked ρ Unit) : Checked ρ Unit :=
  if c then check else .ok ()

/-- The difference of two unsigned numbers. -/
def sub (a b : Nat) : Checked ρ Nat := if b ≤ a then .ok (a - b) else .error .underflow

/-- `x` stays defined, and its answer satisfies `P`. -/
def Meets (P : α → Prop) : Checked ρ α → Prop
  | .ok a => P a
  | .error stop => stop.IsRefusal

variable {P Q : α → Prop} {x : Checked ρ α}

theorem Meets.of_ok {a : α} (h : Meets P x) (ha : x = .ok a) : P a := by
  subst ha
  exact h

theorem Meets.isRefusal {stop : Stop ρ} (h : Meets P x) (hs : x = .error stop) :
    stop.IsRefusal := by
  subst hs
  exact h

theorem Meets.mono (h : Meets P x) (hPQ : ∀ a, P a → Q a) : Meets Q x := by
  cases x with
  | ok a => exact hPQ a h
  | error stop => exact h

@[simp] theorem meets_pure {a : α} : Meets P (pure a : Checked ρ α) ↔ P a := Iff.rfl

theorem meets_bind {x : Checked ρ β} {k : β → Checked ρ α} {R : β → Prop} (hx : Meets R x)
    (hk : ∀ b, x = .ok b → R b → Meets P (k b)) : Meets P (x >>= k) := by
  cases x with
  | ok b => exact hk b rfl hx
  | error stop => exact hx

theorem meets_refuseIf {c : Prop} [Decidable c] {reason : ρ} {k : Unit → Checked ρ α}
    (h : ¬ c → Meets P (k ())) : Meets P (refuseIf c reason >>= k) := by
  by_cases hc : c
  · rw [refuseIf, if_pos hc]
    exact trivial
  · rw [refuseIf, if_neg hc]
    exact h hc

/-- A refusal at the end of a computation. -/
theorem refuseIf_meets (c : Prop) [Decidable c] (reason : ρ) :
    Meets (fun _ => ¬ c) (refuseIf c reason) := by
  by_cases hc : c
  · rw [refuseIf, if_pos hc]
    exact trivial
  · rw [refuseIf, if_neg hc]
    exact hc

theorem meets_checkWhen {c : Prop} [Decidable c] {check : Checked ρ Unit} {k : Unit → Checked ρ α}
    (hcheck : c → Meets (fun _ => True) check) (h : Meets P (k ())) :
    Meets P (checkWhen c check >>= k) := by
  refine meets_bind (R := fun _ => True) ?_ fun _ _ _ => h
  by_cases hc : c
  · rw [checkWhen, if_pos hc]
    exact hcheck hc
  · rw [checkWhen, if_neg hc]
    exact trivial

theorem meets_sub {a b : Nat} {k : Nat → Checked ρ α} (hb : b ≤ a) (h : Meets P (k (a - b))) :
    Meets P (sub a b >>= k) := by
  rw [sub, if_pos hb]
  exact h

/-- The loop rule: an invariant of the items done so far. -/
theorem foldlM_meets {σ : Type} {step : σ → α → Checked ρ σ} (xs : List α) (s : σ)
    (I : List α → σ → Prop) (h0 : I [] s)
    (hstep : ∀ done a rest s, xs = done ++ a :: rest → I done s →
      Meets (I (done ++ [a])) (step s a)) :
    Meets (I xs) (xs.foldlM step s) := by
  suffices h : ∀ rest done s, xs = done ++ rest → I done s → Meets (I xs) (rest.foldlM step s)
    from h xs [] s rfl h0
  intro rest
  induction rest with
  | nil =>
    intro done s hx hI
    rw [List.append_nil] at hx
    exact hx ▸ hI
  | cons a rest ih =>
    intro done s hx hI
    rw [List.foldlM_cons]
    refine meets_bind (hstep done a rest s hx hI) fun s' _ hI' => ?_
    exact ih (done ++ [a]) s' (by rw [hx, List.append_assoc]; rfl) hI'

@[simp] theorem ok_bind {b : β} {k : β → Checked ρ α} :
    ((Except.ok b : Checked ρ β) >>= k) = k b := rfl

theorem refuseIf_of_not {c : Prop} [Decidable c] {reason : ρ} (h : ¬ c) :
    refuseIf c reason = .ok () := if_neg h

theorem sub_eq {a b : Nat} (h : b ≤ a) : (sub a b : Checked ρ Nat) = .ok (a - b) := if_pos h

end

end X360Port.Library
