import Mathlib.Data.List.Basic

/-!
# A flag that one of many holds

Some objects share a flag, and each knows whether it holds it. `Leased` says
that the flag is up for exactly one holder, or down for none: what an exchange
that raises the flag keeps, if only the holder lowers it.
-/

namespace X360Port.Library

section

variable {α : Type} {holds : α → Bool} {objects : List α} {flag : Bool} {i j : Nat} {x : α}

/-- As many of the objects hold the flag as it is up. -/
def Leased (holds : α → Bool) (objects : List α) (flag : Bool) : Prop :=
  objects.countP holds = flag.toNat

namespace Leased

theorem nil : Leased holds [] false := rfl

/-- An object that comes without the flag. -/
theorem concat (h : Leased holds objects flag) (hx : holds x = false) :
    Leased holds (objects ++ [x]) flag := by
  unfold Leased at h ⊢
  rw [List.countP_append, h, List.countP_singleton, hx]
  rfl

/-- A change of one object that leaves the flag where it is. -/
theorem keep (h : Leased holds objects flag) (hi : i < objects.length)
    (hx : holds x = holds objects[i]) : Leased holds (objects.set i x) flag := by
  unfold Leased at h ⊢
  rw [List.countP_set hi, hx, h]
  by_cases hold : holds objects[i] = true
  · have hpos : 0 < objects.countP holds :=
      List.countP_pos_iff.2 ⟨_, List.getElem_mem hi, hold⟩
    rw [if_pos hold]
    omega
  · rw [if_neg hold]
    rfl

/-- The exchange: the flag was down. -/
theorem take (h : Leased holds objects false) (hi : i < objects.length) (hx : holds x = true) :
    Leased holds (objects.set i x) true := by
  unfold Leased at h ⊢
  have hnone := List.countP_eq_zero.1 h _ (List.getElem_mem hi)
  rw [List.countP_set hi, h, if_neg hnone, if_pos hx]
  rfl

/-- The holder lowers the flag. -/
theorem drop (h : Leased holds objects flag) (hi : i < objects.length)
    (hold : holds objects[i] = true) (hx : holds x = false) :
    Leased holds (objects.set i x) false := by
  unfold Leased at h ⊢
  have hle : flag.toNat ≤ 1 := Bool.toNat_le flag
  rw [List.countP_set hi, h, if_pos hold, hx]
  simp only [Bool.false_eq_true, if_false, Bool.toNat_false]
  omega

theorem flag_iff (h : Leased holds objects flag) :
    flag = true ↔ ∃ x ∈ objects, holds x = true := by
  unfold Leased at h
  rw [← List.countP_pos_iff, h]
  cases flag <;> simp

/-- **Mutual exclusion.** -/
theorem unique (h : Leased holds objects flag) (hi : i < objects.length)
    (hj : j < objects.length) (hold : holds objects[i] = true)
    (hold' : holds objects[j] = true) : i = j := by
  have hle : objects.countP holds ≤ 1 := h.symm ▸ Bool.toNat_le flag
  clear h
  induction objects generalizing i j with
  | nil => exact absurd hi (Nat.not_lt_zero i)
  | cons first objects ih =>
    rw [List.countP_cons] at hle
    have hfirst : ∀ k (hk : k < objects.length), holds objects[k] = true →
        holds first = true → False := by
      intro k hk hkth hhead
      have hpos := List.countP_pos_iff.2 ⟨_, List.getElem_mem hk, hkth⟩
      rw [if_pos hhead] at hle
      omega
    cases i with
    | zero =>
      cases j with
      | zero => rfl
      | succ j => exact (hfirst j (Nat.lt_of_succ_lt_succ hj) hold' hold).elim
    | succ i =>
      cases j with
      | zero => exact (hfirst i (Nat.lt_of_succ_lt_succ hi) hold hold').elim
      | succ j =>
        have hrest := ih (Nat.lt_of_succ_lt_succ hi) (Nat.lt_of_succ_lt_succ hj) hold hold'
          (Nat.le_trans (Nat.le_add_right _ _) hle)
        rw [hrest]

end Leased

end

end X360Port.Library
