import Mathlib.Data.List.Basic

/-!
# Counting changes

`changes last xs` counts the values of `xs` that differ from the one before
them, where `last` is the value before the first (`none`: there was none yet).
A publisher that numbers what it publishes by its changes has numbered two
values alike exactly when nothing changed from the one to the other.
-/

namespace X360Port.Library

variable {α : Type}

/-- The value that was published last. -/
def latest : Option α → List α → Option α
  | last, [] => last
  | _, x :: xs => latest (some x) xs

@[simp] theorem latest_nil (last : Option α) : latest last [] = last := rfl

theorem latest_append (last : Option α) (xs ys : List α) :
    latest last (xs ++ ys) = latest (latest last xs) ys := by
  induction xs generalizing last with
  | nil => rfl
  | cons x xs ih => exact ih (some x)

@[simp] theorem latest_concat (last : Option α) (xs : List α) (x : α) :
    latest last (xs ++ [x]) = some x := by
  rw [latest_append]
  rfl

variable [DecidableEq α]

def changes : Option α → List α → Nat
  | _, [] => 0
  | last, x :: xs => (if last = some x then 0 else 1) + changes (some x) xs

@[simp] theorem changes_nil (last : Option α) : changes last [] = 0 := rfl

theorem changes_cons (last : Option α) (x : α) (xs : List α) :
    changes last (x :: xs) = (if last = some x then 0 else 1) + changes (some x) xs := rfl

theorem changes_append (last : Option α) (xs ys : List α) :
    changes last (xs ++ ys) = changes last xs + changes (latest last xs) ys := by
  induction xs generalizing last with
  | nil => simp
  | cons x xs ih =>
    simp only [List.cons_append, changes_cons, ih, latest]
    omega

/-- **Nothing changed** exactly when every value is the one before. -/
theorem changes_eq_zero_iff (a : α) (xs : List α) :
    changes (some a) xs = 0 ↔ ∀ x ∈ xs, x = a := by
  induction xs with
  | nil => simp
  | cons x xs ih =>
    by_cases hx : x = a
    · subst hx
      simp [changes_cons, ih]
    · simp [changes_cons, hx, Ne.symm hx]

end X360Port.Library
