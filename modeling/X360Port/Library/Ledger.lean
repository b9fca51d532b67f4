import Mathlib.Data.Finset.Dedup
import Mathlib.Data.Finset.Basic
import X360Port.Library.Machine

/-!
# Ledgers

A ledger is the record of what was handed out and what was taken back, in
order, by keys that may come again. `post` keeps the set of the keys that are
out: it does not accept a key that is handed out twice, nor one that is taken
back when it is not out. A ledger that is accepted to its end with no key out
is settled.
-/

namespace X360Port.Library

inductive LedgerEntry (α : Type) where
  | handed (a : α)
  | returned (a : α)
  deriving DecidableEq, Repr

section

variable {α : Type} [DecidableEq α] {out out' : Finset α} {ledger : List (LedgerEntry α)} {a : α}

def post (out : Finset α) : LedgerEntry α → Option (Finset α)
  | .handed a => if a ∈ out then none else some (insert a out)
  | .returned a => if a ∈ out then some (out.erase a) else none

/-- The keys that are out after the entries, if these can be. -/
def outstanding (ledger : List (LedgerEntry α)) : Option (Finset α) := play post ∅ ledger

/-- Each key that was handed out was taken back, before it was handed out again. -/
def Settled (ledger : List (LedgerEntry α)) : Prop := outstanding ledger = some ∅

instance (ledger : List (LedgerEntry α)) : Decidable (Settled ledger) :=
  inferInstanceAs (Decidable (_ = _))

theorem outstanding_concat (h : outstanding ledger = some out) (e : LedgerEntry α) :
    outstanding (ledger ++ [e]) = post out e := by
  unfold outstanding at h ⊢
  rw [play_append, h, Option.bind_some, play]
  cases post out e <;> rfl

theorem outstanding_handed (h : outstanding ledger = some out) (ha : a ∉ out) :
    outstanding (ledger ++ [.handed a]) = some (insert a out) := by
  rw [outstanding_concat h]
  exact if_neg ha

theorem outstanding_returned (h : outstanding ledger = some out) (ha : a ∈ out) :
    outstanding (ledger ++ [.returned a]) = some (out.erase a) := by
  rw [outstanding_concat h]
  exact if_pos ha

/-- One entry puts a key out, takes it back or is about another one. -/
theorem count_of_post {e : LedgerEntry α} (h : post out e = some out') (a : α) :
    (if a ∈ out then 1 else 0) + (if e = .handed a then 1 else 0) =
      (if a ∈ out' then 1 else 0) + (if e = .returned a then 1 else 0) := by
  cases e with
  | handed b =>
    obtain ⟨hb, ⟨⟩⟩ := Option.ite_none_left_eq_some.1 h
    by_cases heq : b = a
    · simp [← heq, hb]
    · simp [heq, Ne.symm heq]
  | returned b =>
    obtain ⟨hb, ⟨⟩⟩ := Option.ite_none_right_eq_some.1 h
    by_cases heq : b = a
    · simp [← heq, hb]
    · simp [heq, Ne.symm heq]

/-- A key is out as often as it was handed out and not taken back. -/
theorem count_of_play (h : play post out ledger = some out') (a : α) :
    (if a ∈ out then 1 else 0) + ledger.count (.handed a) =
      (if a ∈ out' then 1 else 0) + ledger.count (.returned a) := by
  induction ledger generalizing out with
  | nil =>
    cases h
    rfl
  | cons e ledger ih =>
    obtain ⟨next, hpost, hplay⟩ := play_cons_iff.1 h
    have hentry := count_of_post hpost a
    have hrest := ih hplay
    simp only [List.count_cons, beq_iff_eq]
    omega

/-- **Settled ledgers.** Each key is taken back as often as it is handed out. -/
theorem Settled.count_eq (h : Settled ledger) (a : α) :
    ledger.count (.handed a) = ledger.count (.returned a) := by
  have hcount := count_of_play h a
  simp only [Finset.notMem_empty, if_false] at hcount
  omega

end

end X360Port.Library
