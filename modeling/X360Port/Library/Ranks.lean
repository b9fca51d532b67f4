import Mathlib.Algebra.Ring.Nat
import Mathlib.Data.List.Sort
import Mathlib.Order.Monotone.Basic

/-!
# Ranks

`smallest xs rank` is the element of a rank, counted from one, in the sorted
list. The elements counted below it are fewer than the rank, and those up to
it are not, also when a monotone function puts the elements into classes.
`CountedBy` is a list of class counters; its sums up to a class count the
elements below it.
-/

namespace X360Port.Library

/-! ## Order statistics -/

section

variable {α : Type} [LinearOrder α]

def sorted (xs : List α) : List α := xs.insertionSort (· ≤ ·)

/-- The element of a rank, from one on. -/
def smallest (xs : List α) (rank : Nat) : Option α :=
  if rank = 0 then none else (sorted xs)[rank - 1]?

variable {xs : List α} {rank : Nat} {v : α}

@[simp] theorem length_sorted (xs : List α) : (sorted xs).length = xs.length :=
  List.length_insertionSort _ xs

theorem countP_sorted (p : α → Bool) (xs : List α) : (sorted xs).countP p = xs.countP p :=
  (List.perm_insertionSort _ xs).countP_eq p

theorem sorted_getElem_le {i j : Nat} (hij : i ≤ j) (hj : j < (sorted xs).length) :
    (sorted xs)[i] ≤ (sorted xs)[j] := by
  have hsorted : (sorted xs).Pairwise (· ≤ ·) := List.pairwise_insertionSort _ xs
  rcases Nat.lt_or_eq_of_le hij with hlt | rfl
  · exact List.pairwise_iff_getElem.1 hsorted i j (by omega) hj hlt
  · exact le_refl _

theorem smallest_eq_some_iff :
    smallest xs rank = some v ↔ 0 < rank ∧ ∃ h : rank - 1 < (sorted xs).length,
      (sorted xs)[rank - 1] = v := by
  unfold smallest
  split
  · next hzero => exact iff_of_false nofun fun h => by omega
  · next hpos => rw [List.getElem?_eq_some_iff, and_iff_right (by omega : 0 < rank)]

/-- Every rank up to the length has an element. -/
theorem exists_smallest (hpos : 0 < rank) (hle : rank ≤ xs.length) :
    ∃ v, smallest xs rank = some v := by
  have hlt : rank - 1 < (sorted xs).length := by
    rw [length_sorted]
    omega
  exact ⟨_, smallest_eq_some_iff.2 ⟨hpos, hlt, rfl⟩⟩

theorem le_of_mem_take_sorted {x : α} (h : smallest xs rank = some v)
    (hx : x ∈ (sorted xs).take rank) : x ≤ v := by
  obtain ⟨hpos, hlt, rfl⟩ := smallest_eq_some_iff.1 h
  obtain ⟨i, hi, rfl⟩ := List.mem_take_iff_getElem.1 hx
  exact sorted_getElem_le (by omega) hlt

/-- At least `rank` elements are not above it. -/
theorem rank_le_countP (h : smallest xs rank = some v) :
    rank ≤ xs.countP fun x => x ≤ v := by
  have hle : ∀ x ∈ (sorted xs).take rank, decide (x ≤ v) = true := fun x hx =>
    decide_eq_true (le_of_mem_take_sorted h hx)
  obtain ⟨hpos, hlt, -⟩ := smallest_eq_some_iff.1 h
  calc rank
    _ = ((sorted xs).take rank).length := by rw [List.length_take]; omega
    _ = ((sorted xs).take rank).countP fun x => x ≤ v := (List.countP_eq_length.2 hle).symm
    _ ≤ (sorted xs).countP fun x => x ≤ v := (List.take_sublist rank _).countP_le
    _ = xs.countP fun x => x ≤ v := countP_sorted _ xs

/-- Fewer than `rank` elements are below it. -/
theorem countP_lt_rank (h : smallest xs rank = some v) :
    (xs.countP fun x => x < v) < rank := by
  obtain ⟨hpos, hlt, heq⟩ := smallest_eq_some_iff.1 h
  have hnone : ((sorted xs).drop (rank - 1)).countP (fun x => x < v) = 0 := by
    rw [List.countP_eq_zero]
    intro x hx
    obtain ⟨i, hi, rfl⟩ := List.mem_drop_iff_getElem.1 hx
    have hle : v ≤ (sorted xs)[rank - 1 + i] :=
      heq ▸ sorted_getElem_le (Nat.le_add_right (rank - 1) i) (by omega)
    exact fun hbelow => absurd (of_decide_eq_true hbelow) (not_lt_of_ge hle)
  have htake : ((sorted xs).take (rank - 1)).countP (fun x => x < v) ≤ rank - 1 :=
    List.countP_le_length.trans (List.length_take_le _ _)
  rw [← countP_sorted, ← List.take_append_drop (rank - 1) (sorted xs), List.countP_append]
  omega

theorem smallest_mono {rank' : Nat} {v' : α} (hle : rank ≤ rank')
    (h : smallest xs rank = some v) (h' : smallest xs rank' = some v') : v ≤ v' := by
  obtain ⟨hpos, hlt, rfl⟩ := smallest_eq_some_iff.1 h
  obtain ⟨hpos', hlt', rfl⟩ := smallest_eq_some_iff.1 h'
  exact sorted_getElem_le (by omega) hlt'

end

/-! ## Counting by class -/

section

variable {α : Type} {g : α → Nat} {xs : List α}

/-- Counter `i` is the number of elements in class `i`. -/
def CountedBy (g : α → Nat) (xs : List α) (counters : List Nat) : Prop :=
  ∀ (i : Nat) (h : i < counters.length), counters[i] = xs.countP fun x => g x = i

theorem countP_lt_succ (g : α → Nat) (xs : List α) (n : Nat) :
    (xs.countP fun x => g x < n + 1) =
      (xs.countP fun x => g x < n) + xs.countP fun x => g x = n := by
  induction xs with
  | nil => rfl
  | cons x xs ih =>
    simp only [List.countP_cons, ih, decide_eq_true_eq]
    rcases Nat.lt_trichotomy (g x) n with hlt | heq | hgt
    · rw [if_pos (by omega), if_pos hlt, if_neg (by omega)]
      omega
    · rw [if_pos (by omega), if_neg (by omega), if_pos heq]
      omega
    · rw [if_neg (by omega), if_neg (by omega), if_neg (by omega)]
      omega

/-- The counters before a class sum to the elements before it. -/
theorem CountedBy.sum_take {counters : List Nat} (h : CountedBy g xs counters) (n : Nat)
    (hn : n ≤ counters.length) : (counters.take n).sum = xs.countP fun x => g x < n := by
  induction n with
  | zero =>
    symm
    rw [List.take_zero, List.sum_nil, List.countP_eq_zero]
    intro x _
    exact fun hlt => absurd (of_decide_eq_true hlt) (Nat.not_lt_zero _)
  | succ n ih =>
    rw [List.take_succ_eq_append_getElem (by omega), List.sum_append, List.sum_singleton,
      ih (by omega), h n (by omega), countP_lt_succ]

/-- All counters sum to the number of elements when each is in one of the classes. -/
theorem CountedBy.sum {counters : List Nat} (h : CountedBy g xs counters)
    (hg : ∀ x, g x < counters.length) : counters.sum = xs.length := by
  rw [← List.take_length (l := counters), h.sum_take _ (Nat.le_refl _), List.countP_eq_length]
  exact fun x _ => decide_eq_true (hg x)

/-- The class of the element of a rank is the first with that many elements up to it. -/
theorem CountedBy.class_of_smallest [LinearOrder α] {counters : List Nat}
    (h : CountedBy g xs counters) (hg : Monotone g) {rank : Nat} {v : α}
    (hv : smallest xs rank = some v) (hclass : g v < counters.length) :
    (counters.take (g v)).sum < rank ∧ rank ≤ (counters.take (g v + 1)).sum := by
  rw [h.sum_take _ (by omega), h.sum_take _ (by omega)]
  constructor
  · refine Nat.lt_of_le_of_lt (List.countP_mono_left fun x _ hx => ?_) (countP_lt_rank hv)
    exact decide_eq_true (hg.reflect_lt (of_decide_eq_true hx))
  · refine (rank_le_countP hv).trans (List.countP_mono_left fun x _ hx => ?_)
    exact decide_eq_true (Nat.lt_succ_of_le (hg (of_decide_eq_true hx)))

end

end X360Port.Library
