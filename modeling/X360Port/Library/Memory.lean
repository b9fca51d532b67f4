import Mathlib.Algebra.Ring.Nat
import Mathlib.Data.List.Pairwise

/-!
# Patching a byte memory

A memory is a total function from addresses to cells. A `Patch` is a run of
cells written at consecutive addresses; `Patch.write` writes it and `writeAll`
writes a list of patches in order, later ones over earlier ones.

* `writeAll_frame`: outside every patch the memory is unchanged.
* `held_writeAll_iff`: after the whole list every patch reads back what it
  wrote if and only if any two of them agree wherever they overlap. The order
  of the list does not matter for that.
-/

namespace X360Port.Library

/-- A memory of cells. -/
abbrev Memory (β : Type) := Nat → β

/-- The cells `cells` written from address `base`. -/
structure Patch (β : Type) where
  base : Nat
  cells : List β
  deriving DecidableEq, Repr

namespace Patch

variable {β : Type} {p q : Patch β} {m : Memory β} {x : Nat} {b c : β}

/-- The cell the patch writes at `x`, if it writes `x`. -/
def cellAt (p : Patch β) (x : Nat) : Option β :=
  if p.base ≤ x then p.cells[x - p.base]? else none

/-- `x` is one of the addresses the patch writes. -/
def Covers (p : Patch β) (x : Nat) : Prop := p.base ≤ x ∧ x < p.base + p.cells.length

instance (p : Patch β) (x : Nat) : Decidable (p.Covers x) := by
  unfold Covers; infer_instance

/-- Write the patch. -/
def write (p : Patch β) (m : Memory β) : Memory β := fun x => (p.cellAt x).getD (m x)

/-- The memory holds every cell of the patch. -/
def HeldBy (p : Patch β) (m : Memory β) : Prop := ∀ x b, p.cellAt x = some b → m x = b

/-- Two patches write the same cell wherever both write. -/
def Agrees (p q : Patch β) : Prop := ∀ x b c, p.cellAt x = some b → q.cellAt x = some c → b = c

theorem cellAt_eq_none (h : ¬ p.Covers x) : p.cellAt x = none := by
  unfold cellAt
  split
  · next hb => exact List.getElem?_eq_none (by unfold Covers at h; omega)
  · rfl

theorem covers_of_cellAt (h : p.cellAt x = some b) : p.Covers x := by
  by_contra hc
  rw [cellAt_eq_none hc] at h
  cases h

/-- The `i`-th cell is written at `base + i`. -/
theorem cellAt_base_add (p : Patch β) (i : Nat) : p.cellAt (p.base + i) = p.cells[i]? := by
  unfold cellAt
  rw [if_pos (Nat.le_add_right _ _), Nat.add_sub_cancel_left]

theorem write_of_cellAt (h : p.cellAt x = some b) : p.write m x = b := by
  unfold write; rw [h]; rfl

theorem write_of_not_covers (h : ¬ p.Covers x) : p.write m x = m x := by
  unfold write; rw [cellAt_eq_none h]; rfl

theorem heldBy_write (p : Patch β) (m : Memory β) : p.HeldBy (p.write m) :=
  fun _ _ h => write_of_cellAt h

/-- A held patch stays held under a patch it agrees with. -/
theorem HeldBy.write (h : p.HeldBy m) (ha : p.Agrees q) : p.HeldBy (q.write m) := by
  intro x b hb
  cases hq : q.cellAt x with
  | none =>
    unfold Patch.write
    rw [hq]
    exact h x b hb
  | some c =>
    rw [write_of_cellAt hq]
    exact (ha x b c hb hq).symm

theorem Agrees.symm (h : p.Agrees q) : q.Agrees p := fun x b c hb hc => (h x c b hc hb).symm

/-- One memory can hold two patches only if they agree. -/
theorem HeldBy.agrees (hp : p.HeldBy m) (hq : q.HeldBy m) : p.Agrees q :=
  fun x b c hb hc => (hp x b hb).symm.trans (hq x c hc)

/-- Two patches write no common address. -/
def Apart (p q : Patch β) : Prop :=
  p.base + p.cells.length ≤ q.base ∨ q.base + q.cells.length ≤ p.base

instance (p q : Patch β) : Decidable (p.Apart q) := by
  unfold Apart; infer_instance

theorem Apart.not_covers (h : p.Apart q) (hq : q.Covers x) : ¬ p.Covers x := by
  unfold Apart at h
  unfold Covers at hq ⊢
  omega

/-- Patches that write no common address agree. -/
theorem agrees_of_disjoint
    (h : p.base + p.cells.length ≤ q.base ∨ q.base + q.cells.length ≤ p.base) :
    p.Agrees q := by
  intro x b c hb hc
  have h1 := covers_of_cellAt hb
  have h2 := covers_of_cellAt hc
  unfold Covers at h1 h2
  omega

/-- A patch holds exactly when its cells stand at consecutive addresses. -/
theorem heldBy_iff_getElem? :
    p.HeldBy m ↔ ∀ i b, p.cells[i]? = some b → m (p.base + i) = b := by
  constructor
  · intro h i b hb
    exact h _ _ (by rw [cellAt_base_add, hb])
  · intro h x b hb
    have hc := covers_of_cellAt hb
    unfold Covers at hc
    obtain ⟨i, rfl⟩ := Nat.exists_eq_add_of_le hc.1
    rw [cellAt_base_add] at hb
    exact h i b hb

/-- Cells one after another are held piece by piece. -/
theorem heldBy_append_iff {base : Nat} {xs ys : List β} :
    (Patch.mk base (xs ++ ys)).HeldBy m ↔
      (Patch.mk base xs).HeldBy m ∧ (Patch.mk (base + xs.length) ys).HeldBy m := by
  rw [heldBy_iff_getElem?, heldBy_iff_getElem?, heldBy_iff_getElem?]
  constructor
  · intro h
    refine ⟨fun i b hb => ?_, fun i b hb => ?_⟩
    · exact h i b (List.getElem?_append_left (List.getElem?_eq_some_iff.1 hb).1 ▸ hb)
    · have hi : (xs ++ ys)[xs.length + i]? = some b := by
        rw [List.getElem?_append_right (Nat.le_add_right _ _), Nat.add_sub_cancel_left]
        exact hb
      have := h _ b hi
      rwa [← Nat.add_assoc] at this
  · rintro ⟨hx, hy⟩ i b hb
    by_cases hi : i < xs.length
    · rw [List.getElem?_append_left hi] at hb
      exact hx i b hb
    · obtain ⟨j, rfl⟩ := Nat.exists_eq_add_of_le (Nat.le_of_not_lt hi)
      rw [List.getElem?_append_right (Nat.le_add_right _ _), Nat.add_sub_cancel_left] at hb
      have := hy j b hb
      rwa [Nat.add_assoc] at this

end Patch

section Lists

variable {β : Type} {ps : List (Patch β)} {m : Memory β} {x : Nat}

/-- Write the patches in order. -/
def writeAll (ps : List (Patch β)) (m : Memory β) : Memory β := ps.foldl (fun m p => p.write m) m

@[simp] theorem writeAll_nil (m : Memory β) : writeAll [] m = m := rfl

@[simp] theorem writeAll_cons (p : Patch β) (ps : List (Patch β)) (m : Memory β) :
    writeAll (p :: ps) m = writeAll ps (p.write m) := rfl

theorem writeAll_append (ps qs : List (Patch β)) (m : Memory β) :
    writeAll (ps ++ qs) m = writeAll qs (writeAll ps m) := by
  unfold writeAll; rw [List.foldl_append]

/-- Outside every patch nothing changes. -/
theorem writeAll_frame (h : ∀ p ∈ ps, ¬ p.Covers x) : writeAll ps m x = m x := by
  induction ps generalizing m with
  | nil => rfl
  | cons p ps ih =>
    rw [writeAll_cons, ih fun q hq => h q (List.mem_cons_of_mem _ hq)]
    exact Patch.write_of_not_covers (h p List.mem_cons_self)

/-- A held patch stays held when every later patch agrees with it. -/
theorem heldBy_writeAll {p : Patch β} (h : p.HeldBy m) (ha : ∀ q ∈ ps, p.Agrees q) :
    p.HeldBy (writeAll ps m) := by
  induction ps generalizing m with
  | nil => exact h
  | cons q ps ih =>
    exact ih (h.write (ha q List.mem_cons_self)) fun r hr => ha r (List.mem_cons_of_mem _ hr)

/-- **Patches read back.** After writing the list, every patch holds if and only
if any two of them agree where they overlap. -/
theorem held_writeAll_iff (ps : List (Patch β)) (m : Memory β) :
    (∀ p ∈ ps, p.HeldBy (writeAll ps m)) ↔ ps.Pairwise Patch.Agrees := by
  constructor
  · intro h
    exact List.pairwise_of_forall_mem_list fun p hp q hq => (h p hp).agrees (h q hq)
  · intro h
    induction ps generalizing m with
    | nil => intro p hp; cases hp
    | cons p ps ih =>
      rw [List.pairwise_cons] at h
      intro q hq
      rw [writeAll_cons]
      rcases List.mem_cons.mp hq with rfl | hq
      · exact heldBy_writeAll (Patch.heldBy_write _ _) h.1
      · exact ih (p.write m) h.2 q hq

end Lists

end X360Port.Library
