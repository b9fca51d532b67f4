/-!
# Readers of self-delimiting data

A reader takes a value off the front of a list of cells. `Reads r xs a` says
that it takes exactly `xs`, whatever follows, and answers `a`: the form in which
decoders compose (`reads_bind`). `readAll` reads values until no cell is left,
and gives back a list of values from their cells one after another
(`readAll_flatMap`).
-/

namespace X360Port.Library

section

variable {α β γ : Type}

/-- A reader of cells. -/
abbrev Reader (β α : Type) := StateT (List β) Option α

/-- The reader takes `cells` off the front and answers `a`. -/
def Reads (read : Reader β α) (cells : List β) (a : α) : Prop :=
  ∀ rest, read.run (cells ++ rest) = some (a, rest)

theorem reads_pure (a : α) : Reads (pure a : Reader β α) [] a := fun _ => rfl

/-- One value after another. -/
theorem reads_bind {read : Reader β α} {next : α → Reader β γ} {xs ys : List β} {a : α} {c : γ}
    (h : Reads read xs a) (hnext : Reads (next a) ys c) : Reads (read >>= next) (xs ++ ys) c := by
  intro rest
  rw [StateT.run_bind, List.append_assoc, h]
  exact hnext rest

/-- A value and the answer made from it. -/
theorem reads_map {read : Reader β α} {f : α → γ} {xs : List β} {a : α} (h : Reads read xs a) :
    Reads (do return f (← read)) xs (f a) := by
  have hbind : Reads (do return f (← read)) (xs ++ []) (f a) := reads_bind h (reads_pure (f a))
  rwa [List.append_nil] at hbind

/-- The next `count` cells. -/
def takeCells (count : Nat) : Reader β (List β) := fun cells =>
  if count ≤ cells.length then some (cells.take count, cells.drop count) else none

theorem reads_takeCells (cells : List β) : Reads (takeCells cells.length) cells cells := by
  intro rest
  show (if cells.length ≤ (cells ++ rest).length then _ else none) = _
  rw [if_pos (by rw [List.length_append]; omega), List.take_left, List.drop_left]

/-- Values until the cells are used up, at most as many as the bound says. -/
def readUpTo (read : Reader β α) : Nat → List β → Option (List α)
  | _, [] => some []
  | 0, _ :: _ => none
  | bound + 1, cell :: cells => do
    let (a, rest) ← read.run (cell :: cells)
    return a :: (← readUpTo read bound rest)

/-- Values until the cells are used up. -/
def readAll (read : Reader β α) (cells : List β) : Option (List α) :=
  readUpTo read cells.length cells

theorem readUpTo_flatMap {read : Reader β α} {encode : α → List β} {values : List α} {bound : Nat}
    (h : ∀ a ∈ values, Reads read (encode a) a) (hcells : ∀ a ∈ values, encode a ≠ [])
    (hbound : values.length ≤ bound) : readUpTo read bound (values.flatMap encode) = some values :=
    by
  induction values generalizing bound with
  | nil =>
    rw [List.flatMap_nil, readUpTo]
  | cons a values ih =>
    rw [List.forall_mem_cons] at h hcells
    rw [List.length_cons] at hbound
    obtain ⟨bound, rfl⟩ := Nat.exists_eq_add_of_le' (Nat.lt_of_lt_of_le (Nat.succ_pos _) hbound)
    obtain ⟨cell, cells, hcons⟩ := List.exists_cons_of_ne_nil hcells.1
    have hread := h.1 (values.flatMap encode)
    rw [hcons, List.cons_append] at hread
    rw [List.flatMap_cons, hcons, List.cons_append, readUpTo, hread]
    show (readUpTo read bound (values.flatMap encode) >>= fun rest => some (a :: rest)) = _
    rw [ih h.2 hcells.2 (by omega)]
    rfl

/-- **Reading back.** Cells of values one after another give the values. -/
theorem readAll_flatMap {read : Reader β α} {encode : α → List β} {values : List α}
    (h : ∀ a ∈ values, Reads read (encode a) a) (hcells : ∀ a ∈ values, encode a ≠ []) :
    readAll read (values.flatMap encode) = some values := by
  refine readUpTo_flatMap h hcells ?_
  clear h
  induction values with
  | nil => exact Nat.le_refl 0
  | cons a values ih =>
    rw [List.forall_mem_cons] at hcells
    have hpositive := List.length_pos_iff.2 hcells.1
    have hrest := ih hcells.2
    rw [List.flatMap_cons, List.length_append, List.length_cons]
    omega

end

end X360Port.Library
