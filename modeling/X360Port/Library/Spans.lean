import X360Port.Library.Checked
import X360Port.Library.Memory

/-!
# Spans

A span is a list of cells that is read and written by index. An access
outside it leaves the defined behaviour of a checked computation.

`contents` is the memory that a span holds, so what is written to a span is a
`Patch` of its contents (`contents_writeCells`).
-/

namespace X360Port.Library

section

variable {α β ρ : Type} {P : α → Prop}

/-- The cell at an index of a span. -/
def readAt (cells : List β) (index : Nat) : Checked ρ β :=
  match cells[index]? with
  | some cell => .ok cell
  | none => .error .outOfSpan

/-- The `count` cells at an index of a span. -/
def readCells (cells : List β) (index count : Nat) : Checked ρ (List β) :=
  if index + count ≤ cells.length then .ok ((cells.drop index).take count)
  else .error .outOfSpan

/-- The span with the cells at an index overwritten. -/
def writeCells (cells : List β) (index : Nat) (fresh : List β) : Checked ρ (List β) :=
  if index + fresh.length ≤ cells.length then
    .ok (cells.take index ++ fresh ++ cells.drop (index + fresh.length))
  else .error .outOfSpan

theorem readAt_eq {cells : List β} {index : Nat} (h : index < cells.length) :
    (readAt cells index : Checked ρ β) = .ok cells[index] := by
  rw [readAt, List.getElem?_eq_getElem h]

theorem readCells_eq {cells : List β} {index count : Nat} (h : index + count ≤ cells.length) :
    (readCells cells index count : Checked ρ (List β)) = .ok ((cells.drop index).take count) :=
  if_pos h

theorem meets_readAt {cells : List β} {index : Nat} {k : β → Checked ρ α}
    (hi : index < cells.length) (h : Meets P (k cells[index])) :
    Meets P (readAt cells index >>= k) := by
  rw [readAt_eq hi]
  exact h

theorem meets_readCells {cells : List β} {index count : Nat} {k : List β → Checked ρ α}
    (hi : index + count ≤ cells.length) (h : Meets P (k ((cells.drop index).take count))) :
    Meets P (readCells cells index count >>= k) := by
  rw [readCells_eq hi]
  exact h

/-- The cells of a span overwritten from an index. -/
def overwritten (cells : List β) (index : Nat) (fresh : List β) : List β :=
  cells.take index ++ fresh ++ cells.drop (index + fresh.length)

theorem writeCells_eq {cells fresh : List β} {index : Nat}
    (h : index + fresh.length ≤ cells.length) :
    (writeCells cells index fresh : Checked ρ (List β)) = .ok (overwritten cells index fresh) :=
  if_pos h

theorem length_overwritten {cells fresh : List β} {index : Nat}
    (h : index + fresh.length ≤ cells.length) :
    (overwritten cells index fresh).length = cells.length := by
  unfold overwritten
  rw [List.length_append, List.length_append, List.length_take, List.length_drop]
  omega

end

section

variable {β : Type} [Inhabited β] {cells : List β}

/-- The memory a span holds, with a default cell outside it. -/
def contents (cells : List β) : Memory β := fun x => cells.getD x default

theorem contents_of_lt {x : Nat} (h : x < cells.length) : contents cells x = cells[x] := by
  unfold contents
  rw [List.getD_eq_getElem?_getD, List.getElem?_eq_getElem h]
  rfl

theorem contents_eq_of_getElem? {x : Nat} {b : β} (h : cells[x]? = some b) :
    contents cells x = b := by
  unfold contents
  rw [List.getD_eq_getElem?_getD, h]
  rfl

/-- The cells are what the memory holds at their addresses. -/
theorem map_contents_range (cells : List β) :
    (List.range cells.length).map (contents cells) = cells := by
  refine List.ext_getElem (by rw [List.length_map, List.length_range]) fun x h h' => ?_
  rw [List.getElem_map, List.getElem_range, contents_of_lt h']

theorem contents_take {n x : Nat} (h : x < n) : contents (cells.take n) x = contents cells x := by
  unfold contents
  rw [List.getD_eq_getElem?_getD, List.getD_eq_getElem?_getD, List.getElem?_take_of_lt h]

theorem contents_drop (n x : Nat) : contents (cells.drop n) x = contents cells (n + x) := by
  unfold contents
  rw [List.getD_eq_getElem?_getD, List.getD_eq_getElem?_getD, List.getElem?_drop]

theorem contents_append_left {rest : List β} {x : Nat} (h : x < cells.length) :
    contents (cells ++ rest) x = contents cells x := by
  unfold contents
  rw [List.getD_eq_getElem?_getD, List.getD_eq_getElem?_getD, List.getElem?_append_left h]

theorem contents_append_right (rest : List β) (x : Nat) :
    contents (cells ++ rest) (cells.length + x) = contents rest x := by
  unfold contents
  rw [List.getD_eq_getElem?_getD, List.getD_eq_getElem?_getD,
    List.getElem?_append_right (Nat.le_add_right _ _), Nat.add_sub_cancel_left]

/-- Overwriting a span is a patch of its contents. -/
theorem contents_overwritten {fresh : List β} {index : Nat}
    (h : index + fresh.length ≤ cells.length) :
    contents (overwritten cells index fresh) = (Patch.mk index fresh).write (contents cells) := by
  funext x
  have htake : (cells.take index).length = index := by rw [List.length_take]; omega
  by_cases hc : (Patch.mk index fresh).Covers x
  · obtain ⟨i, rfl⟩ := Nat.exists_eq_add_of_le hc.1
    have hi : i < fresh.length := by have := hc.2; simp only at this; omega
    rw [Patch.write_of_cellAt (b := fresh[i])
      (by rw [Patch.cellAt_base_add, List.getElem?_eq_getElem hi])]
    unfold overwritten
    rw [List.append_assoc, show index + i = (cells.take index).length + i by rw [htake],
      contents_append_right, contents_append_left hi, contents_of_lt hi]
  · rw [Patch.write_of_not_covers hc]
    unfold overwritten
    have hc : x < index ∨ index + fresh.length ≤ x := by
      unfold Patch.Covers at hc
      simp only at hc
      omega
    rcases hc with hx | hx
    · rw [List.append_assoc, contents_append_left (by omega), contents_take hx]
    · obtain ⟨y, rfl⟩ := Nat.exists_eq_add_of_le hx
      have hlen : (cells.take index ++ fresh).length = index + fresh.length := by
        rw [List.length_append, htake]
      rw [← hlen, contents_append_right, contents_drop, hlen]

/-- Cells that stand in a span from an index are held there. -/
theorem heldBy_contents_iff {fresh : List β} {index : Nat}
    (h : index + fresh.length ≤ cells.length) :
    (Patch.mk index fresh).HeldBy (contents cells) ↔
      (cells.drop index).take fresh.length = fresh := by
  rw [Patch.heldBy_iff_getElem?]
  constructor
  · intro hh
    apply List.ext_getElem
    · rw [List.length_take, List.length_drop]
      omega
    · intro i h1 h2
      rw [List.getElem_take, List.getElem_drop, ← contents_of_lt]
      exact hh i _ (List.getElem?_eq_getElem h2)
  · intro hh i b hb
    apply contents_eq_of_getElem?
    have hi : i < fresh.length := (List.getElem?_eq_some_iff.1 hb).1
    have hb : ((cells.drop index).take fresh.length)[i]? = some b := hh.symm ▸ hb
    rw [List.getElem?_take_of_lt hi, List.getElem?_drop] at hb
    exact hb

end

end X360Port.Library
