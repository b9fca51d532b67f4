import Mathlib.Data.List.DropRight
import X360Port.ModuleContract
import X360Port.XexInspect

/-!
# Import-library names

The string table of an import descriptor: one NUL-terminated name for each
library, each padded to a multiple of four bytes. `parseImportLibraryNames`
reads the names and keeps the part after the last slash.
-/

namespace X360Port

open Library

structure ImportLibraryTable where
  stringOffset : Nat := 0
  stringSize : UInt32 := 0
  libraryCount : UInt32 := 0
  deriving DecidableEq, Repr

/-- The bytes from an offset to the first NUL before the limit, none without one. -/
def readCString (bytes : List UInt8) (offset limit : Nat) : Checked String StringView := do
  if offset ≥ limit then
    return []
  let cells ← readCells bytes offset (limit - offset)
  let text := cells.takeWhile (· ≠ 0)
  if text.length = cells.length then
    return []
  return text

/-- A slash of either kind. -/
def isSlash (character : UInt8) : Bool := character == 0x2f || character == 0x5c

/-- The name after its last slash. -/
def baseLibraryName (name : StringView) : StringView := name.rtakeWhile fun c => !isSlash c

/-- A length rounded up to a multiple of four. -/
def alignToWord (length : Nat) : Nat := (length + 3) / 4 * 4

/-- The names from a cursor on, for the given number of libraries. -/
def parseNamesFrom (header : List UInt8) (stringLimit : Nat) :
    Nat → Nat → Checked String (List StringView)
  | 0, _ => return []
  | rounds + 1, cursor => do
    let name ← readCString header cursor stringLimit
    refuseIf (name = []) "XEX import-library string table has a missing or unterminated name"
    let consumed := name.length + 1
    refuseIf (consumed > kSizeMax - 3) "XEX import-library string table cursor overflowed"
    let aligned := alignToWord consumed
    refuseIf (cursor > stringLimit) "XEX import-library string table exceeds its declared size"
    refuseIf (aligned > (← sub stringLimit cursor))
      "XEX import-library string table exceeds its declared size"
    let names ← parseNamesFrom header stringLimit rounds (cursor + aligned)
    return baseLibraryName name :: names

def parseImportLibraryNames (header : List UInt8) (table : ImportLibraryTable) :
    Checked String (List StringView) :=
  parseNamesFrom header (table.stringOffset + table.stringSize.toNat) table.libraryCount.toNat
    table.stringOffset

/-! ## Base names -/

theorem baseLibraryName_of_no_slash {name : StringView} (h : ∀ c ∈ name, isSlash c = false) :
    baseLibraryName name = name := by
  unfold baseLibraryName
  rw [List.rtakeWhile_eq_self_iff]
  intro c hc
  rw [h c hc]
  rfl

theorem baseLibraryName_append (path : StringView) {slash : UInt8} {base : StringView}
    (hslash : isSlash slash = true) (h : ∀ c ∈ base, isSlash c = false) :
    baseLibraryName (path ++ slash :: base) = base := by
  unfold baseLibraryName List.rtakeWhile
  rw [List.reverse_append, List.reverse_cons, List.append_assoc, List.takeWhile_append_of_pos]
  · rw [List.singleton_append, List.takeWhile_cons_of_neg (by simp [hslash]), List.append_nil,
      List.reverse_reverse]
  · intro c hc
    rw [h c (List.mem_reverse.1 hc)]
    rfl

/-! ## Reading the names -/

/-- Cells up to the first NUL. -/
theorem takeWhile_append_nul {text rest : List UInt8} (h : ∀ c ∈ text, c ≠ 0) :
    (text ++ 0 :: rest).takeWhile (fun c => decide (c ≠ 0)) = text := by
  rw [List.takeWhile_append_of_pos fun c hc => decide_eq_true (h c hc),
    List.takeWhile_cons_of_neg (by decide), List.append_nil]

/-- A string read before the limit stands there with the NUL that ends it. -/
theorem readCString_eq_iff {bytes : List UInt8} {offset limit : Nat} {name : StringView}
    (hlimit : limit ≤ bytes.length) (hname : name ≠ []) :
    readCString bytes offset limit = .ok name ↔ (∀ c ∈ name, c ≠ 0) ∧
      offset + name.length < limit ∧ (Patch.mk offset (name ++ [0])).HeldBy (contents bytes) := by
  unfold readCString
  by_cases hoffset : limit ≤ offset
  · rw [if_pos hoffset]
    refine iff_of_false (fun h => hname (Except.ok.inj h).symm) fun h => ?_
    omega
  rw [if_neg hoffset, readCells_eq (by omega)]
  have hlen : ((bytes.drop offset).take (limit - offset)).length = limit - offset := by
    rw [List.length_take, List.length_drop]
    omega
  generalize hcells : (bytes.drop offset).take (limit - offset) = cells at hlen
  have htake : ∀ n, n ≤ limit - offset → (bytes.drop offset).take n = cells.take n := by
    intro n hn
    rw [← hcells, List.take_take, min_eq_left hn]
  show (if (cells.takeWhile fun c => decide (c ≠ 0)).length = cells.length then Except.ok []
    else Except.ok (cells.takeWhile fun c => decide (c ≠ 0))) = _ ↔ _
  constructor
  · intro h
    split at h
    · exact (hname (Except.ok.inj h).symm).elim
    next hnul =>
    have h := Except.ok.inj h
    have hsplit := List.takeWhile_append_dropWhile (p := fun c => decide (c ≠ 0)) (l := cells)
    have hhead := List.head?_dropWhile_not (fun c : UInt8 => decide (c ≠ 0)) cells
    have hall := List.all_takeWhile (p := fun c : UInt8 => decide (c ≠ 0)) (l := cells)
    rw [h] at hsplit hall hnul
    rcases hrest : cells.dropWhile fun c => decide (c ≠ 0) with _ | ⟨c, rest⟩
    · rw [hrest, List.append_nil] at hsplit
      exact (hnul (congrArg List.length hsplit)).elim
    rw [hrest] at hsplit hhead
    have hc : c = 0 := by simpa using hhead
    subst hc
    have hcount : name.length + (rest.length + 1) = cells.length := by
      rw [← hsplit, List.length_append, List.length_cons]
    refine ⟨fun c hc => by simpa using List.all_eq_true.1 hall c hc, by omega, ?_⟩
    rw [heldBy_contents_iff (by rw [List.length_append, List.length_singleton]; omega),
      htake _ (by rw [List.length_append, List.length_singleton]; omega), ← hsplit,
      show name ++ 0 :: rest = (name ++ [0]) ++ rest by
        rw [List.append_assoc, List.singleton_append],
      List.take_left]
  · rintro ⟨hnul, hend, hheld⟩
    rw [heldBy_contents_iff (by rw [List.length_append, List.length_singleton]; omega),
      htake _ (by rw [List.length_append, List.length_singleton]; omega)] at hheld
    have hsplit : cells = name ++ 0 :: cells.drop (name ++ [0]).length :=
      calc cells = cells.take (name ++ [0]).length ++ cells.drop (name ++ [0]).length :=
            (List.take_append_drop _ _).symm
        _ = name ++ 0 :: cells.drop (name ++ [0]).length := by
            rw [hheld, List.append_assoc, List.singleton_append]
    have htext : cells.takeWhile (fun c => decide (c ≠ 0)) = name := by
      rw [hsplit, takeWhile_append_nul hnul]
    rw [htext, if_neg (by omega)]

/-- The names of a string table: each with its NUL and padding before the limit. -/
def NamesAt (header : List UInt8) (stringLimit : Nat) : Nat → List StringView → Prop
  | _, [] => True
  | cursor, name :: names =>
    name ≠ [] ∧ (∀ c ∈ name, c ≠ 0) ∧ (Patch.mk cursor (name ++ [0])).HeldBy (contents header) ∧
      cursor + alignToWord (name.length + 1) ≤ stringLimit ∧
      NamesAt header stringLimit (cursor + alignToWord (name.length + 1)) names

theorem le_alignToWord (length : Nat) : length ≤ alignToWord length := by
  unfold alignToWord
  omega

theorem readCString_meets {bytes : List UInt8} {offset limit : Nat}
    (hlimit : limit ≤ bytes.length) : Meets (fun _ => True) (readCString bytes offset limit) := by
  unfold readCString
  split
  · exact trivial
  refine meets_readCells (by omega) ?_
  show Meets _ (ite _ _ _)
  split
  · exact trivial
  · exact trivial

/-- The names read are the base names of the strings that stand in the table. -/
theorem parseNamesFrom_meets {header : List UInt8} {stringLimit : Nat}
    (hlimit : stringLimit ≤ header.length) (rounds cursor : Nat) :
    Meets (fun names => ∃ strings, strings.length = rounds ∧
        NamesAt header stringLimit cursor strings ∧ names = strings.map baseLibraryName)
      (parseNamesFrom header stringLimit rounds cursor) := by
  induction rounds generalizing cursor with
  | zero => exact ⟨[], rfl, trivial, rfl⟩
  | succ rounds ih =>
    unfold parseNamesFrom
    refine meets_bind (readCString_meets hlimit) fun name hread _ => ?_
    refine meets_refuseIf fun hname => meets_refuseIf fun _ => meets_refuseIf fun hcursor => ?_
    refine meets_sub (by omega) (meets_refuseIf fun haligned => ?_)
    obtain ⟨hnul, -, hheld⟩ := (readCString_eq_iff hlimit hname).1 hread
    refine meets_bind (ih _) fun names _ ⟨strings, hlen, hat, hmap⟩ => ?_
    exact ⟨name :: strings, by rw [List.length_cons, hlen],
      ⟨hname, hnul, hheld, by omega, hat⟩, by rw [hmap, List.map_cons]⟩

/-- A table that holds names is read back. -/
theorem parseNamesFrom_eq {header : List UInt8} {stringLimit : Nat}
    (hlimit : stringLimit ≤ header.length) (hsmall : stringLimit < kSizeMax - 3)
    {strings : List StringView} {cursor : Nat} (h : NamesAt header stringLimit cursor strings) :
    parseNamesFrom header stringLimit strings.length cursor =
      .ok (strings.map baseLibraryName) := by
  induction strings generalizing cursor with
  | nil => rfl
  | cons name strings ih =>
    obtain ⟨hname, hnul, hheld, hend, hrest⟩ := h
    have halign := le_alignToWord (name.length + 1)
    rw [List.length_cons, parseNamesFrom,
      (readCString_eq_iff hlimit hname).2 ⟨hnul, by omega, hheld⟩]
    simp only [ok_bind, refuseIf_of_not hname, sub_eq (show cursor ≤ stringLimit by omega),
      refuseIf_of_not (show ¬ name.length + 1 > kSizeMax - 3 by omega),
      refuseIf_of_not (show ¬ cursor > stringLimit by omega),
      refuseIf_of_not (show ¬ alignToWord (name.length + 1) > stringLimit - cursor by omega),
      ih hrest]
    rfl

end X360Port
