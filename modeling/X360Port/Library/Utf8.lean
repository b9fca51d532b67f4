import Mathlib.Data.List.Basic

/-!
# Texts in UTF-8

`utf8 text` is the bytes of a text and `IsUtf8` says that bytes are those of
some text. A text may be cut at an ASCII byte, since no other character has one
in its encoding (`isUtf8_cut`): bytes between two such bytes are a text exactly
when the whole is one and the rest is.
-/

namespace X360Port.Library

/-- The bytes of a text. -/
def utf8 (text : List Char) : List UInt8 := text.flatMap String.utf8EncodeChar

/-- The bytes of a text that stands in the source. -/
def ascii (text : String) : List UInt8 := utf8 text.toList

def IsUtf8 (bytes : List UInt8) : Prop := ∃ text, utf8 text = bytes

/-- The text that bytes encode, if they do. -/
def textOf (bytes : List UInt8) : List Char := (bytes.toByteArray.utf8Decode?.getD #[]).toList

section

variable {bytes a b : List UInt8}

@[simp] theorem utf8_nil : utf8 [] = [] := rfl

@[simp] theorem utf8_cons (c : Char) (text : List Char) :
    utf8 (c :: text) = String.utf8EncodeChar c ++ utf8 text := rfl

theorem utf8_append (text text' : List Char) : utf8 (text ++ text') = utf8 text ++ utf8 text' :=
  List.flatMap_append

theorem toByteArray_utf8 (text : List Char) : (utf8 text).toByteArray = text.utf8Encode := rfl

@[simp] theorem textOf_utf8 (text : List Char) : textOf (utf8 text) = text := by
  rw [textOf, toByteArray_utf8, List.utf8Decode?_utf8Encode]
  rfl

theorem isUtf8_iff : IsUtf8 bytes ↔ bytes.toByteArray.IsValidUTF8 := by
  constructor
  · rintro ⟨text, rfl⟩
    exact .intro text (toByteArray_utf8 text)
  · rintro ⟨text, htext⟩
    exact ⟨text, List.toByteArray_inj.1 ((toByteArray_utf8 text).trans htext.symm)⟩

instance : Decidable (IsUtf8 bytes) := decidable_of_iff _ isUtf8_iff.symm

theorem IsUtf8.utf8_textOf (h : IsUtf8 bytes) : utf8 (textOf bytes) = bytes := by
  obtain ⟨text, rfl⟩ := h
  rw [textOf_utf8]

theorem isUtf8_utf8 (text : List Char) : IsUtf8 (utf8 text) := ⟨text, rfl⟩

theorem IsUtf8.append (ha : IsUtf8 a) (hb : IsUtf8 b) : IsUtf8 (a ++ b) := by
  obtain ⟨text, rfl⟩ := ha
  obtain ⟨text', rfl⟩ := hb
  exact ⟨text ++ text', utf8_append text text'⟩

end

/-! ## ASCII -/

section

variable {c : Char} {x : UInt8} {a b : List UInt8}

/-- An ASCII character is one byte. -/
theorem utf8EncodeChar_of_lt (h : c.toNat < 0x80) :
    String.utf8EncodeChar c = [c.toNat.toUInt8] := by
  refine String.utf8EncodeChar_eq_singleton (Char.utf8Size_eq_one_iff.2 ?_)
  rw [UInt32.le_iff_toNat_le]
  exact Nat.le_of_lt_succ h

/-- The leading and the continuation bytes of the longer encodings. -/
theorem le_ofNat_of_le {n : Nat} (hlow : 0x80 ≤ n) (hhigh : n < 0x100) : 0x80 ≤ UInt8.ofNat n := by
  rw [UInt8.le_iff_toNat_le, UInt8.toNat_ofNat_of_lt' hhigh]
  exact hlow

/-- The other characters have no ASCII byte. -/
theorem le_of_mem_utf8EncodeChar (h : 0x80 ≤ c.toNat) (hx : x ∈ String.utf8EncodeChar c) :
    0x80 ≤ x := by
  have hone : ¬ c.val.toNat ≤ 0x7f := by
    have hval : c.toNat = c.val.toNat := rfl
    omega
  unfold String.utf8EncodeChar at hx
  rw [if_neg hone] at hx
  split at hx
  · simp only [List.mem_cons, List.not_mem_nil, or_false] at hx
    rcases hx with rfl | rfl
    · exact le_ofNat_of_le (by omega) (by omega)
    · exact le_ofNat_of_le (by omega) (by omega)
  · split at hx
    · simp only [List.mem_cons, List.not_mem_nil, or_false] at hx
      rcases hx with rfl | rfl | rfl
      · exact le_ofNat_of_le (by omega) (by omega)
      · exact le_ofNat_of_le (by omega) (by omega)
      · exact le_ofNat_of_le (by omega) (by omega)
    · simp only [List.mem_cons, List.not_mem_nil, or_false] at hx
      rcases hx with rfl | rfl | rfl | rfl
      · exact le_ofNat_of_le (by omega) (by omega)
      · exact le_ofNat_of_le (by omega) (by omega)
      · exact le_ofNat_of_le (by omega) (by omega)
      · exact le_ofNat_of_le (by omega) (by omega)

/-- A character with an ASCII byte is that byte. -/
theorem utf8EncodeChar_of_mem (hx : x < 0x80) (h : x ∈ String.utf8EncodeChar c) :
    String.utf8EncodeChar c = [x] := by
  rcases Nat.lt_or_ge c.toNat 0x80 with hc | hc
  · rw [utf8EncodeChar_of_lt hc] at h ⊢
    rw [List.mem_singleton.1 h]
  · have hle := le_of_mem_utf8EncodeChar hc h
    rw [UInt8.le_iff_toNat_le] at hle
    rw [UInt8.lt_iff_toNat_lt] at hx
    omega

/-- ASCII bytes as a text. -/
theorem utf8_map_ofUInt8 {l : List UInt8} (h : ∀ x ∈ l, x < 0x80) :
    utf8 (l.map Char.ofUInt8) = l := by
  induction l with
  | nil => rfl
  | cons x l ih =>
    have hc : (Char.ofUInt8 x).toNat = x.toNat := UInt8.toNat_toUInt32 x
    have hx : x < 0x80 := h x (by simp)
    rw [List.map_cons, utf8_cons, ih fun y hy => h y (by simp [hy]),
      utf8EncodeChar_of_lt (by rw [hc]; exact hx), hc]
    simp

/-- **Cutting a text.** A text is one on either side of an ASCII byte. -/
theorem isUtf8_cut (hx : x < 0x80) : IsUtf8 (a ++ x :: b) ↔ IsUtf8 a ∧ IsUtf8 b := by
  constructor
  · rintro ⟨text, htext⟩
    induction text generalizing a with
    | nil => simp at htext
    | cons c text ih =>
      rw [utf8_cons] at htext
      rcases List.append_eq_append_iff.1 htext with ⟨a', rfl, hrest⟩ | ⟨rest, hc, hrest⟩
      · -- the first character stands before the byte
        obtain ⟨ha', hb⟩ := ih hrest
        exact ⟨IsUtf8.append ⟨[c], List.append_nil _⟩ ha', hb⟩
      · cases rest with
        | nil =>
          obtain ⟨ha', hb⟩ := ih (a := []) hrest.symm
          rw [List.append_nil] at hc
          exact ⟨⟨[c], (List.append_nil _).trans hc⟩, hb⟩
        | cons y rest =>
          -- the first character holds the byte
          rw [List.cons_append, List.cons.injEq] at hrest
          obtain ⟨rfl, rfl⟩ := hrest
          have hone := utf8EncodeChar_of_mem hx (by rw [hc]; simp)
          rw [hone] at hc
          cases a with
          | nil =>
            obtain rfl : rest = [] := by simpa using hc.symm
            exact ⟨⟨[], rfl⟩, ⟨text, rfl⟩⟩
          | cons z a => simp at hc
  · rintro ⟨ha, hb⟩
    have hone : IsUtf8 [x] := ⟨_, utf8_map_ofUInt8 (l := [x]) (by simpa using hx)⟩
    exact ha.append (hone.append hb)

/-- The same at several ASCII bytes. -/
theorem isUtf8_cut_ascii {l : List UInt8} (hne : l ≠ []) (hl : ∀ x ∈ l, x < 0x80)
    (h : IsUtf8 (a ++ (l ++ b))) : IsUtf8 a ∧ IsUtf8 b := by
  induction l generalizing a with
  | nil => exact absurd rfl hne
  | cons x l ih =>
    obtain ⟨ha, hrest⟩ := (isUtf8_cut (hl x (by simp))).1 h
    cases l with
    | nil => exact ⟨ha, hrest⟩
    | cons y l => exact ⟨ha, (ih (a := []) (by simp) (fun z hz => hl z (by simp [hz])) hrest).2⟩

end

end X360Port.Library
