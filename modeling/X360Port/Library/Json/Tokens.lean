import Mathlib.Data.List.TakeWhile
import X360Port.Library.Json

/-!
# Reading strings and numbers

`unescape` reads the text between quotation marks and `readNumber` the text of a
number, each as a whole. They answer exactly what the grammar gives
(`unescape_eq_some_iff`, `readNumber_eq_some_iff`).
-/

namespace X360Port.Library.Json

/-! ## Strings -/

def unescape : List Char → Option (List Char)
  | [] => some []
  | c :: t =>
    if c = '\\' then
      match t with
      | [] => none
      | e :: t =>
        if e = 'u' then
          match t with
          | a :: b :: c :: d :: t =>
            match hexOf a b c d with
            | none => none
            | some n =>
              if IsHighSurrogate n then
                match t with
                | s :: u :: a' :: b' :: c' :: d' :: t =>
                  match hexOf a' b' c' d' with
                  | none => none
                  | some low =>
                    if s = '\\' ∧ u = 'u' ∧ IsLowSurrogate low then
                      (unescape t).map (pairOf n low :: ·)
                    else none
                | _ => none
              else if IsLowSurrogate n then none
              else (unescape t).map (Char.ofNat n :: ·)
          | _ => none
        else
          match escapeOf e with
          | none => none
          | some c => (unescape t).map (c :: ·)
    else if Unescaped c then (unescape t).map (c :: ·)
    else none

theorem chars_of_unescape {t s : List Char} (h : unescape t = some s) : Chars t s := by
  fun_induction unescape t generalizing s with
  | case1 =>
    cases h
    exact .nil
  | case5 a b c d high hhex hhigh _ _ a' b' c' d' t low hhex' hpair ih =>
    obtain ⟨rfl, rfl, hlow⟩ := hpair
    obtain ⟨s, hs, rfl⟩ := Option.map_eq_some_iff.1 h
    exact .pair hhex hhex' hhigh hlow (ih hs)
  | case9 a b c d t n hhex hhigh hlow ih =>
    obtain ⟨s, hs, rfl⟩ := Option.map_eq_some_iff.1 h
    exact .unicode hhex hhigh hlow (ih hs)
  | case12 e t _ c hescape ih =>
    obtain ⟨s, hs, rfl⟩ := Option.map_eq_some_iff.1 h
    exact .escaped hescape (ih hs)
  | case13 c t _ hplain ih =>
    obtain ⟨s, hs, rfl⟩ := Option.map_eq_some_iff.1 h
    exact .unescaped hplain (ih hs)
  | case2 | case3 | case4 | case6 | case7 | case8 | case10 | case11 | case14 => cases h

theorem unescape_of_chars {t s : List Char} (h : Chars t s) : unescape t = some s := by
  induction h with
  | nil => rfl
  | unescaped hplain _ ih =>
    rw [unescape.eq_def]
    simp only [if_neg hplain.2.2, if_pos hplain, ih, Option.map_some]
  | @escaped e c t s hescape _ ih =>
    have hne : e ≠ 'u' := by
      rintro rfl
      cases hescape
    rw [unescape.eq_def]
    simp only [if_true, if_neg hne, hescape, ih, Option.map_some]
  | unicode hhex hhigh hlow _ ih =>
    rw [unescape.eq_def]
    simp only [if_true, hhex, if_neg hhigh, if_neg hlow, ih, Option.map_some]
  | pair hhex hhex' hhigh hlow _ ih =>
    rw [unescape.eq_def]
    simp only [if_true, hhex, hhex', if_pos hhigh, hlow, and_self, ih, Option.map_some]

theorem unescape_eq_some_iff {t s : List Char} : unescape t = some s ↔ Chars t s :=
  ⟨chars_of_unescape, unescape_of_chars⟩

/-! ## Numbers -/

/-- A sign taken off, and whether it is a minus. -/
def splitSign : List Char → Bool × List Char
  | '+' :: t => (false, t)
  | '-' :: t => (true, t)
  | t => (false, t)

def readExp : List Char → Option Int
  | [] => some 0
  | e :: t =>
    let (negative, ds) := splitSign t
    if (e = 'e' ∨ e = 'E') ∧ Digits ds ∧ ds ≠ [] then
      some (signed negative (Nat.ofDigitChars 10 ds 0))
    else none

/-- The digits of a fraction, and what follows it. -/
def readFrac : List Char → Option (List Char × List Char)
  | '.' :: t =>
    if t.takeWhile (IsDigit ·) = [] then none
    else some (t.takeWhile (IsDigit ·), t.dropWhile (IsDigit ·))
  | t => some ([], t)

def readUnsigned (negative : Bool) (t : List Char) : Option (Int × Int) :=
  let int := t.takeWhile (IsDigit ·)
  if IntPart int then do
    let (fracDigits, t) ← readFrac (t.dropWhile (IsDigit ·))
    let x ← readExp t
    return (signed negative (Nat.ofDigitChars 10 (int ++ fracDigits) 0), x - fracDigits.length)
  else none

def readNumber : List Char → Option (Int × Int)
  | '-' :: t => readUnsigned true t
  | t => readUnsigned false t

section

variable {t ds rest : List Char} {m x : Int}

theorem exists_sign (t : List Char) :
    ∃ sign, Sign sign (splitSign t).1 ∧ t = sign ++ (splitSign t).2 := by
  unfold splitSign
  split
  · exact ⟨['+'], .plus, rfl⟩
  · exact ⟨['-'], .minus, rfl⟩
  · exact ⟨[], .none, rfl⟩

theorem splitSign_append {sign : List Char} {negative : Bool} (h : Sign sign negative)
    (hdigits : Digits ds) : splitSign (sign ++ ds) = (negative, ds) := by
  cases h with
  | plus => rfl
  | minus => rfl
  | none =>
    rw [List.nil_append]
    unfold splitSign
    split
    · exact absurd (hdigits '+' (by simp)) (by decide)
    · exact absurd (hdigits '-' (by simp)) (by decide)
    · rfl

theorem readExp_eq_some_iff : readExp t = some x ↔ ExpPart t x := by
  constructor
  · intro h
    cases t with
    | nil =>
      cases h
      exact .none
    | cons e t =>
      obtain ⟨sign, hsign, ht⟩ := exists_sign t
      simp only [readExp, Option.ite_none_right_eq_some, Option.some.injEq] at h
      obtain ⟨⟨he, hdigits, hne⟩, rfl⟩ := h
      have hexp := ExpPart.some he hsign hdigits hne
      rwa [← ht] at hexp
  · intro h
    cases h with
    | none => rfl
    | some he hsign hdigits hne =>
      simp only [readExp, splitSign_append hsign hdigits, he, hdigits, hne, ne_eq,
        not_false_eq_true, and_self, if_true]

/-- The text does not go on with a digit. -/
def NoDigit (t : List Char) : Prop := ∀ c ∈ t.head?, ¬ IsDigit c

theorem takeWhile_digits (hdigits : Digits ds) (hrest : NoDigit rest) :
    (ds ++ rest).takeWhile (IsDigit ·) = ds := by
  rw [List.takeWhile_append_of_pos (by simpa [Digits] using hdigits)]
  cases rest with
  | nil => simp
  | cons c rest =>
    have hc : ¬ IsDigit c := hrest c rfl
    rw [List.takeWhile_cons_of_neg (by simpa using hc), List.append_nil]

theorem dropWhile_digits (hdigits : Digits ds) (hrest : NoDigit rest) :
    (ds ++ rest).dropWhile (IsDigit ·) = rest := by
  have hsplit := List.takeWhile_append_dropWhile (p := (IsDigit ·)) (l := ds ++ rest)
  rw [takeWhile_digits hdigits hrest] at hsplit
  exact List.append_cancel_left hsplit

theorem digits_takeWhile (t : List Char) : Digits (t.takeWhile (IsDigit ·)) := by
  intro c hc
  simpa using List.mem_takeWhile_imp hc

theorem ExpPart.noDigit (h : ExpPart t x) : NoDigit t := by
  cases h with
  | none => exact fun c hc => nomatch hc
  | some he =>
    intro c hc
    obtain rfl : _ = c := by simpa using hc
    rcases he with rfl | rfl
    · decide
    · decide

theorem FracPart.noDigit {frac : List Char} (h : FracPart frac ds) (hrest : NoDigit rest) :
    NoDigit (frac ++ rest) := by
  cases h with
  | none => exact hrest
  | some =>
    intro c hc
    obtain rfl : '.' = c := by simpa using hc
    decide

theorem exists_frac (h : readFrac t = some (ds, rest)) :
    ∃ frac, FracPart frac ds ∧ t = frac ++ rest := by
  unfold readFrac at h
  split at h
  · next t =>
    rw [Option.ite_none_left_eq_some, Option.some.injEq, Prod.mk.injEq] at h
    obtain ⟨hne, rfl, rfl⟩ := h
    exact ⟨_, .some (digits_takeWhile t) hne, by
      rw [List.cons_append, List.takeWhile_append_dropWhile]⟩
  · cases h
    exact ⟨[], .none, rfl⟩

theorem readFrac_append {frac : List Char} (h : FracPart frac ds) (hexp : ExpPart rest x) :
    readFrac (frac ++ rest) = some (ds, rest) := by
  cases h with
  | none =>
    cases hexp with
    | none => rfl
    | some he =>
      rcases he with rfl | rfl
      · rfl
      · rfl
  | some hdigits hne =>
    rw [List.cons_append, readFrac, takeWhile_digits hdigits hexp.noDigit,
      dropWhile_digits hdigits hexp.noDigit, if_neg hne]

/-- A number behind its minus. -/
theorem readUnsigned_eq_some_iff {negative : Bool} : readUnsigned negative t = some (m, x) ↔
    ∃ int frac fracDigits exp e, IntPart int ∧ FracPart frac fracDigits ∧ ExpPart exp e ∧
      t = int ++ (frac ++ exp) ∧ m = signed negative (Nat.ofDigitChars 10 (int ++ fracDigits) 0) ∧
      x = e - fracDigits.length := by
  constructor
  · intro h
    simp only [readUnsigned, Option.ite_none_right_eq_some, Option.bind_eq_bind,
      Option.bind_eq_some_iff, Option.pure_def, Option.some.injEq, Prod.mk.injEq] at h
    obtain ⟨hint, ⟨fracDigits, exp⟩, hfrac, e, hexp, rfl, rfl⟩ := h
    obtain ⟨frac, hfrac, ht⟩ := exists_frac hfrac
    refine ⟨_, frac, fracDigits, exp, e, hint, hfrac, readExp_eq_some_iff.1 hexp, ?_, rfl, rfl⟩
    rw [← ht, List.takeWhile_append_dropWhile]
  · rintro ⟨int, frac, fracDigits, exp, e, hint, hfrac, hexp, rfl, rfl, rfl⟩
    have hrest := hfrac.noDigit hexp.noDigit
    simp only [readUnsigned, takeWhile_digits hint.1 hrest, dropWhile_digits hint.1 hrest,
      if_pos hint, readFrac_append hfrac hexp, Option.bind_eq_bind, Option.bind_some,
      readExp_eq_some_iff.2 hexp, Option.pure_def]

theorem readNumber_eq_some_iff : readNumber t = some (m, x) ↔ Number t m x := by
  constructor
  · intro h
    unfold readNumber at h
    split at h
    · obtain ⟨int, frac, fracDigits, exp, e, hint, hfrac, hexp, rfl, rfl, rfl⟩ :=
        readUnsigned_eq_some_iff.1 h
      exact @Number.mk true _ _ _ _ _ hint hfrac hexp
    · obtain ⟨int, frac, fracDigits, exp, e, hint, hfrac, hexp, rfl, rfl, rfl⟩ :=
        readUnsigned_eq_some_iff.1 h
      exact @Number.mk false _ _ _ _ _ hint hfrac hexp
  · intro h
    cases h with
    | @mk negative int frac fracDigits exp e hint hfrac hexp =>
      have hread : readUnsigned negative (int ++ (frac ++ exp)) = some (_, _) :=
        readUnsigned_eq_some_iff.2 ⟨int, frac, fracDigits, exp, e, hint, hfrac, hexp, rfl, rfl, rfl⟩
      cases negative with
      | true => exact hread
      | false =>
        rw [if_neg Bool.false_ne_true, List.nil_append]
        unfold readNumber
        split
        · -- the digits do not begin with a minus
          next t ht =>
          obtain ⟨hdigits, hne, -⟩ := hint
          cases int with
          | nil => exact absurd rfl hne
          | cons c int =>
            rw [List.cons_append, List.cons.injEq] at ht
            exact absurd (ht.1 ▸ hdigits c (by simp)) (by decide)
        · exact hread

end

end X360Port.Library.Json
