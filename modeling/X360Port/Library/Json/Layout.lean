import X360Port.Library.Json.Parser

/-!
# Writing JSON piece by piece

A writer puts a document together from literals and the texts of values. What its
pieces have to be is said here: `Leads` is a literal that leads to a member, from
the structural character before it to the colon, and `Closes` the rest of an object
behind a value. `Writes.object` and `Writes.array` put an object and an array
together; `rows` is a list of texts with separators between them.
-/

namespace X360Port.Library

/-- What follows the first of several texts. -/
def rowsTail (separator ending : List UInt8) : List (List UInt8) → List UInt8
  | [] => ending
  | t :: ts => separator ++ (t ++ rowsTail separator ending ts)

/-- Texts with a separator behind each but the last, and an ending behind that. -/
def rows (separator ending : List UInt8) : List (List UInt8) → List UInt8
  | [] => []
  | t :: ts => t ++ rowsTail separator ending ts

namespace Json

/-- The bytes are the text of the value. -/
def Writes (bytes : List UInt8) (v : Json) : Prop := ∃ t, utf8 t = bytes ∧ Value t v

/-- A structural character, a name and its colon. -/
def Leads (x : Char) (bytes : List UInt8) (k : List Char) : Prop :=
  ∃ b q c, Structural x b ∧ Quoted q k ∧ Structural ':' c ∧ bytes = utf8 (b ++ (q ++ c))

/-- The rest of an object behind a value. -/
inductive Closes : List UInt8 → List (List Char × Json) → Prop where
  | close {e : List Char} : Structural '}' e → Closes (utf8 e) []
  | more {lit t rest : List UInt8} {k : List Char} {v : Json} {ms : List (List Char × Json)} :
      Leads ',' lit k → Writes t v → Closes rest ms → Closes (lit ++ (t ++ rest)) ((k, v) :: ms)

/-- The rest of an array behind a value. -/
inductive ClosesArray : List UInt8 → List Json → Prop where
  | close {e : List Char} : Structural ']' e → ClosesArray (utf8 e) []
  | more {c : List Char} {t rest : List UInt8} {v : Json} {vs : List Json} : Structural ',' c →
      Writes t v → ClosesArray rest vs → ClosesArray (utf8 c ++ (t ++ rest)) (v :: vs)

section

variable {w w' b c e : List Char} {x : Char} {t rest lit : List UInt8} {k : List Char} {v : Json}
  {vs : List Json} {ms : List (List Char × Json)} {ts : List (List UInt8)}

theorem Ws.append (h : Ws w) (h' : Ws w') : Ws (w ++ w') := by
  intro c hc
  rcases List.mem_append.1 hc with hc | hc
  · exact h c hc
  · exact h' c hc

/-- White space in front. -/
theorem Structural.cons_ws (hw : Ws w) (h : Structural x b) : Structural x (w ++ b) := by
  obtain ⟨before, after, hbefore, hafter, rfl⟩ := h
  exact ⟨w ++ before, after, hw.append hbefore, hafter, by simp⟩

/-- White space behind. -/
theorem Structural.append_ws (h : Structural x b) (hw : Ws w) : Structural x (b ++ w) := by
  obtain ⟨before, after, hbefore, hafter, rfl⟩ := h
  exact ⟨before, after ++ w, hbefore, hafter.append hw, by simp⟩

/-! ## Literals -/

theorem structural_iff : Structural x b ↔
    ∃ i < b.length, b[i]? = some x ∧ Ws (b.take i) ∧ Ws (b.drop (i + 1)) := by
  constructor
  · rintro ⟨before, after, hbefore, hafter, rfl⟩
    refine ⟨before.length, by simp, by simp, by simpa using hbefore, ?_⟩
    rw [← List.drop_drop, List.drop_left]
    exact hafter
  · rintro ⟨i, hi, hx, hbefore, hafter⟩
    rw [List.getElem?_eq_getElem hi, Option.some.injEq] at hx
    refine ⟨_, _, hbefore, hafter, ?_⟩
    rw [← hx, ← List.drop_eq_getElem_cons hi, List.take_append_drop]

instance (x : Char) (b : List Char) : Decidable (Structural x b) :=
  decidable_of_iff _ structural_iff.symm

/-- Characters that spell themselves. -/
def Plain (t : List Char) : Prop := ∀ c ∈ t, Unescaped c

instance (t : List Char) : Decidable (Plain t) := List.decidableBAll Unescaped t

theorem Plain.chars (h : Plain k) : Chars k k := by
  induction k with
  | nil => exact .nil
  | cons c k ih => exact .unescaped (h c (by simp)) (ih fun d hd => h d (by simp [hd]))

/-- The text up to the first quotation mark, the name between the marks, and the rest. -/
def IsLead (x : Char) (k t : List Char) : Prop :=
  let rest := (t.dropWhile (· ≠ '"')).drop (k.length + 2)
  Structural x (t.takeWhile (· ≠ '"')) ∧
    (t.dropWhile (· ≠ '"')).take (k.length + 2) = '"' :: (k ++ ['"']) ∧
    Plain k ∧ Structural ':' rest

instance (x : Char) (k t : List Char) : Decidable (IsLead x k t) :=
  inferInstanceAs (Decidable (_ ∧ _))

/-- A literal that leads to a member. -/
theorem Leads.literal {s : String} (h : IsLead x k s.toList) : Leads x (ascii s) k := by
  obtain ⟨hb, hq, hk, hc⟩ := h
  refine ⟨_, _, _, hb, ⟨k, hk.chars, rfl⟩, hc, ?_⟩
  rw [← hq, List.take_append_drop, List.takeWhile_append_dropWhile]
  rfl

theorem Closes.literal {s : String} (h : Structural '}' s.toList) : Closes (ascii s) [] :=
  .close h

/-! ## Strings and numbers -/

theorem Chars.append {t t' u u' : List Char} (h : Chars t u) (h' : Chars t' u') :
    Chars (t ++ t') (u ++ u') := by
  induction h with
  | nil => exact h'
  | unescaped hc _ ih => exact .unescaped hc ih
  | escaped he _ ih => exact .escaped he ih
  | unicode hx hhigh hlow _ ih => exact .unicode hx hhigh hlow ih
  | pair hx hx' hhigh hlow _ ih => exact .pair hx hx' hhigh hlow ih

/-- The decimal digits of a number have no leading zero. -/
theorem head_toDigits {n : Nat} (h : (Nat.toDigits 10 n).head? = some '0') : n = 0 := by
  induction n using Nat.strong_induction_on with
  | h n ih =>
    rcases Nat.lt_or_ge n 10 with hn | hn
    · rw [Nat.toDigits_of_lt_base hn] at h
      simpa using h
    · rw [Nat.toDigits_of_base_le (by decide) hn, List.head?_append_of_ne_nil _ Nat.toDigits_ne_nil]
        at h
      have hdiv := ih (n / 10) (by omega) h
      omega

theorem intPart_toDigits (n : Nat) : IntPart (Nat.toDigits 10 n) := by
  refine ⟨fun c hc => Nat.isDigit_of_mem_toDigits (by decide) (by decide) hc,
    Nat.toDigits_ne_nil, fun h => ?_⟩
  rw [head_toDigits h]
  rfl

/-- A natural number in decimal. -/
theorem number_toDigits (n : Nat) : Number (Nat.toDigits 10 n) n 0 := by
  have h := @Number.mk false _ _ _ _ _ (intPart_toDigits n) .none .none
  simpa [signed] using h

theorem hexDigitOf_digitChar {d : Nat} (h : d < 16) : hexDigitOf d.digitChar = some d := by
  revert d
  decide

theorem hexNumber_append (t u : List Char) : hexNumber (t ++ u) = (hexNumber t).bind
    fun n => u.foldlM (fun n c => (hexDigitOf c).map (16 * n + ·)) n :=
  List.foldlM_append

theorem hexNumber_toDigits (n : Nat) : hexNumber (Nat.toDigits 16 n) = some n := by
  induction n using Nat.strong_induction_on with
  | h n ih =>
    rcases Nat.lt_or_ge n 16 with hn | hn
    · rw [Nat.toDigits_of_lt_base hn]
      simp [hexNumber, hexDigitOf_digitChar hn]
    · have hmod := Nat.mod_lt n (show 0 < 16 by decide)
      rw [Nat.toDigits_of_base_le (by decide) hn, hexNumber_append, ih (n / 16) (by omega),
        Option.bind_some]
      simp [hexDigitOf_digitChar hmod]
      omega

/-- Zeros in front do not count. -/
theorem hexNumber_leftpad (width : Nat) (t : List Char) :
    hexNumber (t.leftpad width '0') = hexNumber t := by
  have hzeros : ∀ k, hexNumber (List.replicate k '0') = some 0 := by
    intro k
    induction k with
    | zero => rfl
    | succ k ih =>
      rw [List.replicate_succ', hexNumber_append, ih, Option.bind_some]
      rfl
  rw [List.leftpad, hexNumber_append, hzeros, Option.bind_some]
  rfl

/-! ## Objects -/

theorem Closes.members (h : Closes rest ms) {q c u : List Char} (hq : Quoted q k)
    (hc : Structural ':' c) (hv : Value u v) :
    ∃ ts e, Members ts ((k, v) :: ms) ∧ Structural '}' e ∧
      utf8 (q ++ (c ++ u)) ++ rest = utf8 (ts ++ e) := by
  induction h generalizing q c u k v with
  | close he => exact ⟨_, _, .one hq hc hv, he, (utf8_append _ _).symm⟩
  | more hlit ht _ ih =>
    obtain ⟨d, q', c', hd, hq', hc', rfl⟩ := hlit
    obtain ⟨u', rfl, hv'⟩ := ht
    obtain ⟨ts, e, hts, he, heq⟩ := ih hq' hc' hv'
    refine ⟨_, e, .more hq hc hv hd hts, he, ?_⟩
    simp only [utf8_append, List.append_assoc] at heq ⊢
    rw [heq]

/-- An object, member by member. -/
theorem Writes.object (hlit : Leads '{' lit k) (hv : Writes t v) (hrest : Closes rest ms) :
    Writes (lit ++ (t ++ rest)) (.object ((k, v) :: ms)) := by
  obtain ⟨b, q, c, hb, hq, hc, rfl⟩ := hlit
  obtain ⟨u, rfl, hv⟩ := hv
  obtain ⟨ts, e, hts, he, heq⟩ := hrest.members hq hc hv
  refine ⟨_, ?_, .object hb hts he⟩
  simp only [utf8_append, List.append_assoc] at heq ⊢
  rw [heq]

/-! ## Arrays -/

theorem ClosesArray.elements (h : ClosesArray rest vs) {u : List Char} (hv : Value u v) :
    ∃ ts e, Elements ts (v :: vs) ∧ Structural ']' e ∧ utf8 u ++ rest = utf8 (ts ++ e) := by
  induction h generalizing u v with
  | close he => exact ⟨_, _, .one hv, he, (utf8_append _ _).symm⟩
  | more hc ht _ ih =>
    obtain ⟨u', rfl, hv'⟩ := ht
    obtain ⟨ts, e, hts, he, heq⟩ := ih hv'
    refine ⟨_, e, .more hv hc hts, he, ?_⟩
    simp only [utf8_append, List.append_assoc] at heq ⊢
    rw [heq]

theorem Writes.array (hb : Structural '[' b) (hv : Writes t v) (hrest : ClosesArray rest vs) :
    Writes (utf8 b ++ (t ++ rest)) (.array (v :: vs)) := by
  obtain ⟨u, rfl, hv⟩ := hv
  obtain ⟨ts, e, hts, he, heq⟩ := hrest.elements hv
  refine ⟨_, ?_, .array hb hts he⟩
  simp only [utf8_append] at heq ⊢
  rw [heq]

theorem closesArray_rows (hc : Structural ',' c) (hw : Ws w) (he : Structural ']' e)
    (h : List.Forall₂ Writes ts vs) :
    ClosesArray (rowsTail (utf8 c) (utf8 w) ts ++ utf8 e) vs := by
  induction h with
  | nil =>
    rw [rowsTail, ← utf8_append]
    exact .close (he.cons_ws hw)
  | cons hv _ ih =>
    rw [rowsTail, List.append_assoc, List.append_assoc]
    exact .more hc hv ih

/-- An array of rows; the ending stands behind the last row, if there is one. -/
theorem Writes.array_rows (hb : Structural '[' b) (hc : Structural ',' c) (hw : Ws w)
    (he : Structural ']' e) (h : List.Forall₂ Writes ts vs) :
    Writes (utf8 b ++ (rows (utf8 c) (utf8 w) ts ++ utf8 e)) (.array vs) := by
  cases h with
  | nil => exact ⟨b ++ e, utf8_append b e, .emptyArray hb he⟩
  | cons hv hvs =>
    rw [rows, List.append_assoc]
    exact .array hb hv (closesArray_rows hc hw he hvs)

/-! ## Objects of rows -/

/-- A row with a member: white space, a name, its colon and a value. -/
def WritesMember (bytes : List UInt8) (m : List Char × Json) : Prop :=
  ∃ w q c t, Ws w ∧ Quoted q m.1 ∧ Structural ':' c ∧ Writes t m.2 ∧
    bytes = utf8 (w ++ (q ++ c)) ++ t

/-- A structural character in front of a row leads to its member. -/
theorem WritesMember.leads {m : List Char × Json} (hb : Structural x b) (h : WritesMember t m) :
    ∃ lit u, Leads x lit m.1 ∧ Writes u m.2 ∧ utf8 b ++ t = lit ++ u := by
  obtain ⟨w, q, c, u, hw, hq, hc, hu, rfl⟩ := h
  exact ⟨_, u, ⟨b ++ w, q, c, hb.append_ws hw, hq, hc, rfl⟩, hu, by simp [utf8_append]⟩

theorem closes_rows (hc : Structural ',' c) (hw : Ws w) (he : Structural '}' e)
    (h : List.Forall₂ WritesMember ts ms) :
    Closes (rowsTail (utf8 c) (utf8 w) ts ++ utf8 e) ms := by
  induction h with
  | nil =>
    rw [rowsTail, ← utf8_append]
    exact .close (he.cons_ws hw)
  | cons hm _ ih =>
    obtain ⟨lit, u, hlit, hu, heq⟩ := hm.leads hc
    rw [rowsTail, ← List.append_assoc, heq, List.append_assoc, List.append_assoc]
    exact .more hlit hu ih

/-- An object of rows. -/
theorem Writes.object_rows (hb : Structural '{' b) (hc : Structural ',' c) (hw : Ws w)
    (he : Structural '}' e) (h : List.Forall₂ WritesMember ts ms) :
    Writes (utf8 b ++ (rows (utf8 c) (utf8 w) ts ++ utf8 e)) (.object ms) := by
  cases h with
  | nil => exact ⟨b ++ e, utf8_append b e, .emptyObject hb he⟩
  | cons hm hms =>
    obtain ⟨lit, u, hlit, hu, heq⟩ := hm.leads hb
    rw [rows, List.append_assoc, ← List.append_assoc, heq, List.append_assoc]
    exact .object hlit hu (closes_rows hc hw he hms)

end

end Json

end X360Port.Library
