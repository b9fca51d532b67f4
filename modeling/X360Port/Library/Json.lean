import X360Port.Library.Utf8

/-!
# JSON texts

The grammar of RFC 8259 as relations between a text and what it denotes, rule
by rule: white space around a structural character belongs to it, a text is
one value. A string denotes the characters it spells and a number its digits as
`mantissa * 10 ^ exponent`; the members of an object keep their order.

An escaped surrogate without its partner spells no character, so a string with
one denotes nothing here.
-/

namespace X360Port.Library

inductive Json where
  | null
  | bool (b : Bool)
  | number (mantissa exponent : Int)
  | string (s : List Char)
  | array (elements : List Json)
  | object (members : List (List Char × Json))
  deriving Repr

namespace Json

/-! ## White space and structural characters -/

def IsWs (c : Char) : Prop := c = ' ' ∨ c = '\t' ∨ c = '\n' ∨ c = '\r'

instance (c : Char) : Decidable (IsWs c) := inferInstanceAs (Decidable (_ ∨ _))

def Ws (t : List Char) : Prop := ∀ c ∈ t, IsWs c

instance (t : List Char) : Decidable (Ws t) := List.decidableBAll IsWs t

/-- A structural character with the white space around it. -/
def Structural (c : Char) (t : List Char) : Prop :=
  ∃ before after, Ws before ∧ Ws after ∧ t = before ++ c :: after

/-! ## Numbers -/

def IsDigit (c : Char) : Prop := c.isDigit

instance (c : Char) : Decidable (IsDigit c) := inferInstanceAs (Decidable (_ = true))

def Digits (t : List Char) : Prop := ∀ c ∈ t, IsDigit c

instance (t : List Char) : Decidable (Digits t) := List.decidableBAll IsDigit t

/-- No leading zero. -/
def IntPart (t : List Char) : Prop := Digits t ∧ t ≠ [] ∧ (t.head? = some '0' → t = ['0'])

instance (t : List Char) : Decidable (IntPart t) := inferInstanceAs (Decidable (_ ∧ _))

/-- A fraction and its digits. -/
inductive FracPart : List Char → List Char → Prop where
  | none : FracPart [] []
  | some {ds : List Char} : Digits ds → ds ≠ [] → FracPart ('.' :: ds) ds

/-- A sign, and whether it is a minus. -/
inductive Sign : List Char → Bool → Prop where
  | none : Sign [] false
  | plus : Sign ['+'] false
  | minus : Sign ['-'] true

def signed (negative : Bool) (n : Nat) : Int := if negative then -n else n

inductive ExpPart : List Char → Int → Prop where
  | none : ExpPart [] 0
  | some {e : Char} {sign ds : List Char} {negative : Bool} : e = 'e' ∨ e = 'E' →
      Sign sign negative → Digits ds → ds ≠ [] →
      ExpPart (e :: (sign ++ ds)) (signed negative (Nat.ofDigitChars 10 ds 0))

/-- A number and the mantissa and exponent of its value. -/
inductive Number : List Char → Int → Int → Prop where
  | mk {negative : Bool} {int frac fracDigits exp : List Char} {x : Int} :
      IntPart int → FracPart frac fracDigits → ExpPart exp x →
      Number ((if negative then ['-'] else []) ++ (int ++ (frac ++ exp)))
        (signed negative (Nat.ofDigitChars 10 (int ++ fracDigits) 0)) (x - fracDigits.length)

/-! ## Strings -/

/-- `%x20-21 / %x23-5B / %x5D-10FFFF` -/
def Unescaped (c : Char) : Prop := 0x20 ≤ c.toNat ∧ c ≠ '"' ∧ c ≠ '\\'

instance (c : Char) : Decidable (Unescaped c) := inferInstanceAs (Decidable (_ ∧ _))

/-- What a character after a backslash stands for, `u` apart. -/
def escapeOf (c : Char) : Option Char :=
  if c = '"' then some '"'
  else if c = '\\' then some '\\'
  else if c = '/' then some '/'
  else if c = 'b' then some '\x08'
  else if c = 'f' then some '\x0c'
  else if c = 'n' then some '\n'
  else if c = 'r' then some '\r'
  else if c = 't' then some '\t'
  else none

def hexDigitOf (c : Char) : Option Nat :=
  if c.isDigit then some (c.toNat - 0x30)
  else if 'a' ≤ c ∧ c ≤ 'f' then some (c.toNat - 0x57)
  else if 'A' ≤ c ∧ c ≤ 'F' then some (c.toNat - 0x37)
  else none

/-- The value of four hexadecimal digits. -/
def hexOf (a b c d : Char) : Option Nat := do
  return (((← hexDigitOf a) * 16 + (← hexDigitOf b)) * 16 + (← hexDigitOf c)) * 16 +
    (← hexDigitOf d)

def IsHighSurrogate (n : Nat) : Prop := 0xd800 ≤ n ∧ n < 0xdc00

def IsLowSurrogate (n : Nat) : Prop := 0xdc00 ≤ n ∧ n < 0xe000

instance (n : Nat) : Decidable (IsHighSurrogate n) := inferInstanceAs (Decidable (_ ∧ _))

instance (n : Nat) : Decidable (IsLowSurrogate n) := inferInstanceAs (Decidable (_ ∧ _))

/-- The character of a surrogate pair. -/
def pairOf (high low : Nat) : Char :=
  Char.ofNat (0x10000 + (high - 0xd800) * 0x400 + (low - 0xdc00))

/-- The text between the quotation marks and the characters it spells. -/
inductive Chars : List Char → List Char → Prop where
  | nil : Chars [] []
  | unescaped {c : Char} {t s : List Char} : Unescaped c → Chars t s → Chars (c :: t) (c :: s)
  | escaped {e c : Char} {t s : List Char} : escapeOf e = some c → Chars t s →
      Chars ('\\' :: e :: t) (c :: s)
  | unicode {a b c d : Char} {n : Nat} {t s : List Char} : hexOf a b c d = some n →
      ¬ IsHighSurrogate n → ¬ IsLowSurrogate n → Chars t s →
      Chars ('\\' :: 'u' :: a :: b :: c :: d :: t) (Char.ofNat n :: s)
  | pair {a b c d a' b' c' d' : Char} {high low : Nat} {t s : List Char} :
      hexOf a b c d = some high → hexOf a' b' c' d' = some low →
      IsHighSurrogate high → IsLowSurrogate low → Chars t s →
      Chars ('\\' :: 'u' :: a :: b :: c :: d :: '\\' :: 'u' :: a' :: b' :: c' :: d' :: t)
        (pairOf high low :: s)

def Quoted (t s : List Char) : Prop := ∃ raw, Chars raw s ∧ t = '"' :: (raw ++ ['"'])

/-! ## Values -/

mutual

inductive Value : List Char → Json → Prop where
  | null : Value "null".toList .null
  | true : Value "true".toList (.bool true)
  | false : Value "false".toList (.bool false)
  | number {t : List Char} {m x : Int} : Number t m x → Value t (.number m x)
  | string {t s : List Char} : Quoted t s → Value t (.string s)
  | emptyArray {b e : List Char} : Structural '[' b → Structural ']' e → Value (b ++ e) (.array [])
  | array {b ts e : List Char} {vs : List Json} : Structural '[' b → Elements ts vs →
      Structural ']' e → Value (b ++ (ts ++ e)) (.array vs)
  | emptyObject {b e : List Char} : Structural '{' b → Structural '}' e →
      Value (b ++ e) (.object [])
  | object {b ts e : List Char} {ms : List (List Char × Json)} : Structural '{' b →
      Members ts ms → Structural '}' e → Value (b ++ (ts ++ e)) (.object ms)

inductive Elements : List Char → List Json → Prop where
  | one {t : List Char} {v : Json} : Value t v → Elements t [v]
  | more {t c ts : List Char} {v : Json} {vs : List Json} : Value t v → Structural ',' c →
      Elements ts vs → Elements (t ++ (c ++ ts)) (v :: vs)

inductive Members : List Char → List (List Char × Json) → Prop where
  | one {q c t k : List Char} {v : Json} : Quoted q k → Structural ':' c → Value t v →
      Members (q ++ (c ++ t)) [(k, v)]
  | more {q c t d ts k : List Char} {v : Json} {ms : List (List Char × Json)} : Quoted q k →
      Structural ':' c → Value t v → Structural ',' d → Members ts ms →
      Members (q ++ (c ++ (t ++ (d ++ ts)))) ((k, v) :: ms)

end

/-- `ws value ws` -/
def Text (text : List Char) (v : Json) : Prop :=
  ∃ before t after, Ws before ∧ Value t v ∧ Ws after ∧ text = before ++ (t ++ after)

/-- The bytes are a JSON text in UTF-8 that denotes `v`. -/
def Encodes (bytes : List UInt8) (v : Json) : Prop := ∃ text, utf8 text = bytes ∧ Text text v

/-! ## Access -/

/-- The value of the first member with a name. -/
def member? (name : String) : Json → Option Json
  | .object members => members.lookup name.toList
  | _ => none

theorem member?_cons (name : String) (k : List Char) (v : Json) (ms : List (List Char × Json)) :
    (object ((k, v) :: ms)).member? name =
      if name.toList = k then some v else (object ms).member? name := by
  by_cases h : name.toList = k
  · rw [if_pos h, member?, List.lookup_cons, h, beq_self_eq_true]
  · rw [if_neg h, member?, List.lookup_cons, beq_eq_false_iff_ne.2 h]
    rfl

/-- Where the names are distinct, each member is found under its own. -/
theorem member?_of_mem {name : String} {v : Json} {ms : List (List Char × Json)}
    (hnodup : (ms.map Prod.fst).Nodup) (h : (name.toList, v) ∈ ms) :
    (object ms).member? name = some v := by
  induction ms with
  | nil => cases h
  | cons m ms ih =>
    obtain ⟨k, v'⟩ := m
    rw [List.map_cons, List.nodup_cons] at hnodup
    rw [member?_cons]
    rcases List.mem_cons.1 h with heq | htail
    · cases heq
      rw [if_pos rfl]
    · have hne : name.toList ≠ k := by
        rintro rfl
        exact hnodup.1 (List.mem_map.2 ⟨_, htail, rfl⟩)
      rw [if_neg hne, ih hnodup.2 htail]

def elements? : Json → Option (List Json)
  | .array elements => some elements
  | _ => none

/-- The characters of a string, in UTF-8. -/
def bytes? : Json → Option (List UInt8)
  | .string s => some (utf8 s)
  | _ => none

def bool? : Json → Option Bool
  | .bool b => some b
  | _ => none

def nat? : Json → Option Nat
  | .number (.ofNat n) 0 => some n
  | _ => none

/-- The number that hexadecimal digits stand for. -/
def hexNumber (digits : List Char) : Option Nat :=
  digits.foldlM (fun n c => (hexDigitOf c).map (16 * n + ·)) 0

def hexNat? : Json → Option Nat
  | .string s => hexNumber s
  | _ => none

end Json

end X360Port.Library
