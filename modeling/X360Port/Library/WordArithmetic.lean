import Mathlib.Algebra.Ring.Nat

/-!
# Word arithmetic that may go wrong

The operations of 32-bit arithmetic with their faults: a negation that
overflows, a sum, difference or product that wraps, a division by zero. Where
an operation answers, it answers what the machine operation does, and that is
the exact result; the rules say on which operands it answers.
-/

namespace X360Port.Library

inductive ArithmeticFault where
  | signedOverflow
  | unsignedWrap
  | divisionByZero
  deriving DecidableEq, Repr

namespace Word

theorem toNat_pos {a : UInt32} (h : a ≠ 0) : 0 < a.toNat :=
  Nat.pos_of_ne_zero fun hzero => h (UInt32.toNat_inj.1 hzero)

theorem toNat_ofNat {n : Nat} (h : n < 4294967296) : (UInt32.ofNat n).toNat = n :=
  UInt32.toNat_ofNat_of_lt' h

def neg (a : Int32) : Except ArithmeticFault Int32 :=
  if a = Int32.minValue then .error .signedOverflow else .ok (-a)

def add (a b : UInt32) : Except ArithmeticFault UInt32 :=
  if a.toNat + b.toNat < 2 ^ 32 then .ok (a + b) else .error .unsignedWrap

def sub (a b : UInt32) : Except ArithmeticFault UInt32 :=
  if b.toNat ≤ a.toNat then .ok (a - b) else .error .unsignedWrap

def mul (a b : UInt32) : Except ArithmeticFault UInt32 :=
  if a.toNat * b.toNat < 2 ^ 32 then .ok (a * b) else .error .unsignedWrap

def div (a b : UInt32) : Except ArithmeticFault UInt32 :=
  if b = 0 then .error .divisionByZero else .ok (a / b)

def mod (a b : UInt32) : Except ArithmeticFault UInt32 :=
  if b = 0 then .error .divisionByZero else .ok (a % b)

section

variable {a b : UInt32}

theorem neg_of_ne {a : Int32} (h : a ≠ Int32.minValue) : neg a = .ok (-a) := if_neg h

theorem add_of_lt (h : a.toNat + b.toNat < 2 ^ 32) : add a b = .ok (a + b) := if_pos h

theorem sub_of_le (h : b.toNat ≤ a.toNat) : sub a b = .ok (a - b) := if_pos h

theorem mul_of_lt (h : a.toNat * b.toNat < 2 ^ 32) : mul a b = .ok (a * b) := if_pos h

theorem div_of_ne (h : b ≠ 0) : div a b = .ok (a / b) := if_neg h

theorem mod_of_ne (h : b ≠ 0) : mod a b = .ok (a % b) := if_neg h

/-- What is within bounds is exact. -/
theorem toNat_add_of_lt (h : a.toNat + b.toNat < 2 ^ 32) : (a + b).toNat = a.toNat + b.toNat := by
  rw [UInt32.toNat_add, Nat.mod_eq_of_lt h]

theorem toNat_sub_of_le (h : b.toNat ≤ a.toNat) : (a - b).toNat = a.toNat - b.toNat :=
  UInt32.toNat_sub_of_le a b (UInt32.le_iff_toNat_le.2 h)

end

end Word

end X360Port.Library
