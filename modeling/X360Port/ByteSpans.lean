import X360Port.Library.Spans

/-!
# Ranges of a byte span

The inspectors of a container and of an image each ask whether a range lies in
their bytes before they read it. They ask in the same way, without forming a
sum of the offset and the count.
-/

namespace X360Port

open Library

def hasBytes (bytes : List UInt8) (offset count : Nat) : Checked String Bool :=
  if offset ≤ bytes.length then do
    return decide (count ≤ (← sub bytes.length offset))
  else return false

/-- Refuse a range that does not lie in the bytes. -/
def requireBytes (bytes : List UInt8) (offset count : Nat) (error : String) :
    Checked String Unit := do
  refuseIf (¬ (← hasBytes bytes offset count)) error

section

variable {α : Type} {P : α → Prop} {bytes : List UInt8} {offset count : Nat}

theorem hasBytes_eq (bytes : List UInt8) (offset count : Nat) :
    hasBytes bytes offset count = .ok (decide (offset + count ≤ bytes.length)) := by
  unfold hasBytes
  by_cases h : offset ≤ bytes.length
  · rw [if_pos h, sub_eq h]
    exact congrArg Except.ok (decide_eq_decide.2 (by omega))
  · rw [if_neg h, decide_eq_false (by omega)]
    rfl

theorem requireBytes_of_le {error : String} (h : offset + count ≤ bytes.length) :
    requireBytes bytes offset count error = .ok () := by
  unfold requireBytes
  rw [hasBytes_eq, decide_eq_true h]
  rfl

theorem meets_requireBytes {error : String} {k : Unit → Checked String α}
    (h : offset + count ≤ bytes.length → Meets P (k ())) :
    Meets P (requireBytes bytes offset count error >>= k) := by
  by_cases hb : offset + count ≤ bytes.length
  · rw [requireBytes_of_le hb]
    exact h hb
  · unfold requireBytes
    rw [hasBytes_eq, decide_eq_false hb]
    exact trivial

theorem meets_hasBytes {k : Bool → Checked String α}
    (hyes : offset + count ≤ bytes.length → Meets P (k true))
    (hno : ¬ offset + count ≤ bytes.length → Meets P (k false)) :
    Meets P (hasBytes bytes offset count >>= k) := by
  rw [hasBytes_eq]
  by_cases hb : offset + count ≤ bytes.length
  · rw [decide_eq_true hb]
    exact hyes hb
  · rw [decide_eq_false hb]
    exact hno hb

end

end X360Port
