import X360Port.GuestCall

/-!
# Executable-write invalidation

Writes to the watched code range are coalesced into one 64-bit word, the
packed first and last address of their hull; `kNoPendingWrite` is the word of
no write. `arm` sets the watch up, `notify` drops the cached translations
under a range. A recorded write goes through `clampWrite` and `mergeWrite`, a
drained word through `drainRange`: these are the pieces of the two calls that
run between their atomic operations.
-/

namespace X360Port

/-! ## The packed word -/

def kNoPendingWrite : UInt64 := (0xFFFFFFFF : UInt32).toUInt64 <<< (32 : UInt64)

def packWrite (first last : UInt32) : UInt64 := (first.toUInt64 <<< 32) ||| last.toUInt64

def firstOf (packed : UInt64) : UInt32 := (packed >>> 32).toUInt32

def lastOf (packed : UInt64) : UInt32 := packed.toUInt32

/-- The part of a write inside the code range, as its first and last address. -/
def clampWrite (code : CodeRange) (virtualAddress length : UInt32) : Option (UInt32 × UInt32) :=
  let writeEnd := virtualAddress.toNat + length.toNat
  let start := max virtualAddress.toNat code.base.toNat
  let «end» := min writeEnd code.codeEnd
  if length = 0 then none
  else if start ≥ «end» then none
  else some (UInt32.ofNat start, UInt32.ofNat («end» - 1))

/-- The hull of the pending writes and one more. -/
def mergeWrite (current : UInt64) (first last : UInt32) : UInt64 :=
  packWrite (min (firstOf current) first) (max (lastOf current) last)

/-- The range that a drain of the word passes to `notify`. -/
def drainRange (code : CodeRange) (packed : UInt64) : Option (GuestAddress × UInt32) :=
  let virtualStart := firstOf packed
  let virtualLast := lastOf packed
  if virtualStart ≠ 0xFFFFFFFF ∧ virtualStart ≤ virtualLast then
    let start := max virtualStart.toNat code.base.toNat
    let «end» := min (virtualLast.toNat + 1) code.codeEnd
    if start < «end» then some (UInt32.ofNat start, UInt32.ofNat («end» - start)) else none
  else none

/-! ## The watch -/

structure ExecutableInvalidation where
  memory : Bool := false
  callbackHandle : Bool := false
  codeRange : CodeRange := {}
  pendingWrite : UInt64 := kNoPendingWrite
  deriving DecidableEq, Repr

namespace ExecutableInvalidation

def disarm (_ : ExecutableInvalidation) : ExecutableInvalidation := {}

/-- `enabled` is Xenia's answer to `EnableVirtualMemoryAccessCallbacks`. -/
def rearm (s : ExecutableInvalidation) (enabled : Bool) : Bool :=
  if s.memory ∧ s.callbackHandle ∧ s.codeRange.size ≠ 0 then enabled else false

/-- `registered`: Xenia handed out a callback handle. -/
def arm (s : ExecutableInvalidation) (code : CodeRange) (registered enabled : Bool) :
    ExecutableInvalidation × RuntimeFailure :=
  if code.base = 0 ∨ code.size = 0 then
    (s, ⟨.executableWatchRegistrationFailed,
      "automatic executable-write observation requires a nonempty code range"⟩)
  else
    let s : ExecutableInvalidation :=
      { s.disarm with memory := true, callbackHandle := registered, codeRange := code }
    if ¬ registered then
      ({ s with memory := false, codeRange := {} }, ⟨.executableWatchRegistrationFailed,
        "Xenia refused the automatic executable-write callback"⟩)
    else if ¬ s.rearm enabled then
      (s.disarm, ⟨.executableWatchRegistrationFailed,
        "Xenia refused the authenticated executable watch range"⟩)
    else (s, {})

/-- Arming succeeds when the range is there and Xenia refuses nothing. -/
theorem arm_ok_iff (s : ExecutableInvalidation) (code : CodeRange) (registered enabled : Bool) :
    (s.arm code registered enabled).2.Ok ↔
      code.base ≠ 0 ∧ code.size ≠ 0 ∧ registered = true ∧ enabled = true := by
  unfold arm
  by_cases hrange : code.base = 0 ∨ code.size = 0
  · rw [if_pos hrange]
    exact iff_of_false RuntimeError.noConfusion fun h => hrange.elim h.1 h.2.1
  rw [if_neg hrange]
  obtain ⟨hbase, hsize⟩ := not_or.1 hrange
  cases registered with
  | false => exact iff_of_false RuntimeError.noConfusion fun h => Bool.noConfusion h.2.2.1
  | true =>
    cases enabled with
    | false =>
      simp only [rearm, hsize, ne_eq, not_true_eq_false, not_false_eq_true, and_self, if_true,
        if_false, Bool.false_eq_true, and_false, iff_false]
      exact RuntimeError.noConfusion
    | true =>
      simp only [rearm, hsize, ne_eq, not_true_eq_false, not_false_eq_true, and_self, if_true,
        if_false, RuntimeFailure.ok_empty, hbase]

/-- An armed watch has nothing pending. -/
theorem arm_of_ok {s : ExecutableInvalidation} {code : CodeRange} {registered enabled : Bool}
    (h : (s.arm code registered enabled).2.Ok) :
    (s.arm code registered enabled).1 = ⟨true, true, code, kNoPendingWrite⟩ := by
  obtain ⟨hbase, hsize, rfl, rfl⟩ := (s.arm_ok_iff code registered enabled).1 h
  simp only [arm, rearm, disarm, hbase, hsize, or_self, if_false, ne_eq, not_true_eq_false,
    not_false_eq_true, and_self, if_true]

end ExecutableInvalidation

/-! ## Notification -/

/-- A translated function, from its first to its last instruction. -/
structure CachedFunction where
  address : GuestAddress
  endAddress : GuestAddress
  deriving DecidableEq, Repr

/-- The processor's cached functions and what one notification did to them. -/
structure NotifyState where
  cache : List CachedFunction
  invalidated : List GuestAddress := []
  translationInvalidations : UInt64
  deriving DecidableEq, Repr

/-- Remove one function found under a written word, unless it was removed before. -/
def removeFunction (s : NotifyState) (function : CachedFunction) : NotifyState :=
  if function.address ∈ s.invalidated then s
  else
    { cache := s.cache.filter (·.address ≠ function.address)
      invalidated := function.address :: s.invalidated
      translationInvalidations := s.translationInvalidations + 1 }

/-- One word of the written range. -/
def notifyWord (s : NotifyState) (instruction : Nat) : NotifyState :=
  let found := s.cache.filter fun function =>
    function.address.toNat ≤ instruction ∧ instruction ≤ function.endAddress.toNat
  found.foldl removeFunction s

def notInsideCode : RuntimeFailure :=
  ⟨.executableRangeInvalid,
    "executable write must be non-empty and inside the authenticated code range"⟩

def notify (code : CodeRange) (address : GuestAddress) (size : UInt32) (s : NotifyState) :
    NotifyState × RuntimeFailure :=
  let writeEnd := address.toNat + size.toNat
  if size = 0 ∨ address < code.base ∨ writeEnd > code.codeEnd then (s, notInsideCode)
  else
    let firstInstruction := (address &&& ~~~3).toNat
    let words := (writeEnd - firstInstruction + 3) / 4
    ((List.range' firstInstruction words 4).foldl notifyWord s, {})

def refusedRearm : RuntimeFailure :=
  ⟨.executableWatchRearmFailed,
    "Xenia refused to rearm the authenticated executable watch range"⟩

/-! ## Reading the packed word -/

theorem toNat_packWrite (first last : UInt32) :
    (packWrite first last).toNat = first.toNat * 2 ^ 32 + last.toNat := by
  have hf := first.toNat_lt
  have hl := last.toNat_lt
  simp only [packWrite, UInt64.toNat_or, UInt64.toNat_shiftLeft, UInt32.toNat_toUInt64,
    UInt64.reduceToNat, Nat.reduceMod, Nat.shiftLeft_eq]
  rw [Nat.mod_eq_of_lt (by omega), Nat.mul_comm, Nat.two_pow_add_eq_or_of_lt hl]

@[simp] theorem firstOf_packWrite (first last : UInt32) :
    firstOf (packWrite first last) = first := by
  have hl := last.toNat_lt
  have hf := first.toNat_lt
  rw [← UInt32.toNat_inj, firstOf, UInt64.toNat_toUInt32, UInt64.toNat_shiftRight, toNat_packWrite]
  simp only [UInt64.reduceToNat, Nat.reduceMod, Nat.shiftRight_eq_div_pow]
  omega

@[simp] theorem lastOf_packWrite (first last : UInt32) : lastOf (packWrite first last) = last := by
  have hl := last.toNat_lt
  rw [← UInt32.toNat_inj, lastOf, UInt64.toNat_toUInt32, toNat_packWrite]
  omega

@[simp] theorem firstOf_kNoPendingWrite : firstOf kNoPendingWrite = 0xFFFFFFFF := by decide

@[simp] theorem lastOf_kNoPendingWrite : lastOf kNoPendingWrite = 0 := by decide

theorem toNat_min (a b : UInt32) : (min a b).toNat = min a.toNat b.toNat := by
  have h : min a b = if a ≤ b then a else b := rfl
  rw [h]
  split
  · next hab => exact (Nat.min_eq_left (UInt32.le_iff_toNat_le.1 hab)).symm
  · next hab => rw [UInt32.le_iff_toNat_le] at hab; omega

theorem toNat_max (a b : UInt32) : (max a b).toNat = max a.toNat b.toNat := by
  have h : max a b = if a ≤ b then b else a := rfl
  rw [h]
  split
  · next hab => exact (Nat.max_eq_right (UInt32.le_iff_toNat_le.1 hab)).symm
  · next hab => rw [UInt32.le_iff_toNat_le] at hab; omega

/-- Merging takes the hull. -/
theorem toNat_firstOf_mergeWrite (current : UInt64) (first last : UInt32) :
    (firstOf (mergeWrite current first last)).toNat = min (firstOf current).toNat first.toNat := by
  rw [mergeWrite, firstOf_packWrite, toNat_min]

theorem toNat_lastOf_mergeWrite (current : UInt64) (first last : UInt32) :
    (lastOf (mergeWrite current first last)).toNat = max (lastOf current).toNat last.toNat := by
  rw [mergeWrite, lastOf_packWrite, toNat_max]

end X360Port
