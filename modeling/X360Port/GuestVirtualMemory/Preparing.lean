import Mathlib.Algebra.Order.Floor.Div
import X360Port.GuestVirtualMemory.Backing
import X360Port.Library.WordArithmetic
import X360Port.XeniaMemory.Paged

/-!
# The arithmetic of a request

`PrepareRequest` computes in 32-bit words that the guest chooses.
`prepareRequestChecked` is the same computation with the faults of its
operations: where it answers, its answer is that of `prepareRequest`.

A size read as a signed word has a magnitude, and the prepared size is the
least multiple of the granularity that holds it. That is so, and no operation
goes wrong, for every size except the one whose magnitude is no signed word
(`prepareRequest_exact_iff`).
-/

namespace X360Port

open Library

namespace GuestVirtualMemory

/-! ## The checked computation -/

def normalizeRequestedSizeChecked (size : UInt32) : Except ArithmeticFault UInt32 :=
  if size.toInt32 < 0 then (Word.neg size.toInt32).map Int32.toUInt32 else .ok size

def roundUpChecked (value multiple : UInt32) : Except ArithmeticFault UInt32 := do
  let sum ← Word.add value multiple
  let last ← Word.sub sum 1
  let quotient ← Word.div last multiple
  Word.mul quotient multiple

def prepareRequestChecked {η : Type} (X : Xenia η) (requested : RequestedRegion)
    (allocType : UInt32) : Except ArithmeticFault (Option AllocationRequest) :=
  match requestPageSize X requested allocType with
  | none => .ok none
  | some pageSize => do
    let offset ← Word.mod requested.base pageSize
    let base ← Word.sub requested.base offset
    let magnitude ← normalizeRequestedSizeChecked requested.size
    let size ← roundUpChecked magnitude (if base ≠ 0 then pageSize else largePageSize)
    return if size = 0 then none else some { base, size, pageSize }

/-! ## The magnitude of a size -/

/-- The magnitude of a size read as a signed word. -/
def magnitude (size : UInt32) : Nat := size.toInt32.toInt.natAbs

theorem toInt_toInt32 (size : UInt32) : size.toInt32.toInt =
    if size.toNat < 2 ^ 31 then (size.toNat : Int) else (size.toNat : Int) - 2 ^ 32 := by
  have hcond := BitVec.toInt_eq_toNat_cond size.toBitVec
  have hlt := size.toNat_lt
  show size.toBitVec.toInt = _
  rw [hcond]
  show (if 2 * size.toNat < 2 ^ 32 then (size.toNat : Int)
    else (size.toNat : Int) - (2 ^ 32 : Nat)) = _
  split <;> split <;> omega

theorem magnitude_eq (size : UInt32) :
    magnitude size = if size.toNat < 2 ^ 31 then size.toNat else 2 ^ 32 - size.toNat := by
  have hsigned := toInt_toInt32 size
  have hlt := size.toNat_lt
  unfold magnitude
  split at hsigned <;> split <;> omega

theorem toNat_normalizeRequestedSize (size : UInt32) :
    (normalizeRequestedSize size).toNat = magnitude size := by
  have hsigned := toInt_toInt32 size
  have hlt := size.toNat_lt
  have hwords : UInt32.size = 2 ^ 32 := rfl
  rw [normalizeRequestedSize, magnitude_eq]
  split
  · next hneg =>
    have hneg : size.toInt32.toInt < 0 := Int32.lt_iff_toInt_lt.1 hneg
    have hnegated : (-size.toInt32).toUInt32 = -size := by
      rw [Int32.toUInt32_neg, UInt32.toUInt32_toInt32]
    rw [hnegated, UInt32.toNat_neg, hwords]
    split at hsigned <;> split <;> omega
  · next hneg =>
    have hneg : ¬ size.toInt32.toInt < 0 := fun h => hneg (Int32.lt_iff_toInt_lt.2 h)
    split at hsigned <;> split <;> omega

/-- One size has a magnitude that is no signed word. -/
theorem toInt32_eq_minValue_iff (size : UInt32) :
    size.toInt32 = Int32.minValue ↔ size = 0x80000000 := by
  have hmin : Int32.minValue = (0x80000000 : UInt32).toInt32 := rfl
  rw [hmin]
  constructor
  · intro h
    have hwords := congrArg Int32.toUInt32 h
    rwa [UInt32.toUInt32_toInt32, UInt32.toUInt32_toInt32] at hwords
  · exact congrArg UInt32.toInt32

theorem normalizeRequestedSizeChecked_eq (size : UInt32) :
    normalizeRequestedSizeChecked size =
      if size = 0x80000000 then .error .signedOverflow else .ok (normalizeRequestedSize size) := by
  rw [normalizeRequestedSizeChecked, normalizeRequestedSize]
  by_cases hmin : size = 0x80000000
  · rw [if_pos hmin, hmin]
    rfl
  · rw [if_neg hmin]
    split
    · rw [Word.neg_of_ne fun h => hmin ((toInt32_eq_minValue_iff size).1 h)]
      rfl
    · rfl

/-! ## Rounding -/

theorem toNat_roundUp {value multiple : UInt32} (hm : 0 < multiple.toNat)
    (h : value.toNat + multiple.toNat ≤ 2 ^ 32) :
    (roundUp value multiple).toNat = multiple.toNat * (value.toNat ⌈/⌉ multiple.toNat) := by
  have hlast : (value + multiple - 1).toNat = value.toNat + multiple.toNat - 1 := by
    rw [UInt32.toNat_sub, UInt32.toNat_add]
    have hone : (1 : UInt32).toNat = 1 := rfl
    omega
  have hle := Nat.div_mul_le_self (value.toNat + multiple.toNat - 1) multiple.toNat
  rw [roundUp, UInt32.toNat_mul, UInt32.toNat_div, hlast, Nat.ceilDiv_eq_add_pred_div,
    Nat.mod_eq_of_lt (by omega), Nat.mul_comm]

theorem roundUpChecked_eq {value multiple : UInt32} (hm : 0 < multiple.toNat)
    (h : value.toNat + multiple.toNat < 2 ^ 32) :
    roundUpChecked value multiple = .ok (roundUp value multiple) := by
  have hsum := Word.toNat_add_of_lt h
  have hone : (1 : UInt32).toNat = 1 := rfl
  have hlast : (value + multiple - 1).toNat = value.toNat + multiple.toNat - 1 := by
    rw [Word.toNat_sub_of_le (by omega), hsum, hone]
  have hne : multiple ≠ 0 := by
    rintro rfl
    exact absurd hm (by decide)
  have hle := Nat.div_mul_le_self (value.toNat + multiple.toNat - 1) multiple.toNat
  have hproduct : ((value + multiple - 1) / multiple).toNat * multiple.toNat < 2 ^ 32 := by
    rw [UInt32.toNat_div, hlast]
    omega
  simp only [roundUpChecked, Word.add_of_lt h, Word.sub_of_le (a := value + multiple) (b := 1)
    (by omega), Word.div_of_ne hne, Word.mul_of_lt hproduct, bind, Except.bind]
  rfl

/-- Rounding up gives the least multiple that holds the value. -/
theorem isLeast_mul_ceilDiv {value multiple : Nat} (hm : 0 < multiple) (hv : 0 < value) :
    IsLeast {k | 0 < k ∧ multiple ∣ k ∧ value ≤ k} (multiple * (value ⌈/⌉ multiple)) := by
  have hle : value ≤ multiple * (value ⌈/⌉ multiple) := le_smul_ceilDiv hm
  refine ⟨⟨by omega, Nat.dvd_mul_right _ _, hle⟩, ?_⟩
  rintro k ⟨-, ⟨c, rfl⟩, hk⟩
  exact Nat.mul_le_mul_left _ ((ceilDiv_le_iff_le_smul hm).2 hk)

/-! ## The request -/

section

variable {η : Type} {X : Xenia η} {requested : RequestedRegion} {allocType : UInt32}

/-- Pages are not empty, and no larger than half the address space: Xenia's have 4 KiB,
64 KiB or 16 MiB. -/
def PageSizes (X : Xenia η) : Prop :=
  ∀ address heap, X.lookupHeap address = some heap →
    0 < heap.pageSize.toNat ∧ heap.pageSize.toNat ≤ 2 ^ 31

/-- The heap's page size where the base rounded down is not zero, 64 KiB otherwise. -/
def granularity (X : Xenia η) (requested : RequestedRegion) : UInt32 :=
  match X.lookupHeap requested.base with
  | none => largePageSize
  | some heap =>
    if requested.base - requested.base % heap.pageSize ≠ 0 then heap.pageSize else largePageSize

theorem requestPageSize_bounds (pages : PageSizes X) {pageSize : UInt32}
    (h : requestPageSize X requested allocType = some pageSize) :
    0 < pageSize.toNat ∧ pageSize.toNat ≤ 2 ^ 31 := by
  rw [requestPageSize] at h
  split at h
  · obtain ⟨heap, hheap, rfl⟩ := Option.map_eq_some_iff.1 h
    exact pages _ _ (lookupVirtualHeap_spec hheap).1
  · rw [Option.some.injEq] at h
    rw [← h]
    split
    · exact ⟨by decide, by decide⟩
    · exact ⟨by decide, by decide⟩

/-- The size that a request is rounded up with. -/
theorem granularity_eq {pageSize : UInt32}
    (h : requestPageSize X requested allocType = some pageSize) :
    (if requested.base - requested.base % pageSize ≠ 0 then pageSize else largePageSize) =
      granularity X requested := by
  by_cases hbase : requested.base = 0
  · have hrounded : ∀ p : UInt32, requested.base - requested.base % p = 0 := by
      intro p
      rw [hbase, UInt32.zero_mod, UInt32.sub_self]
    rw [granularity, hrounded, if_neg (not_not.2 rfl)]
    cases X.lookupHeap requested.base with
    | none => rfl
    | some heap =>
      simp only [hrounded]
      exact (if_neg (not_not.2 rfl)).symm
  · rw [requestPageSize, if_pos hbase, Option.map_eq_some_iff] at h
    obtain ⟨heap, hheap, rfl⟩ := h
    rw [granularity, (lookupVirtualHeap_spec hheap).1]

theorem granularity_bounds (pages : PageSizes X) (requested : RequestedRegion) :
    0 < (granularity X requested).toNat ∧ (granularity X requested).toNat ≤ 2 ^ 31 := by
  have hlarge : 0 < largePageSize.toNat ∧ largePageSize.toNat ≤ 2 ^ 31 := by decide
  unfold granularity
  split
  · exact hlarge
  · next heap hlookup =>
    split
    · exact pages _ _ hlookup
    · exact hlarge

/-- The computation takes the steps of `PrepareRequest` up to the negation. -/
theorem prepareRequestChecked_eq (pages : PageSizes X) {pageSize : UInt32}
    (h : requestPageSize X requested allocType = some pageSize) :
    prepareRequestChecked X requested allocType =
      if requested.size = 0x80000000 then .error .signedOverflow
      else .ok (prepareRequest X requested allocType) := by
  obtain ⟨hpos, -⟩ := requestPageSize_bounds pages h
  have hne : pageSize ≠ 0 := by
    rintro rfl
    exact absurd hpos (by decide)
  have hoffset : (requested.base % pageSize).toNat ≤ requested.base.toNat := by
    rw [UInt32.toNat_mod]
    exact Nat.mod_le _ _
  rw [prepareRequestChecked, prepareRequest, h]
  simp only [Word.mod_of_ne hne, Word.sub_of_le hoffset, normalizeRequestedSizeChecked_eq, bind,
    Except.bind, granularity_eq h]
  by_cases hmin : requested.size = 0x80000000
  · simp [hmin]
  · obtain ⟨hgpos, hgle⟩ := granularity_bounds pages requested
    have hvalue : (normalizeRequestedSize requested.size).toNat < 2 ^ 31 := by
      have hsize : requested.size.toNat ≠ 0x80000000 := fun heq =>
        hmin (UInt32.toNat_inj.1 heq)
      rw [toNat_normalizeRequestedSize, magnitude_eq]
      split
      · assumption
      · have hlt := requested.size.toNat_lt
        omega
    have hsum : (normalizeRequestedSize requested.size).toNat +
        (granularity X requested).toNat < 2 ^ 32 := by omega
    have hrounded := roundUpChecked_eq hgpos hsum
    rw [if_neg hmin, if_neg hmin]
    simp only [hrounded]
    rfl

/-- A prepared request is rounded up by the granularity. -/
theorem prepareRequest_size (pages : PageSizes X) {request : AllocationRequest}
    (h : prepareRequest X requested allocType = some request) :
    request.size.toNat = (granularity X requested).toNat *
      (magnitude requested.size ⌈/⌉ (granularity X requested).toNat) := by
  obtain ⟨hgpos, hgle⟩ := granularity_bounds pages requested
  have hvalue : (normalizeRequestedSize requested.size).toNat ≤ 2 ^ 31 := by
    have hlt := requested.size.toNat_lt
    rw [toNat_normalizeRequestedSize, magnitude_eq]
    split <;> omega
  rw [prepareRequest] at h
  split at h
  · simp at h
  · next pageSize hpage =>
    simp only [granularity_eq hpage, Option.ite_none_left_eq_some, Option.some.injEq] at h
    obtain ⟨-, rfl⟩ := h
    rw [toNat_roundUp hgpos (by omega), toNat_normalizeRequestedSize]

/-- **Main result.** No operation of the preparation goes wrong, and the size prepared is the
least multiple of the granularity that holds the magnitude, exactly when the size is not the
one without a magnitude or the request is refused for its base. -/
theorem prepareRequest_exact_iff (pages : PageSizes X) (requested : RequestedRegion)
    (allocType : UInt32) (hsize : requested.size ≠ 0) :
    (prepareRequestChecked X requested allocType =
        .ok (prepareRequest X requested allocType) ∧
      ∀ request, prepareRequest X requested allocType = some request →
        IsLeast {k | 0 < k ∧ (granularity X requested).toNat ∣ k ∧ magnitude requested.size ≤ k}
          request.size.toNat) ↔
      requested.size ≠ 0x80000000 ∨ requestPageSize X requested allocType = none := by
  have hmagnitude : 0 < magnitude requested.size := by
    have hlt := requested.size.toNat_lt
    have hpos := Word.toNat_pos hsize
    rw [magnitude_eq]
    split <;> omega
  have hleast : ∀ request, prepareRequest X requested allocType = some request →
      IsLeast {k | 0 < k ∧ (granularity X requested).toNat ∣ k ∧ magnitude requested.size ≤ k}
        request.size.toNat := by
    intro request hrequest
    rw [prepareRequest_size pages hrequest]
    exact isLeast_mul_ceilDiv (granularity_bounds pages requested).1 hmagnitude
  rw [and_iff_left hleast]
  cases hpage : requestPageSize X requested allocType with
  | none =>
    refine iff_of_true ?_ (.inr rfl)
    rw [prepareRequestChecked, prepareRequest, hpage]
  | some pageSize =>
    rw [prepareRequestChecked_eq pages hpage]
    by_cases hmin : requested.size = 0x80000000
    · simp [hmin]
    · simp [hmin]

theorem pagedPageSizes : PageSizes paged := by
  intro address heap h
  have hheap : PageTable.lookup address = some heap := h
  rw [PageTable.lookup, Option.ite_none_right_eq_some] at hheap
  obtain ⟨-, rfl⟩ := hheap.imp_right Option.some.inj
  exact ⟨by decide, by decide⟩

/-- A page and a byte make two pages. -/
theorem prepareRequest_exact_page :
    prepareRequestChecked paged ⟨0x10800, 0x1001⟩ memCommit =
      .ok (some ⟨0x10000, 0x2000, 0x1000⟩) := by
  have h := (prepareRequest_exact_iff pagedPageSizes ⟨0x10800, 0x1001⟩ memCommit
    (by decide)).2 (.inl (by decide))
  rw [h.1]
  decide

/-- The negation of the most negative size overflows. -/
theorem prepareRequest_overflows : PageSizes paged ∧
    prepareRequestChecked paged ⟨0, 0x80000000⟩ memCommit = .error .signedOverflow ∧
    prepareRequestChecked paged ⟨0x10000, 0x80000000⟩ memReserve = .error .signedOverflow := by
  refine ⟨pagedPageSizes, ?_⟩
  decide

end

end GuestVirtualMemory

end X360Port
