import Mathlib.Algebra.Ring.Nat
import Mathlib.Algebra.Order.Ring.Nat
import Mathlib.Data.Nat.Log

/-!
# Words compared under a mask

A word is the sum of the part under a mask and the part under the complement.
`Selects mask base x` compares `x` with `base` under `mask`, the test that
address decoders make. The words it selects are an interval just when the
complement is the low bits and `base` is aligned to them.
-/

namespace X360Port.Library

variable {w : Nat}

/-! ## Splitting a word -/

theorem toNat_and_add_and_not (x mask : BitVec w) :
    (x &&& mask).toNat + (x &&& ~~~mask).toNat = x.toNat := by
  have hdisjoint : (x &&& mask) &&& (x &&& ~~~mask) = 0#w := by
    rw [BitVec.and_comm x (~~~mask), BitVec.and_assoc, ← BitVec.and_assoc mask,
      BitVec.and_not_self, BitVec.ofNat_eq_ofNat, BitVec.zero_and, BitVec.and_zero]
  have hunion : (x &&& mask) ||| (x &&& ~~~mask) = x := by
    rw [← BitVec.and_or_distrib_left, BitVec.or_not_self, BitVec.and_allOnes]
  rw [← BitVec.toNat_add_of_and_eq_zero hdisjoint, BitVec.add_eq_or_of_and_eq_zero _ _ hdisjoint,
    hunion]

/-- Under a mask of low bits stands the remainder. -/
theorem toNat_and_low {low : BitVec w} {k : Nat} (h : low.toNat = 2 ^ k - 1) (x : BitVec w) :
    (x &&& low).toNat = x.toNat % 2 ^ k := by
  rw [BitVec.toNat_and, h, Nat.and_two_pow_sub_one_eq_mod]

/-- Clearing the low bits rounds down. -/
theorem toNat_and_not_low {low : BitVec w} {k : Nat} (h : low.toNat = 2 ^ k - 1) (x : BitVec w) :
    (x &&& ~~~low).toNat = x.toNat / 2 ^ k * 2 ^ k := by
  have hsplit := toNat_and_add_and_not x low
  have hdiv := Nat.div_add_mod' x.toNat (2 ^ k)
  rw [toNat_and_low h] at hsplit
  omega

/-! ## Decoding -/

/-- The word agrees with `base` under the mask. -/
def Selects (mask base x : BitVec w) : Prop := x &&& mask = base

/-- The size, the mask and the base of a range that a masked comparison can decode. -/
def LowBitsMask (mask base : BitVec w) (size : Nat) : Prop :=
  ∃ k, size = 2 ^ k ∧ (~~~mask).toNat = 2 ^ k - 1 ∧ base.toNat % 2 ^ k = 0

section

variable {mask base : BitVec w}

theorem selects_base_iff : Selects mask base base ↔ base &&& ~~~mask = 0#w := by
  have hsplit := toNat_and_add_and_not base mask
  rw [Selects, ← BitVec.toNat_inj, ← BitVec.toNat_inj, BitVec.toNat_zero]
  omega

/-- A selected word is the base and its part outside the mask. -/
theorem Selects.toNat_eq {x : BitVec w} (h : Selects mask base x) :
    x.toNat = base.toNat + (x &&& ~~~mask).toNat := by
  rw [← toNat_and_add_and_not x mask, h]

theorem Selects.toNat_le {x : BitVec w} (h : Selects mask base x) :
    x.toNat ≤ base.toNat + (~~~mask).toNat := by
  have hle : (x &&& ~~~mask).toNat ≤ (~~~mask).toNat := by
    rw [BitVec.toNat_and]
    exact Nat.and_le_right
  rw [h.toNat_eq]
  omega

/-- The largest selected word. -/
theorem exists_selects_top (h : Selects mask base base) :
    ∃ x, Selects mask base x ∧ x.toNat = base.toNat + (~~~mask).toNat := by
  have hdisjoint : base &&& ~~~mask = 0#w := selects_base_iff.1 h
  refine ⟨base + ~~~mask, ?_, BitVec.toNat_add_of_and_eq_zero hdisjoint⟩
  rw [Selects, BitVec.add_eq_or_of_and_eq_zero _ _ hdisjoint]
  have hbase : base &&& mask = base := h
  ext i hi
  have hbit : (base[i] && mask[i]) = base[i] := by
    rw [← BitVec.getElem_and, hbase]
  simp only [BitVec.getElem_and, BitVec.getElem_or, BitVec.getElem_not]
  cases hb : base[i] <;> cases hm : mask[i] <;> rw [hb, hm] at hbit <;> first | rfl | exact hbit

end

/-- A number that has every smaller number as a part of its bits is all ones. -/
theorem exists_eq_two_pow_sub_one {m : Nat} (h : ∀ n ≤ m, n &&& m = n) : ∃ k, m = 2 ^ k - 1 := by
  by_cases hm : m = 0
  · exact ⟨0, hm⟩
  have hlow : 2 ^ m.log2 ≤ m := Nat.log2_self_le hm
  have hhigh : m < 2 ^ (m.log2 + 1) := Nat.lt_log2_self
  have hpos : 0 < 2 ^ m.log2 := Nat.two_pow_pos _
  -- the bits below the leading one are the part that one less than it asks for
  have hmod : m % 2 ^ m.log2 = 2 ^ m.log2 - 1 := by
    rw [← Nat.and_two_pow_sub_one_eq_mod, Nat.and_comm]
    exact h _ (by omega)
  refine ⟨m.log2 + 1, ?_⟩
  have hsub : m % 2 ^ m.log2 = m - 2 ^ m.log2 := by
    rw [Nat.mod_eq_sub_mod hlow, Nat.mod_eq_of_lt (by rw [Nat.pow_succ] at hhigh; omega)]
  rw [Nat.pow_succ] at hhigh ⊢
  omega

section

variable {mask base : BitVec w} {size : Nat}

/-- A mask that selects an interval is one of low bits. -/
theorem lowBitsMask_of_interval (hsize : 0 < size)
    (h : ∀ x, Selects mask base x ↔ base.toNat ≤ x.toNat ∧ x.toNat < base.toNat + size)
    (hwrap : base.toNat + size ≤ 2 ^ w) : LowBitsMask mask base size := by
  have hbase : Selects mask base base := (h base).2 ⟨Nat.le_refl _, by omega⟩
  have hsel : ∀ n < size, Selects mask base (BitVec.ofNat w (base.toNat + n)) ∧
      (BitVec.ofNat w (base.toNat + n)).toNat = base.toNat + n := by
    intro n hn
    have hval : (BitVec.ofNat w (base.toNat + n)).toNat = base.toNat + n := by
      rw [BitVec.toNat_ofNat, Nat.mod_eq_of_lt (by omega)]
    exact ⟨(h _).2 (by rw [hval]; omega), hval⟩
  -- the largest selected word is the last of the interval
  have hlow : (~~~mask).toNat = size - 1 := by
    obtain ⟨top, htop, hval⟩ := exists_selects_top hbase
    have hlt := ((h top).1 htop).2
    obtain ⟨hlast, hlval⟩ := hsel (size - 1) (by omega)
    have hle := hlast.toNat_le
    omega
  -- so every offset is a part of the mask's complement
  have hpart : ∀ n ≤ (~~~mask).toNat, n &&& (~~~mask).toNat = n := by
    intro n hn
    obtain ⟨hx, hval⟩ := hsel n (by omega)
    have hoff : (BitVec.ofNat w (base.toNat + n) &&& ~~~mask).toNat = n := by
      have := hx.toNat_eq
      omega
    rw [← hoff, BitVec.toNat_and, Nat.and_assoc, Nat.and_self]
  obtain ⟨k, hk⟩ := exists_eq_two_pow_sub_one hpart
  have hpos : 0 < 2 ^ k := Nat.two_pow_pos k
  refine ⟨k, by omega, hk, ?_⟩
  rw [← toNat_and_low hk, selects_base_iff.1 hbase]
  rfl

/-- A mask of low bits rounds a word down to its block. -/
theorem LowBitsMask.selects_iff (h : LowBitsMask mask base size) (x : BitVec w) :
    Selects mask base x ↔ base.toNat ≤ x.toNat ∧ x.toNat < base.toNat + size := by
  obtain ⟨k, rfl, hlow, halign⟩ := h
  have hround : (x &&& mask).toNat = x.toNat / 2 ^ k * 2 ^ k := by
    rw [← toNat_and_not_low hlow, BitVec.not_not]
  have hbase := Nat.div_add_mod' base.toNat (2 ^ k)
  have hx := Nat.div_add_mod' x.toNat (2 ^ k)
  have hr := Nat.mod_lt x.toNat (Nat.two_pow_pos k)
  rw [Selects, ← BitVec.toNat_inj, hround]
  constructor
  · intro heq
    omega
  · rintro ⟨h1, h2⟩
    have hquot : x.toNat / 2 ^ k = base.toNat / 2 ^ k := by
      apply Nat.div_eq_of_lt_le
      · omega
      · rw [Nat.succ_mul]
        omega
    rw [hquot]
    omega

/-- An aligned block does not wrap. -/
theorem LowBitsMask.add_le (h : LowBitsMask mask base size) : base.toNat + size ≤ 2 ^ w := by
  obtain ⟨k, rfl, hlow, halign⟩ := h
  have hpos : 0 < 2 ^ k := Nat.two_pow_pos k
  have hk : k ≤ w := by
    have hlt := (~~~mask).isLt
    apply (Nat.pow_le_pow_iff_right (a := 2) (by omega)).1
    omega
  obtain ⟨q, hq⟩ : 2 ^ k ∣ 2 ^ w := Nat.pow_dvd_pow 2 hk
  have hbase := Nat.div_add_mod' base.toNat (2 ^ k)
  have hlt := base.isLt
  rw [halign, Nat.add_zero] at hbase
  rw [← hbase, hq, Nat.mul_comm (2 ^ k) q] at hlt ⊢
  have hqlt := Nat.lt_of_mul_lt_mul_right hlt
  rw [← Nat.succ_mul]
  exact Nat.mul_le_mul_right _ hqlt

end

/-- **Decoding an interval.** The words selected are `[base, base + size)`, which does not wrap,
just for a mask whose complement is the low bits of a range of that size and a base aligned
to it. -/
theorem selects_iff_interval_iff (mask base : BitVec w) {size : Nat} (hsize : 0 < size) :
    ((∀ x, Selects mask base x ↔ base.toNat ≤ x.toNat ∧ x.toNat < base.toNat + size) ∧
      base.toNat + size ≤ 2 ^ w) ↔ LowBitsMask mask base size :=
  ⟨fun h => lowBitsMask_of_interval hsize h.1 h.2, fun h => ⟨h.selects_iff, h.add_le⟩⟩

end X360Port.Library
