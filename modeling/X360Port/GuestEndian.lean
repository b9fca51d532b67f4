import X360Port.Library.Memory

/-!
# Big-endian guest words

The Xenon stores words most significant byte first. `guestWordBytes` lays a
word out and `loadGuestWord` reads four bytes back. The two are inverse
(`loadGuestWord_eq_iff`), so a guest memory holds a word exactly when the
load at its address answers it (`heldBy_wordPatch_iff`).
-/

namespace X360Port

open Library

/-- The four bytes of a guest word, in address order. -/
def guestWordBytes (value : UInt32) : List UInt8 :=
  [(value >>> 24).toUInt8, (value >>> 16).toUInt8, (value >>> 8).toUInt8, value.toUInt8]

/-- The guest word of four bytes in address order. -/
def loadGuestWord (b0 b1 b2 b3 : UInt8) : UInt32 :=
  (b0.toUInt32 <<< 24) ||| (b1.toUInt32 <<< 16) ||| (b2.toUInt32 <<< 8) ||| b3.toUInt32

/-- The guest word a memory holds at an address. -/
def loadWordAt (m : Memory UInt8) (a : Nat) : UInt32 :=
  loadGuestWord (m a) (m (a + 1)) (m (a + 2)) (m (a + 3))

@[simp] theorem length_guestWordBytes (value : UInt32) : (guestWordBytes value).length = 4 := rfl

theorem toNat_loadGuestWord (b0 b1 b2 b3 : UInt8) :
    (loadGuestWord b0 b1 b2 b3).toNat =
      b0.toNat * 2 ^ 24 + b1.toNat * 2 ^ 16 + b2.toNat * 2 ^ 8 + b3.toNat := by
  have h0 := b0.toNat_lt; have h1 := b1.toNat_lt; have h2 := b2.toNat_lt; have h3 := b3.toNat_lt
  simp only [loadGuestWord, UInt32.toNat_or, UInt32.toNat_shiftLeft, UInt8.toNat_toUInt32,
    UInt32.reduceToNat, Nat.reduceMod]
  have e : ∀ b s : Nat, b < 2 ^ 8 → s ≤ 24 → b <<< s % 2 ^ 32 = b * 2 ^ s := by
    intro b s hb hs
    rw [Nat.shiftLeft_eq]
    apply Nat.mod_eq_of_lt
    calc b * 2 ^ s < 2 ^ 8 * 2 ^ s := Nat.mul_lt_mul_of_pos_right hb (Nat.two_pow_pos s)
      _ = 2 ^ (8 + s) := (Nat.pow_add ..).symm
      _ ≤ 2 ^ 32 := Nat.pow_le_pow_right (by decide) (by omega)
  rw [e _ _ h0 (by decide), e _ _ h1 (by decide), e _ _ h2 (by decide)]
  -- each byte lies below the bits the higher ones occupy, so `|||` adds
  have o : ∀ i a b : Nat, b < 2 ^ i → a * 2 ^ i ||| b = a * 2 ^ i + b := by
    intro i a b h
    rw [Nat.mul_comm, Nat.two_pow_add_eq_or_of_lt h]
  rw [o 24 _ _ (by omega),
    show b0.toNat * 2 ^ 24 + b1.toNat * 2 ^ 16 = (b0.toNat * 2 ^ 8 + b1.toNat) * 2 ^ 16 by omega,
    o 16 _ _ (by omega),
    show (b0.toNat * 2 ^ 8 + b1.toNat) * 2 ^ 16 + b2.toNat * 2 ^ 8 =
      (b0.toNat * 2 ^ 16 + b1.toNat * 2 ^ 8 + b2.toNat) * 2 ^ 8 by omega, o 8 _ _ (by omega)]

/-- Loading is the inverse of laying out. -/
theorem loadGuestWord_eq_iff (b0 b1 b2 b3 : UInt8) (value : UInt32) :
    loadGuestWord b0 b1 b2 b3 = value ↔ [b0, b1, b2, b3] = guestWordBytes value := by
  have h0 := b0.toNat_lt; have h1 := b1.toNat_lt; have h2 := b2.toNat_lt; have h3 := b3.toNat_lt
  have hv := value.toNat_lt
  simp only [guestWordBytes, List.cons.injEq, and_true, ← UInt32.toNat_inj, ← UInt8.toNat_inj,
    toNat_loadGuestWord, UInt32.toNat_toUInt8, UInt32.toNat_shiftRight, UInt32.reduceToNat,
    Nat.reduceMod, Nat.shiftRight_eq_div_pow]
  omega

/-- The write of one guest word. -/
def wordPatch (a : Nat) (value : UInt32) : Patch UInt8 := ⟨a, guestWordBytes value⟩

/-- Xenia's `store_and_swap` of a guest word. -/
def storeGuestWord (m : Memory UInt8) (a : Nat) (value : UInt32) : Memory UInt8 :=
  (wordPatch a value).write m

/-- A memory holds the bytes of a word exactly when it loads that word. -/
theorem heldBy_wordPatch_iff {m : Memory UInt8} {a : Nat} {value : UInt32} :
    (wordPatch a value).HeldBy m ↔ loadWordAt m a = value := by
  unfold wordPatch
  rw [Patch.heldBy_iff_getElem?, loadWordAt, loadGuestWord_eq_iff]
  constructor
  · intro h
    have g : ∀ i b, (guestWordBytes value)[i]? = some b → m (a + i) = b := h
    rw [guestWordBytes, g 1 _ rfl, g 2 _ rfl, g 3 _ rfl, show m a = m (a + 0) from rfl, g 0 _ rfl]
  · intro h i b hb
    simp only [← h] at hb
    match i, hb with
    | 0, hb => exact Option.some.inj hb
    | 1, hb => exact Option.some.inj hb
    | 2, hb => exact Option.some.inj hb
    | 3, hb => exact Option.some.inj hb

/-- Words that are held one after another are loaded one after another. -/
theorem loadWordAt_of_heldBy {m : Memory UInt8} {words : List UInt32} {a i : Nat} {value : UInt32}
    (h : (Patch.mk a (words.flatMap guestWordBytes)).HeldBy m) (hi : words[i]? = some value) :
    loadWordAt m (a + i * 4) = value := by
  induction words generalizing a i with
  | nil => cases hi
  | cons word words ih =>
    rw [List.flatMap_cons, Patch.heldBy_append_iff] at h
    cases i with
    | zero =>
      cases hi
      exact heldBy_wordPatch_iff.1 h.1
    | succ i =>
      have hplace : a + (i + 1) * 4 = a + 4 + i * 4 := by omega
      rw [hplace]
      exact ih h.2 hi

/-- The bytes of a loaded word are those of the memory. -/
theorem guestWordBytes_loadWordAt (m : Memory UInt8) (a : Nat) :
    guestWordBytes (loadWordAt m a) = [m a, m (a + 1), m (a + 2), m (a + 3)] :=
  ((loadGuestWord_eq_iff _ _ _ _ _).1 rfl).symm

/-- A word depends on its four cells. -/
theorem loadWordAt_congr {m m' : Memory UInt8} {a : Nat} (h : ∀ x, a ≤ x → x < a + 4 → m x = m' x) :
    loadWordAt m a = loadWordAt m' a := by
  unfold loadWordAt
  rw [h a (by omega) (by omega), h (a + 1) (by omega) (by omega), h (a + 2) (by omega) (by omega),
    h (a + 3) (by omega) (by omega)]

theorem wordPatch_covers_iff {a x : Nat} {value : UInt32} :
    (wordPatch a value).Covers x ↔ a ≤ x ∧ x < a + 4 := Iff.rfl

/-- Aligned words can only meet at one address, and there they must be equal. -/
theorem wordPatch_agrees_iff {a b : Nat} {v w : UInt32} (h : a % 4 = b % 4) :
    (wordPatch a v).Agrees (wordPatch b w) ↔ (a = b → v = w) := by
  by_cases hab : a = b
  · subst hab
    constructor
    · intro hag _
      have hv := ((wordPatch a v).heldBy_write fun _ => 0).write hag
      have hw := (wordPatch a w).heldBy_write ((wordPatch a v).write fun _ => 0)
      exact (heldBy_wordPatch_iff.1 hv).symm.trans (heldBy_wordPatch_iff.1 hw)
    · intro hvw
      rw [hvw rfl]
      intro x b c hb hc
      exact Option.some.inj (hb.symm.trans hc)
  · refine iff_of_true (Patch.agrees_of_disjoint ?_) fun he => (hab he).elim
    show a + 4 ≤ b ∨ b + 4 ≤ a
    omega

end X360Port
