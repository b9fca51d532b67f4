import Mathlib.Data.List.GetD
import X360Port.Digest
import X360Port.Library.Sha256

/-!
# The stream is SHA-256

`Absorbed` says what a stream holds after a message: the hash value over the
full blocks and the bytes behind them. A byte keeps it (`updateByte_absorbed`),
so every way of cutting a message up leads to the same stream. `finish` feeds
the padding of the standard, which gives `hashBytes_eq_digest` for every length
of the message.
-/

namespace X360Port

open Library

namespace Sha256Stream

/-! ## One block -/

/-- The hash value a state vector holds. -/
def hashValue (v : Vector UInt32 8) : Sha256.HashValue :=
  ⟨v.get 0, v.get 1, v.get 2, v.get 3, v.get 4, v.get 5, v.get 6, v.get 7⟩

theorem hashValue_round (words : Vector UInt32 64) (working : Vector UInt32 8) (index : Nat) :
    hashValue (round words working index) =
      Sha256.round (hashValue working) roundConstants[index]! words[index]! := rfl

theorem getElem!_set! (v : Vector UInt32 64) (x : UInt32) {i j : Nat} (hi : i < 64) :
    (v.set! j x)[i]! = if j = i then x else v[i]! := by
  rw [getElem!_pos _ i hi, getElem!_pos v i hi, Vector.getElem_set!]

theorem getElem!_eq_getD {α : Type} [Inhabited α] {n : Nat} (v : Vector α n) (d : α) {i : Nat}
    (hi : i < n) : v[i]! = v.toList.getD i d := by
  rw [getElem!_pos v i hi, List.getD_eq_getElem?_getD,
    List.getElem?_eq_getElem (by rw [Vector.length_toList]; exact hi), Vector.getElem_toList]
  rfl

theorem length_blockWords (block : Vector UInt8 64) : (Sha256.words block.toList).length = 16 :=
  Sha256.length_words block.length_toList

/-- The first sixteen schedule words are those of the block. -/
theorem getElem!_loadWords (block : Vector UInt8 64) {n i : Nat} (hn : n ≤ 16) (hi : i < n) :
    ((List.range n).foldl (fun words index => words.set! index
      (loadGuestWord block[index * 4]! block[index * 4 + 1]! block[index * 4 + 2]!
        block[index * 4 + 3]!)) (Vector.replicate 64 0))[i]! =
      (Sha256.words block.toList).getD i 0 := by
  induction n with
  | zero => omega
  | succ n ih =>
    rw [List.range_succ, List.foldl_append, List.foldl_cons, List.foldl_nil,
      getElem!_set! _ _ (by omega)]
    split
    · next heq =>
      subst heq
      rw [List.getD_eq_getElem?_getD,
        Sha256.getElem?_words (by rw [Vector.length_toList]; omega), Option.getD_some,
        getElem!_eq_getD _ 0 (by omega), getElem!_eq_getD _ 0 (by omega),
        getElem!_eq_getD _ 0 (by omega), getElem!_eq_getD _ 0 (by omega), Nat.mul_comm]
      rfl
    · exact ih (by omega) (by omega)

/-- The later ones follow the recurrence. -/
theorem getElem!_extendWords {block : List UInt32} (hblock : block.length = 16)
    {words : Vector UInt32 64} (hwords : ∀ i < 16, words[i]! = block.getD i 0) {n i : Nat}
    (hn : n ≤ 48) (hi : i < 16 + n) :
    ((List.range' 16 n).foldl (fun (words : Vector UInt32 64) (index : Nat) =>
      let sigma0 := rotr words[index - 15]! 7 ^^^ rotr words[index - 15]! 18 ^^^
        (words[index - 15]! >>> 3)
      let sigma1 := rotr words[index - 2]! 17 ^^^ rotr words[index - 2]! 19 ^^^
        (words[index - 2]! >>> 10)
      words.set! index (words[index - 16]! + sigma0 + words[index - 7]! + sigma1)) words)[i]! =
      (Sha256.scheduleUpTo block n).getD i 0 := by
  induction n generalizing i with
  | zero =>
    rw [Sha256.scheduleUpTo_zero]
    exact hwords i hi
  | succ n ih =>
    have hlen := Sha256.length_scheduleUpTo hblock n
    rw [List.range'_1_concat, List.foldl_append, List.foldl_cons, List.foldl_nil]
    dsimp only
    rw [getElem!_set! _ _ (by omega), ih (by omega) (by omega : 16 + n - 15 < 16 + n),
      ih (by omega) (by omega : 16 + n - 2 < 16 + n),
      ih (by omega) (by omega : 16 + n - 16 < 16 + n),
      ih (by omega) (by omega : 16 + n - 7 < 16 + n), Sha256.scheduleUpTo_succ hblock]
    split
    · next heq =>
      subst heq
      rw [List.getD_append_right _ _ _ _ (by omega), hlen, Nat.sub_self, List.getD_cons_zero]
      show _ + Sha256.smallSigma0 _ + _ + Sha256.smallSigma1 _ = _
      ac_rfl
    · rw [List.getD_append _ _ _ _ (by omega), ih (by omega) (by omega)]

/-- The message schedule of a block. -/
theorem getElem!_schedule (block : Vector UInt8 64) {i : Nat} (hi : i < 64) :
    (schedule block)[i]! =
      (Sha256.scheduleUpTo (Sha256.words block.toList) 48).getD i 0 := by
  unfold schedule
  exact getElem!_extendWords (length_blockWords block)
    (fun _ hi => getElem!_loadWords block (Nat.le_refl 16) hi) (Nat.le_refl 48) hi

theorem toList_roundConstants : roundConstants.toList = Sha256.constants := rfl

/-- The rounds so far, over the constants and the schedule zipped. -/
theorem hashValue_rounds {words : Vector UInt32 64} {schedule : List UInt32}
    (hlength : schedule.length = 64) (hwords : ∀ i < 64, words[i]! = schedule.getD i 0)
    (state : Vector UInt32 8) {n : Nat} (hn : n ≤ 64) :
    hashValue ((List.range n).foldl (round words) state) =
      ((Sha256.constants.zip schedule).take n).foldl (fun v kw => Sha256.round v kw.1 kw.2)
        (hashValue state) := by
  have hconstants : Sha256.constants.length = 64 := rfl
  induction n with
  | zero => rfl
  | succ n ih =>
    have hzip : (Sha256.constants.zip schedule)[n]? =
        some (Sha256.constants.getD n 0, schedule.getD n 0) := by
      rw [List.getElem?_eq_getElem (by rw [List.length_zip]; omega), List.getElem_zip,
        List.getD_eq_getElem _ _ (by omega), List.getD_eq_getElem _ _ (by omega)]
    rw [List.range_succ, List.foldl_append, List.foldl_cons, List.foldl_nil, hashValue_round,
      ih (by omega), hwords n (by omega), getElem!_eq_getD _ 0 (by omega), toList_roundConstants,
      List.take_add_one, hzip, Option.toList_some, List.foldl_append, List.foldl_cons,
      List.foldl_nil]

theorem hashValue_add (u v : Vector UInt32 8) :
    hashValue (Vector.zipWith (· + ·) u v) = (hashValue u).add (hashValue v) := by
  have h : ∀ i : Fin 8, (Vector.zipWith (· + ·) u v).get i = u.get i + v.get i :=
    fun i => Vector.getElem_zipWith i.isLt
  simp only [hashValue, h, Sha256.HashValue.add]

/-- **One block.** The state is compressed with the words of the block. -/
theorem hashValue_compress (s : Sha256Stream) :
    hashValue s.compress.state =
      Sha256.compress (hashValue s.state) (Sha256.words s.block.toList) := by
  have hlength := Sha256.length_scheduleUpTo (length_blockWords s.block) 48
  have hrounds := hashValue_rounds hlength (fun i hi => getElem!_schedule s.block hi) s.state
    (Nat.le_refl 64)
  rw [List.take_of_length_le (by rw [List.length_zip]; omega)] at hrounds
  unfold compress
  dsimp only
  rw [hashValue_add, hrounds]
  rfl

/-! ## The message so far -/

/-- What a stream holds after a message. -/
structure Absorbed (message : List UInt8) (s : Sha256Stream) : Prop where
  state : hashValue s.state = Sha256.hashBlocks (message.length / 64) message Sha256.initial
  position : s.blockSize.val = message.length % 64
  block : s.block.toList.take s.blockSize = message.drop (64 * (message.length / 64))

theorem absorbed_empty : Absorbed [] {} := ⟨rfl, rfl, rfl⟩

section

variable {message : List UInt8} {s : Sha256Stream}

theorem toList_set_position (block : Vector UInt8 64) (position : Fin 64) (value : UInt8) :
    (block.set position value).toList = block.toList.take position ++
      value :: block.toList.drop (position + 1) := by
  rw [Vector.toList_set, List.set_eq_take_append_cons_drop,
    if_pos (by rw [Vector.length_toList]; exact position.isLt)]

/-- A byte goes on from the message so far. -/
theorem updateByte_absorbed (h : Absorbed message s) (value : UInt8) :
    Absorbed (message ++ [value]) (s.updateByte value) := by
  have hposition := h.position
  have hlength : (message ++ [value]).length = message.length + 1 := by
    rw [List.length_append, List.length_singleton]
  have hblock := h.block
  have htake : (s.block.toList.take s.blockSize).length = s.blockSize := by
    rw [List.length_take, Vector.length_toList, Nat.min_eq_left (Nat.le_of_lt s.blockSize.isLt)]
  have htoList := toList_set_position s.block s.blockSize value
  unfold updateByte
  dsimp only
  split
  · next hroom =>
    have hdiv : (message.length + 1) / 64 = message.length / 64 := by omega
    refine ⟨?_, ?_, ?_⟩
    · rw [hlength, hdiv, Sha256.hashBlocks_append_left (by omega)]
      exact h.state
    · rw [hlength]
      show s.blockSize.val + 1 = _
      omega
    · rw [hlength, hdiv, List.drop_append_of_le_length (by omega), ← hblock]
      show ((s.block.set s.blockSize value).toList.take (s.blockSize.val + 1)) = _
      rw [htoList, List.take_append, htake, List.take_of_length_le (by omega),
        Nat.add_sub_cancel_left]
      rfl
  · next hfull =>
    have hlast := s.blockSize.isLt
    have hdiv : (message.length + 1) / 64 = message.length / 64 + 1 := by omega
    refine ⟨?_, ?_, ?_⟩
    · have hwhole : (s.block.toList.take s.blockSize ++ [value]).take 64 =
          s.block.toList.take s.blockSize ++ [value] := List.take_of_length_le (by
        rw [List.length_append, htake, List.length_singleton]
        omega)
      rw [hlength, hdiv, Sha256.hashBlocks_succ_last, Sha256.hashBlocks_append_left (by omega),
        List.drop_append_of_le_length (by omega), ← hblock, hwhole, ← h.state]
      refine (hashValue_compress _).trans ?_
      dsimp only
      rw [htoList, List.drop_eq_nil_of_le (by rw [Vector.length_toList]; omega)]
    · rw [hlength]
      show 0 = _
      omega
    · rw [hlength, hdiv, List.drop_eq_nil_of_le (by omega)]
      rfl

theorem updateByte_totalBytes (s : Sha256Stream) (value : UInt8) :
    (s.updateByte value).totalBytes = s.totalBytes := by
  unfold updateByte
  dsimp only
  split
  · rfl
  · rfl

/-- A stream that holds a message and counted its bytes. -/
structure Fed (message : List UInt8) (s : Sha256Stream) : Prop extends Absorbed message s where
  total : s.totalBytes = .ofNat message.length

theorem foldl_updateByte (bytes : List UInt8) (h : Absorbed message s) :
    Absorbed (message ++ bytes) (bytes.foldl updateByte s) ∧
      (bytes.foldl updateByte s).totalBytes = s.totalBytes := by
  induction bytes generalizing message s with
  | nil =>
    rw [List.append_nil]
    exact ⟨h, rfl⟩
  | cons value bytes ih =>
    obtain ⟨habsorbed, htotal⟩ := ih (updateByte_absorbed h value)
    rw [List.append_assoc, List.singleton_append] at habsorbed
    exact ⟨habsorbed, htotal.trans (updateByte_totalBytes s value)⟩

theorem update_absorbed (h : Absorbed message s) (bytes : List UInt8) :
    Absorbed (message ++ bytes) (s.update bytes) :=
  have hfold := (foldl_updateByte bytes h).1
  ⟨hfold.state, hfold.position, hfold.block⟩

/-- **Feeding.** A piece goes on from the message so far. -/
theorem update_fed (h : Fed message s) (bytes : List UInt8) :
    Fed (message ++ bytes) (s.update bytes) := by
  refine ⟨update_absorbed h.toAbsorbed bytes, ?_⟩
  show (bytes.foldl updateByte s).totalBytes + _ = _
  rw [(foldl_updateByte bytes h.toAbsorbed).2, h.total, List.length_append, UInt64.ofNat_add]

theorem fed_empty : Fed [] {} := ⟨absorbed_empty, rfl⟩

/-- Pieces are fed as their concatenation. -/
theorem foldl_update_fed (pieces : List (List UInt8)) (h : Fed message s) :
    Fed (message ++ pieces.flatten) (pieces.foldl update s) := by
  induction pieces generalizing message s with
  | nil =>
    rw [List.flatten_nil, List.append_nil]
    exact h
  | cons piece pieces ih =>
    have hrest := ih (update_fed h piece)
    rw [List.append_assoc] at hrest
    rw [List.flatten_cons]
    exact hrest

/-! ## The end of the message -/

/-- The padding loop feeds zeros up to the length offset. -/
theorem padToLength_absorbed (rounds : Nat) (h : Absorbed message s)
    (hrounds : (120 - message.length % 64) % 64 < rounds) :
    Absorbed (message ++ List.replicate ((120 - message.length % 64) % 64) 0)
      (padToLength rounds s) := by
  have hk : kLengthOffset = 56 := rfl
  induction rounds generalizing message s with
  | zero => omega
  | succ rounds ih =>
    have hposition := h.position
    unfold padToLength
    split
    · next hend =>
      rw [show (120 - message.length % 64) % 64 = 0 by omega, List.replicate_zero,
        List.append_nil]
      exact h
    · next hmore =>
      have hlength : (message ++ [0]).length = message.length + 1 := by
        rw [List.length_append, List.length_singleton]
      have hrest := ih (update_absorbed h [0]) (by omega)
      rw [hlength, List.append_assoc, List.singleton_append, ← List.replicate_succ,
        show (120 - (message.length + 1) % 64) % 64 + 1 = (120 - message.length % 64) % 64 by
          omega] at hrest
      exact hrest

/-- The length bytes are those of the standard. -/
theorem lengthBytes_eq (length : Nat) :
    lengthBytes (UInt64.ofNat length * 8) = Sha256.lengthBytes (length * 8) := by
  unfold lengthBytes Sha256.lengthBytes
  refine List.map_congr_left fun index hindex => ?_
  have hindex := List.mem_range.1 hindex
  have hbits : (UInt64.ofNat length * 8).toNat = length * 8 % 2 ^ 64 := by
    rw [UInt64.toNat_mul, UInt64.toNat_ofNat', show (8 : UInt64).toNat = 8 from rfl]
    omega
  have hshift : (UInt64.ofNat ((7 - index) * 8)).toNat % 64 = (7 - index) * 8 := by
    rw [UInt64.toNat_ofNat_of_lt' (by show _ < 2 ^ 64; omega), Nat.mod_eq_of_lt (by omega)]
  have hpow : (2 : Nat) ^ 64 = 2 ^ ((7 - index) * 8) * 2 ^ (64 - (7 - index) * 8) := by
    rw [← Nat.pow_add, Nat.add_sub_cancel' (by omega)]
  have hbyte : (256 : Nat) ^ (7 - index) = 2 ^ ((7 - index) * 8) := by
    rw [Nat.mul_comm, Nat.pow_mul]
  rw [← UInt8.toNat_inj, UInt64.toNat_toUInt8, UInt64.toNat_shiftRight, UInt8.toNat_ofNat', hbits,
    hshift, Nat.shiftRight_eq_div_pow, hbyte, hpow, Nat.mod_mul_right_div_self]
  exact Nat.mod_mod_of_dvd _ (Nat.pow_dvd_pow 2 (by omega))

/-- The padded message has been absorbed when the digest is taken. -/
theorem finish_absorbed (h : Fed message s) :
    Absorbed (Sha256.pad message)
      ((padToLength 64 (s.update [0x80])).update (lengthBytes (s.totalBytes * 8))) := by
  have hdelimiter := update_absorbed h.toAbsorbed [0x80]
  have hlength : (message ++ [0x80]).length = message.length + 1 := by
    rw [List.length_append, List.length_singleton]
  have hzeros := padToLength_absorbed 64 hdelimiter (Nat.mod_lt _ (by omega))
  have hall := update_absorbed hzeros (lengthBytes (s.totalBytes * 8))
  rw [hlength, show (120 - (message.length + 1) % 64) % 64 = Sha256.padZeros message.length by
    unfold Sha256.padZeros; omega, h.total, lengthBytes_eq, List.append_assoc, List.append_assoc,
    List.singleton_append] at hall
  rw [h.total, lengthBytes_eq, Sha256.pad]
  exact hall

theorem toList_finish (s : Sha256Stream) : s.finish.toList = (hashValue
    ((padToLength 64 (s.update [0x80])).update (lengthBytes (s.totalBytes * 8))).state).bytes := by
  unfold finish
  rw [Vector.toList_ofFn]
  rfl

/-- **The digest of a stream** is that of its message. -/
theorem finish_eq_digest (h : Fed message s) : s.finish.toList = Sha256.digest message := by
  rw [toList_finish, (finish_absorbed h).state]
  rfl

end

end Sha256Stream

theorem toList_hashBytes (bytes : List UInt8) :
    (hashBytes bytes).toList = Sha256.digest bytes :=
  Sha256Stream.finish_eq_digest (Sha256Stream.update_fed Sha256Stream.fed_empty bytes)

theorem hashBytes_ne_zero {bytes : List UInt8}
    (h : Sha256.digest bytes ≠ List.replicate 32 0) : hashBytes bytes ≠ Vector.replicate 32 0 := by
  intro hzero
  apply h
  rw [← toList_hashBytes, hzero, Vector.toList_replicate]

/-- **Hashing.** `hashBytes` is SHA-256, and so is every stream, however its message is cut. -/
theorem hashBytes_eq_digest :
    (∀ bytes, (hashBytes bytes).toList = Sha256.digest bytes) ∧
      ∀ pieces : List (List UInt8),
        (pieces.foldl Sha256Stream.update {}).finish = hashBytes pieces.flatten := by
  refine ⟨toList_hashBytes, fun pieces => Vector.toList_inj.1 ?_⟩
  rw [toList_hashBytes]
  exact Sha256Stream.finish_eq_digest
    (Sha256Stream.foldl_update_fed pieces Sha256Stream.fed_empty)

end X360Port
