import X360Port.GuestEndian
import X360Port.ModuleContract

/-!
# SHA-256 digests

`Sha256Stream` hashes a byte stream one byte at a time: a byte is put into
the 64-byte block, a full block is folded into the state at once, and the
message length is counted at the end of each `update`. `finish` pads through
the same `update`, so it reads the length before it pads. `hashBytes` is the
digest of an image and `hashImportManifest` that of an import manifest.
-/

namespace X360Port

def roundConstants : Vector UInt32 64 := #v[
  0x428a2f98, 0x71374491, 0xb5c0fbcf, 0xe9b5dba5, 0x3956c25b, 0x59f111f1, 0x923f82a4,
  0xab1c5ed5, 0xd807aa98, 0x12835b01, 0x243185be, 0x550c7dc3, 0x72be5d74, 0x80deb1fe,
  0x9bdc06a7, 0xc19bf174, 0xe49b69c1, 0xefbe4786, 0x0fc19dc6, 0x240ca1cc, 0x2de92c6f,
  0x4a7484aa, 0x5cb0a9dc, 0x76f988da, 0x983e5152, 0xa831c66d, 0xb00327c8, 0xbf597fc7,
  0xc6e00bf3, 0xd5a79147, 0x06ca6351, 0x14292967, 0x27b70a85, 0x2e1b2138, 0x4d2c6dfc,
  0x53380d13, 0x650a7354, 0x766a0abb, 0x81c2c92e, 0x92722c85, 0xa2bfe8a1, 0xa81a664b,
  0xc24b8b70, 0xc76c51a3, 0xd192e819, 0xd6990624, 0xf40e3585, 0x106aa070, 0x19a4c116,
  0x1e376c08, 0x2748774c, 0x34b0bcb5, 0x391c0cb3, 0x4ed8aa4a, 0x5b9cca4f, 0x682e6ff3,
  0x748f82ee, 0x78a5636f, 0x84c87814, 0x8cc70208, 0x90befffa, 0xa4506ceb, 0xbef9a3f7,
  0xc67178f2]

/-- Rotate right by `n`, `0 < n < 32`. -/
def rotr (x n : UInt32) : UInt32 := (x >>> n) ||| (x <<< (32 - n))

/-- A byte stream being hashed. The block position is below 64 between bytes. -/
structure Sha256Stream where
  state : Vector UInt32 8 := #v[0x6a09e667, 0xbb67ae85, 0x3c6ef372, 0xa54ff53a,
    0x510e527f, 0x9b05688c, 0x1f83d9ab, 0x5be0cd19]
  block : Vector UInt8 64 := Vector.replicate 64 0
  blockSize : Fin 64 := 0
  totalBytes : UInt64 := 0

namespace Sha256Stream

/-- The message schedule of a block. -/
def schedule (block : Vector UInt8 64) : Vector UInt32 64 :=
  let words := (List.range 16).foldl (fun words index => words.set! index
    (loadGuestWord block[index * 4]! block[index * 4 + 1]! block[index * 4 + 2]!
      block[index * 4 + 3]!)) (Vector.replicate 64 0)
  (List.range' 16 48).foldl (fun words index =>
    let sigma0 := rotr words[index - 15]! 7 ^^^ rotr words[index - 15]! 18 ^^^
      (words[index - 15]! >>> 3)
    let sigma1 := rotr words[index - 2]! 17 ^^^ rotr words[index - 2]! 19 ^^^
      (words[index - 2]! >>> 10)
    words.set! index (words[index - 16]! + sigma0 + words[index - 7]! + sigma1)) words

/-- One round over the working variables. -/
def round (words : Vector UInt32 64) (working : Vector UInt32 8) (index : Nat) :
    Vector UInt32 8 :=
  let sum1 := rotr working[4] 6 ^^^ rotr working[4] 11 ^^^ rotr working[4] 25
  let choose := (working[4] &&& working[5]) ^^^ (~~~working[4] &&& working[6])
  let temporary1 := working[7] + sum1 + choose + roundConstants[index]! + words[index]!
  let sum0 := rotr working[0] 2 ^^^ rotr working[0] 13 ^^^ rotr working[0] 22
  let majority := (working[0] &&& working[1]) ^^^ (working[0] &&& working[2]) ^^^
    (working[1] &&& working[2])
  let temporary2 := sum0 + majority
  -- every lane moves up by one, then lanes 4 and 0 take the temporaries
  #v[temporary1 + temporary2, working[0], working[1], working[2], working[3] + temporary1,
    working[4], working[5], working[6]]

/-- Fold the block into the state. -/
def compress (s : Sha256Stream) : Sha256Stream :=
  let words := schedule s.block
  let working := (List.range 64).foldl (round words) s.state
  { s with state := Vector.zipWith (· + ·) s.state working }

def updateByte (s : Sha256Stream) (value : UInt8) : Sha256Stream :=
  let filled := { s with block := s.block.set s.blockSize value }
  if h : s.blockSize.val + 1 < 64 then
    { filled with blockSize := ⟨s.blockSize.val + 1, h⟩ }
  else
    { filled.compress with blockSize := 0 }

def update (s : Sha256Stream) (bytes : List UInt8) : Sha256Stream :=
  let fed := bytes.foldl updateByte s
  { fed with totalBytes := fed.totalBytes + UInt64.ofNat bytes.length }

def updateU32 (s : Sha256Stream) (value : UInt32) : Sha256Stream := s.update (guestWordBytes value)

/-- Length-prefixed, so adjacent strings cannot run together. -/
def updateString (s : Sha256Stream) (value : StringView) : Sha256Stream :=
  (s.updateU32 (UInt32.ofNat value.length)).update value

/-- The message's bit length fills the last eight bytes of the final block. -/
def kLengthOffset : Nat := 56

/-- The padding loop, for at most `rounds` rounds. A block has 64 positions, so
64 rounds reach the length offset from any of them. -/
def padToLength : Nat → Sha256Stream → Sha256Stream
  | 0, s => s
  | rounds + 1, s =>
    if s.blockSize.val = kLengthOffset then s else padToLength rounds (s.update [0])

/-- The eight bytes of the bit length, most significant first. -/
def lengthBytes (bitLength : UInt64) : List UInt8 :=
  (List.range 8).map fun index => (bitLength >>> UInt64.ofNat ((7 - index) * 8)).toUInt8

def finish (s : Sha256Stream) : Sha256Digest :=
  let bitLength := s.totalBytes * 8
  let padded := (padToLength 64 (s.update [0x80])).update (lengthBytes bitLength)
  Vector.ofFn fun index : Fin 32 =>
    (padded.state[index.val / 4] >>> UInt32.ofNat (24 - index.val % 4 * 8)).toUInt8

end Sha256Stream

def hashBytes (bytes : List UInt8) : Sha256Digest :=
  (({} : Sha256Stream).update bytes).finish

def hashImportManifest (imports : List ImportRequirement) : Sha256Digest :=
  (imports.foldl (fun stream imp =>
    ((((((stream.updateU32 imp.kind.code).updateString imp.library).updateU32
      imp.ordinal).updateString imp.name).updateU32 imp.address).updateU32
      imp.recordAddress)) ({} : Sha256Stream)).finish

namespace Sha256Stream

@[simp] theorem compress_blockSize (s : Sha256Stream) : s.compress.blockSize = s.blockSize := rfl

theorem update_single_blockSize (s : Sha256Stream) (value : UInt8) :
    (s.update [value]).blockSize.val = (s.blockSize.val + 1) % 64 := by
  have hs := s.blockSize.isLt
  simp only [update, List.foldl_cons, List.foldl_nil, updateByte]
  split
  · next h => exact (Nat.mod_eq_of_lt h).symm
  · next h => simp [show s.blockSize.val + 1 = 64 by omega]

/-- The padding loop ends at the length offset. -/
theorem padToLength_blockSize (rounds : Nat) (s : Sha256Stream)
    (h : (56 + 64 - s.blockSize.val) % 64 < rounds) :
    (padToLength rounds s).blockSize.val = kLengthOffset := by
  have hk : kLengthOffset = 56 := rfl
  induction rounds generalizing s with
  | zero => omega
  | succ rounds ih =>
    unfold padToLength
    split
    · assumption
    · next hne =>
      have hs := s.blockSize.isLt
      exact ih _ (by rw [update_single_blockSize]; omega)

end Sha256Stream

end X360Port
