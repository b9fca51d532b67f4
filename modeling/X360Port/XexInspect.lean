import X360Port.ByteSpans
import X360Port.GuestEndian

/-!
# The XEX header

`validateHeader` checks the fixed header, the security header and the
file-format descriptor of an untrusted byte string before the loader sees it.
`findOptional` looks a key up in the optional-header table. Both are checked
computations over the byte string: a read outside it or a subtraction below
zero would show as a stop that is no refusal, and `validateHeader_meets` shows
there is none. The clauses of one refusal are tested in their order, each only
when the ones before it passed.

`size_t` is 64 bits wide. Every sum is of 32-bit numbers and lengths of spans,
so sums are `Nat` sums.
-/

namespace X360Port

open Library

def kXex2 : UInt32 := 0x58455832
def kXexHeaderPrefix : Nat := 0x18
def kSecurityPrefix : Nat := 0x184
def kPageDescriptorSize : Nat := 0x18
def kFileFormatMinimum : Nat := 0x14
def kImportHeaderMinimum : Nat := 0x0C
def kImportLibraryMinimum : Nat := 0x28

/-- The largest `size_t`. -/
def kSizeMax : Nat := 2 ^ 64 - 1

structure OptionalHeader where
  key : UInt32
  value : UInt32
  offset : Nat
  inlineValue : Bool
  deriving DecidableEq, Repr

structure HeaderGeometry where
  size : Nat := 0
  count : UInt32 := 0
  deriving DecidableEq, Repr

/-! ## Reading the bytes -/

def readU16Be (bytes : List UInt8) (offset : Nat) : Checked String UInt16 := do
  let b0 ← readAt bytes offset
  let b1 ← readAt bytes (offset + 1)
  return b0.toUInt16 <<< 8 ||| b1.toUInt16

def readU32Be (bytes : List UInt8) (offset : Nat) : Checked String UInt32 := do
  let b0 ← readAt bytes offset
  let b1 ← readAt bytes (offset + 1)
  let b2 ← readAt bytes (offset + 2)
  let b3 ← readAt bytes (offset + 3)
  return loadGuestWord b0 b1 b2 b3

/-- The big-endian half word a span holds at an offset. -/
def halfAt (bytes : List UInt8) (offset : Nat) : UInt16 :=
  (contents bytes offset).toUInt16 <<< 8 ||| (contents bytes (offset + 1)).toUInt16

/-- The big-endian word a span holds at an offset. -/
def wordAt (bytes : List UInt8) (offset : Nat) : UInt32 := loadWordAt (contents bytes) offset

section

variable {α : Type} {P : α → Prop} {bytes : List UInt8} {offset count : Nat}

theorem readU16Be_eq (h : offset + 2 ≤ bytes.length) :
    readU16Be bytes offset = .ok (halfAt bytes offset) := by
  unfold readU16Be halfAt
  rw [readAt_eq (by omega), readAt_eq (by omega), contents_of_lt (by omega),
    contents_of_lt (by omega)]
  rfl

theorem readU32Be_eq (h : offset + 4 ≤ bytes.length) :
    readU32Be bytes offset = .ok (wordAt bytes offset) := by
  unfold readU32Be wordAt loadWordAt
  rw [readAt_eq (by omega), readAt_eq (by omega), readAt_eq (by omega), readAt_eq (by omega),
    contents_of_lt (by omega), contents_of_lt (by omega), contents_of_lt (by omega),
    contents_of_lt (by omega)]
  rfl

theorem meets_readU16Be {k : UInt16 → Checked String α} (hb : offset + 2 ≤ bytes.length)
    (h : Meets P (k (halfAt bytes offset))) : Meets P (readU16Be bytes offset >>= k) := by
  rw [readU16Be_eq hb]
  exact h

theorem meets_readU32Be {k : UInt32 → Checked String α} (hb : offset + 4 ≤ bytes.length)
    (h : Meets P (k (wordAt bytes offset))) : Meets P (readU32Be bytes offset >>= k) := by
  rw [readU32Be_eq hb]
  exact h

end

/-! ## The optional-header table -/

/-- The lookup from an index on, for the given number of entries. -/
def findOptionalFrom (xex : List UInt8) (key : UInt32) (header : HeaderGeometry) :
    Nat → Nat → Checked String (Option OptionalHeader)
  | 0, _ => return none
  | rounds + 1, index => do
    let offset := kXexHeaderPrefix + index * 8
    if ¬ (← hasBytes xex offset 8) then
      return none
    let candidate ← readU32Be xex offset
    if candidate ≠ key then
      findOptionalFrom xex key header rounds (index + 1)
    else
      let value ← readU32Be xex (offset + 4)
      if key &&& 0xFF = 0 ∨ key &&& 0xFF = 1 then
        return some ⟨key, value, offset + 4, true⟩
      if value.toNat ≥ header.size then
        return none
      if ¬ (← hasBytes xex value.toNat 4) then
        return none
      return some ⟨key, value, value.toNat, false⟩

def findOptional (xex : List UInt8) (key : UInt32) (header : HeaderGeometry) :
    Checked String (Option OptionalHeader) :=
  findOptionalFrom xex key header header.count.toNat 0

/-! ## The checks -/

def validateHeader (xex : List UInt8) : Checked String (HeaderGeometry × Nat) := do
  requireBytes xex 0 kXexHeaderPrefix "XEX is shorter than its fixed header"
  refuseIf ((← readU32Be xex 0) ≠ kXex2) "only XEX2 is accepted by the checked inspector"
  let headerSize := (← readU32Be xex 8).toNat
  let securityOffset := (← readU32Be xex 0x10).toNat
  let count ← readU32Be xex 0x14
  let header : HeaderGeometry := ⟨headerSize, count⟩
  let error := "XEX optional-header table exceeds the source bytes"
  refuseIf (header.size < kXexHeaderPrefix) error
  refuseIf (header.size > xex.length) error
  refuseIf (header.count.toNat > (← sub header.size kXexHeaderPrefix) / 8) error
  requireBytes xex securityOffset kSecurityPrefix "XEX security header is truncated"
  let securityHeaderSize := (← readU32Be xex securityOffset).toNat
  let pageCount := (← readU32Be xex (securityOffset + 0x180)).toNat
  let descriptorBytes := pageCount * kPageDescriptorSize
  let error := "XEX security page descriptors exceed the source bytes"
  refuseIf (securityHeaderSize < kSecurityPrefix) error
  refuseIf (descriptorBytes > (← sub kSizeMax kSecurityPrefix)) error
  requireBytes xex securityOffset (kSecurityPrefix + descriptorBytes) error
  refuseIf (securityHeaderSize > (← sub xex.length securityOffset)) error
  let imageSize := (← readU32Be xex (securityOffset + 4)).toNat
  let loadAddress := (← readU32Be xex (securityOffset + 0x110)).toNat
  refuseIf (imageSize = 0 ∨ loadAddress = 0 ∨ loadAddress + imageSize > 2 ^ 32)
    "XEX security image geometry is invalid"
  match ← findOptional xex 0x000003FF header with
  | none => throw (.refused "XEX has no complete file-format descriptor")
  | some fileFormat =>
    refuseIf fileFormat.inlineValue "XEX has no complete file-format descriptor"
    requireBytes xex fileFormat.offset kFileFormatMinimum
      "XEX has no complete file-format descriptor"
    let fileInfoSize := (← readU32Be xex fileFormat.offset).toNat
    let error := "XEX file-format descriptor exceeds the header"
    refuseIf (fileInfoSize < kFileFormatMinimum) error
    refuseIf (fileInfoSize > (← sub header.size fileFormat.offset)) error
    let encryption ← readU16Be xex (fileFormat.offset + 4)
    let compression ← readU16Be xex (fileFormat.offset + 6)
    refuseIf (encryption > 1 ∨ compression > 2)
      "XEX uses an unsupported encryption or compression mode"
    checkWhen (compression = 2) do
      refuseIf ((← readU32Be xex (fileFormat.offset + 8)) = 0)
        "XEX normal compression has no LZX window"
    refuseIf (header.size = xex.length) "XEX has no encrypted or compressed image payload"
    checkWhen (encryption = 1) do
      refuseIf ((← sub xex.length header.size) % 16 ≠ 0)
        "XEX encrypted image payload is not AES-block aligned"
    return (header, securityOffset)

/-! ## What the checks establish -/

/-- A lookup stays defined. An answer that is not inline lies in the header and in the bytes. -/
theorem findOptional_meets (xex : List UInt8) (key : UInt32) (header : HeaderGeometry) :
    Meets (fun found => ∀ o, found = some o → o.inlineValue = false →
      o.offset = o.value.toNat ∧ o.offset < header.size ∧ o.offset + 4 ≤ xex.length)
      (findOptional xex key header) := by
  unfold findOptional
  generalize header.count.toNat = rounds
  generalize 0 = index
  induction rounds generalizing index with
  | zero => exact fun o ho => nomatch ho
  | succ rounds ih =>
    unfold findOptionalFrom
    refine meets_hasBytes (fun hentry => ?_) fun _ => ?_
    · refine meets_readU32Be (by omega) ?_
      split
      · exact ih (index + 1)
      refine meets_readU32Be (by omega) ?_
      split
      · rintro o ⟨⟩ hinline
        cases hinline
      split
      · exact fun o ho => nomatch ho
      · next hvalue =>
        refine meets_hasBytes (fun hbytes => ?_) fun _ => ?_
        · rintro o ⟨⟩ -
          exact ⟨rfl, Nat.lt_of_not_le hvalue, hbytes⟩
        · exact fun o ho => nomatch ho
    · exact fun o ho => nomatch ho

/-- The header words of an accepted byte string and what was checked about them. -/
structure HeaderAccepted (xex : List UInt8) (header : HeaderGeometry) (securityOffset : Nat) :
    Prop where
  size_word : header.size = (wordAt xex 8).toNat
  count_word : header.count = wordAt xex 0x14
  security_word : securityOffset = (wordAt xex 0x10).toNat
  prefix_in_header : kXexHeaderPrefix ≤ header.size
  payload : header.size < xex.length
  table_in_header : kXexHeaderPrefix + header.count.toNat * 8 ≤ header.size
  security_minimum : kSecurityPrefix ≤ (wordAt xex securityOffset).toNat
  security_in_source : securityOffset + (wordAt xex securityOffset).toNat ≤ xex.length
  pages_in_source : securityOffset + (kSecurityPrefix +
    (wordAt xex (securityOffset + 0x180)).toNat * kPageDescriptorSize) ≤ xex.length
  file_format : ∃ o, findOptional xex 0x000003FF header = .ok (some o) ∧
    kFileFormatMinimum ≤ (wordAt xex o.offset).toNat ∧
    o.offset + (wordAt xex o.offset).toNat ≤ header.size

/-- Every read of the header checks is inside the bytes, and an accepted header is as stated. -/
theorem validateHeader_meets (xex : List UInt8) :
    Meets (fun r => HeaderAccepted xex r.1 r.2) (validateHeader xex) := by
  have hprefix : kXexHeaderPrefix = 0x18 := rfl
  have hsecurity : kSecurityPrefix = 0x184 := rfl
  have hformat : kFileFormatMinimum = 0x14 := rfl
  unfold validateHeader
  refine meets_requireBytes fun hfixed => ?_
  refine meets_readU32Be (by omega) (meets_refuseIf fun _ => ?_)
  refine meets_readU32Be (by omega) (meets_readU32Be (by omega) (meets_readU32Be (by omega) ?_))
  refine meets_refuseIf fun hsize => meets_refuseIf fun hsource => ?_
  refine meets_sub (by omega) (meets_refuseIf fun htable => ?_)
  refine meets_requireBytes fun hsec => ?_
  refine meets_readU32Be (by omega) (meets_readU32Be (by omega) (meets_refuseIf fun hmin => ?_))
  refine meets_sub (by decide) (meets_refuseIf fun _ => meets_requireBytes fun hpages => ?_)
  refine meets_sub (by omega) (meets_refuseIf fun hend => ?_)
  refine meets_readU32Be (by omega) (meets_readU32Be (by omega) (meets_refuseIf fun _ => ?_))
  refine meets_bind (findOptional_meets xex _ _) fun found hfound hfacts => ?_
  rcases found with _ | o
  · exact trivial
  refine meets_refuseIf fun hinline => meets_requireBytes fun hbytes => ?_
  obtain ⟨-, hoffset, -⟩ := hfacts o rfl (by simpa using hinline)
  refine meets_readU32Be (by omega) (meets_refuseIf fun hinfo => ?_)
  refine meets_sub (by omega) (meets_refuseIf fun hinfoEnd => ?_)
  refine meets_readU16Be (by omega) (meets_readU16Be (by omega) (meets_refuseIf fun _ => ?_))
  refine meets_checkWhen (fun _ => ?_) (meets_refuseIf fun hpayload => ?_)
  · exact meets_readU32Be (by omega) ((refuseIf_meets _ _).mono fun _ _ => trivial)
  refine meets_checkWhen (fun _ => ?_) ?_
  · exact meets_sub (by omega) ((refuseIf_meets _ _).mono fun _ _ => trivial)
  show HeaderAccepted xex ⟨(wordAt xex 8).toNat, wordAt xex 0x14⟩ (wordAt xex 0x10).toNat
  exact ⟨rfl, rfl, rfl, by omega, by omega, by omega, by omega, by omega, hpages,
    o, hfound, by omega, by omega⟩

theorem validateHeader_accepted {xex : List UInt8} {header : HeaderGeometry}
    {securityOffset : Nat} (h : validateHeader xex = .ok (header, securityOffset)) :
    HeaderAccepted xex header securityOffset := (validateHeader_meets xex).of_ok h

/-- The header of an accepted file is as long as it declares. -/
theorem length_take_header {xex : List UInt8} {header : HeaderGeometry} {securityOffset : Nat}
    (h : validateHeader xex = .ok (header, securityOffset)) :
    (xex.take header.size).length = header.size := by
  have hpayload := (validateHeader_accepted h).payload
  rw [List.length_take]
  omega

end X360Port
