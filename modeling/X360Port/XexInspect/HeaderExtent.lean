import X360Port.XexInspect

/-!
# Where the header structures lie

The loader copies the first `header.size` bytes of an accepted file and reads
the optional-header table, the security header with its page descriptors and
the file-format descriptor from that copy. `validateHeader` measures the table
and the file format against the header, but the security structures against
the whole source (`validateHeader_structures_iff`).
-/

namespace X360Port

open Library

/-- Every structure the checks vouch for lies in the first `header.size` bytes. -/
structure StructuresInHeader (xex : List UInt8) (header : HeaderGeometry) (securityOffset : Nat) :
    Prop where
  optional_table : kXexHeaderPrefix + header.count.toNat * 8 ≤ header.size
  security_header : securityOffset + (wordAt xex securityOffset).toNat ≤ header.size
  page_descriptors : securityOffset + (kSecurityPrefix +
    (wordAt xex (securityOffset + 0x180)).toNat * kPageDescriptorSize) ≤ header.size
  file_format : ∀ o, findOptional xex 0x000003FF header = .ok (some o) →
    o.offset + (wordAt xex o.offset).toNat ≤ header.size

/-- One past the last byte of the security header and of its page descriptors. -/
def securityEnd (xex : List UInt8) : Nat :=
  let securityOffset := (wordAt xex 0x10).toNat
  securityOffset + max (wordAt xex securityOffset).toNat
    (kSecurityPrefix + (wordAt xex (securityOffset + 0x180)).toNat * kPageDescriptorSize)

/-- **Header extent.** The structures of an accepted file lie in its header exactly when the
security structures end inside the declared header size. -/
theorem validateHeader_structures_iff {xex : List UInt8} {header : HeaderGeometry}
    {securityOffset : Nat} (h : validateHeader xex = .ok (header, securityOffset)) :
    StructuresInHeader xex header securityOffset ↔ securityEnd xex ≤ (wordAt xex 8).toNat := by
  have accepted := validateHeader_accepted h
  have hend : securityEnd xex = securityOffset + max (wordAt xex securityOffset).toNat
      (kSecurityPrefix +
        (wordAt xex (securityOffset + 0x180)).toNat * kPageDescriptorSize) := by
    rw [securityEnd, ← accepted.security_word]
  rw [hend, ← accepted.size_word]
  constructor
  · intro s
    have hs := s.security_header
    have hp := s.page_descriptors
    omega
  · intro hle
    refine ⟨accepted.table_in_header, by omega, by omega, ?_⟩
    intro o ho
    obtain ⟨o', ho', -, hin⟩ := accepted.file_format
    rw [ho] at ho'
    cases ho'
    exact hin

section Files

/-- A security header of the least size, without page descriptors, for a one-page image. -/
def plainSecurity : List UInt8 :=
  ([0x184, 0x1000] ++ List.replicate 66 0 ++ 0x82000000 :: List.replicate 28 0 :
    List UInt32).flatMap guestWordBytes

/-- A file whose optional header is a plain file format. -/
def plainFile (headerSize securityOffset : UInt32) (rest : List UInt8) : List UInt8 :=
  [kXex2, 0, headerSize, 0, securityOffset, 1, 0x3FF, 0x20, 0x14, 0, 0, 0, 0].flatMap
    guestWordBytes ++ rest

/-- The header ends where the security header begins. -/
def lateSecurityFile : List UInt8 := plainFile 0x34 0x34 plainSecurity

theorem lateSecurityFile_accepted :
    validateHeader lateSecurityFile = .ok (⟨0x34, 1⟩, 0x34) := by decide +kernel

/-- The same structures inside the header, with one word of payload behind them. -/
def sealedFile : List UInt8 := plainFile 0x1b8 0x34 (plainSecurity ++ [0, 0, 0, 0])

theorem sealedFile_accepted : validateHeader sealedFile = .ok (⟨0x1b8, 1⟩, 0x34) := by
  decide +kernel

theorem validateHeader_structures_late : ¬ ∀ xex header securityOffset,
    validateHeader xex = .ok (header, securityOffset) →
      StructuresInHeader xex header securityOffset := by
  intro h
  have hs := (h _ _ _ lateSecurityFile_accepted).security_header
  revert hs
  decide +kernel

theorem validateHeader_structures_sealed : StructuresInHeader sealedFile ⟨0x1b8, 1⟩ 0x34 :=
  (validateHeader_structures_iff sealedFile_accepted).2 (by decide +kernel)

end Files

end X360Port
