import X360Port.PeImage

/-!
# The images that are described

`PeAcceptable` says of a byte string, field by field, what makes it an image
that `describeLoadedPeImage` describes. It asks for nothing that the description
does not test, and the description tests nothing else: the sections' addresses,
which it tests one by one, cannot overflow in an image whose end does not.
-/

namespace X360Port

open Library

/-- The number of entries of the section table. -/
def peSectionCount (source : List UInt8) : Nat :=
  (littleHalfAt source (peFileHeader source + 2)).toNat

def peEntryPoint (source : List UInt8) : Nat :=
  (peImageBase source).toNat + (peEntryRva source).toNat

/-- The words of the optional header that are there to be checked only. -/
structure PeGeometry (source : List UInt8) : Prop where
  base : peImageBase source ≠ 0
  base_aligned : peImageBase source &&& (kGuestImageBaseAlignment - 1) = 0
  image_size : littleWordAt source (peOptionalHeader source + 56) ≠ 0
  header_size : littleWordAt source (peOptionalHeader source + 60) ≠ 0
  header_in_image : littleWordAt source (peOptionalHeader source + 60) ≤
    littleWordAt source (peOptionalHeader source + 56)
  section_alignment : littleWordAt source (peOptionalHeader source + 32) ≠ 0

structure PeAcceptable (source : List UInt8) : Prop where
  dos : 0x40 ≤ source.length ∧ contents source 0 = 0x4d ∧ contents source 1 = 0x5a
  file_header : peOptionalHeader source ≤ source.length
  signature : littleWordAt source (littleWordAt source 0x3C).toNat = 0x00004550
  machine : littleHalfAt source (peFileHeader source) = kPowerPcBeMachine
  section_count : peSectionCount source ≠ 0 ∧ peSectionCount source ≤ 96
  optional_size : 224 ≤ (littleHalfAt source (peFileHeader source + 16)).toNat
  optional_header : peSectionTable source ≤ source.length
  magic : littleHalfAt source (peOptionalHeader source) = kPe32Magic
  geometry : PeGeometry source
  header_in_source : (littleWordAt source (peOptionalHeader source + 60)).toNat ≤ source.length
  section_table : peSectionTable source + peSectionCount source * 40 ≤ source.length
  sections : ∀ h ∈ sectionHeaders source, h.rawEnd ≤ source.length
  image_end : (peImageBase source).toNat + source.length ≤ 2 ^ 32
  entry_aligned : peEntryPoint source % 4 = 0
  entry_after : ∃ h ∈ executedSections source, h.rawOffset.toNat ≤ (peEntryRva source).toNat
  entry_before : ∃ h ∈ executedSections source, (peEntryRva source).toNat < h.rawEnd

section

variable {source : List UInt8} {imageBase : GuestAddress} {sectionTable : Nat}
  {scan : SectionScan}

/-! ## The loop over the sections -/

/-- The sections seen give the entry point its place. -/
theorem ScannedTo.entry (h : ScannedTo source (peImageBase source) (sectionHeaders source) scan)
    (hunset : scan.codeBegin ≠ kU64Max) (hlow : scan.codeBegin ≤ peEntryPoint source)
    (hhigh : peEntryPoint source < scan.codeEnd) :
    (∃ h ∈ executedSections source, h.rawOffset.toNat ≤ (peEntryRva source).toNat) ∧
      ∃ h ∈ executedSections source, (peEntryRva source).toNat < h.rawEnd := by
  unfold peEntryPoint at hlow hhigh
  obtain ⟨first, hfirst, hexecuted, hbegin⟩ := h.begin_at.resolve_left hunset
  obtain ⟨last, hlast, hexecuted', hend⟩ := h.end_at.resolve_left (by omega)
  exact ⟨⟨first, mem_executedSections.2 ⟨hfirst, hexecuted⟩, by omega⟩,
    last, mem_executedSections.2 ⟨hlast, hexecuted'⟩, by omega⟩

/-- And the other way round. -/
theorem PeAcceptable.range (h : PeAcceptable source)
    (hscan : ScannedTo source (peImageBase source) (sectionHeaders source) scan) :
    scan.codeBegin ≤ peEntryPoint source ∧ peEntryPoint source < scan.codeEnd := by
  obtain ⟨first, hfirst, hafter⟩ := h.entry_after
  obtain ⟨last, hlast, hbefore⟩ := h.entry_before
  obtain ⟨hmem, hexecuted⟩ := mem_executedSections.1 hfirst
  obtain ⟨hmem', hexecuted'⟩ := mem_executedSections.1 hlast
  have hbegin := hscan.begin_le first hmem hexecuted
  have hend := hscan.le_end last hmem' hexecuted'
  unfold peEntryPoint
  omega

end

end X360Port
