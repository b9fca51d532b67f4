import X360Port.ByteSpans
import X360Port.Digest
import X360Port.Library.WordArithmetic

/-!
# Describing a loaded PE image

`describeLoadedPeImage` reads the headers of an image as the loader left it,
flat at its base: each section's bytes stand at its raw offset. The code range
is the span of all executed sections. `DescribedBy` says what an accepted image
is, in terms of its headers, and `describeLoadedPeImage_meets` shows it along
with the fact that every read is inside the image.
-/

namespace X360Port

open Library

def kPowerPcBeMachine : UInt16 := 0x01F2
def kPe32Magic : UInt16 := 0x010B
def kCodeSection : UInt32 := 0x00000020

/-- The largest 64-bit number. -/
def kU64Max : Nat := 2 ^ 64 - 1

structure PeSection where
  name : StringView
  base : GuestAddress := 0
  size : UInt32 := 0
  code : Bool := false
  deriving DecidableEq, Repr

structure PeImageLayout where
  identity : ImageIdentity := {}
  code : CodeRange := {}
  sections : List PeSection := []
  deriving DecidableEq, Repr

/-! ## Reading the bytes -/

def readU16 (bytes : List UInt8) (offset : Nat) : Checked String UInt16 := do
  let b0 ← readAt bytes offset
  let b1 ← readAt bytes (offset + 1)
  return b0.toUInt16 ||| b1.toUInt16 <<< 8

def readU32 (bytes : List UInt8) (offset : Nat) : Checked String UInt32 := do
  let b0 ← readAt bytes offset
  let b1 ← readAt bytes (offset + 1)
  let b2 ← readAt bytes (offset + 2)
  let b3 ← readAt bytes (offset + 3)
  return b0.toUInt32 ||| b1.toUInt32 <<< 8 ||| b2.toUInt32 <<< 16 ||| b3.toUInt32 <<< 24

/-- The characters from an index on, up to a NUL or for the given number of them. -/
def sectionNameFrom (bytes : List UInt8) (offset : Nat) : Nat → Nat → Checked String StringView
  | 0, _ => return []
  | rounds + 1, index => do
    let character ← readAt bytes (offset + index)
    if character = 0 then
      return []
    let rest ← sectionNameFrom bytes offset rounds (index + 1)
    return character :: rest

def sectionName (bytes : List UInt8) (offset : Nat) : Checked String StringView :=
  sectionNameFrom bytes offset 8 0

/-- The little-endian half word a span holds at an offset. -/
def littleHalfAt (bytes : List UInt8) (offset : Nat) : UInt16 :=
  (contents bytes offset).toUInt16 ||| (contents bytes (offset + 1)).toUInt16 <<< 8

/-- The little-endian word a span holds at an offset. -/
def littleWordAt (bytes : List UInt8) (offset : Nat) : UInt32 :=
  (contents bytes offset).toUInt32 ||| (contents bytes (offset + 1)).toUInt32 <<< 8 |||
    (contents bytes (offset + 2)).toUInt32 <<< 16 ||| (contents bytes (offset + 3)).toUInt32 <<< 24

section

variable {α : Type} {P : α → Prop} {bytes : List UInt8} {offset : Nat}

theorem readU16_eq (h : offset + 2 ≤ bytes.length) :
    readU16 bytes offset = .ok (littleHalfAt bytes offset) := by
  unfold readU16 littleHalfAt
  rw [readAt_eq (by omega), readAt_eq (by omega), contents_of_lt (by omega),
    contents_of_lt (by omega)]
  rfl

theorem readU32_eq (h : offset + 4 ≤ bytes.length) :
    readU32 bytes offset = .ok (littleWordAt bytes offset) := by
  unfold readU32 littleWordAt
  rw [readAt_eq (by omega), readAt_eq (by omega), readAt_eq (by omega), readAt_eq (by omega),
    contents_of_lt (by omega), contents_of_lt (by omega), contents_of_lt (by omega),
    contents_of_lt (by omega)]
  rfl

theorem meets_readU16 {k : UInt16 → Checked String α} (hb : offset + 2 ≤ bytes.length)
    (h : Meets P (k (littleHalfAt bytes offset))) : Meets P (readU16 bytes offset >>= k) := by
  rw [readU16_eq hb]
  exact h

theorem meets_readU32 {k : UInt32 → Checked String α} (hb : offset + 4 ≤ bytes.length)
    (h : Meets P (k (littleWordAt bytes offset))) : Meets P (readU32 bytes offset >>= k) := by
  rw [readU32_eq hb]
  exact h

theorem sectionNameFrom_eq (rounds index : Nat) (h : offset + index + rounds ≤ bytes.length) :
    sectionNameFrom bytes offset rounds index =
      .ok (((bytes.drop (offset + index)).take rounds).takeWhile (· ≠ 0)) := by
  induction rounds generalizing index with
  | zero => rfl
  | succ rounds ih =>
    have hi : offset + index < bytes.length := by omega
    rw [sectionNameFrom, readAt_eq hi, ok_bind, List.drop_eq_getElem_cons hi, List.take_succ_cons]
    by_cases hnul : bytes[offset + index] = 0
    · rw [if_pos hnul, List.takeWhile_cons_of_neg (by simp [hnul])]
      rfl
    · rw [if_neg hnul, List.takeWhile_cons_of_pos (by simp [hnul]), ih (index + 1) (by omega)]
      rfl

theorem sectionName_eq (h : offset + 8 ≤ bytes.length) :
    sectionName bytes offset = .ok (((bytes.drop offset).take 8).takeWhile (· ≠ 0)) :=
  sectionNameFrom_eq 8 0 h

end

/-! ## The description -/

/-- The loop over the section table. -/
structure SectionScan where
  sections : List PeSection := []
  codeBegin : Nat := kU64Max
  codeEnd : Nat := 0

/-- One turn of the loop: the section at `index`. -/
def describeSection (source : List UInt8) (imageBase : GuestAddress) (sectionTable : Nat)
    (scan : SectionScan) (index : Nat) : Checked String SectionScan := do
  let entry := sectionTable + index * 40
  let rawSize ← readU32 source (entry + 16)
  let rawOffset ← readU32 source (entry + 20)
  let characteristics ← readU32 source (entry + 36)
  requireBytes source rawOffset.toNat rawSize.toNat "PE section exceeds the loaded image"
  let code := decide (characteristics &&& kCodeSection ≠ 0)
  let sectionAddress := imageBase.toNat + rawOffset.toNat
  refuseIf (sectionAddress + rawSize.toNat > 2 ^ 32)
    "PE section address overflows the guest address space"
  let name ← sectionName source entry
  let sections := scan.sections ++ [⟨name, .ofNat sectionAddress, rawSize, code⟩]
  if code ∧ rawSize ≠ 0 then
    return ⟨sections, min scan.codeBegin sectionAddress,
      max scan.codeEnd (sectionAddress + rawSize.toNat)⟩
  else
    return ⟨sections, scan.codeBegin, scan.codeEnd⟩

def describeLoadedPeImage (source : List UInt8) : Checked String PeImageLayout := do
  let error := "PE image is missing its DOS header"
  requireBytes source 0 0x40 error
  refuseIf ((← readAt source 0) ≠ 0x4d) error
  refuseIf ((← readAt source 1) ≠ 0x5a) error
  let peOffset := (← readU32 source 0x3C).toNat
  let error := "PE image has an invalid NT header offset or signature"
  requireBytes source peOffset (4 + 20) error
  refuseIf ((← readU32 source peOffset) ≠ 0x00004550) error
  let fileHeader := peOffset + 4
  let machine ← readU16 source fileHeader
  let sectionCount := (← readU16 source (fileHeader + 2)).toNat
  let optionalSize := (← readU16 source (fileHeader + 16)).toNat
  refuseIf (machine ≠ kPowerPcBeMachine ∨ sectionCount = 0 ∨ sectionCount > 96 ∨
    optionalSize < 224) "PE image is not a supported Xbox 360 PE32 image"
  let optional := fileHeader + 20
  let error := "PE image has an invalid PE32 optional header"
  requireBytes source optional optionalSize error
  refuseIf ((← readU16 source optional) ≠ kPe32Magic) error
  let imageBase ← readU32 source (optional + 28)
  let entryRva ← readU32 source (optional + 16)
  let imageSize ← readU32 source (optional + 56)
  let headerSize ← readU32 source (optional + 60)
  let sectionAlignment ← readU32 source (optional + 32)
  let error := "PE image has invalid guest-image geometry"
  refuseIf (imageBase = 0 ∨ imageBase &&& (kGuestImageBaseAlignment - 1) ≠ 0 ∨ imageSize = 0 ∨
    headerSize = 0 ∨ headerSize > imageSize ∨ sectionAlignment = 0) error
  requireBytes source 0 headerSize.toNat error
  let sectionTable := optional + optionalSize
  requireBytes source sectionTable (sectionCount * 40) "PE section table exceeds the loaded image"
  let scan ← (List.range sectionCount).foldlM (describeSection source imageBase sectionTable) {}
  let imageEnd := imageBase.toNat + source.length
  let entryPoint := imageBase.toNat + entryRva.toNat
  refuseIf (imageEnd > 2 ^ 32 ∨ scan.codeBegin = kU64Max ∨ scan.codeEnd ≤ scan.codeBegin ∨
    entryPoint < scan.codeBegin ∨ entryPoint ≥ scan.codeEnd ∨ entryPoint % 4 ≠ 0)
    "PE image has no valid executable range containing its entry point"
  let codeSize ← sub scan.codeEnd scan.codeBegin
  return {
    identity := {
      sha256 := hashBytes source, base := imageBase, size := .ofNat source.length,
      entryPoint := .ofNat entryPoint }
    code := ⟨.ofNat scan.codeBegin, .ofNat codeSize⟩
    sections := scan.sections }

/-! ## The headers of an image -/

/-- An entry of the section table. -/
structure SectionHeader where
  name : StringView
  rawSize : UInt32
  rawOffset : UInt32
  characteristics : UInt32
  deriving DecidableEq, Repr

/-- The entry of the section table at an offset. -/
def sectionHeaderAt (source : List UInt8) (entry : Nat) : SectionHeader where
  name := ((source.drop entry).take 8).takeWhile (· ≠ 0)
  rawSize := littleWordAt source (entry + 16)
  rawOffset := littleWordAt source (entry + 20)
  characteristics := littleWordAt source (entry + 36)

namespace SectionHeader

def code (h : SectionHeader) : Bool := decide (h.characteristics &&& kCodeSection ≠ 0)

/-- One past the last byte of the section in the image. -/
def rawEnd (h : SectionHeader) : Nat := h.rawOffset.toNat + h.rawSize.toNat

/-- A section that counts for the code range. -/
def Executed (h : SectionHeader) : Prop := h.code ∧ h.rawSize ≠ 0

instance (h : SectionHeader) : Decidable h.Executed := by
  unfold Executed; infer_instance

def toSection (imageBase : GuestAddress) (h : SectionHeader) : PeSection :=
  ⟨h.name, .ofNat (imageBase.toNat + h.rawOffset.toNat), h.rawSize, h.code⟩

end SectionHeader

def peFileHeader (source : List UInt8) : Nat := (littleWordAt source 0x3C).toNat + 4

def peOptionalHeader (source : List UInt8) : Nat := peFileHeader source + 20

/-- The base an image says it is placed at. -/
def peImageBase (source : List UInt8) : GuestAddress :=
  littleWordAt source (peOptionalHeader source + 28)

def peEntryRva (source : List UInt8) : UInt32 :=
  littleWordAt source (peOptionalHeader source + 16)

def peSectionTable (source : List UInt8) : Nat :=
  peOptionalHeader source + (littleHalfAt source (peFileHeader source + 16)).toNat

def sectionHeaders (source : List UInt8) : List SectionHeader :=
  (List.range (littleHalfAt source (peFileHeader source + 2)).toNat).map fun index =>
    sectionHeaderAt source (peSectionTable source + index * 40)

/-- The sections that make up the code range. -/
def executedSections (source : List UInt8) : List SectionHeader :=
  (sectionHeaders source).filter (·.Executed)

/-- What an accepted image is, in terms of its headers. -/
structure DescribedBy (source : List UInt8) (layout : PeImageLayout) : Prop where
  base : layout.identity.base = peImageBase source
  base_nonzero : peImageBase source ≠ 0
  base_aligned : peImageBase source &&& (kGuestImageBaseAlignment - 1) = 0
  size : layout.identity.size.toNat = source.length
  image_end : (peImageBase source).toNat + source.length ≤ 2 ^ 32
  sha256 : layout.identity.sha256 = hashBytes source
  sections : layout.sections = (sectionHeaders source).map (·.toSection (peImageBase source))
  sections_inside : ∀ h ∈ sectionHeaders source, h.rawEnd ≤ source.length
  entry : layout.identity.entryPoint.toNat = (peImageBase source).toNat + (peEntryRva source).toNat
  entry_aligned : layout.identity.entryPoint.toNat % 4 = 0
  entry_executed : layout.code.Contains layout.identity.entryPoint.toNat
  code_begin : ∃ h ∈ executedSections source,
    layout.code.base.toNat = (peImageBase source).toNat + h.rawOffset.toNat ∧
      ∀ other ∈ executedSections source, h.rawOffset.toNat ≤ other.rawOffset.toNat
  code_end : ∃ h ∈ executedSections source,
    layout.code.codeEnd = (peImageBase source).toNat + h.rawEnd ∧
      ∀ other ∈ executedSections source, other.rawEnd ≤ h.rawEnd

/-! ## What acceptance establishes -/

/-- The loop over the sections read so far. -/
structure ScannedTo (source : List UInt8) (imageBase : GuestAddress) (headers : List SectionHeader)
    (scan : SectionScan) : Prop where
  sections : scan.sections = headers.map (·.toSection imageBase)
  inside : ∀ h ∈ headers, h.rawEnd ≤ source.length
  begin_le : ∀ h ∈ headers, h.Executed → scan.codeBegin ≤ imageBase.toNat + h.rawOffset.toNat
  begin_at : scan.codeBegin = kU64Max ∨
    ∃ h ∈ headers, h.Executed ∧ scan.codeBegin = imageBase.toNat + h.rawOffset.toNat
  le_end : ∀ h ∈ headers, h.Executed → imageBase.toNat + h.rawEnd ≤ scan.codeEnd
  end_at : scan.codeEnd = 0 ∨
    ∃ h ∈ headers, h.Executed ∧ scan.codeEnd = imageBase.toNat + h.rawEnd

theorem scannedTo_nil (source : List UInt8) (imageBase : GuestAddress) :
    ScannedTo source imageBase [] {} :=
  ⟨rfl, (fun _ hh => nomatch hh), (fun _ hh => nomatch hh), .inl rfl, (fun _ hh => nomatch hh),
    .inl rfl⟩

theorem forall_mem_snoc {α : Type} {P : α → Prop} {xs : List α} {a : α} (hxs : ∀ x ∈ xs, P x)
    (ha : P a) : ∀ x ∈ xs ++ [a], P x := by
  intro x hx
  rcases List.mem_append.1 hx with hx | hx
  · exact hxs x hx
  · cases List.mem_singleton.1 hx
    exact ha

section

variable {source : List UInt8} {imageBase : GuestAddress} {sectionTable : Nat}
  {headers : List SectionHeader} {scan : SectionScan}

theorem describeSection_meets {index : Nat}
    (hentry : sectionTable + index * 40 + 40 ≤ source.length)
    (hscan : ScannedTo source imageBase headers scan) :
    Meets (ScannedTo source imageBase
        (headers ++ [sectionHeaderAt source (sectionTable + index * 40)]))
      (describeSection source imageBase sectionTable scan index) := by
  unfold describeSection
  refine meets_readU32 (by omega) (meets_readU32 (by omega) (meets_readU32 (by omega) ?_))
  refine meets_requireBytes fun hbytes => meets_refuseIf fun haddress => ?_
  rw [sectionName_eq (by omega), ok_bind]
  generalize hh : sectionHeaderAt source (sectionTable + index * 40) = h
  have hcode : decide (littleWordAt source (sectionTable + index * 40 + 36) &&& kCodeSection ≠ 0) =
      h.code := by rw [← hh]; rfl
  have hsize : littleWordAt source (sectionTable + index * 40 + 16) = h.rawSize := by
    rw [← hh]; rfl
  have hoffset : littleWordAt source (sectionTable + index * 40 + 20) = h.rawOffset := by
    rw [← hh]; rfl
  have hname : ((source.drop (sectionTable + index * 40)).take 8).takeWhile (· ≠ 0) = h.name := by
    rw [← hh]; rfl
  simp only [hcode, hsize, hoffset, hname] at hbytes haddress ⊢
  have hsections : scan.sections ++ [⟨h.name, .ofNat (imageBase.toNat + h.rawOffset.toNat),
      h.rawSize, h.code⟩] = (headers ++ [h]).map (·.toSection imageBase) := by
    rw [hscan.sections, List.map_append]
    rfl
  have hinside : ∀ x ∈ headers ++ [h], x.rawEnd ≤ source.length :=
    forall_mem_snoc hscan.inside hbytes
  have hrawEnd : imageBase.toNat + h.rawOffset.toNat + h.rawSize.toNat =
      imageBase.toNat + h.rawEnd := Nat.add_assoc _ _ _
  have hlift : ∀ {P : SectionHeader → Prop}, (∃ x ∈ headers, P x) → ∃ x ∈ headers ++ [h], P x :=
    fun ⟨x, hx, hP⟩ => ⟨x, List.mem_append_left _ hx, hP⟩
  have hlast : h ∈ headers ++ [h] := List.mem_append_right _ (List.mem_singleton_self h)
  by_cases hexecuted : h.code ∧ h.rawSize ≠ 0
  · rw [if_pos hexecuted, hrawEnd]
    refine ⟨hsections, hinside, forall_mem_snoc ?_ ?_, ?_, forall_mem_snoc ?_ ?_, ?_⟩
    · exact fun x hx he => Nat.le_trans (Nat.min_le_left _ _) (hscan.begin_le x hx he)
    · exact fun _ => Nat.min_le_right _ _
    · rcases Nat.le_total scan.codeBegin (imageBase.toNat + h.rawOffset.toNat) with hle | hle
      · dsimp only
        rw [Nat.min_eq_left hle]
        exact hscan.begin_at.imp_right hlift
      · exact .inr ⟨h, hlast, hexecuted, Nat.min_eq_right hle⟩
    · exact fun x hx he => Nat.le_trans (hscan.le_end x hx he) (Nat.le_max_left _ _)
    · exact fun _ => Nat.le_max_right _ _
    · rcases Nat.le_total scan.codeEnd (imageBase.toNat + h.rawEnd) with hle | hle
      · exact .inr ⟨h, hlast, hexecuted, Nat.max_eq_right hle⟩
      · dsimp only
        rw [Nat.max_eq_left hle]
        exact hscan.end_at.imp_right hlift
  · rw [if_neg hexecuted]
    exact ⟨hsections, hinside, forall_mem_snoc hscan.begin_le fun he => (hexecuted he).elim,
      hscan.begin_at.imp_right hlift, forall_mem_snoc hscan.le_end fun he => (hexecuted he).elim,
      hscan.end_at.imp_right hlift⟩

/-- The loop over the whole section table. -/
theorem describeSections_meets {count : Nat} (htable : sectionTable + count * 40 ≤ source.length) :
    Meets (ScannedTo source imageBase
        ((List.range count).map fun index =>
          sectionHeaderAt source (sectionTable + index * 40)))
      ((List.range count).foldlM (describeSection source imageBase sectionTable) {}) := by
  refine foldlM_meets (List.range count) ({} : SectionScan)
    (fun done scan => ScannedTo source imageBase
      (done.map fun index => sectionHeaderAt source (sectionTable + index * 40)) scan)
    (scannedTo_nil source imageBase) fun done index rest scan hsplit hscan => ?_
  have hmem : index ∈ List.range count := by
    rw [hsplit]
    exact List.mem_append_right _ List.mem_cons_self
  have hindex := List.mem_range.1 hmem
  rw [List.map_append]
  exact describeSection_meets (by omega) hscan

end

theorem mem_executedSections {source : List UInt8} {h : SectionHeader} :
    h ∈ executedSections source ↔ h ∈ sectionHeaders source ∧ h.Executed := by
  unfold executedSections
  rw [List.mem_filter, decide_eq_true_iff]

/-- The checks behind the loop over the sections. -/
theorem describedBy_of_scan {source : List UInt8} {scan : SectionScan}
    (hscan : ScannedTo source (peImageBase source) (sectionHeaders source) scan)
    (hbase : peImageBase source ≠ 0)
    (haligned : peImageBase source &&& (kGuestImageBaseAlignment - 1) = 0)
    (himage : (peImageBase source).toNat + source.length ≤ 2 ^ 32)
    (hunset : scan.codeBegin ≠ kU64Max)
    (hlow : scan.codeBegin ≤ (peImageBase source).toNat + (peEntryRva source).toNat)
    (hhigh : (peImageBase source).toNat + (peEntryRva source).toNat < scan.codeEnd)
    (hentry : ((peImageBase source).toNat + (peEntryRva source).toNat) % 4 = 0) :
    DescribedBy source {
      identity := {
        sha256 := hashBytes source, base := peImageBase source, size := .ofNat source.length,
        entryPoint := .ofNat ((peImageBase source).toNat + (peEntryRva source).toNat) }
      code := ⟨.ofNat scan.codeBegin, .ofNat (scan.codeEnd - scan.codeBegin)⟩
      sections := scan.sections } := by
  have hpositive : 0 < (peImageBase source).toNat := Word.toNat_pos hbase
  obtain ⟨first, hfirst, hexecuted, hbegin⟩ := hscan.begin_at.resolve_left hunset
  obtain ⟨last, hlast, hexecuted', hend⟩ := hscan.end_at.resolve_left (by omega)
  have hinside := hscan.inside last hlast
  have hfirstEnd := hscan.inside first hfirst
  have hbeginWord : (UInt32.ofNat scan.codeBegin).toNat = scan.codeBegin :=
    Word.toNat_ofNat (by omega)
  have hsizeWord : (UInt32.ofNat (scan.codeEnd - scan.codeBegin)).toNat =
      scan.codeEnd - scan.codeBegin := Word.toNat_ofNat (by omega)
  have hentryWord : (UInt32.ofNat ((peImageBase source).toNat + (peEntryRva source).toNat)).toNat =
      (peImageBase source).toNat + (peEntryRva source).toNat :=
    Word.toNat_ofNat (by omega)
  have hcodeEnd : (UInt32.ofNat scan.codeBegin).toNat +
      (UInt32.ofNat (scan.codeEnd - scan.codeBegin)).toNat = scan.codeEnd := by
    rw [hbeginWord, hsizeWord]
    omega
  refine ⟨rfl, hbase, haligned, ?_, himage, rfl, hscan.sections, hscan.inside, hentryWord, ?_, ?_,
    ⟨first, mem_executedSections.2 ⟨hfirst, hexecuted⟩, hbeginWord.trans hbegin,
      fun other hother => ?_⟩,
    ⟨last, mem_executedSections.2 ⟨hlast, hexecuted'⟩, hcodeEnd.trans hend,
      fun other hother => ?_⟩⟩
  · exact Word.toNat_ofNat (by omega)
  · dsimp only
    rw [hentryWord]
    exact hentry
  · unfold CodeRange.Contains CodeRange.codeEnd
    dsimp only
    rw [hcodeEnd, hentryWord, hbeginWord]
    exact ⟨hlow, hhigh⟩
  · obtain ⟨hmem, he⟩ := mem_executedSections.1 hother
    have := hscan.begin_le other hmem he
    omega
  · obtain ⟨hmem, he⟩ := mem_executedSections.1 hother
    have := hscan.le_end other hmem he
    omega

/-- **Description.** Every read is inside the image, and an accepted layout is that of its
headers. -/
theorem describeLoadedPeImage_meets (source : List UInt8) :
    Meets (DescribedBy source) (describeLoadedPeImage source) := by
  unfold describeLoadedPeImage
  refine meets_requireBytes fun hdos => ?_
  refine meets_readAt (by omega) (meets_refuseIf fun _ => ?_)
  refine meets_readAt (by omega) (meets_refuseIf fun _ => ?_)
  refine meets_readU32 (by omega) (meets_requireBytes fun hnt => ?_)
  refine meets_readU32 (by omega) (meets_refuseIf fun _ => ?_)
  refine meets_readU16 (by omega) (meets_readU16 (by omega) (meets_readU16 (by omega) ?_))
  refine meets_refuseIf fun hmachine => meets_requireBytes fun hoptional => ?_
  refine meets_readU16 (by omega) (meets_refuseIf fun _ => ?_)
  refine meets_readU32 (by omega) (meets_readU32 (by omega) (meets_readU32 (by omega) ?_))
  refine meets_readU32 (by omega) (meets_readU32 (by omega) (meets_refuseIf fun hgeometry => ?_))
  refine meets_requireBytes fun _ => meets_requireBytes fun htable => ?_
  refine meets_bind (describeSections_meets htable) fun scan _ hscan => ?_
  refine meets_refuseIf fun hrange => meets_sub (by omega) ?_
  simp only [not_or, ne_eq, not_not, gt_iff_lt, ge_iff_le, Nat.not_lt, Nat.not_le]
    at hgeometry hrange
  obtain ⟨hbase, haligned, -⟩ := hgeometry
  obtain ⟨himage, hunset, -, hlow, hhigh, hentry⟩ := hrange
  exact describedBy_of_scan hscan hbase haligned himage hunset hlow hhigh hentry

theorem describedBy_of_ok {source : List UInt8} {layout : PeImageLayout}
    (h : describeLoadedPeImage source = .ok layout) : DescribedBy source layout :=
  (describeLoadedPeImage_meets source).of_ok h

end X360Port
