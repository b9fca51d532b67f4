import X360Port.Digest.Blocks
import X360Port.PeImage
import X360Port.Validation.WellFormed

/-!
# Described images and the image validator

A title seals a described image: its bytes, its identity, its code range and an
empty import manifest. `validateModule` asks for an aligned code range, and
`describeLoadedPeImage` aligns only the entry point.
`describeLoadedPeImage_validates_iff` says when the two agree: the executed
sections begin and end on word boundaries of the image.
-/

namespace X360Port

/-- The module a described image is sealed as. -/
def sealedModule (source : List UInt8) (layout : PeImageLayout) : GuestModule where
  descriptor := ⟨layout.identity, layout.code, 0, hashImportManifest []⟩
  imageBytes := source
  importManifest := []

/-- The first executed section begins, and the last one ends, on a word boundary. -/
def ExecutedAligned (source : List UInt8) : Prop :=
  (∃ h ∈ executedSections source, h.rawOffset.toNat % 4 = 0 ∧
    ∀ other ∈ executedSections source, h.rawOffset.toNat ≤ other.rawOffset.toNat) ∧
  ∃ h ∈ executedSections source, h.rawEnd % 4 = 0 ∧
    ∀ other ∈ executedSections source, other.rawEnd ≤ h.rawEnd

instance (source : List UInt8) : Decidable (ExecutedAligned source) := by
  unfold ExecutedAligned; infer_instance

section

variable {source : List UInt8} {layout : PeImageLayout}

theorem DescribedBy.base_multiple (h : DescribedBy source layout) :
    (peImageBase source).toNat % 65536 = 0 :=
  (and_mask_eq_zero_iff 16 (show (kGuestImageBaseAlignment - 1).toNat = 2 ^ 16 - 1 from rfl)).1
    h.base_aligned

/-- The code range is aligned exactly when the executed sections are. -/
theorem DescribedBy.code_aligned_iff (h : DescribedBy source layout) :
    layout.code.base.toNat % 4 = 0 ∧ layout.code.size.toNat % 4 = 0 ↔ ExecutedAligned source := by
  obtain ⟨first, hfirst, hbegin, hleast⟩ := h.code_begin
  obtain ⟨last, hlast, hend, hgreatest⟩ := h.code_end
  have hbase := h.base_multiple
  have hcodeEnd : layout.code.codeEnd = layout.code.base.toNat + layout.code.size.toNat := rfl
  constructor
  · rintro ⟨hb, hs⟩
    exact ⟨⟨first, hfirst, by omega, hleast⟩, ⟨last, hlast, by omega, hgreatest⟩⟩
  · rintro ⟨⟨first', hfirst', hb, hleast'⟩, ⟨last', hlast', he, hgreatest'⟩⟩
    have h1 := hleast first' hfirst'
    have h2 := hleast' first hfirst
    have h3 := hgreatest last' hlast'
    have h4 := hgreatest' last hlast
    exact ⟨by omega, by omega⟩

/-- Everything but the alignment of the code range is as the validator asks. -/
theorem DescribedBy.wellFormed (h : DescribedBy source layout)
    (hdigest : layout.identity.sha256 ≠ Vector.replicate 32 0)
    (haligned : layout.code.base.toNat % 4 = 0 ∧ layout.code.size.toNat % 4 = 0) :
    WellFormedModule (sealedModule source layout) := by
  obtain ⟨first, hfirst, hbegin, -⟩ := h.code_begin
  obtain ⟨last, hlast, hend, -⟩ := h.code_end
  have hinside := h.sections_inside last (mem_executedSections.1 hlast).1
  have hbase : layout.identity.base.toNat = (peImageBase source).toNat := by rw [h.base]
  have hsize := h.size
  have himage : layout.identity.imageEnd =
      layout.identity.base.toNat + layout.identity.size.toNat := rfl
  have hlimit := h.image_end
  have hentry := h.entry_executed
  have hnonempty : 0 < layout.code.size.toNat := by
    unfold CodeRange.Contains CodeRange.codeEnd at hentry
    omega
  exact ⟨hdigest, h.sha256.symm, h.size.symm, hbase ▸ h.base_multiple,
    (by omega : layout.identity.imageEnd ≤ 2 ^ 32), hnonempty, haligned,
    (by omega : layout.identity.base.toNat ≤ layout.code.base.toNat ∧
      layout.code.codeEnd ≤ layout.identity.imageEnd),
    h.entry_aligned, hentry, rfl, (fun _ himp => nomatch himp), .nil, .nil, rfl⟩

/-- A described image is accepted exactly when its code range is aligned. -/
theorem DescribedBy.validates_iff (h : DescribedBy source layout)
    (hdigest : layout.identity.sha256 ≠ Vector.replicate 32 0) :
    (validateModule (sealedModule source layout)).Ok ↔ ExecutedAligned source := by
  rw [validateModule_accepts_iff, ← h.code_aligned_iff]
  constructor
  · exact fun hmodule => hmodule.1.code_aligned
  · exact fun haligned => ⟨h.wellFormed hdigest haligned, fun _ himp => nomatch himp⟩

/-- **Agreement with the validator.** A described image whose digest is not all zero validates
exactly when its executed sections begin and end on word boundaries. -/
theorem describeLoadedPeImage_validates_iff (h : describeLoadedPeImage source = .ok layout)
    (hdigest : layout.identity.sha256 ≠ Vector.replicate 32 0) :
    (validateModule (sealedModule source layout)).Ok ↔ ExecutedAligned source :=
  (describedBy_of_ok h).validates_iff hdigest

end

section Images

/-- A one-section image at `0x82000000`, entered at `0x164`. -/
def oneSectionImage (rawSize rawOffset : UInt32) : List UInt8 :=
  let dos : List UInt32 := 0x5a4d :: List.replicate 14 0 ++ [0x40]
  let file : List UInt32 := [0x4550, 0x000101f2, 0, 0, 0, 0xe0]
  let optional : List UInt32 := [0x10b, 0, 0, 0, 0x164, 0, 0, 0x82000000, 0x1000, 0, 0, 0, 0, 0,
    0x170, 0x160] ++ List.replicate 40 0
  let table : List UInt32 := [0x7865742e, 0x74, 0, 0, rawSize, rawOffset, 0, 0, 0, 0x60000020]
  (dos ++ file ++ optional ++ table ++ List.replicate 4 0x4e800020).flatMap fun word =>
    (guestWordBytes word).reverse

/-- Code from `0x162`, between two words. -/
def unalignedImage : List UInt8 := oneSectionImage 0x0e 0x162

/-- Code from `0x160` to the end of the image. -/
def alignedImage : List UInt8 := oneSectionImage 0x10 0x160

theorem exists_layout (source : List UInt8)
    (h : (describeLoadedPeImage source).toOption.isSome) :
    ∃ layout, describeLoadedPeImage source = .ok layout := by
  cases hd : describeLoadedPeImage source with
  | ok layout => exact ⟨layout, rfl⟩
  | error stop =>
    rw [hd] at h
    cases h

theorem describeLoadedPeImage_validates_unaligned : ¬ ∀ source layout,
    describeLoadedPeImage source = .ok layout →
    layout.identity.sha256 ≠ Vector.replicate 32 0 →
    (validateModule (sealedModule source layout)).Ok := by
  intro h
  obtain ⟨layout, hlayout⟩ := exists_layout unalignedImage (by decide +kernel)
  have hdescribed := describedBy_of_ok hlayout
  have hdigest : layout.identity.sha256 ≠ Vector.replicate 32 0 := by
    rw [hdescribed.sha256]
    exact hashBytes_ne_zero (by decide +kernel)
  have haligned := (hdescribed.validates_iff hdigest).1 (h _ _ hlayout hdigest)
  revert haligned
  decide +kernel

theorem describeLoadedPeImage_validates_aligned : ∃ layout,
    describeLoadedPeImage alignedImage = .ok layout ∧
      (validateModule (sealedModule alignedImage layout)).Ok := by
  obtain ⟨layout, hlayout⟩ := exists_layout alignedImage (by decide +kernel)
  refine ⟨layout, hlayout, (describeLoadedPeImage_validates_iff hlayout ?_).2 (by decide +kernel)⟩
  rw [(describedBy_of_ok hlayout).sha256]
  exact hashBytes_ne_zero (by decide +kernel)

end Images

end X360Port
