import Mathlib.Order.Bounds.Basic
import Mathlib.Order.Interval.Set.LinearOrder
import X360Port.PeImage

/-!
# Where an accepted image and its sections stand

`DescribedBy` ties a layout to the headers of the bytes. `PlacedImage` says
what that means for the addresses: the image fits the guest's address space,
its sections stand inside it, and the code range is the smallest interval
around the executed bytes.
-/

namespace X360Port

open Library

/-! ## Intervals -/

/-- An interval that holds a set, begins in it and ends right behind it is the smallest one. -/
theorem isLeast_Ico {α : Type} [Preorder α] {S : Set α} {lo hi : α} (hsub : S ⊆ Set.Ico lo hi)
    (hlo : lo ∈ S) (hhi : ∀ h, (∀ x ∈ S, x < h) → hi ≤ h) :
    IsLeast {I | (∃ l h, I = Set.Ico l h) ∧ S ⊆ I} (Set.Ico lo hi) := by
  refine ⟨⟨⟨lo, hi, rfl⟩, hsub⟩, ?_⟩
  rintro I ⟨⟨l, h, rfl⟩, hS⟩
  exact Set.Ico_subset_Ico (hS hlo).1 (hhi h fun x hx => (hS hx).2)

/-- The addresses of a section. -/
def PeSection.addresses (s : PeSection) : Set Nat :=
  Set.Ico s.base.toNat (s.base.toNat + s.size.toNat)

def CodeRange.addresses (code : CodeRange) : Set Nat := Set.Ico code.base.toNat code.codeEnd

def ImageIdentity.addresses (image : ImageIdentity) : Set Nat :=
  Set.Ico image.base.toNat image.imageEnd

/-- The addresses of the code sections; an empty one has none. -/
def PeImageLayout.executed (layout : PeImageLayout) : Set Nat :=
  {a | ∃ s ∈ layout.sections, s.code ∧ a ∈ s.addresses}

structure PlacedImage (source : List UInt8) (layout : PeImageLayout) : Prop where
  size : layout.identity.size.toNat = source.length
  image_end : layout.identity.imageEnd ≤ 2 ^ 32
  /-- The sections are the entries of the section table, in its order. -/
  sections : layout.sections = (sectionHeaders source).map (·.toSection layout.identity.base)
  sections_read : ∀ h ∈ sectionHeaders source, h.rawEnd ≤ source.length
  sections_inside : ∀ s ∈ layout.sections, s.addresses ⊆ layout.identity.addresses
  /-- An empty section has no addresses, and its base has wrapped to 0 if it stands behind an image
  that ends at `2 ^ 32`. -/
  section_bounds : ∀ s ∈ layout.sections, 0 < s.size.toNat →
    layout.identity.base.toNat ≤ s.base.toNat ∧
      s.base.toNat + s.size.toNat ≤ layout.identity.imageEnd
  code_least : IsLeast {I | (∃ lo hi, I = Set.Ico lo hi) ∧ layout.executed ⊆ I}
    layout.code.addresses
  code_nonempty : layout.code.addresses.Nonempty
  code_inside : layout.code.addresses ⊆ layout.identity.addresses
  entry_aligned : layout.identity.entryPoint.toNat % 4 = 0
  entry_inside : layout.identity.entryPoint.toNat ∈ layout.code.addresses

/-! ## Placing the sections -/

namespace DescribedBy

variable {source : List UInt8} {layout : PeImageLayout}

theorem imageEnd_eq (h : DescribedBy source layout) :
    layout.identity.imageEnd = (peImageBase source).toNat + source.length := by
  rw [ImageIdentity.imageEnd, h.base, h.size]

/-- Only the address of an empty section can wrap. -/
theorem toNat_section_base (h : DescribedBy source layout) {header : SectionHeader}
    (hmem : header ∈ sectionHeaders source) (hsize : 0 < header.rawSize.toNat) :
    (header.toSection (peImageBase source)).base.toNat =
      (peImageBase source).toNat + header.rawOffset.toNat := by
  have hend := h.image_end
  have hinside := h.sections_inside header hmem
  unfold SectionHeader.rawEnd at hinside
  exact Word.toNat_ofNat (by omega)

theorem mem_addresses_iff (h : DescribedBy source layout) {header : SectionHeader}
    (hmem : header ∈ sectionHeaders source) (a : Nat) :
    a ∈ (header.toSection (peImageBase source)).addresses ↔
      (peImageBase source).toNat + header.rawOffset.toNat ≤ a ∧
        a < (peImageBase source).toNat + header.rawEnd := by
  have hplace : (header.toSection (peImageBase source)).size = header.rawSize := rfl
  unfold PeSection.addresses SectionHeader.rawEnd
  rw [Set.mem_Ico, hplace]
  by_cases hsize : 0 < header.rawSize.toNat
  · rw [h.toNat_section_base hmem hsize]
    omega
  · omega

theorem sections_addresses (h : DescribedBy source layout) :
    ∀ s ∈ layout.sections, s.addresses ⊆ layout.identity.addresses := by
  intro s hs a ha
  rw [h.sections] at hs
  obtain ⟨header, hmem, rfl⟩ := List.mem_map.1 hs
  have hinside := h.sections_inside header hmem
  rw [h.mem_addresses_iff hmem] at ha
  unfold ImageIdentity.addresses
  rw [Set.mem_Ico, h.imageEnd_eq, h.base]
  omega

/-- A section that has addresses has its bounds inside the image. -/
theorem section_bounds (h : DescribedBy source layout) {s : PeSection} (hs : s ∈ layout.sections)
    (hsize : 0 < s.size.toNat) :
    layout.identity.base.toNat ≤ s.base.toNat ∧
      s.base.toNat + s.size.toNat ≤ layout.identity.imageEnd := by
  have hsub : Set.Ico s.base.toNat (s.base.toNat + s.size.toNat) ⊆
      Set.Ico layout.identity.base.toNat layout.identity.imageEnd := h.sections_addresses s hs
  exact (Set.Ico_subset_Ico_iff (by omega)).1 hsub

/-! ## The code range -/

theorem mem_executed_iff (h : DescribedBy source layout) (a : Nat) :
    a ∈ layout.executed ↔ ∃ header ∈ executedSections source,
      (peImageBase source).toNat + header.rawOffset.toNat ≤ a ∧
        a < (peImageBase source).toNat + header.rawEnd := by
  constructor
  · rintro ⟨s, hs, hcode, ha⟩
    rw [h.sections] at hs
    obtain ⟨header, hmem, rfl⟩ := List.mem_map.1 hs
    rw [h.mem_addresses_iff hmem] at ha
    have hnonempty : header.rawSize ≠ 0 := by
      intro hzero
      rw [SectionHeader.rawEnd, hzero, UInt32.toNat_zero] at ha
      omega
    exact ⟨header, mem_executedSections.2 ⟨hmem, hcode, hnonempty⟩, ha⟩
  · rintro ⟨header, hexecuted, ha⟩
    obtain ⟨hmem, hcode, -⟩ := mem_executedSections.1 hexecuted
    refine ⟨header.toSection (peImageBase source), ?_, hcode, (h.mem_addresses_iff hmem a).2 ha⟩
    rw [h.sections]
    exact List.mem_map_of_mem hmem

theorem executed_subset (h : DescribedBy source layout) :
    layout.executed ⊆ layout.code.addresses := by
  intro a ha
  obtain ⟨header, hexecuted, hle, hlt⟩ := (h.mem_executed_iff a).1 ha
  obtain ⟨first, -, hbegin, hleast⟩ := h.code_begin
  obtain ⟨last, -, hend, hgreatest⟩ := h.code_end
  have h1 := hleast header hexecuted
  have h2 := hgreatest header hexecuted
  unfold CodeRange.addresses
  rw [Set.mem_Ico]
  omega

/-- The code range begins with an executed byte. -/
theorem base_executed (h : DescribedBy source layout) :
    layout.code.base.toNat ∈ layout.executed := by
  obtain ⟨first, hfirst, hbegin, -⟩ := h.code_begin
  have hsize := Word.toNat_pos (mem_executedSections.1 hfirst).2.2
  refine (h.mem_executed_iff _).2 ⟨first, hfirst, ?_⟩
  unfold SectionHeader.rawEnd
  omega

/-- It ends with one. -/
theorem last_executed (h : DescribedBy source layout) :
    0 < layout.code.codeEnd ∧ layout.code.codeEnd - 1 ∈ layout.executed := by
  obtain ⟨last, hlast, hend, -⟩ := h.code_end
  have hsize := Word.toNat_pos (mem_executedSections.1 hlast).2.2
  unfold SectionHeader.rawEnd at hend
  refine ⟨by omega, (h.mem_executed_iff _).2 ⟨last, hlast, ?_⟩⟩
  unfold SectionHeader.rawEnd
  omega

theorem code_least (h : DescribedBy source layout) :
    IsLeast {I | (∃ lo hi, I = Set.Ico lo hi) ∧ layout.executed ⊆ I} layout.code.addresses := by
  obtain ⟨hpositive, hlast⟩ := h.last_executed
  apply isLeast_Ico h.executed_subset h.base_executed
  intro bound hbound
  have hlt := hbound _ hlast
  omega

theorem placed (h : DescribedBy source layout) : PlacedImage source layout where
  size := h.size
  image_end := h.imageEnd_eq ▸ h.image_end
  sections := h.base ▸ h.sections
  sections_read := h.sections_inside
  sections_inside := h.sections_addresses
  section_bounds _ := h.section_bounds
  code_least := h.code_least
  code_nonempty := ⟨_, h.executed_subset h.base_executed⟩
  code_inside := by
    refine h.code_least.2 ⟨⟨_, _, rfl⟩, ?_⟩
    rintro a ⟨s, hs, -, ha⟩
    exact h.sections_addresses s hs ha
  entry_aligned := h.entry_aligned
  entry_inside := h.entry_executed

end DescribedBy

/-- For every byte string each read is inside it, and an image that is accepted is placed. -/
theorem describeLoadedPeImage_places (source : List UInt8) :
    Meets (PlacedImage source) (describeLoadedPeImage source) :=
  (describeLoadedPeImage_meets source).mono fun _ h => h.placed

end X360Port
