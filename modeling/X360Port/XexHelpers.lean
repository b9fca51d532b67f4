import X360Port.PeImage

/-!
# Register-save helpers

`scanXexHelpers` looks for the first instructions of the compiler's register
helpers, word by word, in every code section of an image. Each address it
reports is that of a place in the image that holds the pattern
(`scanXexHelpers_found`).
-/

namespace X360Port

open Library

def kRestGpr : List UInt8 := [0xe9, 0xc1, 0xff, 0x68]
def kSaveGpr : List UInt8 := [0xf9, 0xc1, 0xff, 0x68]
def kRestFpr : List UInt8 := [0xc9, 0xcc, 0xff, 0x70]
def kSaveFpr : List UInt8 := [0xd9, 0xcc, 0xff, 0x70]
def kRestVmx14 : List UInt8 := [0x39, 0x60, 0xfe, 0xe0, 0x7d, 0xcb, 0x60, 0xce]
def kSaveVmx14 : List UInt8 := [0x39, 0x60, 0xfe, 0xe0, 0x7d, 0xcb, 0x61, 0xce]
def kRestVmx64 : List UInt8 := [0x39, 0x60, 0xfc, 0x00, 0x10, 0x0b, 0x60, 0xcb]
def kSaveVmx64 : List UInt8 := [0x39, 0x60, 0xfc, 0x00, 0x10, 0x0b, 0x61, 0xcb]

def kPatterns : Vector (List UInt8) 8 :=
  #v[kRestGpr, kSaveGpr, kRestFpr, kSaveFpr, kRestVmx14, kSaveVmx14, kRestVmx64, kSaveVmx64]

/-- The addresses found for each pattern. -/
abbrev XexHelpers := Vector (List GuestAddress) 8

/-- The word offsets at which a pattern stands in a section's bytes. -/
def patternOffsets (code pattern : List UInt8) : List Nat :=
  ((List.range (code.length / 4 + 1)).map (· * 4)).filter fun offset =>
    decide (offset + pattern.length ≤ code.length ∧
      (code.drop offset).take pattern.length = pattern)

/-- One turn of the loop over the sections. -/
def scanSection (layout : PeImageLayout) (image : List UInt8) (helpers : XexHelpers)
    (s : PeSection) : XexHelpers :=
  if ¬ s.code ∨ s.base < layout.identity.base then helpers
  else
    let imageOffset := s.base.toNat - layout.identity.base.toNat
    if imageOffset > image.length ∨ s.size.toNat > image.length - imageOffset then helpers
    else
      let code := (image.drop imageOffset).take s.size.toNat
      Vector.zipWith (fun found pattern =>
        found ++ (patternOffsets code pattern).map fun offset => s.base + .ofNat offset)
        helpers kPatterns

def scanXexHelpers (layout : PeImageLayout) (image : List UInt8) (helpers : XexHelpers) :
    XexHelpers := layout.sections.foldl (scanSection layout image) helpers

/-! ## What is found -/

/-- The pattern stands in the image at the address. -/
def FoundAt (base : GuestAddress) (image pattern : List UInt8) (a : GuestAddress) : Prop :=
  base.toNat ≤ a.toNat ∧ a.toNat + pattern.length ≤ base.toNat + image.length ∧
    (image.drop (a.toNat - base.toNat)).take pattern.length = pattern

/-- Every reported address is that of its pattern. -/
def HelpersFound (base : GuestAddress) (image : List UInt8) (helpers : XexHelpers) : Prop :=
  ∀ i : Fin 8, ∀ a ∈ helpers.get i, FoundAt base image (kPatterns.get i) a

theorem helpersFound_empty (base : GuestAddress) (image : List UInt8) :
    HelpersFound base image (Vector.replicate 8 []) := by
  intro i a ha
  have hempty : (Vector.replicate 8 ([] : List GuestAddress)).get i = [] :=
    Vector.getElem_replicate i.isLt
  rw [hempty] at ha
  cases ha

theorem length_kPatterns_pos : ∀ i : Fin 8, 0 < (kPatterns.get i).length := by decide

section

variable {layout : PeImageLayout} {image : List UInt8} {helpers : XexHelpers} {s : PeSection}

theorem scanSection_found (hend : layout.identity.base.toNat + image.length ≤ 2 ^ 32)
    (h : HelpersFound layout.identity.base image helpers) :
    HelpersFound layout.identity.base image (scanSection layout image helpers s) := by
  unfold scanSection
  split
  · exact h
  next hbase =>
  dsimp only
  split
  · exact h
  next hinside =>
  rw [not_or, UInt32.lt_iff_toNat_lt] at hbase
  intro i a ha
  have hget : ∀ f : List GuestAddress → List UInt8 → List GuestAddress,
      (Vector.zipWith f helpers kPatterns).get i = f (helpers.get i) (kPatterns.get i) :=
    fun f => Vector.getElem_zipWith i.isLt
  rw [hget, List.mem_append] at ha
  rcases ha with ha | ha
  · exact h i a ha
  obtain ⟨offset, hoffset, rfl⟩ := List.mem_map.1 ha
  obtain ⟨-, hpattern⟩ := List.mem_filter.1 hoffset
  rw [decide_eq_true_iff, List.length_take, List.length_drop] at hpattern
  obtain ⟨hfits, hholds⟩ := hpattern
  have hpositive := length_kPatterns_pos i
  have haddress : (s.base + UInt32.ofNat offset).toNat = s.base.toNat + offset := by
    rw [UInt32.toNat_add, Word.toNat_ofNat (by omega),
      Nat.mod_eq_of_lt (by omega)]
  refine ⟨by omega, by omega, ?_⟩
  rw [haddress, show s.base.toNat + offset - layout.identity.base.toNat =
    s.base.toNat - layout.identity.base.toNat + offset by omega, ← List.drop_drop]
  rw [List.drop_take, List.take_take, Nat.min_eq_left (by omega)] at hholds
  exact hholds

/-- **Helpers.** Every reported address is that of a place that holds its pattern. -/
theorem scanXexHelpers_found (hend : layout.identity.base.toNat + image.length ≤ 2 ^ 32)
    (h : HelpersFound layout.identity.base image helpers) :
    HelpersFound layout.identity.base image (scanXexHelpers layout image helpers) := by
  unfold scanXexHelpers
  generalize layout.sections = sections
  induction sections generalizing helpers with
  | nil => exact h
  | cons s sections ih => exact ih (scanSection_found hend h)

end

end X360Port
