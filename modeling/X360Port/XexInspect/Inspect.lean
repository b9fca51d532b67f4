import X360Port.PeImage.Accepted
import X360Port.XexHelpers
import X360Port.XexInspect.Descriptor

/-!
# Inspecting a file

`inspectXex` hands a checked file to Xenia's loader, resolves the imports in
the image the loader left, describes that image and scans it for helpers. What
the loader answers is taken as given (`XexLoad`).

Two bases meet in the result. The imports were resolved against the base the
loader reports, the layout is built from the base in the image's own header.
`inspectXex_oneAddressSpace_iff` says that the result describes one address
space exactly when the two are equal.
-/

namespace X360Port

open Library

structure XexExecutionInfo where
  titleId : UInt32 := 0
  mediaId : UInt32 := 0
  version : UInt32 := 0
  baseVersion : UInt32 := 0
  platform : UInt8 := 0
  executableTable : UInt8 := 0
  discNumber : UInt8 := 0
  discCount : UInt8 := 0
  savegameId : UInt32 := 0
  deriving DecidableEq, Repr

structure XexInspection where
  loadedImage : List UInt8
  execution : XexExecutionInfo := {}
  image : PeImageLayout := {}
  imports : List XexImport := []
  helpers : XexHelpers := Vector.replicate 8 []

/-- What Xenia answers while it loads a file. -/
structure XexLoad where
  initialized : Bool := true
  setUp : Bool := true
  loads : Bool := true
  baseAddress : GuestAddress
  imageSize : UInt32
  /-- The bytes behind the base, if it translates. -/
  loaded : Option (Vector UInt8 imageSize.toNat)
  execution : Option XexExecutionInfo := some {}

def inspectXex (xex : List UInt8) (load : XexLoad) : Checked String XexInspection := do
  let (header, _) ← validateHeader xex
  refuseIf (¬ load.initialized) "Xenia refused its guest address-space mapping"
  refuseIf (¬ load.setUp) "Xenia refused the host dynarec backend"
  refuseIf (¬ load.loads) "Xenia rejected the XEX after checked header validation"
  let base := load.baseAddress
  let error := "Xenia produced invalid loaded image geometry"
  refuseIf (base = 0 ∨ load.imageSize = 0) error
  requireBytes xex 0 header.size error
  match load.loaded with
  | none => throw (.refused "Xenia did not expose the loaded guest image")
  | some loaded =>
    match load.execution with
    | none => throw (.refused "XEX has no execution metadata")
    | some execution =>
      let loadedImage := loaded.toList
      match parseImports (xex.take header.size) loadedImage
          ⟨header, ⟨base, loadedImage.length⟩⟩ with
      | (_, some stop) => throw stop
      | (s, none) =>
        match describeLoadedPeImage s.image with
        | .error stop =>
          throw (stop.map ("loaded XEX image is not a supported Xbox 360 PE: " ++ ·))
        | .ok layout =>
          return ⟨s.image, execution, layout, s.imports,
            scanXexHelpers layout s.image (Vector.replicate 8 [])⟩

/-- The loaded image with the rewrites that the records of the file's import libraries ask
for. -/
def rewrittenImage (xex : List UInt8) (load : XexLoad) : List UInt8 :=
  match validateHeader xex, load.loaded with
  | .ok (header, _), some loaded =>
    (List.range loaded.toList.length).map (rewrittenMemory
      ⟨load.baseAddress, loaded.toList.length⟩ (contents loaded.toList)
      (importLibraries (xex.take header.size) header))
  | _, _ => []

/-! ## One address space -/

/-- `count` bytes from the address lie in the loaded image, placed at the layout's base. -/
def XexInspection.Places (inspection : XexInspection) (a : GuestAddress) (count : Nat) : Prop :=
  inspection.image.identity.base.toNat ≤ a.toNat ∧
    a.toNat + count ≤ inspection.image.identity.base.toNat + inspection.loadedImage.length

/-- Guest address `a` is `loadedImage[a - base]` for everything the inspection reports, and the
base is where the loader placed the image. -/
structure OneAddressSpace (base : GuestAddress) (inspection : XexInspection) : Prop where
  base : inspection.image.identity.base = base
  imports : ∀ imp ∈ inspection.imports,
    inspection.Places imp.address 4 ∧ inspection.Places imp.recordAddress 4
  sections : ∀ s ∈ inspection.image.sections, s.size ≠ 0 → inspection.Places s.base s.size.toNat
  code : inspection.Places inspection.image.code.base inspection.image.code.size.toNat
  helpers : HelpersFound inspection.image.identity.base inspection.loadedImage inspection.helpers

/-- Every import of a walk over valid records lies in the image. -/
theorem Normalizes.holds {bounds : ImageBounds} {names : List StringView} {m m' : Memory UInt8}
    {libs : List ImportLibrary} {imports : List XexImport}
    (h : Normalizes bounds names m libs imports m')
    (hvalid : ∀ lib ∈ libs, ∀ a ∈ lib.records, ValidRecord bounds a) :
    ∀ imp ∈ imports, bounds.Holds imp.address 4 ∧ bounds.Holds imp.recordAddress 4 := by
  induction h with
  | nil => exact fun imp himp => nomatch himp
  | @cons lib library libs entries imports m m' _ hpairs _ _ ih =>
    rw [List.forall_mem_cons] at hvalid
    have hraw : ∀ raw ∈ lib.records.map (rawAt bounds m), bounds.Holds raw.address 4 := by
      intro raw hraw
      obtain ⟨a, ha, rfl⟩ := List.mem_map.1 hraw
      exact (hvalid.1 a ha).holds
    intro imp himp
    rcases List.mem_append.1 himp with himp | himp
    · obtain ⟨e, he, rfl⟩ := List.mem_map.1 himp
      have hrecord := hraw _ (hpairs.record_mem he)
      cases e with
      | «variable» record => exact ⟨hrecord, hrecord⟩
      | function record thunk => exact ⟨hraw _ (hpairs.thunk_mem he), hrecord⟩
    · exact ih hvalid.2 imp himp

section

variable {xex : List UInt8} {load : XexLoad} {inspection : XexInspection}

/-- What an accepted inspection is made of. -/
structure InspectedAs (xex : List UInt8) (load : XexLoad) (inspection : XexInspection) : Prop where
  image : inspection.loadedImage = rewrittenImage xex load
  described : DescribedBy inspection.loadedImage inspection.image
  helpers : inspection.helpers =
    scanXexHelpers inspection.image inspection.loadedImage (Vector.replicate 8 [])
  imports : ∀ imp ∈ inspection.imports,
    ImageBounds.Holds ⟨load.baseAddress, inspection.loadedImage.length⟩ imp.address 4 ∧
      ImageBounds.Holds ⟨load.baseAddress, inspection.loadedImage.length⟩ imp.recordAddress 4

theorem parseImports_holds {header image : List UInt8} {geometry : HeaderGeometry}
    {base : GuestAddress} {s : ImportParse} (hheader : header.length = geometry.size)
    (hparse : parseImports header image ⟨geometry, ⟨base, image.length⟩⟩ = (s, none)) :
    s.image.length = image.length ∧
      contents s.image = rewrittenMemory ⟨base, image.length⟩ (contents image)
        (importLibraries header geometry) ∧
      ∀ imp ∈ s.imports,
        ImageBounds.Holds ⟨base, image.length⟩ imp.address 4 ∧
          ImageBounds.Holds ⟨base, image.length⟩ imp.recordAddress 4 := by
  have hended := parseImports_ended ⟨geometry, ⟨base, image.length⟩⟩ hheader rfl
  obtain ⟨table, -, hnormal, -⟩ := hended.of_done hparse
  obtain ⟨imports, himports, hrun⟩ := hnormal.run
  refine ⟨hnormal.length, hrun.rewritten, ?_⟩
  rw [himports]
  exact hrun.holds hnormal.fit.valid

theorem inspectXex_meets (xex : List UInt8) (load : XexLoad) :
    Meets (InspectedAs xex load) (inspectXex xex load) := by
  unfold inspectXex
  refine meets_bind (validateHeader_meets xex) ?_
  rintro ⟨header, securityOffset⟩ hheader haccepted
  refine meets_refuseIf fun _ => meets_refuseIf fun _ => meets_refuseIf fun _ => ?_
  refine meets_refuseIf fun _ => meets_requireBytes fun hbytes => ?_
  rcases hload : load.loaded with _ | loaded
  · exact trivial
  rcases load.execution with _ | execution
  · exact trivial
  have hlength := length_take_header hheader
  dsimp only
  rcases hparse : parseImports (xex.take header.size) loaded.toList
    ⟨header, ⟨load.baseAddress, loaded.toList.length⟩⟩ with ⟨s, _ | stop⟩
  · obtain ⟨hsize, hcontents, himports⟩ := parseImports_holds hlength hparse
    have hrewritten : s.image = rewrittenImage xex load := by
      unfold rewrittenImage
      rw [hheader, hload]
      dsimp only
      rw [← hcontents, ← hsize, map_contents_range]
    rw [← hsize] at himports
    dsimp only
    rcases hdescribe : describeLoadedPeImage s.image with stop | layout
    · exact (Stop.isRefusal_map _ stop).2
        ((describeLoadedPeImage_meets s.image).isRefusal hdescribe)
    · exact ⟨hrewritten, describedBy_of_ok hdescribe, rfl, himports⟩
  · have hended := parseImports_ended ⟨header, ⟨load.baseAddress, loaded.toList.length⟩⟩ hlength
      rfl
    exact (hended.of_exit hparse).1

/-- An inspection whose two bases agree describes one address space. -/
theorem InspectedAs.oneAddressSpace_iff (h : InspectedAs xex load inspection) :
    OneAddressSpace load.baseAddress inspection ↔
      peImageBase (rewrittenImage xex load) = load.baseAddress := by
  have hd := h.described
  have hbase : inspection.image.identity.base = peImageBase (rewrittenImage xex load) := by
    rw [hd.base, h.image]
  rw [← hbase]
  constructor
  · exact fun hone => hone.base
  intro hequal
  have hend := hd.image_end
  rw [← hd.base] at hend
  have himports := h.imports
  rw [← hequal] at himports
  have hholds : ∀ a, ImageBounds.Holds
      ⟨inspection.image.identity.base, inspection.loadedImage.length⟩ a 4 →
      inspection.Places a 4 := by
    rintro a ⟨hlow, hhigh⟩
    unfold ImageBounds.offset at hhigh
    dsimp only at hlow hhigh
    exact ⟨hlow, by omega⟩
  refine ⟨hequal, fun imp himp => ?_, fun s hs hsize => ?_, ?_, ?_⟩
  · exact ⟨hholds _ (himports imp himp).1, hholds _ (himports imp himp).2⟩
  · rw [hd.sections, ← hd.base] at hs
    obtain ⟨header, hheader, rfl⟩ := List.mem_map.1 hs
    have hinside := hd.sections_inside header hheader
    have hpositive : 0 < header.rawSize.toNat := Word.toNat_pos hsize
    unfold SectionHeader.rawEnd at hinside
    have hword : (UInt32.ofNat (inspection.image.identity.base.toNat +
        header.rawOffset.toNat)).toNat =
        inspection.image.identity.base.toNat + header.rawOffset.toNat :=
      Word.toNat_ofNat (by omega)
    unfold XexInspection.Places SectionHeader.toSection
    dsimp only
    rw [hword]
    exact ⟨Nat.le_add_right _ _, by omega⟩
  · obtain ⟨first, _, hbegin, _⟩ := hd.code_begin
    obtain ⟨last, hlast, hcodeEnd, _⟩ := hd.code_end
    have hinside := hd.sections_inside last (mem_executedSections.1 hlast).1
    rw [← hd.base] at hbegin hcodeEnd
    unfold CodeRange.codeEnd at hcodeEnd
    exact ⟨by omega, by omega⟩
  · rw [h.helpers]
    exact scanXexHelpers_found hend (helpersFound_empty _ _)

theorem inspectedAs_of_ok (h : inspectXex xex load = .ok inspection) :
    InspectedAs xex load inspection := (inspectXex_meets xex load).of_ok h

/-- **One address space.** An accepted inspection describes one address space exactly when the
header of the loaded image, as the import records leave it, states the base the loader placed the
image at. -/
theorem inspectXex_oneAddressSpace_iff (h : inspectXex xex load = .ok inspection) :
    OneAddressSpace load.baseAddress inspection ↔
      peImageBase (rewrittenImage xex load) = load.baseAddress :=
  (inspectedAs_of_ok h).oneAddressSpace_iff

end

section Files

/-- One library with one record. -/
def probeDescriptor (record : GuestAddress) : ImportDescriptor where
  names := [[0x61]]
  libraries := [plainLibrary 0 [record] (by show 1 < 2 ^ 16; decide)]
  nonempty := by decide
  texts := by simp
  library_each := rfl
  named := by
    intro lib hlib
    cases List.mem_singleton.1 hlib
    exact Nat.one_pos
  size_fits := by
    show 12 + 4 + 0x2c < 2 ^ 32
    decide

/-- A loader that leaves the aligned image, whose own header says `0x82000000`, at a base. -/
def probeLoad (base : GuestAddress) : XexLoad where
  baseAddress := base
  imageSize := 0x170
  loaded := some ⟨alignedImage.toArray, by decide +kernel⟩

theorem exists_inspection (xex : List UInt8) (load : XexLoad)
    (h : (inspectXex xex load).toOption.isSome) :
    ∃ inspection, inspectXex xex load = .ok inspection := by
  cases hi : inspectXex xex load with
  | ok inspection => exact ⟨inspection, rfl⟩
  | error stop =>
    rw [hi] at h
    cases h

theorem inspectXex_oneAddressSpace_moved : ¬ ∀ xex load inspection,
    inspectXex xex load = .ok inspection → OneAddressSpace load.baseAddress inspection := by
  intro h
  obtain ⟨inspection, hinspect⟩ := exists_inspection
    (fileWithImports (probeDescriptor 0x82010098)) (probeLoad 0x82010000) (by decide +kernel)
  have hbases := (inspectedAs_of_ok hinspect).oneAddressSpace_iff.1 (h _ _ _ hinspect)
  revert hbases
  decide +kernel

theorem inspectXex_oneAddressSpace_placed : ∃ inspection,
    inspectXex (fileWithImports (probeDescriptor 0x82000098)) (probeLoad 0x82000000) =
        .ok inspection ∧ OneAddressSpace 0x82000000 inspection := by
  obtain ⟨inspection, hinspect⟩ := exists_inspection
    (fileWithImports (probeDescriptor 0x82000098)) (probeLoad 0x82000000) (by decide +kernel)
  exact ⟨inspection, hinspect,
    (inspectXex_oneAddressSpace_iff hinspect).2 (by decide +kernel)⟩

end Files

end X360Port
