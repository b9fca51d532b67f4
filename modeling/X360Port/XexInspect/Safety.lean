import X360Port.XexInspect.Descriptor

/-!
# The parsers stay defined

Every length, count and offset of a file is chosen by whoever wrote it. The
header checks, the lookup, the string table and the walk over the imports read
and write only inside their spans all the same, and no difference they take
goes below zero (`xex_parsers_defined`). Every function here is total, so the
loops end. A walk that is refused midway has changed the record words and the
stubs that it had validated, and nothing else.
-/

namespace X360Port

open Library

/-- A checked computation answers or is refused. -/
structure StaysDefined {α ρ : Type} (x : Checked ρ α) : Prop where
  refusal : ∀ stop, x = .error stop → stop.IsRefusal

theorem StaysDefined.of_meets {α ρ : Type} {P : α → Prop} {x : Checked ρ α} (h : Meets P x) :
    StaysDefined x := ⟨fun _ hstop => h.isRefusal hstop⟩

/-- What a walk that ended as `r` did to the image it was given. -/
structure WalkedSafely (bounds : ImageBounds) (libs : List ImportLibrary) (image : List UInt8)
    (r : ImportParse × Option (Stop String)) : Prop where
  defined : ∀ stop, r.2 = some stop → stop.IsRefusal
  length : r.1.image.length = image.length
  frame : ∃ patches, Validates bounds (contents image) libs patches ∧
    ∀ x, (∀ p ∈ patches, ¬ p.Covers x) → contents r.1.image x = contents image x

theorem RewrittenBy.frame {patches : List (Patch UInt8)} {image image' : List UInt8} {x : Nat}
    (h : RewrittenBy patches image image') (hx : ∀ p ∈ patches, ¬ p.Covers x) :
    contents image' x = contents image x := by
  rw [h.2]
  exact writeAll_frame hx

theorem parseImports_walkedSafely {header image : List UInt8} (context : ImportContext)
    (hheader : header.length = context.header.size) (himage : image.length = context.image.size) :
    WalkedSafely context.image (importLibraries header context.header) image
      (parseImports header image context) := by
  have hended := parseImports_ended context hheader himage
  rcases hparse : parseImports header image context with ⟨s, _ | stop⟩
  · obtain ⟨table, -, hnormal, -⟩ := hended.of_done hparse
    obtain ⟨imports, -, hrun⟩ := hnormal.run
    obtain ⟨patches, hpatches, hvalidates⟩ := hrun.validates hnormal.fit
    have hrewritten : RewrittenBy patches image s.image := ⟨hnormal.length, hpatches⟩
    exact ⟨(fun stop hstop => nomatch hstop), hrewritten.1, patches, hvalidates,
      fun x => hrewritten.frame⟩
  · obtain ⟨hrefusal, -, patches, hrewritten, hvalidates⟩ := hended.of_exit hparse
    refine ⟨fun stop' hstop => ?_, hrewritten.1, patches, hvalidates, fun x => hrewritten.frame⟩
    cases hstop
    exact hrefusal

/-- **The parsers stay defined**, over every file and every loaded image. -/
theorem xex_parsers_defined (xex image : List UInt8) (base : GuestAddress) :
    StaysDefined (validateHeader xex) ∧
    (∀ key header, StaysDefined (findOptional xex key header)) ∧
    (∀ table : ImportLibraryTable, table.stringOffset + table.stringSize.toNat ≤ xex.length →
      StaysDefined (parseImportLibraryNames xex table)) ∧
    (∀ header securityOffset, validateHeader xex = .ok (header, securityOffset) →
      WalkedSafely ⟨base, image.length⟩ (importLibraries (xex.take header.size) header) image
        (parseImports (xex.take header.size) image ⟨header, ⟨base, image.length⟩⟩)) := by
  refine ⟨.of_meets (validateHeader_meets xex),
    fun key header => .of_meets (findOptional_meets xex key header),
    fun table htable => .of_meets (parseNamesFrom_meets htable _ _),
    fun header securityOffset haccepted => ?_⟩
  exact parseImports_walkedSafely ⟨header, ⟨base, image.length⟩⟩ (length_take_header haccepted) rfl

theorem xex_parsers_defined_pair :
    StaysDefined (parseImportLibraryNames (fileWithImports pairDescriptor) ⟨0x1cc, 12, 2⟩) ∧
      WalkedSafely ⟨0x82000000, pairImage.length⟩
        (importLibraries ((fileWithImports pairDescriptor).take 0x234) ⟨0x234, 2⟩) pairImage
        (parseImports ((fileWithImports pairDescriptor).take 0x234) pairImage
          ⟨⟨0x234, 2⟩, ⟨0x82000000, pairImage.length⟩⟩) := by
  obtain ⟨-, -, hnames, himports⟩ :=
    xex_parsers_defined (fileWithImports pairDescriptor) pairImage 0x82000000
  exact ⟨hnames _ (by decide +kernel), himports ⟨0x234, 2⟩ 0x3c pairFile_accepted⟩

end X360Port
