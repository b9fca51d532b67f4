import X360Port.Runtime.Loading

/-!
# The bytes of a loaded image

A load copies the image and then patches its imports. The image lies in its own
range, and the validator keeps every thunk and every record inside it, so a load
changes nothing outside the range and, in it, nothing of the image but the
patched words.
-/

namespace X360Port

open Library

/-- The bytes that loading patches for an import: its thunk or its record. -/
def ImportRequirement.Owns (imp : ImportRequirement) (x : Nat) : Prop :=
  match imp.kind with
  | .function => imp.address.toNat ≤ x ∧ x < imp.address.toNat + 16
  | ImportKind.variable => imp.recordAddress.toNat ≤ x ∧ x < imp.recordAddress.toNat + 4

theorem exportOf_owns {x : BoundImport} {a : Nat} (h : (exportOf x).Owns a) : x.1.Owns a := h

/-- What an import owns is image. -/
theorem WellFormedModule.owns_inside {module : GuestModule} (h : WellFormedModule module)
    {imp : ImportRequirement} (hm : imp ∈ module.importManifest) {x : Nat} (hx : imp.Owns x) :
    module.descriptor.image.base.toNat ≤ x ∧ x < module.descriptor.image.imageEnd := by
  have hw := h.imports imp hm
  unfold ImportRequirement.Owns at hx
  cases hk : imp.kind with
  | function =>
    rw [hk] at hx
    obtain ⟨hlow, hhigh⟩ := hw.thunk_inside hk
    obtain ⟨hbase, hend⟩ := h.code_inside
    have hx : imp.address.toNat ≤ x ∧ x < imp.address.toNat + 16 := hx
    omega
  | «variable» =>
    rw [hk] at hx
    obtain ⟨hlow, hhigh⟩ := hw.record_inside
    have hx : imp.recordAddress.toNat ≤ x ∧ x < imp.recordAddress.toNat + 4 := hx
    omega

namespace Runtime

section

variable {s : Runtime} {call : LoadCall} {imports : RuntimeImports} {guest : Attachment}

/-- Where no import is patched, the memory is the copied image's. -/
theorem ReachesArming.memory_of_not_owned {lookupHeap : GuestAddress → Bool}
    (h : s.ReachesArming lookupHeap call imports guest) {a : Nat}
    (ha : ∀ imp ∈ call.module.importManifest, ¬ imp.Owns a) :
    guest.memory a = (imagePatch call.module).write s.memory a := by
  have hw := wellFormed_of_ok h.module
  have hs := (validateImports_ok_iff _ _).1 h.bindings
  obtain rfl := imports_of_create hs h.created
  obtain ⟨failure, -, hattach⟩ := h.attached
  have hframe := attach_frame ⟨tablesOf call.module.importManifest call.bindings⟩ call.symbols
    (s.copyImage call.module).guest
  rw [hattach] at hframe
  refine hframe a fun owned hm hown => ?_
  have hm : owned ∈ (tablesOf call.module.importManifest call.bindings).flatMap
      (·.ownedExports) := hm
  rw [(tablesMatch_tablesOf hw.imports hw.ordered hs).exports] at hm
  obtain ⟨x, hx, rfl⟩ := List.mem_map.1 hm
  exact ha x.1 (List.of_mem_zip hx).1 (exportOf_owns hown)

theorem imagePatch_covers_iff {module : GuestModule} (h : WellFormedModule module) {a : Nat} :
    (imagePatch module).Covers a ↔
      module.descriptor.image.base.toNat ≤ a ∧ a < module.descriptor.image.imageEnd := by
  rw [Patch.Covers, imagePatch, h.image_size]
  rfl

end

/-- **Main result.** A load that succeeds changes no byte outside the image range, and leaves
the image's own byte wherever no import is patched. -/
theorem loadModule_imageBytes (lookupHeap : GuestAddress → Bool) (s s' : Runtime)
    (call : LoadCall) (outcome : CallOutcome)
    (h : s.loadModule lookupHeap call = .ok (s', outcome)) (hok : outcome.Succeeded) :
    (∀ a, ¬ (call.module.descriptor.image.base.toNat ≤ a ∧
        a < call.module.descriptor.image.imageEnd) → s'.memory a = s.memory a) ∧
      ∀ offset, offset < call.module.descriptor.image.size.toNat →
        (∀ imp ∈ call.module.importManifest,
          ¬ imp.Owns (call.module.descriptor.image.base.toNat + offset)) →
        call.module.imageBytes[offset]? =
          some (s'.memory (call.module.descriptor.image.base.toNat + offset)) := by
  obtain ⟨s1, outcome1, h1, hloading⟩ := loadModule_loading lookupHeap s call
  rw [h] at h1
  cases h1
  cases hloading with
  | refused failure hf => exact absurd hok hf
  | stopped imports guest outcome hi hf => exact absurd hok hf
  | unwatched imports guest failure hr ha hf => exact absurd hok hf
  | loaded imports guest hr ha =>
    have hw := wellFormed_of_ok hr.module
    refine ⟨fun a hout => ?_, fun offset hsize hown => ?_⟩
    · have hmem := hr.memory_of_not_owned (a := a) fun imp hm hx => hout (hw.owns_inside hm hx)
      refine hmem.trans (Patch.write_of_not_covers fun hc => hout ?_)
      exact (imagePatch_covers_iff hw).1 hc
    · have hlen : offset < call.module.imageBytes.length := by rw [hw.image_size]; exact hsize
      have hbyte := List.getElem?_eq_getElem hlen
      have hcell : (imagePatch call.module).cellAt
          (call.module.descriptor.image.base.toNat + offset) =
          some call.module.imageBytes[offset] := by
        rw [← hbyte]
        exact Patch.cellAt_base_add (imagePatch call.module) offset
      rw [hbyte]
      exact congrArg some ((hr.memory_of_not_owned hown).trans (Patch.write_of_cellAt hcell)).symm

/-- The synthetic module loads, and the bytes behind its thunk and its record stand. -/
theorem loadModule_imageBytes_synthetic :
    ∃ s', (fresh fun _ => 1).loadModule (fun _ => true) (syntheticLoad true) =
        .ok (s', .returned {}) ∧
      (∀ a, ¬ (syntheticIdentity.base.toNat ≤ a ∧ a < syntheticIdentity.imageEnd) →
        s'.memory a = 1) ∧
      ∀ offset, offset < syntheticIdentity.size.toNat →
        (∀ imp ∈ syntheticImports, ¬ imp.Owns (syntheticIdentity.base.toNat + offset)) →
        syntheticImage[offset]? = some (s'.memory (syntheticIdentity.base.toNat + offset)) := by
  obtain ⟨guest, hr⟩ := syntheticLoad_reachesArming (fun _ => 1) true
  obtain ⟨s', outcome, hl, hloading⟩ :=
    loadModule_loading (fun _ => true) (fresh fun _ => 1) (syntheticLoad true)
  have hok : outcome = .returned {} := by
    cases hloading with
    | refused failure hf hn => exact absurd hr (hn _ _)
    | stopped imports guest outcome hi hf hn => exact absurd hr (hn _ _)
    | unwatched imports guest failure hr ha => exact absurd (by decide) ha
    | loaded => rfl
  subst hok
  exact ⟨s', hl, loadModule_imageBytes (fun _ => true) (fresh fun _ => 1) s' (syntheticLoad true)
    (.returned {}) hl rfl⟩

end Runtime

end X360Port
