import X360Port.GuestMemory
import X360Port.XeniaMemory.Paged

/-!
# Two checked paths to guest memory

An import handler reads and writes through its call (`readMemory`,
`writeMemory`), the title through `readMapped` and `writeMapped`. Both ask for a
span of one heap that does not wrap and that Xenia's records let the guest
access. Only the title's path asks for the device ranges.
-/

namespace X360Port

namespace Xenia

variable {η : Type} (X : Xenia η)

/-- Guest pages are recorded with no access, read access, or read and write access. -/
def RecordedAccess : Prop :=
  ∀ heap first last heaps, X.queryRangeAccess heap first last heaps = .noAccess ∨
    X.queryRangeAccess heap first last heaps = .readOnly ∨
    X.queryRangeAccess heap first last heaps = .readWrite

/-- A device range maps the byte. -/
def DeviceMapped (heaps : η) (x : GuestAddress) : Prop :=
  X.lookupVirtualMappedRangeOverlapping x x heaps

/-- A device range overlaps the addresses where it maps one of them. -/
def OverlapsByBytes : Prop :=
  ∀ (first last : GuestAddress) heaps, first.toNat ≤ last.toNat →
    (X.lookupVirtualMappedRangeOverlapping first last heaps ↔
      ∃ x : GuestAddress, first.toNat ≤ x.toNat ∧ x.toNat ≤ last.toNat ∧ X.DeviceMapped heaps x)

/-- The last address of a span. -/
def lastOf (address : GuestAddress) (size : Nat) : GuestAddress := .ofNat (address.toNat + size - 1)

/-- The span lies in one heap, whose records allow the access to it. -/
def Grants (heaps : η) (address : GuestAddress) (size : Nat) (allowed : PageAccess → Prop) : Prop :=
  size < 2 ^ 32 ∧ address.toNat + size ≤ 2 ^ 32 ∧ ∃ heap, X.lookupHeap address = some heap ∧
    X.lookupHeap (lastOf address size) = some heap ∧
    allowed (X.queryRangeAccess heap address (lastOf address size) heaps)

/-- The guest may read the span, devices aside. -/
def ReadableSpan (heaps : η) (address : GuestAddress) (size : Nat) : Prop :=
  X.Grants heaps address size fun access => access = .readOnly ∨ access = .readWrite

/-- No byte of the span is a device's. -/
def DeviceFree (heaps : η) (address : GuestAddress) (size : Nat) : Prop :=
  ∀ x : GuestAddress, address.toNat ≤ x.toNat → x.toNat < address.toNat + size →
    ¬ X.DeviceMapped heaps x

section

variable {X} {heaps : η} {m : XeniaMemory η} {address : GuestAddress} {size : Nat} {write : Bool}

theorem lastOf_eq (h : 0 < size) : lastOf address size = address + .ofNat (size - 1) := by
  have hsum : address.toNat + size - 1 = address.toNat + (size - 1) := Nat.add_sub_assoc h _
  rw [lastOf, hsum, UInt32.ofNat_add, UInt32.ofNat_toNat]

theorem toNat_lastOf (hwrap : address.toNat + size ≤ 2 ^ 32) :
    (lastOf address size).toNat = address.toNat + size - 1 := by
  rw [lastOf, UInt32.toNat_ofNat']
  apply Nat.mod_eq_of_lt
  omega

theorem Grants.mono {allowed allowed' : PageAccess → Prop}
    (h : X.Grants heaps address size allowed) (himp : ∀ access, allowed access → allowed' access) :
    X.Grants heaps address size allowed' := by
  obtain ⟨hsize, hwrap, heap, hfirst, hlast, hallowed⟩ := h
  exact ⟨hsize, hwrap, heap, hfirst, hlast, himp _ hallowed⟩

theorem grants_congr (hrecorded : X.RecordedAccess) {allowed allowed' : PageAccess → Prop}
    (hno : allowed .noAccess ↔ allowed' .noAccess) (hread : allowed .readOnly ↔ allowed' .readOnly)
    (hwrite : allowed .readWrite ↔ allowed' .readWrite) :
    X.Grants heaps address size allowed ↔ X.Grants heaps address size allowed' := by
  refine and_congr_right fun _ => and_congr_right fun _ => exists_congr fun heap => ?_
  refine and_congr_right fun _ => and_congr_right fun _ => ?_
  rcases hrecorded heap address (lastOf address size) heaps with h | h | h
  · rw [h, hno]
  · rw [h, hread]
  · rw [h, hwrite]

/-- What an import handler's access is checked for. -/
theorem isAccessible_iff (hpos : 0 < size) :
    X.isAccessible m address size write ↔ X.Grants m.heaps address size fun access =>
      (if write then isWritable access else isReadable access) = true := by
  have hword := address.toNat_lt
  rw [isAccessible, ← lastOf_eq hpos, Grants]
  split
  · next hguard =>
    refine iff_of_false Bool.false_ne_true ?_
    rintro ⟨hsize, hwrap, -⟩
    omega
  · next hguard =>
    have hsize : size < 2 ^ 32 := by omega
    have hwrap : address.toNat + size ≤ 2 ^ 32 := by omega
    simp only [if_neg (Nat.ne_of_gt hpos), hsize, hwrap, true_and]
    cases hfirst : X.lookupHeap address with
    | none => simp
    | some heap =>
      by_cases hlast : X.lookupHeap (lastOf address size) = some heap
      · cases write <;> simp [hlast]
      · simp only [ne_eq, hlast, not_false_eq_true, if_true, Bool.false_eq_true, false_iff]
        rintro ⟨heap', hfirst', hlast', -⟩
        cases hfirst'
        exact hlast hlast'

theorem isAccessible_read_iff (hpos : 0 < size) :
    X.isAccessible m address size false ↔ X.ReadableSpan m.heaps address size := by
  rw [isAccessible_iff hpos, ReadableSpan]
  simp [isReadable]

theorem isAccessible_write_iff (hpos : 0 < size) :
    X.isAccessible m address size true ↔
      X.Grants m.heaps address size fun access => access = .readWrite := by
  rw [isAccessible_iff hpos]
  simp [isWritable]

/-- A device range overlaps a span where it maps one of its bytes. -/
theorem not_overlapping_iff (hranges : X.OverlapsByBytes) (hpos : 0 < size)
    (hwrap : address.toNat + size ≤ 2 ^ 32) :
    ¬ X.lookupVirtualMappedRangeOverlapping address (lastOf address size) heaps ↔
      X.DeviceFree heaps address size := by
  have hlast := toNat_lastOf hwrap
  rw [hranges address (lastOf address size) heaps (by omega), not_exists]
  refine forall_congr' fun x => ?_
  simp only [not_and]
  refine imp_congr_right fun _ => ?_
  have hle : x.toNat ≤ (lastOf address size).toNat ↔ x.toNat < address.toNat + size := by omega
  rw [hle]

end

end Xenia

namespace GuestMemory

variable {η : Type} {X : Xenia η} {g : GuestMemory} {m : XeniaMemory η} {address : GuestAddress}
  {size : Nat} {write : Bool} {bytes : List UInt8}

/-- What the title's access is checked for. -/
theorem canAccess_iff (hranges : X.OverlapsByBytes) (hinit : g.initialized) (hpos : 0 < size) :
    g.canAccess X m address size write ↔
      (X.Grants m.heaps address size fun access =>
        access.bits &&& (if write then 2 else 1) = if write then 2 else 1) ∧
      X.DeviceFree m.heaps address size := by
  have hword := address.toNat_lt
  rw [canAccess]
  split
  · next hguard =>
    refine iff_of_false Bool.false_ne_true ?_
    rintro ⟨⟨hsize, -⟩, -⟩
    rcases hguard with h | h | h
    · exact h hinit
    · omega
    · omega
  · next hguard =>
    simp only
    split
    · refine iff_of_false Bool.false_ne_true ?_
      rintro ⟨⟨hsize, hwrap, -⟩, -⟩
      omega
    · have hsize : size < 2 ^ 32 := by omega
      have hwrap : address.toNat + size ≤ 2 ^ 32 := by omega
      rw [← Xenia.not_overlapping_iff hranges hpos hwrap]
      simp only [Xenia.Grants, hsize, hwrap, true_and]
      cases hfirst : X.lookupHeap address with
      | none => simp
      | some heap =>
        by_cases hlast : X.lookupHeap (Xenia.lastOf address size) = some heap
        · simp only [Xenia.lastOf] at hlast ⊢
          simp [hlast]
        · simp only [Xenia.lastOf] at hlast ⊢
          simp only [ne_eq, hlast, not_false_eq_true, if_true, Bool.false_eq_true, false_iff]
          rintro ⟨⟨heap', hfirst', hlast', -⟩, -⟩
          cases hfirst'
          exact hlast hlast'

/-- Access bits and accesses agree on guest pages. -/
theorem canAccess_read_iff (hrecorded : X.RecordedAccess) (hranges : X.OverlapsByBytes)
    (hinit : g.initialized) (hpos : 0 < size) :
    g.canAccess X m address size false ↔
      X.ReadableSpan m.heaps address size ∧ X.DeviceFree m.heaps address size := by
  rw [canAccess_iff hranges hinit hpos]
  refine and_congr_left fun _ => ?_
  apply Xenia.grants_congr hrecorded <;> decide

theorem canAccess_write_iff (hrecorded : X.RecordedAccess) (hranges : X.OverlapsByBytes)
    (hinit : g.initialized) (hpos : 0 < size) :
    g.canAccess X m address size true ↔
      (X.Grants m.heaps address size fun access => access = .readWrite) ∧
      X.DeviceFree m.heaps address size := by
  rw [canAccess_iff hranges hinit hpos]
  refine and_congr_left fun _ => ?_
  apply Xenia.grants_congr hrecorded <;> decide

/-- Both paths accept the same accesses to the span, and no accepted one of an import handler
touches a device. -/
structure PathsAgree (X : Xenia η) (g : GuestMemory) (m : XeniaMemory η) (address : GuestAddress)
    (bytes : List UInt8) : Prop where
  read : (X.readMemory m address bytes.length).isSome ↔ (g.readMapped X m address bytes).1.Ok
  write : (X.writeMemory m address bytes).isSome ↔ (g.writeMapped X m address bytes).2.Ok
  deviceFree : (X.readMemory m address bytes.length).isSome ∨
    (X.writeMemory m address bytes).isSome → X.DeviceFree m.heaps address bytes.length

theorem readMapped_ok_iff : (g.readMapped X m address bytes).1.Ok ↔
    g.canAccess X m address bytes.length false := by
  rw [readMapped]
  split
  · next h => exact iff_of_false (fun hok => nomatch hok) h
  · next h => exact iff_of_true rfl (not_not.1 h)

theorem writeMapped_ok_iff : (g.writeMapped X m address bytes).2.Ok ↔
    g.canAccess X m address bytes.length true := by
  rw [writeMapped]
  split
  · next h => exact iff_of_false (fun hok => nomatch hok) h
  · next h => exact iff_of_true rfl (not_not.1 h)

theorem readMemory_isSome_iff :
    (X.readMemory m address size).isSome ↔ X.isAccessible m address size false := by
  rw [Xenia.readMemory]
  split <;> simp [*]

theorem writeMemory_isSome_iff :
    (X.writeMemory m address bytes).isSome ↔ X.isAccessible m address bytes.length true := by
  rw [Xenia.writeMemory]
  split <;> simp [*]

/-- **Main result.** The two paths agree on a span exactly when no byte of it is a device's, or
the guest may not read it anyway. -/
theorem pathsAgree_iff (hrecorded : X.RecordedAccess) (hranges : X.OverlapsByBytes)
    (g : GuestMemory) (m : XeniaMemory η) (address : GuestAddress) {bytes : List UInt8}
    (hne : bytes ≠ []) :
    PathsAgree X g.initializeMemory m address bytes ↔
      (X.ReadableSpan m.heaps address bytes.length →
        X.DeviceFree m.heaps address bytes.length) := by
  have hpos : 0 < bytes.length := List.length_pos_iff.2 hne
  have hread : X.isAccessible m address bytes.length false ↔ _ := Xenia.isAccessible_read_iff hpos
  have hwrite : X.isAccessible m address bytes.length true ↔ _ := Xenia.isAccessible_write_iff hpos
  have hreadMapped : g.initializeMemory.canAccess X m address bytes.length false ↔ _ :=
    canAccess_read_iff hrecorded hranges rfl hpos
  have hwriteMapped : g.initializeMemory.canAccess X m address bytes.length true ↔ _ :=
    canAccess_write_iff hrecorded hranges rfl hpos
  have hreadable : (X.Grants m.heaps address bytes.length fun access => access = .readWrite) →
      X.ReadableSpan m.heaps address bytes.length := fun h => h.mono fun _ => Or.inr
  constructor
  · intro h hspan
    exact h.deviceFree (.inl (readMemory_isSome_iff.2 (hread.2 hspan)))
  · intro h
    refine ⟨?_, ?_, ?_⟩
    · rw [readMemory_isSome_iff, readMapped_ok_iff, hread, hreadMapped]
      exact (and_iff_left_of_imp h).symm
    · rw [writeMemory_isSome_iff, writeMapped_ok_iff, hwrite, hwriteMapped]
      exact (and_iff_left_of_imp fun hgrants => h (hreadable hgrants)).symm
    · rw [readMemory_isSome_iff, writeMemory_isSome_iff, hread, hwrite]
      rintro (hspan | hgrants)
      · exact h hspan
      · exact h (hreadable hgrants)

/-! ## A device page -/

section

open PageTable

/-- The paged memory with a device on the page at `0x11000`. -/
def pagedWithDevice : Xenia PageTable :=
  { paged with
    lookupVirtualMappedRangeOverlapping := fun first last _ =>
      first.toNat ≤ 0x11fff ∧ 0x11000 ≤ last.toNat }

theorem recordedAccess_pagedWithDevice : pagedWithDevice.RecordedAccess := by
  have hqueried : ∀ (first last : GuestAddress) (t : PageTable),
      PageTable.queryRangeAccess first last t = .noAccess ∨
        PageTable.queryRangeAccess first last t = .readOnly ∨
        PageTable.queryRangeAccess first last t = .readWrite := by
    intro first last t
    unfold PageTable.queryRangeAccess
    simp only
    split
    · simp
    · split <;> simp
  exact fun _ first last heaps => hqueried first last heaps

theorem deviceMapped_pagedWithDevice {heaps : PageTable} {x : GuestAddress} :
    pagedWithDevice.DeviceMapped heaps x ↔ x.toNat ≤ 0x11fff ∧ 0x11000 ≤ x.toNat :=
  decide_eq_true_iff

theorem overlapsByBytes_pagedWithDevice : pagedWithDevice.OverlapsByBytes := by
  intro first last heaps hle
  have hoverlap : pagedWithDevice.lookupVirtualMappedRangeOverlapping first last heaps ↔
      first.toNat ≤ 0x11fff ∧ 0x11000 ≤ last.toNat := decide_eq_true_iff
  rw [hoverlap]
  simp only [deviceMapped_pagedWithDevice]
  constructor
  · rintro ⟨hfirst, hlast⟩
    by_cases h : first.toNat ≤ 0x11000
    · exact ⟨0x11000, h, hlast, by decide, by decide⟩
    · exact ⟨first, Nat.le_refl _, hle, hfirst, by omega⟩
  · rintro ⟨x, hfirst, hlast, hupper, hlower⟩
    omega

/-- Two pages at `0x10000`; the second one is the device's. -/
def devicePages : XeniaMemory PageTable where
  heaps := PageTable.onPages (fun _ => {}) 0x10 2 fun _ => taken 0x10 2 3 3
  bytes _ := 0

theorem pathsAgree_before_device :
    PathsAgree pagedWithDevice ({} : GuestMemory).initializeMemory devicePages 0x10ff8 [1, 2] := by
  refine (pathsAgree_iff recordedAccess_pagedWithDevice overlapsByBytes_pagedWithDevice {}
    devicePages 0x10ff8 (List.cons_ne_nil _ _)).2 fun _ x _ hend => ?_
  have hend : x.toNat < 0x10ff8 + 2 := hend
  rw [deviceMapped_pagedWithDevice]
  omega

/-- A word across the first byte of the device: an import handler reads and writes it. -/
theorem not_pathsAgree_across_device : ¬ ∀ X : Xenia PageTable, X.RecordedAccess →
    X.OverlapsByBytes → ∀ (g : GuestMemory) (m : XeniaMemory PageTable) (address : GuestAddress)
      (bytes : List UInt8), bytes ≠ [] → PathsAgree X g.initializeMemory m address bytes := by
  intro hall
  have h := hall pagedWithDevice recordedAccess_pagedWithDevice overlapsByBytes_pagedWithDevice {}
    devicePages 0x10ffe [1, 2, 3, 4] (List.cons_ne_nil _ _)
  have hwritten : (pagedWithDevice.writeMemory devicePages 0x10ffe [1, 2, 3, 4]).isSome := by
    decide +kernel
  refine h.deviceFree (.inr hwritten) 0x11000 (by decide) (by decide) ?_
  rw [deviceMapped_pagedWithDevice]
  decide

end

end GuestMemory

end X360Port
