import X360Port.Library.WordArithmetic
import X360Port.Library.WordMasks
import X360Port.RuntimeFailure

/-!
# Device memory ranges

`register` checks a device range and hands it to Xenia with its callbacks.
Xenia compares an address under the range's mask to route an access; the
runtime's contract promises the callbacks `[address, address + size)`.
`register_routes_iff` says for which accepted ranges the two are the same.
-/

namespace X360Port

open Library

/-- The callbacks of a range; `none` is the null pointer. -/
structure DeviceRange (ρ ω κ : Type) where
  readCallback : Option ρ := none
  writeCallback : Option ω := none
  context : Option κ := none
  deriving DecidableEq, Repr

/-- A range that Xenia routes to its callbacks. -/
structure VirtualMappedRange (ρ ω κ : Type) where
  address : UInt32
  mask : UInt32
  size : UInt32
  range : DeviceRange ρ ω κ
  deriving DecidableEq, Repr

/-- The ranges of one dispatch and, of Xenia, those it was given. -/
structure DeviceDispatch (ρ ω κ : Type) where
  ranges : List (DeviceRange ρ ω κ) := []
  mapped : List (VirtualMappedRange ρ ω κ) := []
  deriving DecidableEq, Repr

variable {ρ ω κ : Type}

/-- An access at the address reaches the range. -/
def VirtualMappedRange.Routes (r : VirtualMappedRange ρ ω κ) (x : UInt32) : Prop :=
  x &&& r.mask = r.address

/-- The range is reached from `[address, address + size)`, which does not wrap. -/
def VirtualMappedRange.RoutesExactly (r : VirtualMappedRange ρ ω κ) (address size : UInt32) :
    Prop :=
  (∀ x, r.Routes x ↔ address.toNat ≤ x.toNat ∧ x.toNat < address.toNat + size.toNat) ∧
    address.toNat + size.toNat ≤ 2 ^ 32

namespace DeviceDispatch

/-- `added` is Xenia's answer to `AddVirtualMappedRange`. -/
def register (s : DeviceDispatch ρ ω κ) (hostPage : UInt32) (added : Bool)
    (address mask size : UInt32) (readCallback : Option ρ) (writeCallback : Option ω)
    (context : Option κ) : DeviceDispatch ρ ω κ × RuntimeFailure :=
  if size = 0 ∨ readCallback.isNone ∨ writeCallback.isNone ∨ address &&& ~~~mask ≥ size then
    (s, ⟨.deviceRangeInvalid,
      "device range requires a non-empty aligned masked range and both callbacks"⟩)
  else if address % hostPage ≠ 0 ∨ size % hostPage ≠ 0 then
    (s, ⟨.deviceRangeInvalid, "device range must start on and cover whole host pages"⟩)
  else
    let range : DeviceRange ρ ω κ := ⟨readCallback, writeCallback, context⟩
    let s := { s with ranges := s.ranges ++ [range] }
    if ¬ added then
      ({ s with ranges := s.ranges.dropLast }, ⟨.deviceRangeRegistrationFailed,
        "Xenia refused the virtual device-memory range"⟩)
    else ({ s with mapped := s.mapped ++ [⟨address, mask, size, range⟩] }, {})

section

variable {s : DeviceDispatch ρ ω κ} {hostPage : UInt32} {added : Bool}
  {address mask size : UInt32} {readCallback : Option ρ} {writeCallback : Option ω}
  {context : Option κ}

/-- A registration is refused and leaves nothing behind, or the range is mapped with the values
it was registered with. -/
theorem register_cases (s : DeviceDispatch ρ ω κ) (hostPage : UInt32) (added : Bool)
    (address mask size : UInt32) (readCallback : Option ρ) (writeCallback : Option ω)
    (context : Option κ) :
    (∃ failure : RuntimeFailure, ¬ failure.Ok ∧
      s.register hostPage added address mask size readCallback writeCallback context =
        (s, failure)) ∨
    (size ≠ 0 ∧ s.register hostPage added address mask size readCallback writeCallback context =
      (⟨s.ranges ++ [⟨readCallback, writeCallback, context⟩],
        s.mapped ++ [⟨address, mask, size, ⟨readCallback, writeCallback, context⟩⟩]⟩, {})) := by
  unfold register
  split
  · refine .inl ⟨_, ?_, rfl⟩
    exact RuntimeError.noConfusion
  next hrange =>
    split
    · refine .inl ⟨_, ?_, rfl⟩
      exact RuntimeError.noConfusion
    · dsimp only
      split
      · rw [List.dropLast_concat]
        refine .inl ⟨_, ?_, rfl⟩
        exact RuntimeError.noConfusion
      · exact .inr ⟨fun hzero => hrange (.inl hzero), rfl⟩

theorem register_of_ok
    (h : (s.register hostPage added address mask size readCallback writeCallback context).2.Ok) :
    size ≠ 0 ∧ (s.register hostPage added address mask size readCallback writeCallback context).1 =
      ⟨s.ranges ++ [⟨readCallback, writeCallback, context⟩],
        s.mapped ++ [⟨address, mask, size, ⟨readCallback, writeCallback, context⟩⟩]⟩ := by
  rcases s.register_cases hostPage added address mask size readCallback writeCallback context with
    ⟨failure, hfailed, heq⟩ | ⟨hsize, heq⟩
  · rw [heq] at h
    exact absurd h hfailed
  · exact ⟨hsize, by rw [heq]⟩

end

/-! ## What a range reaches -/

/-- The size is a power of two, the mask its complement and the address a multiple of it. -/
def AlignedBlock (address mask size : UInt32) : Prop :=
  (∃ k, size.toNat = 2 ^ k) ∧ mask = ~~~(size - 1) ∧ address &&& (size - 1) = 0

theorem alignedBlock_iff {address mask size : UInt32} (hsize : size ≠ 0) :
    AlignedBlock address mask size ↔
      LowBitsMask mask.toBitVec address.toBitVec size.toNat := by
  have hpos := Word.toNat_pos hsize
  have hpred : (size - 1).toNat = size.toNat - 1 := by
    apply UInt32.toNat_sub_of_le
    rw [UInt32.le_iff_toNat_le, UInt32.toNat_one]
    omega
  have hmask : mask = ~~~(size - 1) ↔ (~~~mask).toNat = size.toNat - 1 := by
    rw [← hpred, UInt32.toNat_inj]
    constructor
    · intro heq
      rw [heq, UInt32.not_not]
    · intro heq
      rw [← heq, UInt32.not_not]
  have haddress : ∀ k, size.toNat = 2 ^ k →
      (address &&& (size - 1) = 0 ↔ address.toNat % 2 ^ k = 0) := by
    intro k hk
    rw [← UInt32.toNat_inj, UInt32.toNat_and, UInt32.toNat_zero, hpred, hk,
      Nat.and_two_pow_sub_one_eq_mod]
  constructor
  · rintro ⟨⟨k, hk⟩, hm, ha⟩
    exact ⟨k, hk, hk ▸ hmask.1 hm, (haddress k hk).1 ha⟩
  · rintro ⟨k, hk, hm, ha⟩
    exact ⟨⟨k, hk⟩, hmask.2 (hk ▸ hm), (haddress k hk).2 ha⟩

/-- A non-empty range reaches its addresses just when it is an aligned block. -/
theorem routesExactly_iff {address mask size : UInt32} (hsize : size ≠ 0)
    (range : DeviceRange ρ ω κ) :
    (VirtualMappedRange.mk address mask size range).RoutesExactly address size ↔
      AlignedBlock address mask size := by
  have hpos := Word.toNat_pos hsize
  rw [alignedBlock_iff hsize, ← selects_iff_interval_iff _ _ hpos]
  refine and_congr_left fun _ => ⟨fun h x => ?_, fun h x => ?_⟩
  · refine Iff.trans ?_ (h ⟨x⟩)
    exact UInt32.toBitVec_inj (a := ⟨x⟩ &&& mask) (b := address)
  · refine Iff.trans ?_ (h x.toBitVec)
    exact UInt32.toBitVec_inj.symm

/-- An accepted range is one that Xenia routes from exactly the addresses of the contract just
when it is an aligned block, whatever the host page. -/
theorem register_routes_iff (s : DeviceDispatch ρ ω κ) (hostPage : UInt32) (added : Bool)
    (address mask size : UInt32) (readCallback : Option ρ) (writeCallback : Option ω)
    (context : Option κ)
    (h : (s.register hostPage added address mask size readCallback writeCallback context).2.Ok) :
    ∃ r : VirtualMappedRange ρ ω κ, r.range = ⟨readCallback, writeCallback, context⟩ ∧
      (s.register hostPage added address mask size readCallback writeCallback context).1.mapped =
        s.mapped ++ [r] ∧
      (r.RoutesExactly address size ↔ AlignedBlock address mask size) := by
  obtain ⟨hsize, hstate⟩ := register_of_ok h
  refine ⟨⟨address, mask, size, ⟨readCallback, writeCallback, context⟩⟩, rfl, ?_,
    routesExactly_iff hsize _⟩
  rw [hstate]

/-- A 64 KiB register block under its mask. -/
theorem register_routes_iff_block : ∃ r : VirtualMappedRange Unit Unit Unit,
    ((DeviceDispatch.mk [] []).register 0x1000 true 0x7FC80000 0xFFFF0000 0x10000 (some ())
      (some ()) none).1.mapped = [r] ∧ r.RoutesExactly 0x7FC80000 0x10000 := by
  obtain ⟨r, -, hr, hiff⟩ := register_routes_iff (⟨[], []⟩ : DeviceDispatch Unit Unit Unit)
    0x1000 true 0x7FC80000 0xFFFF0000 0x10000 (some ()) (some ()) none (by decide)
  exact ⟨r, hr, hiff.2 ⟨⟨16, rfl⟩, by decide, by decide⟩⟩

/-- A page under the mask of a 64 KiB block: it is accepted, and accesses behind it reach it. -/
theorem register_routes_past : ¬ ∀ (s : DeviceDispatch Unit Unit Unit) (hostPage : UInt32)
    (added : Bool) (address mask size : UInt32) (readCallback writeCallback context : Option Unit),
    (s.register hostPage added address mask size readCallback writeCallback context).2.Ok →
    ∀ r, (s.register hostPage added address mask size readCallback writeCallback context).1.mapped =
      s.mapped ++ [r] → r.RoutesExactly address size := by
  intro h
  have hpage := h ⟨[], []⟩ 0x1000 true 0x7FC80000 0xFFFF0000 0x1000 (some ()) (some ()) none
    (by decide) ⟨0x7FC80000, 0xFFFF0000, 0x1000, ⟨some (), some (), none⟩⟩ (by decide)
  have hbehind := (hpage.1 0x7FC81000).1 (by unfold VirtualMappedRange.Routes; decide)
  revert hbehind
  decide

end DeviceDispatch

end X360Port
