import X360Port.Library.OrderedMap
import X360Port.RuntimeFailure
import X360Port.XeniaMemory

/-!
# The title's guest allocations

`GuestMemory` is the table of the ranges that the title has allocated from
Xenia's system heap, by address. `read` and `write` stay inside one of them,
`readMapped` and `writeMapped` inside any range of one heap that Xenia lets the
guest access, and `release` takes back one whole range.

Every call takes the table and Xenia's memory. A refused one answers a failure
with the text of the source.
-/

namespace X360Port

open Library

structure GuestMemoryAllocation where
  address : GuestAddress := 0
  size : UInt32 := 0
  deriving DecidableEq, Repr

structure GuestMemoryAllocationResult where
  allocation : GuestMemoryAllocation := {}
  failure : RuntimeFailure := {}
  deriving DecidableEq, Repr

/-- The table; `initialized` says that the pointer to Xenia's memory is set. -/
structure GuestMemory where
  initialized : Bool := false
  allocations : OrderedMap GuestAddress UInt32 := .empty

namespace GuestMemory

def initializeMemory (g : GuestMemory) : GuestMemory := { g with initialized := true }

section

variable {η : Type} (X : Xenia η) (g : GuestMemory) (m : XeniaMemory η)

def reset : GuestMemory × XeniaMemory η :=
  ({}, if g.initialized then
    g.allocations.entries.foldl (fun m allocation => X.systemHeapFree allocation.1 m) m else m)

def allocate (size : UInt32) : GuestMemory × XeniaMemory η × GuestMemoryAllocationResult :=
  if ¬ g.initialized ∨ size = 0 then
    (g, m, { failure := ⟨.guestMemoryAllocationFailed,
      "guest memory allocation requires an initialized runtime and nonzero size"⟩ })
  else
    let (address, m) := X.systemHeapAlloc size m
    if address = 0 ∨ (g.allocations.find address).isSome then
      (g, m, { failure := ⟨.guestMemoryAllocationFailed,
        "Xenia could not allocate a tracked guest-memory range"⟩ })
    else
      ({ g with allocations := g.allocations.emplace address size }, m,
        { allocation := ⟨address, size⟩ })

/-- Whether the span lies in the last allocation that starts no later. -/
def contains (address : GuestAddress) (size : Nat) : Bool :=
  if size = 0 ∨ 0xffffffff < size then false
  else
    match g.allocations.lastUpTo address with
    | none => false
    | some (start, extent) =>
      start.toNat ≤ address.toNat ∧ address.toNat + size ≤ start.toNat + extent.toNat

/-- The failure, and what the destination holds after the call. -/
def read (address : GuestAddress) (bytes : List UInt8) : RuntimeFailure × List UInt8 :=
  if ¬ g.initialized ∨ bytes = [] ∨ ¬ g.contains address bytes.length then
    (⟨.guestMemoryRangeInvalid, "guest-memory read must stay inside one live allocation"⟩, bytes)
  else ({}, m.load address bytes.length)

def write (address : GuestAddress) (bytes : List UInt8) : XeniaMemory η × RuntimeFailure :=
  if ¬ g.initialized ∨ bytes = [] ∨ ¬ g.contains address bytes.length then
    (m, ⟨.guestMemoryRangeInvalid, "guest-memory write must stay inside one live allocation"⟩)
  else (m.store address bytes, {})

def canAccess (address : GuestAddress) (size : Nat) (write : Bool) : Bool :=
  if ¬ g.initialized ∨ size = 0 ∨ 0xffffffff < size then false
  else
    let lastAddress := address.toNat + size - 1
    if 0xffffffff < lastAddress then false
    else
      match X.lookupHeap address with
      | none => false
      | some firstHeap =>
        if X.lookupHeap (.ofNat lastAddress) ≠ some firstHeap then false
        else
          let access := X.queryRangeAccess firstHeap address (.ofNat lastAddress) m.heaps
          let required : UInt32 := if write then 2 else 1
          if access.bits &&& required ≠ required then false
          else ! X.lookupVirtualMappedRangeOverlapping address (.ofNat lastAddress) m.heaps

def readMapped (address : GuestAddress) (bytes : List UInt8) : RuntimeFailure × List UInt8 :=
  if ¬ g.canAccess X m address bytes.length false then
    (⟨.guestMemoryRangeInvalid,
      "mapped guest-memory read must stay inside one readable guest range"⟩, bytes)
  else ({}, m.load address bytes.length)

def writeMapped (address : GuestAddress) (bytes : List UInt8) : XeniaMemory η × RuntimeFailure :=
  if ¬ g.canAccess X m address bytes.length true then
    (m, ⟨.guestMemoryRangeInvalid,
      "mapped guest-memory write must stay inside one writable guest range"⟩)
  else (m.store address bytes, {})

def release (allocation : GuestMemoryAllocation) : GuestMemory × XeniaMemory η × RuntimeFailure :=
  if ¬ g.initialized ∨ allocation.address = 0 ∨ allocation.size = 0 then
    (g, m, ⟨.guestMemoryRangeInvalid, "guest-memory release requires a live allocation"⟩)
  else if g.allocations.find allocation.address ≠ some allocation.size then
    (g, m, ⟨.guestMemoryRangeInvalid,
      "guest-memory release must match the complete allocation"⟩)
  else
    ({ g with allocations := g.allocations.erase allocation.address },
      X.systemHeapFree allocation.address m, {})

end

/-! ## Containment -/

/-- No two live ranges meet. -/
def Apart (g : GuestMemory) : Prop := g.allocations.RangesApart UInt32.toNat UInt32.toNat

section

variable {η : Type} {X : Xenia η} {g : GuestMemory} {m : XeniaMemory η} {address : GuestAddress}
  {size : Nat} {bytes : List UInt8}

/-- A span is contained if one live range holds it. -/
theorem contains_iff (h : g.Apart) :
    g.contains address size ↔ 0 < size ∧ ∃ e ∈ g.allocations.entries,
      e.1.toNat ≤ address.toNat ∧ address.toNat + size ≤ e.1.toNat + e.2.toNat := by
  rw [contains]
  split
  · next hguard =>
    refine iff_of_false Bool.false_ne_true ?_
    rintro ⟨hpos, e, -, hbegin, hend⟩
    have hextent := e.2.toNat_lt
    omega
  · next hguard =>
    have hpos : 0 < size := by omega
    rw [← OrderedMap.exists_lastUpTo_iff (fun _ _ => UInt32.le_iff_toNat_le) h hpos]
    cases hlast : g.allocations.lastUpTo address with
    | none => simp
    | some e =>
      have hle := UInt32.le_iff_toNat_le.1 (OrderedMap.lastUpTo_spec hlast).2.1
      simp [hpos, hle]

/-- No span of no bytes is contained. -/
theorem ne_nil_of_contains (h : g.contains address bytes.length) : bytes ≠ [] := by
  rintro rfl
  rw [contains, if_pos (.inl rfl)] at h
  cases h

theorem read_of_contains (hinit : g.initialized) (h : g.contains address bytes.length) :
    g.read m address bytes = ({}, m.load address bytes.length) := by
  rw [read, if_neg]
  simp [hinit, h, ne_nil_of_contains h]

theorem read_refused (h : ¬ g.contains address bytes.length) :
    ¬ (g.read m address bytes).1.Ok ∧ (g.read m address bytes).2 = bytes := by
  rw [read, if_pos (.inr (.inr h))]
  exact ⟨fun hok => (nomatch hok), rfl⟩

theorem read_ok_iff (hinit : g.initialized) :
    (g.read m address bytes).1.Ok ↔ g.contains address bytes.length := by
  by_cases h : g.contains address bytes.length
  · rw [read_of_contains hinit h]
    exact iff_of_true rfl h
  · exact iff_of_false (read_refused h).1 h

theorem write_of_contains (hinit : g.initialized) (h : g.contains address bytes.length) :
    g.write m address bytes = (m.store address bytes, {}) := by
  rw [write, if_neg]
  simp [hinit, h, ne_nil_of_contains h]

theorem write_refused (h : ¬ g.contains address bytes.length) :
    ¬ (g.write m address bytes).2.Ok ∧ (g.write m address bytes).1 = m := by
  rw [write, if_pos (.inr (.inr h))]
  exact ⟨fun hok => (nomatch hok), rfl⟩

theorem write_ok_iff (hinit : g.initialized) :
    (g.write m address bytes).2.Ok ↔ g.contains address bytes.length := by
  by_cases h : g.contains address bytes.length
  · rw [write_of_contains hinit h]
    exact iff_of_true rfl h
  · exact iff_of_false (write_refused h).1 h

/-! ## What a call does to the table -/

/-- An allocation is refused with the table as it was, or adds the range it answers. -/
theorem allocate_cases (g : GuestMemory) (m : XeniaMemory η) (size : UInt32) :
    (g.allocate X m size).1 = g ∧ ¬ (g.allocate X m size).2.2.failure.Ok ∧
        ((g.allocate X m size).2.1 = m ∨
          size ≠ 0 ∧ (g.allocate X m size).2.1 = (X.systemHeapAlloc size m).2 ∧
          ((X.systemHeapAlloc size m).1 = 0 ∨
            (g.allocations.find (X.systemHeapAlloc size m).1).isSome)) ∨
      g.initialized ∧ size ≠ 0 ∧ (X.systemHeapAlloc size m).1 ≠ 0 ∧
        g.allocations.find (X.systemHeapAlloc size m).1 = none ∧
        g.allocate X m size =
          ({ g with allocations := g.allocations.emplace (X.systemHeapAlloc size m).1 size },
            (X.systemHeapAlloc size m).2,
            { allocation := ⟨(X.systemHeapAlloc size m).1, size⟩ }) := by
  rw [allocate]
  split
  · exact .inl ⟨rfl, fun hok => (nomatch hok), .inl rfl⟩
  · next hguard =>
    rw [not_or, not_not] at hguard
    simp only
    split
    · next hrefused => exact .inl ⟨rfl, fun hok => (nomatch hok), .inr ⟨hguard.2, rfl, hrefused⟩⟩
    · next hfresh =>
      rw [not_or, Option.not_isSome_iff_eq_none] at hfresh
      exact .inr ⟨hguard.1, hguard.2, hfresh.1, hfresh.2, rfl⟩

theorem allocate_ok_iff (size : UInt32) :
    (g.allocate X m size).2.2.failure.Ok ↔ g.initialized ∧ size ≠ 0 ∧
      (X.systemHeapAlloc size m).1 ≠ 0 ∧
      g.allocations.find (X.systemHeapAlloc size m).1 = none := by
  rw [allocate]
  split
  · next hguard =>
    refine iff_of_false (fun hok => nomatch hok) ?_
    rintro ⟨hinit, hsize, -⟩
    exact hguard.elim (fun h => h hinit) hsize
  · next hguard =>
    rw [not_or, not_not] at hguard
    simp only
    split
    · next hrefused =>
      refine iff_of_false (fun hok => nomatch hok) ?_
      rintro ⟨-, -, hne, hfind⟩
      rw [hfind] at hrefused
      exact hrefused.elim hne fun h => nomatch h
    · next hfresh =>
      rw [not_or, Option.not_isSome_iff_eq_none] at hfresh
      exact iff_of_true rfl ⟨hguard.1, hguard.2, hfresh.1, hfresh.2⟩

/-- A release is refused with nothing changed, or takes one whole entry out. -/
theorem release_cases (g : GuestMemory) (m : XeniaMemory η) (a : GuestMemoryAllocation) :
    (g.release X m a).1 = g ∧ (g.release X m a).2.1 = m ∧ ¬ (g.release X m a).2.2.Ok ∧
        (g.initialized → a.address ≠ 0 → a.size ≠ 0 →
          (a.address, a.size) ∉ g.allocations.entries) ∨
      (a.address, a.size) ∈ g.allocations.entries ∧ g.release X m a =
        ({ g with allocations := g.allocations.erase a.address },
          X.systemHeapFree a.address m, {}) := by
  rw [release]
  split
  · next hguard =>
    refine .inl ⟨rfl, rfl, fun hok => (nomatch hok), fun hinit haddress hsize => ?_⟩
    exact absurd hguard (by simp [hinit, haddress, hsize])
  · split
    · next hfind =>
      refine .inl ⟨rfl, rfl, fun hok => (nomatch hok), fun _ _ _ hmem => ?_⟩
      exact hfind (OrderedMap.find_eq_some_iff.2 hmem)
    · next hfind =>
      exact .inr ⟨OrderedMap.find_eq_some_iff.1 (not_not.1 hfind), rfl⟩

end

end GuestMemory

end X360Port
