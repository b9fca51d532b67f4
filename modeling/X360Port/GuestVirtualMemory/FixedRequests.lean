import X360Port.GuestVirtualMemory.Outcomes
import X360Port.GuestVirtualMemory.Preparing

/-!
# Where a fixed request lands

A guest that names a base asks for the bytes from there on. `PrepareRequest`
rounds the base down and the size up, each by itself, and a base that rounds to
zero is the sign that the heap is to choose. The base and the size of what was
mapped are stored into the guest's two words one after the other.

The range that the guest reads back is the mapped one, starts at the page of the
base and covers what was asked for exactly when the base does not lie in the page
at zero, the offset of the base within its page still leaves room for the size,
and the two words do not share a byte that is to hold two values
(`fixed_request_iff`).
-/

namespace X360Port

namespace GuestVirtualMemory

section

variable {η : Type} (X : Xenia η)

/-- The range starts at the page of the requested base and covers every requested byte. -/
def AsAsked (requested : RequestedRegion) (range : CommittedRange) : Prop :=
  ∃ heap, X.lookupHeap requested.base = some heap ∧
    range.address.toNat = requested.base.toNat - requested.base.toNat % heap.pageSize.toNat ∧
    range.address.toNat ≤ requested.base.toNat ∧
    requested.base.toNat + magnitude requested.size ≤ range.address.toNat + range.size.toNat

/-- The base does not lie in the page at zero, and the size rounded up to pages has room for
the base's offset in its page as well. -/
def FitsRounded (requested : RequestedRegion) : Prop :=
  ∀ heap, X.lookupHeap requested.base = some heap →
    heap.pageSize.toNat ≤ requested.base.toNat ∧
    requested.base.toNat % heap.pageSize.toNat + magnitude requested.size ≤
      heap.pageSize.toNat * (magnitude requested.size ⌈/⌉ heap.pageSize.toNat)

/-- The page of the requested base, and the requested size in whole pages. -/
def roundedRange (heap : BaseHeap) (requested : RequestedRegion) : CommittedRange :=
  ⟨requested.base - requested.base % heap.pageSize,
    .ofNat (heap.pageSize.toNat * (magnitude requested.size ⌈/⌉ heap.pageSize.toNat))⟩

variable {X} {m : XeniaMemory η} {call : GuestImportContext} {requested : RequestedRegion}
  {allocType : UInt32}

theorem toNat_sub_mod (address pageSize : UInt32) :
    (address - address % pageSize).toNat =
      address.toNat - address.toNat % pageSize.toNat := by
  have hle : (address % pageSize).toNat ≤ address.toNat := by
    rw [UInt32.toNat_mod]
    exact Nat.mod_le _ _
  rw [Library.Word.toNat_sub_of_le hle, UInt32.toNat_mod]

/-- A base rounds to zero in the page at zero. -/
theorem sub_mod_eq_zero_iff {address pageSize : UInt32} (h : 0 < pageSize.toNat) :
    address - address % pageSize = 0 ↔ address.toNat < pageSize.toNat := by
  have hmod := Nat.mod_lt address.toNat h
  rw [← UInt32.toNat_inj, toNat_sub_mod]
  have hzero : (0 : UInt32).toNat = 0 := rfl
  rw [hzero]
  constructor
  · omega
  · intro hlt
    rw [Nat.mod_eq_of_lt hlt, Nat.sub_self]

/-- A prepared request that names a base. -/
theorem prepareRequest_fixed (hbase : requested.base ≠ 0) {request : AllocationRequest}
    (h : prepareRequest X requested allocType = some request) :
    ∃ heap, X.lookupHeap requested.base = some heap ∧
      request.base = requested.base - requested.base % heap.pageSize := by
  rw [prepareRequest, requestPageSize, if_pos hbase] at h
  cases hheap : lookupVirtualHeap X requested.base with
  | none => simp [hheap] at h
  | some heap =>
    refine ⟨heap, (lookupVirtualHeap_spec hheap).1, ?_⟩
    simp only [hheap, Option.map_some, Option.ite_none_left_eq_some, Option.some.injEq] at h
    obtain ⟨-, rfl⟩ := h
    rfl

theorem preparedRequest_eq (hrequested : requestedRegion X m call = some requested)
    {request : AllocationRequest} (h : preparedRequest X m call = some request) :
    prepareRequest X requested (call.argument 2).toUInt32 = some request := by
  rw [preparedRequest, hrequested, Option.bind_some, Option.ite_none_right_eq_some] at h
  exact h.2

/-- A request whose base does not round to zero is sized in pages of its heap. -/
theorem prepareRequest_size_fixed (pages : PageSizes X) {request : AllocationRequest}
    {heap : BaseHeap} (h : prepareRequest X requested allocType = some request)
    (hheap : X.lookupHeap requested.base = some heap)
    (hbase : requested.base - requested.base % heap.pageSize ≠ 0) :
    request.size.toNat =
      heap.pageSize.toNat * (magnitude requested.size ⌈/⌉ heap.pageSize.toNat) := by
  have hgranularity : granularity X requested = heap.pageSize := by
    rw [granularity, hheap]
    exact if_pos hbase
  rw [prepareRequest_size pages h, hgranularity]

/-- The page of the base and the size rounded up to pages hold the request where there is
room for the offset. -/
theorem asAsked_iff_fitsRounded {heap : BaseHeap} {range : CommittedRange}
    (hheap : X.lookupHeap requested.base = some heap)
    (hpage : heap.pageSize.toNat ≤ requested.base.toNat)
    (hstart : range.address.toNat =
      requested.base.toNat - requested.base.toNat % heap.pageSize.toNat)
    (hsize : range.size.toNat =
      heap.pageSize.toNat * (magnitude requested.size ⌈/⌉ heap.pageSize.toNat)) :
    AsAsked X requested range ↔ FitsRounded X requested := by
  have hmod := Nat.mod_le requested.base.toNat heap.pageSize.toNat
  constructor
  · rintro ⟨-, -, -, -, hcovers⟩ heap' hheap'
    rw [hheap, Option.some.injEq] at hheap'
    subst hheap'
    rw [hsize] at hcovers
    omega
  · intro h
    obtain ⟨-, hroom⟩ := h heap hheap
    refine ⟨heap, hheap, hstart, by omega, ?_⟩
    rw [hsize]
    omega

/-- A range of the heap's own choice does not start at the page at zero. -/
theorem not_asAsked_of_lt {heap : BaseHeap} {range : CommittedRange}
    (hheap : X.lookupHeap requested.base = some heap)
    (hpage : requested.base.toNat < heap.pageSize.toNat) (hne : range.address ≠ 0) :
    ¬ AsAsked X requested range := by
  rintro ⟨heap', hheap', hstart, -, -⟩
  rw [hheap, Option.some.injEq] at hheap'
  subst hheap'
  apply hne
  rw [← UInt32.toNat_inj, hstart, Nat.mod_eq_of_lt hpage, Nat.sub_self]
  rfl

/-- Where a request with a base is mapped: as asked for exactly where there is room for the
offset, and then from the page of the base on in whole pages. -/
theorem mapped_of_succeeded (pages : PageSizes X)
    (hsucceeded : Succeeded (allocateVirtualMemory X m call).2)
    (hrequested : requestedRegion X m call = some requested) (hbase : requested.base ≠ 0)
    {range : CommittedRange} (hrange : mappedRange X m call = some range) :
    (AsAsked X requested range ↔ FitsRounded X requested) ∧
      (FitsRounded X requested → ∀ heap, X.lookupHeap requested.base = some heap →
        range = roundedRange heap requested) := by
  obtain ⟨request, region, after, hrequest, hout, -⟩ := allocateVirtualMemory_succeeded hsucceeded
  obtain rfl : region = range :=
    Option.some.inj ((mappedRange_eq hrequest hout).symm.trans hrange)
  have hprepare := preparedRequest_eq hrequested hrequest
  obtain ⟨heap, hheap, hrounded⟩ := prepareRequest_fixed hbase hprepare
  obtain ⟨hpos, -⟩ := pages _ _ hheap
  have hzero_iff : request.base = 0 ↔ requested.base.toNat < heap.pageSize.toNat := by
    rw [hrounded]
    exact sub_mod_eq_zero_iff hpos
  obtain ⟨_, hfixed, -, -, -, heq⟩ | ⟨_, hzero, -, hne, heq⟩ | ⟨heq, -⟩ :=
    handedOut_cases X m request (policyOf X call)
  · rw [heq, Option.some.injEq, Prod.mk.injEq] at hout
    obtain ⟨rfl, -⟩ := hout
    have hpage : ¬ requested.base.toNat < heap.pageSize.toNat := fun h => hfixed (hzero_iff.2 h)
    have hsize := prepareRequest_size_fixed pages hprepare hheap (hrounded ▸ hfixed)
    refine ⟨asAsked_iff_fitsRounded hheap (not_lt.1 hpage) ?_ hsize, fun _ heap' hheap' => ?_⟩
    · show request.base.toNat = _
      rw [hrounded, toNat_sub_mod]
    · rw [hheap, Option.some.injEq] at hheap'
      subst hheap'
      rw [roundedRange, ← hsize, UInt32.ofNat_toNat, hrounded]
  · rw [heq, Option.some.injEq, Prod.mk.injEq] at hout
    obtain ⟨rfl, -⟩ := hout
    have hpage := hzero_iff.1 hzero
    have hno : ¬ FitsRounded X requested := fun h => absurd (h heap hheap).1 (by omega)
    exact ⟨iff_of_false (not_asAsked_of_lt hheap hpage hne) hno, fun h => absurd h hno⟩
  · rw [heq] at hout
    simp at hout

/-- **Main result.** The guest reads back the range that was mapped, and this is the one it
asked for, exactly when the base and the size, rounded each by itself, still hold it and agree
on every byte that the two words share. Words that share none read back as asked exactly when
there is room for the offset. -/
theorem fixed_request_iff (pages : PageSizes X)
    (hsucceeded : Succeeded (allocateVirtualMemory X m call).2)
    (hrequested : requestedRegion X m call = some requested) (hbase : requested.base ≠ 0) :
    ((mappedRange X m call = some (returnedWords X m call) ∧
        AsAsked X requested (returnedWords X m call)) ↔
      FitsRounded X requested ∧ ∀ heap, X.lookupHeap requested.base = some heap →
        WordsAgree call (roundedRange heap requested)) ∧
    (WordsApart call →
      (AsAsked X requested (returnedWords X m call) ↔ FitsRounded X requested)) := by
  obtain ⟨range, hrange, hsize, haddress⟩ := words_of_succeeded hsucceeded
  obtain ⟨hasked, hrounded⟩ := mapped_of_succeeded pages hsucceeded hrequested hbase hrange
  have hwords : WordsAgree call range → returnedWords X m call = range := fun hagree =>
    congrArg₂ CommittedRange.mk (haddress.2 hagree) hsize
  refine ⟨⟨?_, ?_⟩, fun hapart => ?_⟩
  · rintro ⟨hmapped, hread⟩
    obtain rfl : range = returnedWords X m call := Option.some.inj (hrange.symm.trans hmapped)
    have hfits := hasked.1 hread
    refine ⟨hfits, fun heap hheap => ?_⟩
    rw [← hrounded hfits heap hheap]
    exact haddress.1 rfl
  · rintro ⟨hfits, hagree⟩
    obtain ⟨heap, hheap, -⟩ := hasked.2 hfits
    have hread := hwords (hrounded hfits heap hheap ▸ hagree heap hheap)
    rw [hread]
    exact ⟨hrange, hasked.2 hfits⟩
  · rw [hwords (wordsAgree_of_apart hapart range)]
    exact hasked

end

/-! ## On the paged memory -/

section

open PageTable

/-- A free heap, and a page for the guest's words. -/
def requestMemory (base size : UInt32) : XeniaMemory PageTable :=
  (XeniaMemory.mk (fun p => if p = 0x20 then taken 0x20 1 3 3 else {}) fun _ => 0).store 0x20000
    (guestWordBytes base ++ guestWordBytes size)

/-- `NtAllocateVirtualMemory` with `MEM_RESERVE | MEM_COMMIT` on words at `0x20000`. -/
def allocateCall : GuestImportContext := .make [0x20000, 0x20004, 0x3000, 0x04]

/-- The same with one word for both. -/
def allocateOneWord : GuestImportContext := .make [0x20000, 0x20000, 0x3000, 0x04]

/-- A page asked for in the middle of a page comes back half, one asked for in the page at zero
comes back elsewhere, and where one word is for both the base reads back as the size. -/
theorem fixed_request_short : PageSizes paged ∧
    (Succeeded (allocateVirtualMemory paged (requestMemory 0x10800 0x1000) allocateCall).2 ∧
      requestedRegion paged (requestMemory 0x10800 0x1000) allocateCall =
        some ⟨0x10800, 0x1000⟩ ∧
      ¬ AsAsked paged ⟨0x10800, 0x1000⟩
        (returnedWords paged (requestMemory 0x10800 0x1000) allocateCall)) ∧
    (Succeeded (allocateVirtualMemory paged (requestMemory 0x800 0x1000) allocateCall).2 ∧
      requestedRegion paged (requestMemory 0x800 0x1000) allocateCall = some ⟨0x800, 0x1000⟩ ∧
      ¬ AsAsked paged ⟨0x800, 0x1000⟩
        (returnedWords paged (requestMemory 0x800 0x1000) allocateCall)) ∧
    Succeeded (allocateVirtualMemory paged (requestMemory 0x10800 0) allocateOneWord).2 ∧
      requestedRegion paged (requestMemory 0x10800 0) allocateOneWord =
        some ⟨0x10800, 0x10800⟩ ∧
      ¬ AsAsked paged ⟨0x10800, 0x10800⟩
        (returnedWords paged (requestMemory 0x10800 0) allocateOneWord) := by
  have hshort : ¬ AsAsked paged ⟨0x10800, 0x1000⟩ ⟨0x10000, 0x1000⟩ := by
    rintro ⟨heap, -, -, -, hcovers⟩
    exact absurd hcovers (by decide)
  have helsewhere : ¬ AsAsked paged ⟨0x800, 0x1000⟩ ⟨0x10000, 0x10000⟩ := by
    rintro ⟨heap, -, -, hstart, -⟩
    exact absurd hstart (by decide)
  have hover : ¬ AsAsked paged ⟨0x10800, 0x10800⟩ ⟨0x11000, 0x11000⟩ := by
    rintro ⟨heap, -, -, hstart, -⟩
    exact absurd hstart (by decide)
  obtain ⟨hs, hr, hwords⟩ :
      Succeeded (allocateVirtualMemory paged (requestMemory 0x10800 0x1000) allocateCall).2 ∧
        requestedRegion paged (requestMemory 0x10800 0x1000) allocateCall =
          some ⟨0x10800, 0x1000⟩ ∧
        returnedWords paged (requestMemory 0x10800 0x1000) allocateCall = ⟨0x10000, 0x1000⟩ := by
    decide +kernel
  obtain ⟨hs', hr', hwords'⟩ :
      Succeeded (allocateVirtualMemory paged (requestMemory 0x800 0x1000) allocateCall).2 ∧
        requestedRegion paged (requestMemory 0x800 0x1000) allocateCall = some ⟨0x800, 0x1000⟩ ∧
        returnedWords paged (requestMemory 0x800 0x1000) allocateCall = ⟨0x10000, 0x10000⟩ := by
    decide +kernel
  obtain ⟨hs'', hr'', hwords''⟩ :
      Succeeded (allocateVirtualMemory paged (requestMemory 0x10800 0) allocateOneWord).2 ∧
        requestedRegion paged (requestMemory 0x10800 0) allocateOneWord =
          some ⟨0x10800, 0x10800⟩ ∧
        returnedWords paged (requestMemory 0x10800 0) allocateOneWord = ⟨0x11000, 0x11000⟩ := by
    decide +kernel
  exact ⟨pagedPageSizes, ⟨hs, hr, hwords ▸ hshort⟩, ⟨hs', hr', hwords' ▸ helsewhere⟩, hs'', hr'',
    hwords'' ▸ hover⟩

/-- A page and a half asked for from the start of a page. -/
theorem fixed_request_whole :
    mappedRange paged (requestMemory 0x10000 0x1800) allocateCall =
        some (returnedWords paged (requestMemory 0x10000 0x1800) allocateCall) ∧
      AsAsked paged ⟨0x10000, 0x1800⟩
        (returnedWords paged (requestMemory 0x10000 0x1800) allocateCall) := by
  have hsucceeded : Succeeded
      (allocateVirtualMemory paged (requestMemory 0x10000 0x1800) allocateCall).2 := by
    decide +kernel
  have hrequested : requestedRegion paged (requestMemory 0x10000 0x1800) allocateCall =
      some ⟨0x10000, 0x1800⟩ := by decide +kernel
  obtain ⟨hiff, -⟩ := fixed_request_iff pagedPageSizes hsucceeded hrequested (by decide)
  refine hiff.2 ⟨fun heap hheap => ?_, fun heap _ => wordsAgree_of_apart (by decide) _⟩
  have hpaged : PageTable.heap = heap := Option.some.inj hheap
  subst hpaged
  decide

end

end GuestVirtualMemory

end X360Port
