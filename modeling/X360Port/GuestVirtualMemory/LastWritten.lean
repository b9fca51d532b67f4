import X360Port.GuestVirtualMemory.Contents
import X360Port.GuestVirtualMemory.SharedHeap

/-!
# The title reads back what was last written

Over a shared memory each call writes what `written` says: a store its bytes,
an export of the kernel its patches, the title's own table nothing. While a
range of the title stays in a truthful table, its bytes are those of a plain
memory to which the patches of the run were applied (`written_step`).

So a read that the title makes in such a range answers, byte by byte, what the
last write that covers the byte has put there (`play_read`).
-/

namespace X360Port

open Library GuestVirtualMemory

namespace SharedMemory

section

variable {η : Type}

/-- What a call writes to pages that stay backed. -/
def written (X : Xenia η) (s : SharedMemory η) : SharedCall → List (Patch UInt8)
  | .allocateGuestMemory _ => []
  | .releaseGuestMemory _ => []
  | .ntAllocateVirtualMemory call => allocateWrites X s.memory call
  | .ntFreeVirtualMemory call => freeWrites X s.memory call
  | .ntQueryVirtualMemory call => queryWrites X s.memory call
  | .store address bytes => [⟨address.toNat, bytes⟩]

/-- The title's range is in a table that is as it should be. -/
structure Holds (X : Xenia η) (e : GuestAddress × UInt32) (s : SharedMemory η) : Prop where
  sound : Sound X s
  truthful : Truthful X s
  entry : e ∈ s.guest.allocations.entries

variable {X : Xenia η} {s s' : SharedMemory η} {e : GuestAddress × UInt32} {x : GuestAddress}

/-- A release of another range leaves the range in the table. -/
theorem entry_release (he : e ∈ s.guest.allocations.entries) {a : GuestMemoryAllocation}
    (hother : SharedCall.releaseGuestMemory a ≠ .releaseGuestMemory ⟨e.1, e.2⟩) :
    e ∈ (s.call X (.releaseGuestMemory a)).guest.allocations.entries := by
  rcases s.guest.release_cases (X := X) s.memory a with ⟨hguest, -, -, -⟩ | ⟨hmem, heq⟩
  · simpa only [SharedMemory.call, hguest] using he
  · simp only [SharedMemory.call, heq]
    refine OrderedMap.mem_erase_iff.2 ⟨he, fun haddress => hother ?_⟩
    have hsame : e = (a.address, a.size) := OrderedMap.entry_unique he hmem haddress
    rw [hsame]

theorem entry_call (he : e ∈ s.guest.allocations.entries) {c : SharedCall}
    (hother : c ≠ .releaseGuestMemory ⟨e.1, e.2⟩) :
    e ∈ (s.call X c).guest.allocations.entries := by
  cases c with
  | allocateGuestMemory size =>
    rcases s.guest.allocate_cases (X := X) s.memory size with ⟨hguest, -, -⟩ | ⟨-, -, -, hfind, heq⟩
    · simpa only [SharedMemory.call, hguest] using he
    · simp only [SharedMemory.call, heq]
      exact (OrderedMap.mem_emplace_iff hfind).2 (.inr he)
  | releaseGuestMemory a => exact entry_release he hother
  | ntAllocateVirtualMemory call => exact he
  | ntFreeVirtualMemory call => exact he
  | ntQueryVirtualMemory call => exact he
  | store address bytes => exact he

theorem Holds.call (laws : HeapLaws X) (h : Holds X e s) {c : SharedCall} (hspares : Spares X s c)
    (hother : c ≠ .releaseGuestMemory ⟨e.1, e.2⟩) : Holds X e (s.call X c) where
  sound := h.sound.call laws h.truthful c
  truthful := (spares_iff laws h.sound h.truthful c).1 hspares
  entry := entry_call h.entry hother

/-- No range of the table wraps. -/
def Bounded (s : SharedMemory η) : Prop :=
  ∀ e ∈ s.guest.allocations.entries, e.1.toNat + e.2.toNat ≤ 2 ^ 32

theorem bounded_call (laws : HeapLaws X) (h : s.Bounded) (c : SharedCall) :
    (s.call X c).Bounded := by
  cases c with
  | allocateGuestMemory size =>
    rcases s.guest.allocate_cases (X := X) s.memory size with
      ⟨hguest, -, -⟩ | ⟨-, -, hne, hfind, heq⟩
    · simpa only [Bounded, SharedMemory.call, hguest] using h
    · simp only [Bounded, SharedMemory.call, heq]
      intro e he
      rcases (OrderedMap.mem_emplace_iff hfind).1 he with rfl | he
      · exact (laws.systemHeapAlloc size s.memory hne).1
      · exact h e he
  | releaseGuestMemory a =>
    rcases s.guest.release_cases (X := X) s.memory a with ⟨hguest, -, -, -⟩ | ⟨-, heq⟩
    · simpa only [Bounded, SharedMemory.call, hguest] using h
    · simp only [Bounded, SharedMemory.call, heq]
      exact fun e he => h e (OrderedMap.mem_erase_iff.1 he).1
  | ntAllocateVirtualMemory call => exact h
  | ntFreeVirtualMemory call => exact h
  | ntQueryVirtualMemory call => exact h
  | store address bytes => exact h

theorem bounded_play (laws : HeapLaws X) {m : XeniaMemory η} {calls : List SharedCall}
    (hplay : play (step X) (fresh m) calls = some s) : s.Bounded := by
  have hstart : (fresh m).Bounded := fun _ h => nomatch h
  refine play_invariant (fun s c s' h hs => ?_) hstart hplay
  cases hs
  exact bounded_call laws h c

/-! ## One call -/

theorem bytes_allocate (kept : ContentsKept X) (size : UInt32)
    (hx : X.Backed s.memory.heaps x)
    (hafter : X.Backed (s.call X (.allocateGuestMemory size)).memory.heaps x) :
    (s.call X (.allocateGuestMemory size)).memory.bytes x.toNat = s.memory.bytes x.toNat := by
  have hkept := kept.systemHeapAlloc size s.memory x hx
  rcases s.guest.allocate_cases (X := X) s.memory size with
    ⟨-, -, hmemory | ⟨-, hmemory, -⟩⟩ | ⟨-, -, -, -, heq⟩
  · simp only [SharedMemory.call, hmemory]
  · simp only [SharedMemory.call, hmemory] at hafter ⊢
    exact hkept hafter
  · simp only [SharedMemory.call, heq] at hafter ⊢
    exact hkept hafter

theorem bytes_release (laws : HeapLaws X) (kept : ContentsKept X) (hsound : Sound X s)
    (a : GuestMemoryAllocation) (hx : X.Backed s.memory.heaps x)
    (hafter : X.Backed (s.call X (.releaseGuestMemory a)).memory.heaps x) :
    (s.call X (.releaseGuestMemory a)).memory.bytes x.toNat = s.memory.bytes x.toNat := by
  rcases s.guest.release_cases (X := X) s.memory a with ⟨-, hmemory, -, -⟩ | ⟨hmem, heq⟩
  · simp only [SharedMemory.call, hmemory]
  · obtain ⟨heap, hheap, -⟩ := hsound.virtual _ hmem
    simp only [SharedMemory.call, heq, laws.systemHeapFree _ _ _ hheap] at hafter ⊢
    exact kept.release _ _ _ x hx hafter

/-- **One call.** In a range that stays in the table, a call leaves what its patches make of the
bytes. -/
theorem written_step (laws : HeapLaws X) (kept : ContentsKept X) {c : SharedCall}
    (h : Holds X e s) (h' : Holds X e (s.call X c)) (hx : InEntry e x) :
    (s.call X c).memory.bytes x.toNat =
      writeAll (written X s c) s.memory.bytes x.toNat := by
  have hbefore := h.truthful.backed e h.entry x hx
  have hafter := h'.truthful.backed e h'.entry x hx
  cases c with
  | allocateGuestMemory size => exact bytes_allocate kept size hbefore hafter
  | releaseGuestMemory a => exact bytes_release laws kept h.sound a hbefore hafter
  | ntAllocateVirtualMemory call => exact bytes_allocateVirtualMemory laws kept call hbefore
  | ntFreeVirtualMemory call => exact bytes_freeVirtualMemory kept call hbefore hafter
  | ntQueryVirtualMemory call => exact congrFun (bytes_queryVirtualMemory X s.memory call) x.toNat
  | store address bytes => rfl

/-! ## Runs -/

/-- What a run has come to whose calls spare the table. -/
theorem reached (laws : HeapLaws X) {m : XeniaMemory η} {calls : List SharedCall}
    (hspares : EveryStep (step X) (Spares X) (fresh m) calls)
    (hplay : play (step X) (fresh m) calls = some s) : Sound X s ∧ Truthful X s := by
  have hfresh := sound_fresh X m
  have hstart : Sound X (fresh m) ∧ Truthful X (fresh m) :=
    ⟨hfresh, truthful_of_backed laws hfresh fun _ h => nomatch h⟩
  have hstep : ∀ s c s', Sound X s ∧ Truthful X s → Spares X s c → step X s c = some s' →
      Sound X s' ∧ Truthful X s' := by
    rintro s c s' ⟨hsound, htruthful⟩ hc hs
    cases hs
    exact ⟨hsound.call laws htruthful c, (spares_iff laws hsound htruthful c).1 hc⟩
  exact play_invariant_where hstep hstart hspares hplay

/-- A range that no call gives back, the title's or the guest's, has the bytes that were last
written to it. -/
theorem bytes_play (laws : HeapLaws X) (kept : ContentsKept X) {calls : List SharedCall}
    (h : Holds X e s) (hspares : EveryStep (step X) (Spares X) s calls)
    (hother : SharedCall.releaseGuestMemory ⟨e.1, e.2⟩ ∉ calls)
    (hplay : play (step X) s calls = some s') :
    Holds X e s' ∧ ∀ x, InEntry e x → s'.memory.bytes x.toNat =
      (lastCell (recordsAlong (step X) (written X) s calls) x.toNat).getD
        (s.memory.bytes x.toNat) := by
  have hothers : ∀ c ∈ calls, c ≠ .releaseGuestMemory ⟨e.1, e.2⟩ := by
    rintro c hc rfl
    exact hother hc
  have hconditions := hspares.and (everyStep_of_forall hothers)
  have hstep : ∀ x, InEntry e x → ∀ s c s', Holds X e s →
      Spares X s c ∧ c ≠ .releaseGuestMemory ⟨e.1, e.2⟩ → step X s c = some s' →
      Holds X e s' ∧ s'.memory.bytes x.toNat =
        (written X s c).foldl (cellAfter x.toNat) (s.memory.bytes x.toNat) := by
    rintro x hx s c s' h ⟨hspares, hother⟩ hs
    cases hs
    have h' := h.call laws hspares hother
    exact ⟨h', (written_step laws kept h h' hx).trans (writeAll_apply _ _ _)⟩
  have hrun := fun x hx => view_of_play (hstep x hx) h hconditions hplay
  refine ⟨(hrun e.1 (h.sound.start_mem h.entry)).1, fun x hx => ?_⟩
  rw [(hrun x hx).2, ← writeAll_apply, writeAll_eq_lastCell]

/-- **Main result.** In a run whose calls spare the title's table, what the title reads in a range
that it has and does not release is, byte by byte, what the last write to the byte has put there
since. -/
theorem play_read (laws : HeapLaws X) (kept : ContentsKept X) (m : XeniaMemory η)
    {before calls : List SharedCall}
    (hspares : EveryStep (step X) (Spares X) (fresh m) (before ++ calls))
    (hbefore : play (step X) (fresh m) before = some s)
    (hplay : play (step X) s calls = some s')
    (he : e ∈ s.guest.allocations.entries)
    (hother : SharedCall.releaseGuestMemory ⟨e.1, e.2⟩ ∉ calls)
    {address : GuestAddress} {destination : List UInt8} (hne : destination ≠ [])
    (hfirst : e.1.toNat ≤ address.toNat)
    (hlast : address.toNat + destination.length ≤ e.1.toNat + e.2.toNat) :
    s'.guest.read s'.memory address destination =
      ({}, (List.range destination.length).map fun i =>
        (lastCell (recordsAlong (step X) (written X) s calls) (address.toNat + i)).getD
          (s.memory.bytes (address.toNat + i))) := by
  obtain ⟨hspared, hrest⟩ := everyStep_append_iff.1 hspares
  obtain ⟨hsound, htruthful⟩ := reached laws hspared hbefore
  obtain ⟨hheld, hbytes⟩ := bytes_play laws kept ⟨hsound, htruthful, he⟩ (hrest s hbefore)
    hother hplay
  have hpositive := List.length_pos_iff.2 hne
  have hcontains : s'.guest.contains address destination.length :=
    (GuestMemory.contains_iff hheld.sound.apart).2 ⟨hpositive, e, hheld.entry, hfirst, hlast⟩
  rw [GuestMemory.read_of_contains hheld.sound.ready hcontains, XeniaMemory.load]
  refine congrArg (Prod.mk _) (List.map_congr_left fun i hi => ?_)
  have hbound := bounded_play laws hbefore e he
  have hi : i < destination.length := List.mem_range.1 hi
  have hplace : (UInt32.ofNat (address.toNat + i)).toNat = address.toNat + i :=
    Word.toNat_ofNat (by omega)
  have hcell := hbytes (.ofNat (address.toNat + i)) ⟨by omega, by omega⟩
  rwa [hplace] at hcell

end

/-! ## On the paged memory -/

section

open PageTable

theorem pagedContentsKept : ContentsKept paged where
  allocFixed heap base size alignment flags protect m x _ _ := by
    show (PageTable.allocFixed base size flags protect m).2.bytes x.toNat = m.bytes x.toNat
    rw [PageTable.allocFixed]
    split
    · rfl
    · rfl
  alloc heap size alignment flags protect topDown m x _ _ :=
    congrFun (pagedContentLaws.alloc heap size alignment flags protect topDown m) x.toNat
  protect heap address size protect m x _ _ := rfl
  decommit heap address size m x _ _ := rfl
  release heap address m x _ _ := by
    show (PageTable.release address m).2.bytes x.toNat = m.bytes x.toNat
    rw [PageTable.release]
    split
    · rfl
    · rfl
  systemHeapAlloc size m x hbefore _ := by
    show (PageTable.systemHeapAlloc size m).2.bytes x.toNat = m.bytes x.toNat
    by_cases hzero : (PageTable.systemHeapAlloc size m).1 = 0
    · rw [systemHeapAlloc_refused hzero]
    · -- the zeroed range was free
      have hfree := (pagedLaws.systemHeapAlloc size m hzero).2.2 x
      have hout : ¬ ((PageTable.systemHeapAlloc size m).1.toNat ≤ x.toNat ∧
          x.toNat < (PageTable.systemHeapAlloc size m).1.toNat + size.toNat) :=
        fun h => (hfree h.1 h.2).1 hbefore
      have halloc := pagedContentLaws.alloc heap size 0
        (memoryAllocationReserve ||| memoryAllocationCommit)
        (memoryProtectRead ||| memoryProtectWrite) false m
      simp only [PageTable.systemHeapAlloc] at hzero hout ⊢
      rw [if_neg hzero, XeniaMemory.zero, XeniaMemory.bytes_store]
      · exact congrFun halloc x.toNat
      · rw [List.length_replicate]
        omega

/-- The title stores two bytes in its page and overwrites one, while the guest allocates and frees
the page behind it. -/
def overwriteCalls : List SharedCall :=
  [.store 0x10010 [7, 7], storeWords 0x11000 0x1000,
    .ntAllocateVirtualMemory (.make [0x20000, 0x20004, 0x3000, 0x04]), .store 0x10011 [8],
    ntRelease]

/-- The state before the guest's free. -/
def beforeRelease : SharedMemory PageTable :=
  (overwriteCalls.take 4).foldl (SharedMemory.call paged)
    ((fresh stackMemory).call paged (.allocateGuestMemory 0x1000))

theorem spares_release : Spares paged beforeRelease ntRelease := by
  have hfreed : freedByGuest paged beforeRelease.memory (.make [0x20000, 0x20004, 0x8000]) =
      some ⟨PageTable.heap, 0x11000, 0x1000⟩ := by decide +kernel
  have hentries : beforeRelease.guest.allocations.entries = [(0x10000, 0x1000)] := by
    decide +kernel
  intro r hr e he x hx hcovers
  rw [hfreed, Option.some.injEq] at hr
  rw [hentries, List.mem_singleton] at he
  subst hr he
  have hlast : x.toNat < 0x11000 := hx.2
  have hfirst : 0x11000 ≤ x.toNat := hcovers.2.1
  omega

theorem play_read_overwrite : ∃ s s', play (step paged) (fresh stackMemory)
    [.allocateGuestMemory 0x1000] = some s ∧ play (step paged) s overwriteCalls = some s' ∧
      s'.guest.read s'.memory 0x10010 [0, 0] = ({}, [7, 8]) := by
  have hspares : EveryStep (step paged) (Spares paged) (fresh stackMemory)
      ([.allocateGuestMemory 0x1000] ++ overwriteCalls) := by
    refine ⟨trivial, fun s1 h1 => ⟨trivial, fun s2 h2 => ⟨trivial, fun s3 h3 => ⟨trivial,
      fun s4 h4 => ⟨trivial, fun s5 h5 => ⟨?_, fun _ _ => trivial⟩⟩⟩⟩⟩⟩
    cases h1
    cases h2
    cases h3
    cases h4
    cases h5
    exact spares_release
  refine ⟨_, _, rfl, rfl, ?_⟩
  refine (play_read (e := (0x10000, 0x1000)) pagedLaws pagedContentsKept stackMemory hspares rfl rfl
    (by decide +kernel) (by decide +kernel) (by decide) (by decide) (by decide)).trans ?_
  decide +kernel

end

end SharedMemory

end X360Port
