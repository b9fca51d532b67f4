import X360Port.GuestMemory
import X360Port.GuestVirtualMemory.PagedLaws
import X360Port.Library.Machine

/-!
# Two owners of one heap

The title allocates from Xenia's system heap through `GuestMemory`, which keeps
a table, and the guest allocates and frees pages of the same heap through the
kernel's exports, which keep none. `SharedMemory` is both over one memory.

The table is truthful when every range in it is backed (`Truthful`). A call
keeps it so exactly when it gives back no page of a range that stays in the
table (`Spares`). So a run is truthful throughout exactly when all its calls
spare the table (`spares_iff_truthful`); a guest that frees a range of the
title leaves a stale entry behind (`stale_entry`).
-/

namespace X360Port

open Library GuestVirtualMemory

/-- A call of the title or of the guest, or a store of one of them. -/
inductive SharedCall where
  | allocateGuestMemory (size : UInt32)
  | releaseGuestMemory (allocation : GuestMemoryAllocation)
  | ntAllocateVirtualMemory (call : GuestImportContext)
  | ntFreeVirtualMemory (call : GuestImportContext)
  | ntQueryVirtualMemory (call : GuestImportContext)
  | store (address : GuestAddress) (bytes : List UInt8)
  deriving DecidableEq, Repr

structure SharedMemory (η : Type) where
  guest : GuestMemory
  memory : XeniaMemory η

namespace SharedMemory

section

variable {η : Type}

def fresh (m : XeniaMemory η) : SharedMemory η where
  guest := GuestMemory.initializeMemory {}
  memory := m

def call (X : Xenia η) (s : SharedMemory η) : SharedCall → SharedMemory η
  | .allocateGuestMemory size =>
    let (guest, memory, _) := s.guest.allocate X s.memory size
    ⟨guest, memory⟩
  | .releaseGuestMemory allocation =>
    let (guest, memory, _) := s.guest.release X s.memory allocation
    ⟨guest, memory⟩
  | .ntAllocateVirtualMemory call =>
    { s with memory := (allocateVirtualMemory X s.memory call).1 }
  | .ntFreeVirtualMemory call => { s with memory := (freeVirtualMemory X s.memory call).1 }
  | .ntQueryVirtualMemory call => { s with memory := (queryVirtualMemory X s.memory call).1 }
  | .store address bytes => { s with memory := s.memory.store address bytes }

def step (X : Xenia η) (s : SharedMemory η) (c : SharedCall) : Option (SharedMemory η) :=
  some (s.call X c)

/-- The address lies in the range of an entry. -/
def InEntry (e : GuestAddress × UInt32) (x : GuestAddress) : Prop :=
  e.1.toNat ≤ x.toNat ∧ x.toNat < e.1.toNat + e.2.toNat

/-- What the table says is so. -/
structure Truthful (X : Xenia η) (s : SharedMemory η) : Prop where
  backed : ∀ e ∈ s.guest.allocations.entries, ∀ x, InEntry e x → X.Backed s.memory.heaps x
  /-- An accepted read touches backed bytes only. -/
  read : ∀ address bytes, (s.guest.read s.memory address bytes).1.Ok → ∀ x : GuestAddress,
    address.toNat ≤ x.toNat → x.toNat < address.toNat + bytes.length →
      X.Backed s.memory.heaps x
  write : ∀ address bytes, (s.guest.write s.memory address bytes).2.Ok → ∀ x : GuestAddress,
    address.toNat ≤ x.toNat → x.toNat < address.toNat + bytes.length →
      X.Backed s.memory.heaps x
  /-- A range that the heap hands out is not refused. -/
  allocate : ∀ size, size ≠ 0 → (X.systemHeapAlloc size s.memory).1 ≠ 0 →
    (s.guest.allocate X s.memory size).2.2.failure.Ok

/-- The call gives back no page of a range that stays in the table. -/
def Spares (X : Xenia η) (s : SharedMemory η) : SharedCall → Prop
  | .releaseGuestMemory a => (a.address, a.size) ∈ s.guest.allocations.entries →
    ∀ r, freedBySystemHeap X s.memory a.address = some r →
      ∀ e ∈ s.guest.allocations.entries, e.1 ≠ a.address → ∀ x, InEntry e x → ¬ r.Covers X x
  | .ntFreeVirtualMemory call => ∀ r, freedByGuest X s.memory call = some r →
    ∀ e ∈ s.guest.allocations.entries, ∀ x, InEntry e x → ¬ r.Covers X x
  | _ => True

/-- The table by itself. -/
structure Sound (X : Xenia η) (s : SharedMemory η) : Prop where
  ready : s.guest.initialized
  nonzero : ∀ e ∈ s.guest.allocations.entries, e.1 ≠ 0 ∧ e.2 ≠ 0
  apart : s.guest.Apart
  virtual : ∀ e ∈ s.guest.allocations.entries, ∃ heap, X.lookupHeap e.1 = some heap ∧
    heap.heapType = .guestVirtual

variable {X : Xenia η} {s : SharedMemory η}

theorem toNat_pos {value : UInt32} (h : value ≠ 0) : 0 < value.toNat :=
  UInt32.lt_iff_toNat_lt.1 (UInt32.pos_iff_ne_zero.2 h)

/-- A range starts inside itself. -/
theorem Sound.start_mem (h : Sound X s) {e : GuestAddress × UInt32}
    (he : e ∈ s.guest.allocations.entries) : InEntry e e.1 := by
  have hpositive := toNat_pos (h.nonzero e he).2
  unfold InEntry
  omega

/-- Over backed ranges the calls answer as they should. -/
theorem truthful_of_backed (laws : HeapLaws X) (hsound : Sound X s)
    (h : ∀ e ∈ s.guest.allocations.entries, ∀ x, InEntry e x → X.Backed s.memory.heaps x) :
    Truthful X s := by
  have hspan : ∀ (address : GuestAddress) (bytes : List UInt8),
      s.guest.contains address bytes.length → ∀ x : GuestAddress, address.toNat ≤ x.toNat →
        x.toNat < address.toNat + bytes.length → X.Backed s.memory.heaps x := by
    intro address bytes hcontains x hbegin hend
    obtain ⟨-, e, he, hfirst, hlast⟩ := (GuestMemory.contains_iff hsound.apart).1 hcontains
    exact h e he x ⟨by omega, by omega⟩
  refine ⟨h, fun address bytes hok => ?_, fun address bytes hok => ?_, fun size hsize hne => ?_⟩
  · exact hspan address bytes ((GuestMemory.read_ok_iff hsound.ready).1 hok)
  · exact hspan address bytes ((GuestMemory.write_ok_iff hsound.ready).1 hok)
  · refine (GuestMemory.allocate_ok_iff size).2 ⟨hsound.ready, hsize, hne, ?_⟩
    rw [OrderedMap.find_eq_none_iff]
    intro e he heq
    have hextent := toNat_pos hsize
    obtain ⟨-, -, hfree⟩ := laws.systemHeapAlloc size s.memory hne
    rw [← heq] at hfree
    exact (hfree e.1 (Nat.le_refl _) (by omega)).1 (h e he e.1 (hsound.start_mem he))

theorem truthful_iff_backed (laws : HeapLaws X) (hsound : Sound X s) :
    Truthful X s ↔
      ∀ e ∈ s.guest.allocations.entries, ∀ x, InEntry e x → X.Backed s.memory.heaps x :=
  ⟨Truthful.backed, truthful_of_backed laws hsound⟩

/-! ## One call -/

/-- A range that the heap hands out meets no backed one. -/
theorem apart_of_handed (laws : HeapLaws X) {size : UInt32}
    (hne : (X.systemHeapAlloc size s.memory).1 ≠ 0) {e : GuestAddress × UInt32}
    (hbacked : ∀ x, InEntry e x → X.Backed s.memory.heaps x) (he : e.2 ≠ 0) (hsize : size ≠ 0) :
    (X.systemHeapAlloc size s.memory).1.toNat + size.toNat ≤ e.1.toNat ∨
      e.1.toNat + e.2.toNat ≤ (X.systemHeapAlloc size s.memory).1.toNat := by
  obtain ⟨-, -, hfree⟩ := laws.systemHeapAlloc size s.memory hne
  have hpositive := toNat_pos he
  have hextent := toNat_pos hsize
  by_contra hmeet
  -- the later of the two starts would be backed and free
  by_cases horder : e.1.toNat ≤ (X.systemHeapAlloc size s.memory).1.toNat
  · exact (hfree _ (Nat.le_refl _) (by omega)).1 (hbacked _ ⟨horder, by omega⟩)
  · exact (hfree e.1 (by omega) (by omega)).1 (hbacked _ ⟨Nat.le_refl _, by omega⟩)

/-- The memory may change. -/
theorem Sound.of_guest (h : Sound X s) {s' : SharedMemory η} (hguest : s'.guest = s.guest) :
    Sound X s' := by
  obtain ⟨hready, hnonzero, hapart, hvirtual⟩ := h
  rw [← hguest] at hready hnonzero hapart hvirtual
  exact ⟨hready, hnonzero, hapart, hvirtual⟩

theorem Sound.allocate (laws : HeapLaws X) (h : Sound X s) (ht : Truthful X s) (size : UInt32) :
    Sound X (s.call X (.allocateGuestMemory size)) := by
  rcases s.guest.allocate_cases (X := X) s.memory size with
    ⟨hguest, -, -⟩ | ⟨-, hsize, hne, hfind, heq⟩
  · exact h.of_guest hguest
  · simp only [SharedMemory.call, heq]
    have hnew : ∀ e ∈ s.guest.allocations.entries, _ := fun e he =>
      apart_of_handed laws hne (ht.backed e he) (h.nonzero e he).2 hsize
    refine ⟨h.ready, fun e he => ?_, fun e he e' he' hdiffer => ?_, fun e he => ?_⟩
    · rcases (OrderedMap.mem_emplace_iff hfind).1 he with rfl | he
      · exact ⟨hne, hsize⟩
      · exact h.nonzero e he
    · rcases (OrderedMap.mem_emplace_iff hfind).1 he with rfl | he
      · rcases (OrderedMap.mem_emplace_iff hfind).1 he' with rfl | he'
        · exact absurd rfl hdiffer
        · exact hnew e' he'
      · rcases (OrderedMap.mem_emplace_iff hfind).1 he' with rfl | he'
        · exact (hnew e he).symm
        · exact h.apart e he e' he' hdiffer
    · rcases (OrderedMap.mem_emplace_iff hfind).1 he with rfl | he
      · exact (laws.systemHeapAlloc size s.memory hne).2.1
      · exact h.virtual e he

theorem Sound.release (h : Sound X s) (a : GuestMemoryAllocation) :
    Sound X (s.call X (.releaseGuestMemory a)) := by
  rcases s.guest.release_cases (X := X) s.memory a with ⟨hguest, -, -, -⟩ | ⟨-, heq⟩
  · exact h.of_guest hguest
  · simp only [SharedMemory.call, heq]
    have hold : ∀ e ∈ (s.guest.allocations.erase a.address).entries,
        e ∈ s.guest.allocations.entries := fun e he => (OrderedMap.mem_erase_iff.1 he).1
    refine ⟨h.ready, fun e he => h.nonzero e (hold e he), fun e he e' he' hdiffer => ?_,
      fun e he => h.virtual e (hold e he)⟩
    exact h.apart e (hold e he) e' (hold e' he') hdiffer

/-- Where the table was truthful, it stays sound. -/
theorem Sound.call (laws : HeapLaws X) (h : Sound X s) (ht : Truthful X s) (c : SharedCall) :
    Sound X (s.call X c) := by
  cases c with
  | allocateGuestMemory size => exact h.allocate laws ht size
  | releaseGuestMemory a => exact h.release a
  | ntAllocateVirtualMemory call => exact h.of_guest rfl
  | ntFreeVirtualMemory call => exact h.of_guest rfl
  | ntQueryVirtualMemory call => exact h.of_guest rfl
  | store address bytes => exact h.of_guest rfl

theorem backed_allocate (laws : HeapLaws X) (ht : Truthful X s) (size : UInt32) :
    ∀ e ∈ (s.call X (.allocateGuestMemory size)).guest.allocations.entries, ∀ x, InEntry e x →
      X.Backed (s.call X (.allocateGuestMemory size)).memory.heaps x := by
  intro e he x hx
  have hkeeps := laws.systemHeapAlloc_keeps size s.memory x
  rcases s.guest.allocate_cases (X := X) s.memory size with
    ⟨hguest, -, hmemory⟩ | ⟨-, hsize, hne, hfind, heq⟩
  · simp only [SharedMemory.call, hguest] at he ⊢
    have hbacked := ht.backed e he x hx
    rcases hmemory with hmemory | ⟨-, hmemory, -⟩
    · rwa [hmemory]
    · rw [hmemory]
      exact hkeeps hbacked
  · simp only [SharedMemory.call, heq] at he ⊢
    rcases (OrderedMap.mem_emplace_iff hfind).1 he with rfl | he
    · exact ((laws.systemHeapAlloc size s.memory hne).2.2 x hx.1 hx.2).2
    · exact hkeeps (ht.backed e he x hx)

theorem spares_release_iff (laws : HeapLaws X) (h : Sound X s) (ht : Truthful X s)
    (a : GuestMemoryAllocation) :
    Spares X s (.releaseGuestMemory a) ↔
      ∀ e ∈ (s.call X (.releaseGuestMemory a)).guest.allocations.entries, ∀ x, InEntry e x →
        X.Backed (s.call X (.releaseGuestMemory a)).memory.heaps x := by
  rcases s.guest.release_cases (X := X) s.memory a with ⟨hguest, hmemory, -, hnot⟩ | ⟨hmem, heq⟩
  · simp only [SharedMemory.call, hguest, hmemory]
    refine iff_of_true (fun hmem => ?_) ht.backed
    have hne := h.nonzero _ hmem
    exact absurd hmem (hnot h.ready hne.1 hne.2)
  · simp only [SharedMemory.call, heq]
    obtain ⟨heap, hheap, htype⟩ := h.virtual _ hmem
    constructor
    · intro hspares e he x hx
      obtain ⟨he, hne⟩ := OrderedMap.mem_erase_iff.1 he
      refine (backed_systemHeapFree_iff laws hheap htype).2 ⟨ht.backed e he x hx, fun r hr => ?_⟩
      exact hspares hmem r hr e he hne x hx
    · intro hbacked _ r hr e he hne x hx
      have hafter := hbacked e (OrderedMap.mem_erase_iff.2 ⟨he, hne⟩) x hx
      exact ((backed_systemHeapFree_iff laws hheap htype).1 hafter).2 r hr

/-- A call spares the table exactly when it leaves it truthful. -/
theorem spares_iff (laws : HeapLaws X) (h : Sound X s) (ht : Truthful X s) (c : SharedCall) :
    Spares X s c ↔ Truthful X (s.call X c) := by
  rw [truthful_iff_backed laws (h.call laws ht c)]
  cases c with
  | allocateGuestMemory size => exact iff_of_true trivial (backed_allocate laws ht size)
  | releaseGuestMemory a => exact spares_release_iff laws h ht a
  | ntAllocateVirtualMemory call =>
    refine iff_of_true trivial fun e he x hx => ?_
    exact backed_allocateVirtualMemory laws (ht.backed e he x hx)
  | ntFreeVirtualMemory call =>
    constructor
    · intro hspares e he x hx
      exact (backed_freeVirtualMemory_iff laws).2
        ⟨ht.backed e he x hx, fun r hr => hspares r hr e he x hx⟩
    · intro hbacked r hr e he x hx
      exact ((backed_freeVirtualMemory_iff laws).1 (hbacked e he x hx)).2 r hr
  | ntQueryVirtualMemory call =>
    refine iff_of_true trivial fun e he x hx => ?_
    have hbacked := ht.backed e he x hx
    rwa [← heaps_queryVirtualMemory s.memory call] at hbacked
  | store address bytes => exact iff_of_true trivial ht.backed

/-! ## Runs -/

theorem sound_fresh (X : Xenia η) (m : XeniaMemory η) : Sound X (fresh m) where
  ready := rfl
  nonzero _ h := nomatch h
  apart _ h := nomatch h
  virtual _ h := nomatch h

/-- **Two owners.** A run leaves the table truthful throughout exactly when each of its calls
gives back no page of a range that stays in the table. -/
theorem spares_iff_truthful (laws : HeapLaws X) (m : XeniaMemory η) (calls : List SharedCall) :
    EveryStep (step X) (Spares X) (fresh m) calls ↔
      ∀ front, front <+: calls → ∀ s, play (step X) (fresh m) front = some s → Truthful X s := by
  have htotal : ∀ s c, ∃ s', step X s c = some s' := fun s c => ⟨s.call X c, rfl⟩
  obtain ⟨last, hplay⟩ := exists_play htotal (fresh m) calls
  refine everyStep_iff_prefixes (I := Sound X) (fun s c s' hsound ht hstep _ => ?_)
    (fun s c s' hsound ht hstep => ?_) (sound_fresh X m)
    (truthful_of_backed laws (sound_fresh X m) fun _ h => nomatch h) hplay
  · cases hstep
    exact hsound.call laws ht c
  · cases hstep
    exact spares_iff laws hsound ht c

end

/-! ## Two runs -/

section

open PageTable

/-- One page at `0x20000`, for the guest's words. -/
def stackMemory : XeniaMemory PageTable where
  heaps p := if p = 0x20 then taken 0x20 1 3 3 else {}
  bytes _ := 0

/-- The guest puts two words where its in/out parameters point. -/
def storeWords (base size : UInt32) : SharedCall :=
  .store 0x20000 (guestWordBytes base ++ guestWordBytes size)

/-- `NtFreeVirtualMemory` with `MEM_RELEASE` on these words. -/
def ntRelease : SharedCall := .ntFreeVirtualMemory (.make [0x20000, 0x20004, 0x8000])

/-- The guest allocates and frees the page behind the title's. -/
def ownPageCalls : List SharedCall :=
  [.allocateGuestMemory 0x1000, storeWords 0x11000 0x1000,
    .ntAllocateVirtualMemory (.make [0x20000, 0x20004, 0x3000, 0x04]), ntRelease]

/-- The guest frees the title's page. -/
def staleCalls : List SharedCall := [.allocateGuestMemory 0x1000, storeWords 0x10000 0, ntRelease]

/-- The state before the guest's free. -/
def beforeFree : SharedMemory PageTable :=
  (ownPageCalls.take 3).foldl (SharedMemory.call paged) (fresh stackMemory)

theorem spares_ownPage : Spares paged beforeFree ntRelease := by
  have hfreed : freedByGuest paged beforeFree.memory (.make [0x20000, 0x20004, 0x8000]) =
      some ⟨PageTable.heap, 0x11000, 0x1000⟩ := by decide +kernel
  have hentries : beforeFree.guest.allocations.entries = [(0x10000, 0x1000)] := by decide +kernel
  intro r hr e he x hx hcovers
  rw [hfreed, Option.some.injEq] at hr
  rw [hentries, List.mem_singleton] at he
  subst hr he
  have hlast : x.toNat < 0x11000 := hx.2
  have hfirst : 0x11000 ≤ x.toNat := hcovers.2.1
  omega

theorem spares_iff_truthful_ownPage : ∃ s, play (step paged) (fresh stackMemory) ownPageCalls =
    some s ∧ Truthful paged s ∧ (0x10000, 0x1000) ∈ s.guest.allocations.entries := by
  have hspares : EveryStep (step paged) (Spares paged) (fresh stackMemory) ownPageCalls := by
    refine ⟨trivial, fun s1 h1 => ⟨trivial, fun s2 h2 => ⟨trivial, fun s3 h3 => ⟨?_, ?_⟩⟩⟩⟩
    · cases h1
      cases h2
      cases h3
      exact spares_ownPage
    · exact fun _ _ => trivial
  refine ⟨_, rfl, ?_, by decide +kernel⟩
  exact (spares_iff_truthful pagedLaws stackMemory ownPageCalls).1 hspares _ List.prefix_rfl _ rfl

/-- The title's page is in the table and free, an access to it is accepted, and the page is
refused when the heap hands it out again. -/
theorem stale_entry : HeapLaws paged ∧
    ∃ s, play (step paged) (fresh stackMemory) staleCalls = some s ∧
    (0x10000, 0x1000) ∈ s.guest.allocations.entries ∧
    ¬ paged.Backed s.memory.heaps 0x10000 ∧
    (s.guest.read s.memory 0x10000 [0]).1.Ok ∧
    (s.guest.write s.memory 0x10000 [0]).2.Ok ∧
    (paged.systemHeapAlloc 0x1000 s.memory).1 = 0x10000 ∧
    ¬ (s.guest.allocate paged s.memory 0x1000).2.2.failure.Ok := by
  refine ⟨pagedLaws, _, rfl, ?_⟩
  decide +kernel

end

end SharedMemory

end X360Port
