import X360Port.GuestMemory
import X360Port.Library.Machine
import X360Port.XeniaMemory.Paged

/-!
# Who owns a guest range

`OwnedMemory` follows the title's calls with the list of what it has been
handed and has not given back, kept from the answers alone. Of Xenia's system
heap it is assumed that its live ranges are apart, start above zero and end by
`2^32` (`SystemHeap`).

The table then says who owns what: in every state of every run its entries are
that list (`Tracked`), and so the calls answer by it (`Honest`).
-/

namespace X360Port

open Library

/-- The allocation holds `size` bytes from `address`. -/
def GuestMemoryAllocation.Holds (a : GuestMemoryAllocation) (address : GuestAddress) (size : Nat) :
    Prop :=
  a.address.toNat ≤ address.toNat ∧ address.toNat + size ≤ a.address.toNat + a.size.toNat

/-- The promise of Xenia's system heap: `Live h a n` says that with the records `h` the range of
`n` bytes from `a` is handed out and not taken back. -/
structure SystemHeap {η : Type} (X : Xenia η) where
  Live : η → GuestAddress → Nat → Prop
  apart : ∀ h a n b k, Live h a n → Live h b k → a ≠ b →
    a.toNat + n ≤ b.toNat ∨ b.toNat + k ≤ a.toNat
  below_end : ∀ h a n, Live h a n → a.toNat + n ≤ 2 ^ 32
  alloc_live : ∀ size m, (X.systemHeapAlloc size m).1 ≠ 0 →
    (∀ n, ¬ Live m.heaps (X.systemHeapAlloc size m).1 n) ∧
      ∃ n, size.toNat ≤ n ∧ Live (X.systemHeapAlloc size m).2.heaps (X.systemHeapAlloc size m).1 n
  alloc_keeps : ∀ size m b k, Live m.heaps b k → Live (X.systemHeapAlloc size m).2.heaps b k
  alloc_refused : ∀ size m, (X.systemHeapAlloc size m).1 = 0 →
    (X.systemHeapAlloc size m).2.bytes = m.bytes
  free_keeps : ∀ m a n b k, Live m.heaps a n → Live m.heaps b k → b ≠ a →
    Live (X.systemHeapFree a m).heaps b k

/-! ## Runs -/

/-- A call of the title. -/
inductive OwnerCall where
  | allocate (size : UInt32)
  | release (allocation : GuestMemoryAllocation)
  | write (address : GuestAddress) (bytes : List UInt8)
  deriving DecidableEq, Repr

/-- The table and Xenia's memory, and what the title holds. -/
structure OwnedMemory (η : Type) where
  guest : GuestMemory
  memory : XeniaMemory η
  live : List GuestMemoryAllocation := []

namespace OwnedMemory

section

variable {η : Type}

/-- Before the first call. -/
def fresh (m : XeniaMemory η) : OwnedMemory η where
  guest := GuestMemory.initializeMemory {}
  memory := m

def call (X : Xenia η) (s : OwnedMemory η) : OwnerCall → OwnedMemory η
  | .allocate size =>
    let (guest, memory, result) := s.guest.allocate X s.memory size
    ⟨guest, memory, if result.failure.Ok then result.allocation :: s.live else s.live⟩
  | .release allocation =>
    let (guest, memory, failure) := s.guest.release X s.memory allocation
    ⟨guest, memory, if failure.Ok then s.live.erase allocation else s.live⟩
  | .write address bytes => { s with memory := (s.guest.write s.memory address bytes).1 }

def step (X : Xenia η) (s : OwnedMemory η) (c : OwnerCall) : Option (OwnedMemory η) :=
  some (s.call X c)

/-- The table is what the title holds, and each entry lies in a live range of the heap. -/
structure Tracked {X : Xenia η} (heap : SystemHeap X) (s : OwnedMemory η) : Prop where
  ready : s.guest.initialized
  table : ∀ a, a ∈ s.live ↔ (a.address, a.size) ∈ s.guest.allocations.entries
  nodup : s.live.Nodup
  nonzero : ∀ a ∈ s.live, a.address ≠ 0 ∧ a.size ≠ 0
  held : ∀ a ∈ s.live, ∃ n, a.size.toNat ≤ n ∧ heap.Live s.memory.heaps a.address n

variable {X : Xenia η} {heap : SystemHeap X} {s : OwnedMemory η}

theorem tracked_fresh (heap : SystemHeap X) (m : XeniaMemory η) : Tracked heap (fresh m) where
  ready := rfl
  table _ := iff_of_false (fun h => nomatch h) fun h => nomatch h
  nodup := List.nodup_nil
  nonzero _ h := nomatch h
  held _ h := nomatch h

/-- Live ranges do not meet. -/
theorem Tracked.apart (h : Tracked heap s) : s.guest.Apart := by
  intro e he e' he' hne
  obtain ⟨n, hn, hlive⟩ := h.held ⟨e.1, e.2⟩ ((h.table _).2 he)
  obtain ⟨k, hk, hlive'⟩ := h.held ⟨e'.1, e'.2⟩ ((h.table _).2 he')
  have hranges := heap.apart _ _ _ _ _ hlive hlive' hne
  dsimp only at hn hk hranges
  omega

/-- The memory may change where the heap's live ranges stay. -/
theorem Tracked.of_memory (h : Tracked heap s) {m : XeniaMemory η}
    (hkeep : ∀ b k, heap.Live s.memory.heaps b k → heap.Live m.heaps b k) :
    Tracked heap { s with memory := m } where
  ready := h.ready
  table := h.table
  nodup := h.nodup
  nonzero := h.nonzero
  held a ha := by
    obtain ⟨n, hn, hlive⟩ := h.held a ha
    exact ⟨n, hn, hkeep _ _ hlive⟩

/-- A live range that the title is handed. -/
theorem Tracked.add (h : Tracked heap s) {a : GuestMemoryAllocation} {m : XeniaMemory η}
    (hfind : s.guest.allocations.find a.address = none) (hne : a.address ≠ 0 ∧ a.size ≠ 0)
    (hheld : ∃ n, a.size.toNat ≤ n ∧ heap.Live m.heaps a.address n)
    (hkeep : ∀ b k, heap.Live s.memory.heaps b k → heap.Live m.heaps b k) :
    Tracked heap ⟨{ s.guest with allocations := s.guest.allocations.emplace a.address a.size }, m,
      a :: s.live⟩ where
  ready := h.ready
  table b := by
    rw [List.mem_cons, OrderedMap.mem_emplace_iff hfind, h.table b, Prod.mk.injEq]
    exact or_congr_left ⟨fun hb => hb ▸ ⟨rfl, rfl⟩, fun hb => by cases a; cases b; simp_all⟩
  nodup := by
    refine List.nodup_cons.2 ⟨fun ha => ?_, h.nodup⟩
    exact OrderedMap.find_eq_none_iff.1 hfind _ ((h.table a).1 ha) rfl
  nonzero := List.forall_mem_cons.2 ⟨hne, h.nonzero⟩
  held := List.forall_mem_cons.2 ⟨hheld, (h.of_memory hkeep).held⟩

/-- A range that the title gives back. -/
theorem Tracked.remove (h : Tracked heap s) {a : GuestMemoryAllocation} (ha : a ∈ s.live)
    {m : XeniaMemory η}
    (hkeep : ∀ b k, b ≠ a.address → heap.Live s.memory.heaps b k → heap.Live m.heaps b k) :
    Tracked heap ⟨{ s.guest with allocations := s.guest.allocations.erase a.address }, m,
      s.live.erase a⟩ := by
  -- the table has one entry for an address
  have hother : ∀ b ∈ s.live, b ≠ a ↔ b.address ≠ a.address := by
    intro b hb
    refine not_congr ⟨congrArg _, fun haddress => ?_⟩
    have hentry := OrderedMap.entry_unique ((h.table b).1 hb) ((h.table a).1 ha) haddress
    rw [Prod.mk.injEq] at hentry
    cases a; cases b
    simp_all
  have hmem : ∀ b, b ∈ s.live.erase a ↔ b ∈ s.live ∧ b.address ≠ a.address := by
    intro b
    rw [h.nodup.mem_erase_iff, and_comm]
    exact and_congr_right (hother b)
  refine ⟨h.ready, fun b => ?_, h.nodup.erase a, fun b hb => ?_, fun b hb => ?_⟩
  · rw [hmem, OrderedMap.mem_erase_iff, h.table]
  · exact h.nonzero b ((hmem b).1 hb).1
  · obtain ⟨n, hn, hlive⟩ := h.held b ((hmem b).1 hb).1
    exact ⟨n, hn, hkeep _ _ ((hmem b).1 hb).2 hlive⟩

theorem Tracked.allocate (h : Tracked heap s) (size : UInt32) :
    Tracked heap (s.call X (.allocate size)) := by
  have hkeep := heap.alloc_keeps size s.memory
  rcases s.guest.allocate_cases (X := X) s.memory size with
    ⟨hguest, hfail, hmemory⟩ | ⟨-, hsize, hne, hfind, heq⟩
  · have hcall : s.call X (.allocate size) =
        { s with memory := (s.guest.allocate X s.memory size).2.1 } := by
      simp only [OwnedMemory.call, hguest, if_neg hfail]
    rw [hcall]
    refine h.of_memory fun b k hlive => ?_
    rcases hmemory with hmemory | ⟨-, hmemory, -⟩
    · rwa [hmemory]
    · rw [hmemory]
      exact hkeep _ _ hlive
  · have hadd := h.add (a := ⟨(X.systemHeapAlloc size s.memory).1, size⟩) hfind ⟨hne, hsize⟩
      (heap.alloc_live size s.memory hne).2 hkeep
    simpa only [OwnedMemory.call, heq, RuntimeFailure.ok_empty, if_true] using hadd

theorem Tracked.release (h : Tracked heap s) (a : GuestMemoryAllocation) :
    Tracked heap (s.call X (.release a)) := by
  rcases s.guest.release_cases (X := X) s.memory a with ⟨hguest, hmemory, hfail, -⟩ | ⟨hmem, heq⟩
  · have hcall : s.call X (.release a) = s := by
      simp only [OwnedMemory.call, hguest, hmemory, if_neg hfail]
    rwa [hcall]
  · have ha := (h.table a).2 hmem
    obtain ⟨n, -, hheld⟩ := h.held a ha
    have hremove := h.remove ha (m := X.systemHeapFree a.address s.memory)
      fun b k hb hlive => heap.free_keeps _ _ _ _ _ hheld hlive hb
    simpa only [OwnedMemory.call, heq, RuntimeFailure.ok_empty, if_true] using hremove

theorem Tracked.call (h : Tracked heap s) (c : OwnerCall) : Tracked heap (s.call X c) := by
  cases c with
  | allocate size => exact h.allocate size
  | release a => exact h.release a
  | write address bytes =>
    refine h.of_memory fun b k hlive => ?_
    rw [GuestMemory.write]
    split
    · exact hlive
    · exact hlive

/-- Every list of calls runs, and the invariant holds where it ends. -/
theorem exists_tracked (heap : SystemHeap X) (m : XeniaMemory η) (calls : List OwnerCall) :
    ∃ s, play (step X) (fresh m) calls = some s ∧ Tracked heap s := by
  obtain ⟨s, hs⟩ := exists_play (fun s c => ⟨s.call X c, rfl⟩) (fresh m) calls
  refine ⟨s, hs, play_invariant (fun s c s' hs hstep => ?_) (tracked_fresh heap m) hs⟩
  cases hstep
  exact hs.call c

/-! ## What the calls answer -/

theorem Tracked.contains_iff (h : Tracked heap s) {address : GuestAddress} {size : Nat} :
    s.guest.contains address size ↔ 0 < size ∧ ∃ a ∈ s.live, a.Holds address size := by
  rw [GuestMemory.contains_iff h.apart]
  refine and_congr_right fun _ => ⟨?_, ?_⟩
  · rintro ⟨e, he, hrange⟩
    exact ⟨⟨e.1, e.2⟩, (h.table _).2 he, hrange⟩
  · rintro ⟨a, ha, hrange⟩
    exact ⟨(a.address, a.size), (h.table a).1 ha, hrange⟩

/-- The calls answer by what the title holds. -/
structure Honest (X : Xenia η) (s : OwnedMemory η) : Prop where
  table : ∀ a, a ∈ s.live ↔ (a.address, a.size) ∈ s.guest.allocations.entries
  read_iff : ∀ address bytes, (s.guest.read s.memory address bytes).1.Ok ↔
    bytes ≠ [] ∧ ∃ a ∈ s.live, a.Holds address bytes.length
  write_iff : ∀ address bytes, (s.guest.write s.memory address bytes).2.Ok ↔
    bytes ≠ [] ∧ ∃ a ∈ s.live, a.Holds address bytes.length
  release_iff : ∀ a, (s.guest.release X s.memory a).2.2.Ok ↔ a ∈ s.live
  /-- A release takes that one entry out. -/
  released : ∀ a ∈ s.live, ∀ b : GuestMemoryAllocation,
    (b.address, b.size) ∈ (s.guest.release X s.memory a).1.allocations.entries ↔
      b ∈ s.live ∧ b ≠ a
  allocate_refused : ∀ size, ¬ (s.guest.allocate X s.memory size).2.2.failure.Ok →
    (s.guest.allocate X s.memory size).1 = s.guest ∧
      (s.guest.allocate X s.memory size).2.1.bytes = s.memory.bytes
  release_refused : ∀ a, ¬ (s.guest.release X s.memory a).2.2.Ok →
    (s.guest.release X s.memory a).1 = s.guest ∧ (s.guest.release X s.memory a).2.1 = s.memory
  write_refused : ∀ address bytes, ¬ (s.guest.write s.memory address bytes).2.Ok →
    (s.guest.write s.memory address bytes).1 = s.memory
  /-- What is written is read back, into any destination of the length. -/
  read_back : ∀ address bytes, (s.guest.write s.memory address bytes).2.Ok →
    ∀ destination : List UInt8, destination.length = bytes.length →
      s.guest.read (s.guest.write s.memory address bytes).1 address destination = ({}, bytes)
  /-- A write inside one range leaves the others alone. -/
  frame : ∀ address bytes, (s.guest.write s.memory address bytes).2.Ok →
    ∀ a ∈ s.live, ¬ a.Holds address bytes.length →
      ∀ x, a.address.toNat ≤ x → x < a.address.toNat + a.size.toNat →
        (s.guest.write s.memory address bytes).1.bytes x = s.memory.bytes x

/-- The table has one entry for an address. -/
theorem Tracked.address_unique (h : Tracked heap s) {a b : GuestMemoryAllocation} (ha : a ∈ s.live)
    (hb : b ∈ s.live) (heq : a.address = b.address) : a = b := by
  have hentry := OrderedMap.entry_unique ((h.table a).1 ha) ((h.table b).1 hb) heq
  cases a; cases b
  simp_all

theorem Tracked.span_iff (h : Tracked heap s) {address : GuestAddress} {bytes : List UInt8} :
    s.guest.contains address bytes.length ↔
      bytes ≠ [] ∧ ∃ a ∈ s.live, a.Holds address bytes.length := by
  rw [h.contains_iff, List.length_pos_iff]

theorem Tracked.release_iff (h : Tracked heap s) (a : GuestMemoryAllocation) :
    (s.guest.release X s.memory a).2.2.Ok ↔ a ∈ s.live := by
  rcases s.guest.release_cases (X := X) s.memory a with ⟨-, -, hfail, hnot⟩ | ⟨hmem, heq⟩
  · refine iff_of_false hfail fun ha => ?_
    have hne := h.nonzero a ha
    exact hnot h.ready hne.1 hne.2 ((h.table a).1 ha)
  · rw [heq]
    exact iff_of_true rfl ((h.table a).2 hmem)

theorem Tracked.released (h : Tracked heap s) {a : GuestMemoryAllocation} (ha : a ∈ s.live)
    (b : GuestMemoryAllocation) :
    (b.address, b.size) ∈ (s.guest.release X s.memory a).1.allocations.entries ↔
      b ∈ s.live ∧ b ≠ a := by
  rcases s.guest.release_cases (X := X) s.memory a with ⟨-, -, hfail, -⟩ | ⟨-, heq⟩
  · exact absurd ((h.release_iff a).2 ha) hfail
  · rw [heq, OrderedMap.mem_erase_iff, ← h.table]
    refine and_congr_right fun hb => not_congr ⟨fun heq => ?_, fun heq => ?_⟩
    · exact h.address_unique hb ha heq
    · rw [heq]

theorem Tracked.allocate_refused (h : Tracked heap s) {size : UInt32}
    (hfail : ¬ (s.guest.allocate X s.memory size).2.2.failure.Ok) :
    (s.guest.allocate X s.memory size).1 = s.guest ∧
      (s.guest.allocate X s.memory size).2.1.bytes = s.memory.bytes := by
  rcases s.guest.allocate_cases (X := X) s.memory size with ⟨hguest, -, hmemory⟩ | ⟨-, -, -, -, heq⟩
  · refine ⟨hguest, ?_⟩
    rcases hmemory with hmemory | ⟨-, hmemory, hanswer⟩
    · rw [hmemory]
    · rw [hmemory]
      by_cases hzero : (X.systemHeapAlloc size s.memory).1 = 0
      · exact heap.alloc_refused _ _ hzero
      · -- a range that the heap hands out is not in the table
        obtain ⟨extent, hfind⟩ := Option.isSome_iff_exists.1 (hanswer.resolve_left hzero)
        obtain ⟨n, -, hlive⟩ := h.held ⟨_, extent⟩
          ((h.table _).2 (OrderedMap.find_eq_some_iff.1 hfind))
        exact absurd hlive ((heap.alloc_live _ _ hzero).1 n)
  · rw [heq] at hfail
    exact absurd rfl hfail

theorem Tracked.frame (h : Tracked heap s) {address : GuestAddress} {bytes : List UInt8}
    (hspan : s.guest.contains address bytes.length) {a : GuestMemoryAllocation} (ha : a ∈ s.live)
    (hother : ¬ a.Holds address bytes.length) {x : Nat} (hbegin : a.address.toNat ≤ x)
    (hend : x < a.address.toNat + a.size.toNat) :
    (s.memory.store address bytes).bytes x = s.memory.bytes x := by
  obtain ⟨-, owner, howner, hholds⟩ := h.contains_iff.1 hspan
  have hne : a.address ≠ owner.address := by
    intro heq
    rw [h.address_unique ha howner heq] at hother
    exact hother hholds
  have hapart := h.apart _ ((h.table a).1 ha) _ ((h.table owner).1 howner) hne
  unfold GuestMemoryAllocation.Holds at hholds
  refine XeniaMemory.bytes_store ?_
  dsimp only at hapart
  omega

theorem Tracked.honest (h : Tracked heap s) : Honest X s where
  table := h.table
  read_iff _ _ := (GuestMemory.read_ok_iff h.ready).trans h.span_iff
  write_iff _ _ := (GuestMemory.write_ok_iff h.ready).trans h.span_iff
  release_iff := h.release_iff
  released _ ha := h.released ha
  allocate_refused _ := h.allocate_refused
  release_refused a hfail := by
    rcases s.guest.release_cases (X := X) s.memory a with ⟨hguest, hmemory, -⟩ | ⟨-, heq⟩
    · exact ⟨hguest, hmemory⟩
    · rw [heq] at hfail
      exact absurd rfl hfail
  write_refused _ _ hfail :=
    (GuestMemory.write_refused fun hspan => hfail ((GuestMemory.write_ok_iff h.ready).2 hspan)).2
  read_back address bytes hok destination hlength := by
    have hspan := (GuestMemory.write_ok_iff h.ready).1 hok
    rw [GuestMemory.write_of_contains h.ready hspan,
      GuestMemory.read_of_contains h.ready (by rwa [hlength]), hlength, XeniaMemory.load_store]
  frame _ _ hok _ ha hother _ hbegin hend := by
    have hspan := (GuestMemory.write_ok_iff h.ready).1 hok
    rw [GuestMemory.write_of_contains h.ready hspan]
    exact h.frame hspan ha hother hbegin hend

/-- **Ownership.** Over a system heap that keeps its promise, after any calls, accepted or
refused, the table is what the title holds and the calls answer by it. -/
theorem exists_honest (heap : SystemHeap X) (m : XeniaMemory η) (calls : List OwnerCall) :
    ∃ s, play (step X) (fresh m) calls = some s ∧ Honest X s := by
  obtain ⟨s, hs, htracked⟩ := exists_tracked heap m calls
  exact ⟨s, hs, htracked.honest⟩

end

end OwnedMemory

/-! ## The paged memory -/

section

open PageTable

/-- The system heap of the paged memory keeps its promise. -/
def pagedSystemHeap : SystemHeap paged where
  Live := PageTable.Live
  apart _ _ _ _ _ := Live.apart
  below_end _ _ _ h := Nat.le_trans h.below (by decide)
  alloc_live _ _ := live_systemHeapAlloc
  alloc_keeps _ _ _ _ := Live.systemHeapAlloc
  alloc_refused _ _ := systemHeapAlloc_refused
  free_keeps _ _ _ _ _ := Live.release

/-- Nothing is allocated. -/
def emptyMemory : XeniaMemory PageTable := ⟨fun _ => {}, fun _ => 0⟩

/-- Two ranges side by side, the first written to its last byte and given back. -/
def neighbourCalls : List OwnerCall :=
  [.allocate 0x1000, .allocate 0x20, .write 0x10ffe [1, 2], .release ⟨0x10000, 0x1000⟩]

open OwnedMemory in
theorem exists_honest_neighbours :
    ∃ s, play (step paged) (fresh emptyMemory) neighbourCalls = some s ∧ Honest paged s ∧
      s.live = [⟨0x11000, 0x20⟩] := by
  obtain ⟨s, hs, hhonest⟩ := exists_honest pagedSystemHeap emptyMemory neighbourCalls
  have hlive : (play (step paged) (fresh emptyMemory) neighbourCalls).map (·.live) =
      some [⟨0x11000, 0x20⟩] := by decide +kernel
  rw [hs] at hlive
  exact ⟨s, hs, hhonest, Option.some.inj hlive⟩

end

end X360Port
