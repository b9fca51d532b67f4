import X360Port.Library.WordArithmetic
import X360Port.XeniaMemory

/-!
# A paged memory

A small Xenia to run the services on: one guest-virtual heap of 4 KiB pages
below `0x40000000`, with a table that has for each page its state, its
protection and the allocation it belongs to. A reservation starts an allocation
at its first page, a release clears the one that starts at the page it names,
and a decommit takes the commit off single pages. Where the caller leaves the
place open, pages are taken first fit from the forty-eight at `0x10000`.

There are no device ranges.
-/

namespace X360Port

structure PageEntry where
  /-- The first page of the allocation. -/
  baseAddress : Nat := 0
  regionPageCount : BitVec 20 := 0#20
  allocationProtect : UInt32 := 0
  currentProtect : UInt32 := 0
  state : UInt32 := 0
  deriving DecidableEq, Repr

abbrev PageTable := Nat → PageEntry

namespace PageTable

def page (address : GuestAddress) : Nat := address.toNat / 0x1000

def pageCount (size : UInt32) : Nat := (size.toNat + 0xfff) / 0x1000

/-- The entries of a run of pages changed. -/
def onPages (t : PageTable) (first count : Nat) (f : PageEntry → PageEntry) : PageTable :=
  fun p => if first ≤ p ∧ p < first + count then f (t p) else t p

/-- No page of the run is taken. -/
def Free (t : PageTable) (first count : Nat) : Prop :=
  ∀ p ∈ List.range' first count, (t p).state = 0

instance (t : PageTable) (first count : Nat) : Decidable (t.Free first count) := by
  unfold Free; infer_instance

/-- The entry of a page of a new allocation. -/
def taken (first count : Nat) (flags protect : UInt32) : PageEntry where
  baseAddress := first
  regionPageCount := .ofNat 20 count
  allocationProtect := protect
  currentProtect := protect
  state := memoryAllocationReserve ||| flags

/-- The first free run of pages at `0x10000`. -/
def firstFit (t : PageTable) (count : Nat) : Option Nat :=
  (List.range' 16 48).find? fun first => 0 < count ∧ first + count ≤ 64 ∧ t.Free first count

def heap : BaseHeap := ⟨0, .guestVirtual, 0x1000⟩

def lookup (address : GuestAddress) : Option BaseHeap :=
  if address.toNat < 0x40000000 then some heap else none

def queryRegionInfo (address : GuestAddress) (t : PageTable) : Option HeapAllocationInfo :=
  if address.toNat < 0x40000000 then
    let entry := t (page address)
    some
      { baseAddress := address
        allocationBase := .ofNat (entry.baseAddress * 0x1000)
        allocationProtect := entry.allocationProtect
        regionSize := 0x1000
        state := entry.state
        protect := entry.currentProtect }
  else none

/-- The least access of the pages. -/
def queryRangeAccess (first last : GuestAddress) (t : PageTable) : PageAccess :=
  let pages := List.range' (page first) (page last + 1 - page first)
  if pages.all fun p => (t p).currentProtect &&& memoryProtectWrite ≠ 0 then .readWrite
  else if pages.all fun p => (t p).currentProtect &&& memoryProtectRead ≠ 0 then .readOnly
  else .noAccess

/-- An entry after an allocation at a place the caller names: a reservation begins an
allocation, a commit alone leaves the page with its own. -/
def allocated (first count : Nat) (flags protect : UInt32) (entry : PageEntry) : PageEntry :=
  if flags &&& memoryAllocationReserve ≠ 0 ∨ entry.state = 0 then taken first count flags protect
  else
    { entry with
      allocationProtect := protect
      currentProtect := protect
      state := memoryAllocationReserve ||| flags }

def allocFixed (base size flags protect : UInt32) (m : XeniaMemory PageTable) :
    Bool × XeniaMemory PageTable :=
  let first := page base
  let count := pageCount size
  if 0x40000 < first + count ∨ (flags = memoryAllocationReserve ∧ ¬ m.heaps.Free first count) then
    (false, m)
  else
    (true, { m with heaps := m.heaps.onPages first count (allocated first count flags protect) })

def alloc (size flags protect : UInt32) (m : XeniaMemory PageTable) :
    GuestAddress × XeniaMemory PageTable :=
  let count := pageCount size
  match m.heaps.firstFit count with
  | none => (0, m)
  | some first =>
    (.ofNat (first * 0x1000),
      { m with heaps := m.heaps.onPages first count fun _ => taken first count flags protect })

def protect (address size protect : UInt32) (m : XeniaMemory PageTable) :
    XeniaMemory PageTable :=
  { m with heaps := m.heaps.onPages (page address) (pageCount size) fun entry =>
    { entry with currentProtect := protect } }

def decommit (address size : UInt32) (m : XeniaMemory PageTable) :
    Bool × XeniaMemory PageTable :=
  (true, { m with heaps := m.heaps.onPages (page address) (pageCount size) fun entry =>
    { entry with state := entry.state &&& ~~~ memoryAllocationCommit } })

def release (address : GuestAddress) (m : XeniaMemory PageTable) :
    Option UInt32 × XeniaMemory PageTable :=
  let first := page address
  let entry := m.heaps first
  if entry.baseAddress ≠ first ∨ first = 0 then (none, m)
  else (some (.ofNat (entry.regionPageCount.toNat * 0x1000)),
    { m with heaps := m.heaps.onPages first entry.regionPageCount.toNat fun _ => {} })

def systemHeapAlloc (size : UInt32) (m : XeniaMemory PageTable) :
    GuestAddress × XeniaMemory PageTable :=
  let (address, m) := alloc size (memoryAllocationReserve ||| memoryAllocationCommit)
    (memoryProtectRead ||| memoryProtectWrite) m
  (address, if address = 0 then m else m.zero address size)

end PageTable

open PageTable in
/-- The paged memory. -/
def paged : Xenia PageTable where
  lookupHeap := lookup
  lookupHeapByType physical pageSize := if ¬ physical ∧ pageSize = 0x1000 then some heap else none
  queryRegionInfo _ := queryRegionInfo
  queryRangeAccess _ := queryRangeAccess
  lookupVirtualMappedRangeOverlapping _ _ _ := false
  allocFixed _ base size _ flags protect := allocFixed base size flags protect
  alloc _ size _ flags protect _ := alloc size flags protect
  protect _ := protect
  decommit _ := decommit
  release _ := release
  systemHeapAlloc := systemHeapAlloc
  systemHeapFree address m := (release address m).2
  fromXdkProtectFlags flags := if flags &&& 0x04 ≠ 0 then 3 else if flags &&& 0x02 ≠ 0 then 1 else 0
  toXdkProtectFlags flags := if flags = 3 then 0x04 else if flags = 1 then 0x02 else 0x01

namespace PageTable

section

variable {t : PageTable} {first count p : Nat} {f : PageEntry → PageEntry}

theorem onPages_of_mem (h : first ≤ p ∧ p < first + count) : t.onPages first count f p = f (t p) :=
  if_pos h

theorem onPages_of_not_mem (h : ¬ (first ≤ p ∧ p < first + count)) :
    t.onPages first count f p = t p := if_neg h

theorem free_iff : t.Free first count ↔ ∀ p, first ≤ p → p < first + count → (t p).state = 0 := by
  unfold Free
  refine forall_congr' fun p => ?_
  rw [List.mem_range'_1, and_imp]

theorem firstFit_spec (h : t.firstFit count = some first) :
    16 ≤ first ∧ 0 < count ∧ first + count ≤ 64 ∧ t.Free first count := by
  have hmem := List.mem_of_find?_eq_some h
  have hspec := List.find?_some h
  rw [List.mem_range'_1] at hmem
  exact ⟨hmem.1, of_decide_eq_true hspec⟩

/-- The system heap has no room, or hands out its first free run. -/
theorem systemHeapAlloc_cases (size : UInt32) (m : XeniaMemory PageTable) :
    systemHeapAlloc size m = (0, m) ∨
      ∃ first, m.heaps.firstFit (pageCount size) = some first ∧
        page (systemHeapAlloc size m).1 = first ∧
        (systemHeapAlloc size m).1.toNat = first * 0x1000 ∧
        (systemHeapAlloc size m).2.heaps =
          m.heaps.onPages first (pageCount size) fun _ => taken first (pageCount size) 3 3 := by
  rw [systemHeapAlloc, alloc]
  cases hfit : m.heaps.firstFit (pageCount size) with
  | none => exact .inl rfl
  | some first =>
    obtain ⟨hfirst, hcount, hend, -⟩ := firstFit_spec hfit
    have haddress : (UInt32.ofNat (first * 0x1000)).toNat = first * 0x1000 :=
      Library.Word.toNat_ofNat (by omega)
    refine .inr ⟨first, rfl, ?_, haddress, ?_⟩
    · show page (.ofNat (first * 0x1000)) = first
      rw [page, haddress]
      omega
    · have hne : UInt32.ofNat (first * 0x1000) ≠ 0 := by
        intro hzero
        rw [hzero] at haddress
        have : (0 : UInt32).toNat = 0 := rfl
        omega
      simp only [if_neg hne]
      rfl

/-- A release fails, or clears the allocation that starts at the page. -/
theorem release_cases (address : GuestAddress) (m : XeniaMemory PageTable) :
    release address m = (none, m) ∨
      (release address m).1 =
          some (.ofNat ((m.heaps (page address)).regionPageCount.toNat * 0x1000)) ∧
        (release address m).2.heaps = m.heaps.onPages (page address)
          (m.heaps (page address)).regionPageCount.toNat fun _ => {} := by
  rw [release]
  split
  · exact .inl rfl
  · exact .inr ⟨rfl, rfl⟩

theorem regionPageCount_taken {flags protect : UInt32} (h : count ≤ 64) :
    (taken first count flags protect).regionPageCount.toNat = count :=
  Nat.mod_eq_of_lt (by show count < 1048576; omega)

/-- The allocation of `n` bytes that starts at an address. -/
structure Live (t : PageTable) (address : GuestAddress) (n : Nat) : Prop where
  aligned : address.toNat % 0x1000 = 0
  below : address.toNat + n ≤ 0x40000000
  extent : n = (t (page address)).regionPageCount.toNat * 0x1000
  positive : 0 < n
  pages : ∀ q, page address ≤ q → q < page address + (t (page address)).regionPageCount.toNat →
    (t q).baseAddress = page address ∧ (t q).state ≠ 0

/-- An allocation is a matter of its own pages. -/
theorem Live.congr {t' : PageTable} {address : GuestAddress} {n : Nat} (h : t.Live address n)
    (hpages : ∀ q, page address ≤ q → q < page address + (t (page address)).regionPageCount.toNat →
      t' q = t q) : t'.Live address n := by
  have hextent := h.extent
  have hpositive := h.positive
  have hfirst := hpages (page address) (Nat.le_refl _) (by omega)
  refine ⟨h.aligned, h.below, by rw [hfirst]; exact h.extent, h.positive, fun q hbegin hend => ?_⟩
  rw [hfirst] at hend
  rw [hpages q hbegin hend]
  exact h.pages q hbegin hend

/-- Two allocations do not meet: a common page would have both for its first. -/
theorem Live.apart {t : PageTable} {a b : GuestAddress} {n k : Nat} (ha : t.Live a n)
    (hb : t.Live b k) (hne : a ≠ b) : a.toNat + n ≤ b.toNat ∨ b.toNat + k ≤ a.toNat := by
  obtain ⟨halignA, -, hextentA, hposA, hpagesA⟩ := ha
  obtain ⟨halignB, -, hextentB, hposB, hpagesB⟩ := hb
  have hpages : page a ≠ page b := by
    intro heq
    apply hne
    rw [← UInt32.toNat_inj]
    simp only [page] at heq
    omega
  have hfirstA := (hpagesA (page a) (Nat.le_refl _) (by omega)).1
  have hfirstB := (hpagesB (page b) (Nat.le_refl _) (by omega)).1
  have hleft : ¬ (page a ≤ page b ∧ page b < page a + (t (page a)).regionPageCount.toNat) := by
    intro hin
    exact hpages ((hpagesA _ hin.1 hin.2).1.symm.trans hfirstB)
  have hright : ¬ (page b ≤ page a ∧ page a < page b + (t (page b)).regionPageCount.toNat) := by
    intro hin
    exact hpages (hfirstA.symm.trans (hpagesB _ hin.1 hin.2).1)
  simp only [page] at hleft hright hextentA hextentB
  omega

variable {m : XeniaMemory PageTable} {size : UInt32} {a b : GuestAddress} {n k : Nat}

theorem systemHeapAlloc_refused (h : (systemHeapAlloc size m).1 = 0) :
    (systemHeapAlloc size m).2.bytes = m.bytes := by
  rcases systemHeapAlloc_cases size m with heq | ⟨first, hfit, -, haddress, -⟩
  · rw [heq]
  · have hfirst := (firstFit_spec hfit).1
    rw [h] at haddress
    have hzero : (0 : UInt32).toNat = 0 := rfl
    omega

/-- What the system heap hands out is a new allocation of the size. -/
theorem live_systemHeapAlloc (h : (systemHeapAlloc size m).1 ≠ 0) :
    (∀ n, ¬ m.heaps.Live (systemHeapAlloc size m).1 n) ∧
      ∃ n, size.toNat ≤ n ∧
        (systemHeapAlloc size m).2.heaps.Live (systemHeapAlloc size m).1 n := by
  rcases systemHeapAlloc_cases size m with heq | ⟨first, hfit, hpage, haddress, hheaps⟩
  · rw [heq] at h
    exact absurd rfl h
  · obtain ⟨hfirst, hcount, hend, hfree⟩ := firstFit_spec hfit
    rw [free_iff] at hfree
    have hentry : ∀ q, first ≤ q → q < first + pageCount size →
        (systemHeapAlloc size m).2.heaps q = taken first (pageCount size) 3 3 := by
      intro q hbegin hend
      rw [hheaps]
      exact onPages_of_mem ⟨hbegin, hend⟩
    have hextent : ((systemHeapAlloc size m).2.heaps first).regionPageCount.toNat =
        pageCount size := by
      rw [hentry first (Nat.le_refl _) (by omega)]
      exact regionPageCount_taken (by omega)
    refine ⟨fun n hlive => ?_, pageCount size * 0x1000, by unfold pageCount; omega, ?_⟩
    · have hpositive := hlive.positive
      have hn := hlive.extent
      rw [hpage] at hn
      refine (hlive.pages first (by rw [hpage]) (by rw [hpage]; omega)).2 ?_
      exact hfree first (Nat.le_refl _) (by omega)
    · refine ⟨by rw [haddress]; omega, by rw [haddress]; omega, ?_, by omega, ?_⟩
      · rw [hpage, hextent]
      · rw [hpage, hextent]
        intro q hbegin hend
        rw [hentry q hbegin hend]
        exact ⟨rfl, by show (3 : UInt32) ≠ 0; decide⟩

theorem Live.systemHeapAlloc (h : m.heaps.Live b k) :
    (systemHeapAlloc size m).2.heaps.Live b k := by
  rcases systemHeapAlloc_cases size m with heq | ⟨first, hfit, -, -, hheaps⟩
  · rwa [heq]
  · have hfree := free_iff.1 (firstFit_spec hfit).2.2.2
    rw [hheaps]
    refine h.congr fun q hbegin hend => onPages_of_not_mem fun hin => ?_
    exact (h.pages q hbegin hend).2 (hfree q hin.1 hin.2)

/-- A release of one allocation keeps the others. -/
theorem Live.release (ha : m.heaps.Live a n) (hb : m.heaps.Live b k) (hne : b ≠ a) :
    (release a m).2.heaps.Live b k := by
  rcases release_cases a m with heq | ⟨-, hheaps⟩
  · rwa [heq]
  · rw [hheaps]
    refine hb.congr fun q hbegin hend => ?_
    apply onPages_of_not_mem
    intro hin
    apply hne
    have hpages : page b = page a :=
      (hb.pages q hbegin hend).1.symm.trans (ha.pages q hin.1 hin.2).1
    have halignA := ha.aligned
    have halignB := hb.aligned
    rw [← UInt32.toNat_inj]
    simp only [page] at hpages
    omega

end

end PageTable

end X360Port
