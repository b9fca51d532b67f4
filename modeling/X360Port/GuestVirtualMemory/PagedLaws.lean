import X360Port.GuestVirtualMemory.Backing
import X360Port.XeniaMemory.Paged

/-!
# The paged memory keeps the laws

On the paged memory an address is backed by the state of its page
(`paged_backed_iff`), so each law is a matter of which entries a call of the
heap changes (`pagedLaws`).
-/

namespace X360Port

section

open PageTable

variable {t : PageTable} {x : GuestAddress} {m : XeniaMemory PageTable}

theorem paged_state (t : PageTable) (x : GuestAddress) :
    paged.state t x = if x.toNat < 0x40000000 then (t (page x)).state else 0 := by
  have hquery : ((paged.lookupHeap x).bind fun heap => paged.queryRegionInfo heap x t) =
      PageTable.queryRegionInfo x t := by
    show (lookup x).bind (fun _ => PageTable.queryRegionInfo x t) = _
    rw [lookup, PageTable.queryRegionInfo]
    split
    · rfl
    · rfl
  rw [Xenia.state, hquery, PageTable.queryRegionInfo]
  by_cases hx : x.toNat < 0x40000000
  · rw [if_pos hx, if_pos hx]
  · rw [if_neg hx, if_neg hx]

theorem paged_backed_iff : paged.Backed t x ↔ x.toNat < 0x40000000 ∧
    (t (page x)).state &&& memoryAllocationReserve ≠ 0 ∧
    (t (page x)).state &&& memoryAllocationCommit ≠ 0 := by
  rw [Xenia.Backed, paged_state]
  split
  · next h => simp [h]
  · next h => simp [h]

/-- A free page is not backed. -/
theorem not_backed_of_free {first count : Nat} (h : t.Free first count) (hbegin : first ≤ page x)
    (hend : page x < first + count) : ¬ paged.Backed t x := by
  intro hbacked
  have hstate := (paged_backed_iff.1 hbacked).2.1
  rw [free_iff.1 h _ hbegin hend] at hstate
  exact hstate rfl

/-- Backing is a matter of the page's state. -/
theorem paged_backed_congr {t' : PageTable} (h : (t' (page x)).state = (t (page x)).state) :
    paged.Backed t' x ↔ paged.Backed t x := by
  rw [paged_backed_iff, paged_backed_iff, h]

theorem heap_of_lookup {address : GuestAddress} {heap : BaseHeap} (h : lookup address = some heap) :
    heap = PageTable.heap := by
  rw [lookup] at h
  split at h
  · cases h
    rfl
  · cases h

theorem start_of_paged (address : GuestAddress) (size : UInt32) :
    PageRun.start ⟨PageTable.heap, address, size⟩ = page address * 0x1000 := by
  show address.toNat - address.toNat % 0x1000 = _
  rw [page]
  omega

theorem pageCount_of_mod {size : UInt32} (h : size.toNat % 0x1000 = 0) :
    pageCount size = size.toNat / 0x1000 := by
  rw [pageCount]
  omega

/-- A size rounded up to whole pages. -/
theorem toNat_roundUp_page {size : UInt32} (h : size.toNat ≤ 0x40000000) :
    (GuestVirtualMemory.roundUp size 0x1000).toNat / 0x1000 = pageCount size := by
  have hpage : (0x1000 : UInt32).toNat = 0x1000 := rfl
  have hone : (1 : UInt32).toNat = 1 := rfl
  simp only [GuestVirtualMemory.roundUp, pageCount, UInt32.toNat_mul, UInt32.toNat_div,
    UInt32.toNat_sub, UInt32.toNat_add, hpage, hone]
  omega

theorem covers_iff {address : GuestAddress} {size : UInt32} {heap : BaseHeap}
    (hheap : lookup address = some heap) (hsize : size.toNat % 0x1000 = 0) :
    PageRun.Covers paged ⟨heap, address, size⟩ x ↔ x.toNat < 0x40000000 ∧
      page address ≤ page x ∧ page x < page address + size.toNat / 0x1000 := by
  have heq := heap_of_lookup hheap
  subst heq
  rw [PageRun.Covers, start_of_paged]
  show lookup x = some PageTable.heap ∧ _ ↔ _
  rw [lookup]
  simp only [page]
  split
  · next hx =>
    simp only [true_and, hx]
    omega
  · next hx => simp [hx]

theorem backed_onPages_of_mem {first count : Nat} {f : PageEntry → PageEntry}
    (h : first ≤ page x ∧ page x < first + count) :
    paged.Backed (t.onPages first count f) x ↔ x.toNat < 0x40000000 ∧
      (f (t (page x))).state &&& memoryAllocationReserve ≠ 0 ∧
      (f (t (page x))).state &&& memoryAllocationCommit ≠ 0 := by
  rw [paged_backed_iff, onPages_of_mem h]

theorem backed_onPages_of_not_mem {first count : Nat} {f : PageEntry → PageEntry}
    (h : ¬ (first ≤ page x ∧ page x < first + count)) :
    paged.Backed (t.onPages first count f) x ↔ paged.Backed t x :=
  paged_backed_congr (by rw [onPages_of_not_mem h])

/-- New pages where all were free: what was backed is elsewhere. -/
theorem backed_onPages_of_free {first count : Nat} {f : PageEntry → PageEntry}
    (hfree : t.Free first count) (h : paged.Backed t x) :
    paged.Backed (t.onPages first count f) x := by
  refine (backed_onPages_of_not_mem fun hin => ?_).2 h
  exact not_backed_of_free hfree hin.1 hin.2 h

theorem state_allocated (first count : Nat) (flags protect : UInt32) (entry : PageEntry) :
    (allocated first count flags protect entry).state = memoryAllocationReserve ||| flags := by
  rw [allocated]
  split
  · rfl
  · rfl

theorem backed_allocFixed {base size flags protect : UInt32} (hflags : AllocatingFlags flags)
    (h : paged.Backed m.heaps x) :
    paged.Backed (PageTable.allocFixed base size flags protect m).2.heaps x := by
  rw [PageTable.allocFixed]
  split
  · exact h
  · next hguard =>
    rw [not_or, not_and, not_not] at hguard
    by_cases hin : page base ≤ page x ∧ page x < page base + pageCount size
    · refine (backed_onPages_of_mem hin).2 ⟨(paged_backed_iff.1 h).1, ?_⟩
      rw [state_allocated]
      rcases hflags with rfl | rfl | rfl
      · exact absurd h (not_backed_of_free (hguard.2 rfl) hin.1 hin.2)
      · exact ⟨by decide, by decide⟩
      · exact ⟨by decide, by decide⟩
    · exact (backed_onPages_of_not_mem hin).2 h

theorem backed_alloc {size flags protect : UInt32} (h : paged.Backed m.heaps x) :
    paged.Backed (PageTable.alloc size flags protect m).2.heaps x := by
  rw [PageTable.alloc]
  split
  · exact h
  · next first hfit => exact backed_onPages_of_free (firstFit_spec hfit).2.2.2 h

theorem backed_decommit_iff {address size : UInt32} {heap : BaseHeap}
    (hheap : lookup address = some heap) (hsize : size.toNat % 0x1000 = 0) :
    paged.Backed (PageTable.decommit address size m).2.heaps x ↔
      paged.Backed m.heaps x ∧ ¬ PageRun.Covers paged ⟨heap, address, size⟩ x := by
  rw [covers_iff hheap hsize, ← pageCount_of_mod hsize, PageTable.decommit]
  by_cases hin : page address ≤ page x ∧ page x < page address + pageCount size
  · rw [backed_onPages_of_mem hin]
    refine iff_of_false ?_ fun h => h.2 ⟨(paged_backed_iff.1 h.1).1, hin⟩
    rintro ⟨-, -, hcommit⟩
    apply hcommit
    show (m.heaps (page x)).state &&& ~~~ memoryAllocationCommit &&& memoryAllocationCommit = 0
    rw [UInt32.and_assoc]
    exact UInt32.and_zero
  · rw [backed_onPages_of_not_mem hin]
    exact (and_iff_left fun hcovers => hin hcovers.2).symm

theorem backed_release_iff {address size : UInt32} {heap : BaseHeap}
    (hheap : lookup address = some heap) (h : (PageTable.release address m).1 = some size) :
    paged.Backed (PageTable.release address m).2.heaps x ↔
      paged.Backed m.heaps x ∧ ¬ PageRun.Covers paged ⟨heap, address, size⟩ x := by
  rcases release_cases address m with heq | ⟨hsize, hheaps⟩
  · rw [heq] at h
    cases h
  · rw [h, Option.some.injEq] at hsize
    have hcount := (m.heaps (page address)).regionPageCount.isLt
    have hbytes : size.toNat = (m.heaps (page address)).regionPageCount.toNat * 0x1000 := by
      rw [hsize]
      exact Library.Word.toNat_ofNat (by omega)
    rw [covers_iff hheap (by omega), hheaps, hbytes, Nat.mul_div_cancel _ (by decide)]
    by_cases hin : page address ≤ page x ∧
        page x < page address + (m.heaps (page address)).regionPageCount.toNat
    · rw [backed_onPages_of_mem hin]
      refine iff_of_false ?_ fun h => h.2 ⟨(paged_backed_iff.1 h.1).1, hin⟩
      rintro ⟨-, hreserve, -⟩
      exact hreserve rfl
    · rw [backed_onPages_of_not_mem hin]
      exact (and_iff_left fun hcovers => hin hcovers.2).symm

theorem systemHeapAlloc_free (size : UInt32) (m : XeniaMemory PageTable)
    (hne : (PageTable.systemHeapAlloc size m).1 ≠ 0) :
    (PageTable.systemHeapAlloc size m).1.toNat + size.toNat ≤ 2 ^ 32 ∧
    (∃ heap, lookup (PageTable.systemHeapAlloc size m).1 = some heap ∧
      heap.heapType = .guestVirtual) ∧
    ∀ x : GuestAddress, (PageTable.systemHeapAlloc size m).1.toNat ≤ x.toNat →
      x.toNat < (PageTable.systemHeapAlloc size m).1.toNat + size.toNat →
      ¬ paged.Backed m.heaps x ∧ paged.Backed (PageTable.systemHeapAlloc size m).2.heaps x := by
  rcases systemHeapAlloc_cases size m with heq | ⟨first, hfit, -, haddress, hheaps⟩
  · rw [heq] at hne
    exact absurd rfl hne
  · obtain ⟨-, -, hend, hfree⟩ := firstFit_spec hfit
    have hsize : size.toNat ≤ pageCount size * 0x1000 := by
      rw [pageCount]
      omega
    refine ⟨by omega, ⟨_, if_pos (by omega), rfl⟩, fun x hbegin hlast => ?_⟩
    have hpages : first ≤ page x ∧ page x < first + pageCount size := by
      rw [page]
      omega
    refine ⟨not_backed_of_free hfree hpages.1 hpages.2, ?_⟩
    rw [hheaps]
    refine (backed_onPages_of_mem hpages).2 ⟨by omega, ?_, ?_⟩
    · show (3 : UInt32) &&& 1 ≠ 0
      decide
    · show (3 : UInt32) &&& 2 ≠ 0
      decide

/-- The laws hold of the paged memory. -/
theorem pagedLaws : HeapLaws paged where
  allocFixed _ _ _ _ _ _ _ _ := backed_allocFixed
  alloc _ _ _ _ _ _ _ _ _ := backed_alloc
  protect heap address size protect m x := by
    apply paged_backed_congr
    show (m.heaps.onPages (page address) (pageCount size) _ (page x)).state = _
    rw [onPages]
    split
    · rfl
    · rfl
  decommit heap address size m x hheap _ hsize _ := by
    have heq := heap_of_lookup hheap
    subst heq
    exact backed_decommit_iff hheap hsize
  decommit_failed _ _ _ _ _ h := absurd rfl h
  release _ _ _ _ _ hheap _ := backed_release_iff hheap
  release_failed heap address m x h := by
    rcases release_cases address m with heq | ⟨hsome, -⟩
    · show paged.Backed (PageTable.release address m).2.heaps x ↔ _
      rw [heq]
    · change (PageTable.release address m).1 = none at h
      rw [h] at hsome
      cases hsome
  systemHeapAlloc := systemHeapAlloc_free
  systemHeapAlloc_keeps size m x h := by
    show paged.Backed (PageTable.systemHeapAlloc size m).2.heaps x
    rcases systemHeapAlloc_cases size m with heq | ⟨first, hfit, -, -, hheaps⟩
    · rwa [heq]
    · rw [hheaps]
      exact backed_onPages_of_free (firstFit_spec hfit).2.2.2 h
  systemHeapFree _ _ _ _ := rfl

end

end X360Port
