import X360Port.GuestVirtualMemory.HeapEffects
import X360Port.GuestVirtualMemory.PagedLaws

/-!
# The effects of the paged memory's operations

Each operation of the paged memory changes the entries of one run of pages, so
its effect is a matter of one entry (`effect_onPages`), and the paged memory is
one that `HeapEffects` describes (`pagedEffects`). Its entries are the records of
its pages (`pagedRecords`).
-/

namespace X360Port

section

open PageTable

variable {t : PageTable} {x : GuestAddress} {m after : XeniaMemory PageTable}

theorem paged_readWrite_iff {first last : GuestAddress} :
    PageTable.queryRangeAccess first last t = .readWrite ↔
      ∀ p, page first ≤ p → p < page last + 1 →
        (t p).currentProtect &&& memoryProtectWrite ≠ 0 := by
  have hall : (List.range' (page first) (page last + 1 - page first)).all (fun p =>
      decide ((t p).currentProtect &&& memoryProtectWrite ≠ 0)) ↔
      ∀ p, page first ≤ p → p < page last + 1 →
        (t p).currentProtect &&& memoryProtectWrite ≠ 0 := by
    simp only [List.all_eq_true, List.mem_range'_1, decide_eq_true_eq]
    refine forall_congr' fun p => ?_
    rw [and_imp]
    refine imp_congr_right fun hfirst => ?_
    have hlt : p < page first + (page last + 1 - page first) ↔ p < page last + 1 := by omega
    rw [hlt]
  rw [PageTable.queryRangeAccess, ← hall]
  split
  · next h => exact iff_of_true rfl h
  · next h =>
    refine iff_of_false ?_ h
    split
    · exact nofun
    · exact nofun

theorem paged_writable_iff : paged.WritableAt t x ↔ x.toNat < 0x40000000 ∧
    (t (page x)).currentProtect &&& memoryProtectWrite ≠ 0 := by
  have hbyte : PageTable.queryRangeAccess x x t = .readWrite ↔
      (t (page x)).currentProtect &&& memoryProtectWrite ≠ 0 := by
    rw [paged_readWrite_iff]
    constructor
    · intro h
      exact h (page x) (Nat.le_refl _) (Nat.lt_succ_self _)
    · intro h p hfirst hlast
      obtain rfl : p = page x := by omega
      exact h
  constructor
  · rintro ⟨heap, hheap, haccess⟩
    have hlookup : lookup x = some heap := hheap
    rw [lookup, Option.ite_none_right_eq_some] at hlookup
    exact ⟨hlookup.1, hbyte.1 haccess⟩
  · rintro ⟨hbelow, hwrite⟩
    exact ⟨PageTable.heap, if_pos hbelow, hbyte.2 hwrite⟩

/-- An operation that changes the entries of a run as it should. -/
theorem effect_onPages {op : HeapOperation} {f : PageEntry → PageEntry}
    (hheap : lookup op.run.address = some op.run.heap)
    (hsize : op.run.size.toNat % 0x1000 = 0)
    (hheaps : after.heaps = m.heaps.onPages (page op.run.address) (pageCount op.run.size) f)
    (hstate : ∀ entry, (f entry).state = op.state entry.state)
    (hwritable : ∀ entry, ((f entry).currentProtect &&& memoryProtectWrite ≠ 0) ↔
      op.writable (entry.currentProtect &&& memoryProtectWrite ≠ 0))
    (hbytes : after.bytes = m.bytes) : op.Effect paged m after := by
  have hcovers : ∀ x, op.run.Covers paged x ↔ x.toNat < 0x40000000 ∧
      page op.run.address ≤ page x ∧
      page x < page op.run.address + pageCount op.run.size := by
    rw [pageCount_of_mod hsize]
    exact fun x => covers_iff hheap hsize
  refine ⟨fun x => ?_, fun x => ?_, fun _ => hbytes⟩
  · rw [paged_state, paged_state, hheaps]
    by_cases hx : op.run.Covers paged x
    · obtain ⟨hbelow, hin⟩ := (hcovers x).1 hx
      rw [if_pos hx, if_pos hbelow, if_pos hbelow, onPages_of_mem hin, hstate]
    · rw [if_neg hx]
      by_cases hbelow : x.toNat < 0x40000000
      · rw [if_pos hbelow, if_pos hbelow,
          onPages_of_not_mem fun hin => hx ((hcovers x).2 ⟨hbelow, hin⟩)]
      · rw [if_neg hbelow, if_neg hbelow]
  · rw [paged_writable_iff, hheaps]
    by_cases hx : op.run.Covers paged x
    · obtain ⟨hbelow, hin⟩ := (hcovers x).1 hx
      have hentry : paged.WritableAt m.heaps x ↔
          (m.heaps (page x)).currentProtect &&& memoryProtectWrite ≠ 0 := by
        rw [paged_writable_iff]
        exact and_iff_right hbelow
      rw [if_pos hx, onPages_of_mem hin, and_iff_right hbelow, hwritable, propext hentry]
    · rw [if_neg hx, paged_writable_iff]
      refine and_congr_right fun hbelow => ?_
      rw [onPages_of_not_mem fun hin => hx ((hcovers x).2 ⟨hbelow, hin⟩)]

theorem currentProtect_allocated (first count : Nat) (flags protect : UInt32) (entry : PageEntry) :
    (allocated first count flags protect entry).currentProtect = protect := by
  rw [allocated]
  split
  · rfl
  · rfl

theorem effect_allocFixed {base size flags protect : UInt32} {heap : BaseHeap}
    (hheap : lookup base = some heap) (hsize : size.toNat % 0x1000 = 0)
    (h : (PageTable.allocFixed base size flags protect m).1) :
    (mapping ⟨heap, base, size⟩ flags protect).Effect paged m
      (PageTable.allocFixed base size flags protect m).2 := by
  rw [PageTable.allocFixed] at h ⊢
  split at h
  · simp at h
  · next hguard =>
    rw [if_neg hguard]
    exact effect_onPages hheap hsize rfl (fun entry => state_allocated _ _ _ _ entry)
      (fun entry => by rw [currentProtect_allocated]; rfl) rfl

theorem alloc_cases (size flags protect : UInt32) (m : XeniaMemory PageTable) :
    PageTable.alloc size flags protect m = (0, m) ∨
      ∃ first, m.heaps.firstFit (pageCount size) = some first ∧
        (PageTable.alloc size flags protect m).1.toNat = first * 0x1000 ∧
        page (PageTable.alloc size flags protect m).1 = first ∧
        (PageTable.alloc size flags protect m).2 = { m with
          heaps := m.heaps.onPages first (pageCount size) fun _ =>
            taken first (pageCount size) flags protect } := by
  rw [PageTable.alloc]
  cases hfit : m.heaps.firstFit (pageCount size) with
  | none => exact .inl rfl
  | some first =>
    obtain ⟨-, -, hend, -⟩ := firstFit_spec hfit
    have haddress : (UInt32.ofNat (first * 0x1000)).toNat = first * 0x1000 :=
      Library.Word.toNat_ofNat (by omega)
    refine .inr ⟨first, rfl, haddress, ?_, rfl⟩
    rw [page, haddress]
    omega

theorem effect_alloc {size flags protect : UInt32} (hsize : size.toNat % 0x1000 = 0)
    (h : (PageTable.alloc size flags protect m).1 ≠ 0) :
    lookup (PageTable.alloc size flags protect m).1 = some PageTable.heap ∧
      (mapping ⟨PageTable.heap, (PageTable.alloc size flags protect m).1, size⟩ flags
        protect).Effect paged m (PageTable.alloc size flags protect m).2 := by
  rcases alloc_cases size flags protect m with heq | ⟨first, hfit, haddress, hpage, hafter⟩
  · rw [heq] at h
    exact absurd rfl h
  · obtain ⟨-, -, hend, -⟩ := firstFit_spec hfit
    have hlookup : lookup (PageTable.alloc size flags protect m).1 = some PageTable.heap :=
      if_pos (by omega)
    refine ⟨hlookup, ?_⟩
    rw [hafter]
    refine effect_onPages (f := fun _ => taken first (pageCount size) flags protect) hlookup hsize
      ?_ (fun entry => rfl) (fun entry => Iff.rfl) rfl
    show _ = m.heaps.onPages (page (PageTable.alloc size flags protect m).1) (pageCount size) _
    rw [hpage]

theorem effect_release {address size : UInt32} {heap : BaseHeap}
    (hheap : lookup address = some heap) (h : (PageTable.release address m).1 = some size) :
    (releasing ⟨heap, address, size⟩).Effect paged m (PageTable.release address m).2 := by
  rw [PageTable.release] at h ⊢
  split at h
  · simp at h
  · next hguard =>
    have hcount := (m.heaps (page address)).regionPageCount.isLt
    simp only [Option.some.injEq] at h
    have hbytes : size.toNat = (m.heaps (page address)).regionPageCount.toNat * 0x1000 := by
      rw [← h]
      exact Library.Word.toNat_ofNat (by omega)
    rw [if_neg hguard]
    have hwhole : size.toNat % 0x1000 = 0 := by omega
    have hpages : pageCount size = (m.heaps (page address)).regionPageCount.toNat := by
      rw [pageCount_of_mod hwhole]
      omega
    refine effect_onPages (f := fun _ => {}) hheap hwhole ?_ (fun entry => rfl)
      (fun entry => iff_of_false (fun hne => hne rfl) id) rfl
    exact congrArg (fun count => m.heaps.onPages (page address) count fun _ => {}) hpages.symm

theorem heap_of_type {heap : BaseHeap} {pageSize : UInt32}
    (h : paged.lookupHeapByType false pageSize = some heap) :
    pageSize = 0x1000 ∧ heap = PageTable.heap := by
  have hheap : (if ¬ (false = true) ∧ pageSize = 0x1000 then some PageTable.heap else none) =
      some heap := h
  rw [Option.ite_none_right_eq_some, Option.some.injEq] at hheap
  exact ⟨hheap.1.2, hheap.2.symm⟩

/-- The paged memory is as `HeapEffects` describes. -/
theorem pagedEffects : HeapEffects paged where
  convex heap first x last hfirst hlast hbegin hend := by
    have hfirst' : lookup first = some heap := hfirst
    have hlast' : lookup last = some heap := hlast
    show lookup x = some heap
    rw [heap_of_lookup hfirst']
    rw [lookup, Option.ite_none_right_eq_some] at hlast'
    exact if_pos (by omega)
  byBytes heap first last heaps _ _ hle := by
    show PageTable.queryRangeAccess first last heaps = .readWrite ↔
      ∀ x : GuestAddress, first.toNat ≤ x.toNat → x.toNat ≤ last.toNat →
        PageTable.queryRangeAccess x x heaps = .readWrite
    simp only [paged_readWrite_iff]
    constructor
    · intro h x hbegin hend p hfirst hlast
      refine h p ?_ ?_
      · simp only [page] at hfirst ⊢
        omega
      · simp only [page] at hlast ⊢
        omega
    · intro h p hbegin hend
      -- some byte of the range lies on the page: the first one, or the page's start
      have hp : ∃ x : GuestAddress, first.toNat ≤ x.toNat ∧ x.toNat ≤ last.toNat ∧ page x = p := by
        by_cases hfirst : page first = p
        · exact ⟨first, Nat.le_refl _, hle, hfirst⟩
        · have hlt := last.toNat_lt
          simp only [page] at hbegin hend hfirst
          have hstart : (UInt32.ofNat (p * 0x1000)).toNat = p * 0x1000 :=
            Library.Word.toNat_ofNat (by omega)
          refine ⟨.ofNat (p * 0x1000), by omega, by omega, ?_⟩
          rw [page, hstart]
          omega
      obtain ⟨x, hfirst, hlast, rfl⟩ := hp
      exact h x hfirst hlast (page x) (Nat.le_refl _) (Nat.lt_succ_self _)
  virtualPages address heap hheap _ := .inl (by rw [heap_of_lookup hheap]; rfl)
  byType heap pageSize _ h := by
    obtain ⟨rfl, rfl⟩ := heap_of_type h
    rfl
  allocFixed_failed heap base size alignment flags protect m h := by
    have h : ¬ (PageTable.allocFixed base size flags protect m).1 := h
    show (PageTable.allocFixed base size flags protect m).2 = m
    rw [PageTable.allocFixed] at h ⊢
    split at h
    · next hguard => rw [if_pos hguard]
    · exact absurd rfl h
  allocFixed heap base size alignment flags protect m hheap hsize _ _ h := by
    have heq := heap_of_lookup hheap
    subst heq
    exact effect_allocFixed hheap hsize h
  alloc_failed heap size alignment flags protect topDown m h := by
    have h : (PageTable.alloc size flags protect m).1 = 0 := h
    show (PageTable.alloc size flags protect m).2 = m
    rcases alloc_cases size flags protect m with heq | ⟨first, hfit, haddress, -, -⟩
    · rw [heq]
    · have hfirst := (firstFit_spec hfit).1
      rw [h] at haddress
      have hzero : (0 : UInt32).toNat = 0 := rfl
      omega
  alloc heap pageSize size alignment flags protect topDown m htype hsize _ _ h := by
    obtain ⟨-, rfl⟩ := heap_of_type htype
    exact effect_alloc hsize h
  alloc_free heap pageSize size alignment flags protect topDown m x htype hsize h hcovers := by
    obtain ⟨-, rfl⟩ := heap_of_type htype
    have hne : (PageTable.alloc size flags protect m).1 ≠ 0 := h
    rcases alloc_cases size flags protect m with heq | ⟨first, hfit, haddress, hpage, -⟩
    · rw [heq] at hne
      exact absurd rfl hne
    · obtain ⟨-, hbegin, hend⟩ := (covers_iff (effect_alloc hsize hne).1 hsize).1 hcovers
      rw [hpage, ← pageCount_of_mod hsize] at hend
      rw [hpage] at hbegin
      rw [paged_state, free_iff.1 (firstFit_spec hfit).2.2.2 _ hbegin hend, ite_self]
  protect heap address size protect m hheap hsize _ := by
    have heq := heap_of_lookup hheap
    subst heq
    exact effect_onPages (f := fun entry => { entry with currentProtect := protect }) hheap hsize
      rfl (fun entry => rfl) (fun entry => Iff.rfl) rfl
  decommit_failed heap address size m h := absurd rfl h
  decommit heap address size m hheap hsize _ := by
    have heq := heap_of_lookup hheap
    subst heq
    exact effect_onPages (f := fun entry =>
      { entry with state := entry.state &&& ~~~ memoryAllocationCommit }) hheap hsize rfl
      (fun entry => rfl) (fun entry => Iff.rfl) rfl
  release_failed heap address m h := by
    have h : (PageTable.release address m).1 = none := h
    show (PageTable.release address m).2 = m
    rw [PageTable.release] at h ⊢
    split at h
    · next hguard => rw [if_pos hguard]
    · simp at h
  release heap address size m hheap h := effect_release hheap h

/-! ## The records of the pages -/

/-- The record of a page is its entry. -/
def PageEntry.record (entry : PageEntry) : PageRecord where
  allocationBase := .ofNat (entry.baseAddress * 0x1000)
  allocationSize := .ofNat (entry.regionPageCount.toNat * 0x1000)
  allocationProtect := entry.allocationProtect
  protect := entry.currentProtect
  state := entry.state

def PageTable.record (t : PageTable) (x : GuestAddress) : PageRecord :=
  if x.toNat < 0x40000000 then (t (page x)).record else {}

/-- An operation that changes the entries of a run as it should. -/
theorem records_onPages (op : HeapOperation) (f : PageEntry → PageEntry)
    (hheap : lookup op.run.address = some op.run.heap)
    (hsize : op.run.size.toNat % 0x1000 = 0) {t' : PageTable}
    (ht' : t' = t.onPages (page op.run.address) (pageCount op.run.size) f)
    (hrecord : ∀ p, page op.run.address ≤ p → p < page op.run.address + pageCount op.run.size →
      p < 0x40000 → (f (t p)).record = op.record (t p).record) :
    op.Records paged PageTable.record t t' := by
  intro x
  have hcovers : op.run.Covers paged x ↔ x.toNat < 0x40000000 ∧
      page op.run.address ≤ page x ∧
      page x < page op.run.address + pageCount op.run.size := by
    rw [pageCount_of_mod hsize]
    exact covers_iff hheap hsize
  rw [ht']
  by_cases hx : op.run.Covers paged x
  · obtain ⟨hbelow, hin⟩ := hcovers.1 hx
    have hpage : page x < 0x40000 := by
      rw [page]
      omega
    rw [if_pos hx, PageTable.record, PageTable.record, if_pos hbelow, if_pos hbelow,
      onPages_of_mem hin]
    exact hrecord (page x) hin.1 hin.2 hpage
  · rw [if_neg hx, PageTable.record, PageTable.record]
    by_cases hbelow : x.toNat < 0x40000000
    · rw [if_pos hbelow, if_pos hbelow,
        onPages_of_not_mem fun hin => hx (hcovers.2 ⟨hbelow, hin⟩)]
    · rw [if_neg hbelow, if_neg hbelow]

/-- An entry after an allocation is what the mapping makes of its record. -/
theorem record_allocated {base size flags protect : UInt32} (hsize : size.toNat % 0x1000 = 0)
    (hcount : page base + pageCount size ≤ 0x40000) {entry : PageEntry}
    (h : flags &&& memoryAllocationReserve ≠ 0 ∨ entry.state ≠ 0) :
    (allocated (page base) (pageCount size) flags protect entry).record =
      (mapping ⟨PageTable.heap, base, size⟩ flags protect).record entry.record := by
  have hpages := pageCount_of_mod hsize
  have hregion : (BitVec.ofNat 20 (pageCount size)).toNat * 0x1000 = size.toNat := by
    rw [BitVec.toNat_ofNat, Nat.mod_eq_of_lt (by omega), hpages]
    omega
  rw [allocated]
  by_cases hreserve : flags &&& memoryAllocationReserve ≠ 0
  · rw [if_pos (.inl hreserve)]
    simp only [PageEntry.record, taken, mapping, if_pos hreserve, start_of_paged, hregion,
      UInt32.ofNat_toNat]
  · rw [if_neg (not_or.2 ⟨hreserve, h.resolve_left hreserve⟩)]
    simp only [PageEntry.record, mapping, if_neg hreserve]

theorem paged_state_record (t : PageTable) (x : GuestAddress) :
    paged.state t x = (PageTable.record t x).state := by
  rw [paged_state, PageTable.record]
  split
  · rfl
  · rfl

/-- A query reports the page's record. -/
theorem record_reported {info : HeapAllocationInfo}
    (hinfo : PageTable.queryRegionInfo x t = some info) :
    info.allocationBase = (PageTable.record t x).allocationBase ∧
      info.allocationProtect = (PageTable.record t x).allocationProtect ∧
      info.protect = (PageTable.record t x).protect := by
  rw [PageTable.queryRegionInfo, Option.ite_none_right_eq_some, Option.some.injEq] at hinfo
  obtain ⟨hbelow, rfl⟩ := hinfo
  rw [PageTable.record, if_pos hbelow]
  exact ⟨rfl, rfl, rfl⟩

/-- A query looks at nothing but the records. -/
theorem queryRegionInfo_congr {t' : PageTable}
    (hx : PageTable.record t x = PageTable.record t' x) :
    PageTable.queryRegionInfo x t = PageTable.queryRegionInfo x t' := by
  rw [PageTable.queryRegionInfo, PageTable.queryRegionInfo]
  rw [PageTable.record, PageTable.record] at hx
  by_cases hbelow : x.toNat < 0x40000000
  · rw [if_pos hbelow, if_pos hbelow] at hx ⊢
    rw [PageEntry.record, PageEntry.record, PageRecord.mk.injEq] at hx
    obtain ⟨hbase, -, hgiven, hprotect, hstate⟩ := hx
    simp only [hbase, hgiven, hprotect, hstate]
  · rw [if_neg hbelow, if_neg hbelow]

theorem records_allocFixed {heap : BaseHeap} {base size flags protect : UInt32}
    (hheap : lookup base = some heap) (hsize : size.toNat % heap.pageSize.toNat = 0)
    (hdone : (PageTable.allocFixed base size flags protect m).1)
    (hwithin : flags &&& memoryAllocationReserve ≠ 0 ∨
      ∀ x, PageRun.Covers paged ⟨heap, base, size⟩ x →
        (PageTable.record m.heaps x).state &&& memoryAllocationReserve ≠ 0) :
    (mapping ⟨heap, base, size⟩ flags protect).Records paged PageTable.record m.heaps
      (PageTable.allocFixed base size flags protect m).2.heaps := by
  obtain rfl := heap_of_lookup hheap
  have hsize : size.toNat % 0x1000 = 0 := hsize
  rw [PageTable.allocFixed] at hdone ⊢
  split at hdone
  · simp at hdone
  · next hguard =>
    rw [not_or, Nat.not_lt] at hguard
    rw [if_neg (not_or.2 ⟨Nat.not_lt.2 hguard.1, hguard.2⟩)]
    refine records_onPages (mapping ⟨PageTable.heap, base, size⟩ flags protect)
      (allocated (page base) (pageCount size) flags protect) hheap hsize
      rfl fun p hbegin hend hpage => ?_
    refine record_allocated hsize hguard.1 (hwithin.imp_right fun hreserved => ?_)
    have haddress : (UInt32.ofNat (p * 0x1000)).toNat = p * 0x1000 :=
      Library.Word.toNat_ofNat (by omega)
    have hp : page (.ofNat (p * 0x1000)) = p := by
      rw [page, haddress]
      omega
    have hcovers : PageRun.Covers paged ⟨PageTable.heap, base, size⟩ (.ofNat (p * 0x1000)) := by
      refine (covers_iff hheap hsize).2 ⟨by omega, hp.symm ▸ hbegin, ?_⟩
      rw [hp, ← pageCount_of_mod hsize]
      exact hend
    have hstate := hreserved _ hcovers
    rw [PageTable.record, if_pos (by omega), hp] at hstate
    intro hzero
    apply hstate
    show (m.heaps p).state &&& memoryAllocationReserve = 0
    rw [hzero, UInt32.zero_and]

theorem records_protect {heap : BaseHeap} {address size : UInt32} (protect : UInt32)
    (hheap : lookup address = some heap) (hsize : size.toNat % heap.pageSize.toNat = 0) :
    (protecting ⟨heap, address, size⟩ protect).Records paged PageTable.record m.heaps
      (PageTable.protect address size protect m).heaps := by
  obtain rfl := heap_of_lookup hheap
  exact records_onPages (protecting ⟨PageTable.heap, address, size⟩ protect)
    (fun entry => { entry with currentProtect := protect }) hheap hsize rfl fun _ _ _ _ => rfl

theorem records_decommit {heap : BaseHeap} {address size : UInt32}
    (hheap : lookup address = some heap) (hsize : size.toNat % heap.pageSize.toNat = 0) :
    (decommitting ⟨heap, address, size⟩).Records paged PageTable.record m.heaps
      (PageTable.decommit address size m).2.heaps := by
  obtain rfl := heap_of_lookup hheap
  exact records_onPages (decommitting ⟨PageTable.heap, address, size⟩)
    (fun entry => { entry with state := entry.state &&& ~~~ memoryAllocationCommit }) hheap hsize
    rfl fun _ _ _ _ => rfl

theorem records_release {heap : BaseHeap} {address : GuestAddress} {size : UInt32}
    (hheap : lookup address = some heap)
    (h : (PageTable.release address m).1 = some size) :
    (releasing ⟨heap, address, size⟩).Records paged PageTable.record m.heaps
      (PageTable.release address m).2.heaps := by
  obtain rfl := heap_of_lookup hheap
  rcases PageTable.release_cases address m with hno | ⟨hsome, hheaps⟩
  · rw [hno] at h
    simp at h
  · rw [hsome, Option.some.injEq] at h
    have hcount := (m.heaps (page address)).regionPageCount.isLt
    have hbytes : size.toNat = (m.heaps (page address)).regionPageCount.toNat * 0x1000 := by
      rw [← h]
      exact Library.Word.toNat_ofNat (by omega)
    have hwhole : size.toNat % 0x1000 = 0 := by omega
    have hpages : pageCount size = (m.heaps (page address)).regionPageCount.toNat := by
      rw [pageCount_of_mod hwhole]
      omega
    refine records_onPages (releasing ⟨PageTable.heap, address, size⟩) (fun _ => {}) hheap
      hwhole ?_ fun _ _ _ _ => rfl
    rw [hheaps]
    show _ = m.heaps.onPages _ (pageCount size) _
    rw [hpages]
    rfl

/-- The records of the paged memory. -/
def pagedRecords : PageRecords paged where
  record := PageTable.record
  state := paged_state_record
  reported _ _ _ _ _ hinfo := record_reported hinfo
  determined _ _ h _ x := queryRegionInfo_congr (h x)
  allocFixed _ _ _ _ _ _ _ hheap hsize _ _ hdone hwithin :=
    records_allocFixed hheap hsize hdone hwithin
  protect _ _ _ protect _ hheap hsize _ := records_protect protect hheap hsize
  decommit _ _ _ _ hheap hsize _ := records_decommit hheap hsize
  release _ _ _ _ hheap h := records_release hheap h

end

end X360Port
