import X360Port.GuestVirtualMemory.Outcomes
import X360Port.GuestVirtualMemory.PagedLaws

/-!
# What a commit zeroes

A page that an allocation commits is to read as zero, and a page that was
committed before is to keep its contents. `AllocateVirtualMemory` decides once,
from the state of the first page, whether it zeroes the whole range.

So a commit does what it should exactly when the pages it finds in the other
state are zero already (`commit_zeroes_iff`): the uncommitted ones where the
first page is committed, the committed ones where it is not.
-/

namespace X360Port

namespace GuestVirtualMemory

/-- What is assumed of Xenia's heaps: mapping pages and changing their protection leaves
the bytes alone, and where the heap has the choice it takes pages that are not committed. -/
structure ContentLaws {η : Type} (X : Xenia η) : Prop where
  allocFixed : ∀ heap base size alignment flags protect m,
    (X.allocFixed heap base size alignment flags protect m).1 →
    (X.allocFixed heap base size alignment flags protect m).2.bytes = m.bytes
  alloc : ∀ heap size alignment flags protect topDown m,
    (X.alloc heap size alignment flags protect topDown m).2.bytes = m.bytes
  protect : ∀ heap address size protect m, (X.protect heap address size protect m).bytes = m.bytes
  chosen : ∀ heap size alignment flags protect topDown m (x : GuestAddress),
    (X.alloc heap size alignment flags protect topDown m).1 ≠ 0 →
    (X.alloc heap size alignment flags protect topDown m).1.toNat ≤ x.toNat →
    x.toNat < (X.alloc heap size alignment flags protect topDown m).1.toNat + size.toNat →
    ¬ Committed X m.heaps x

/-- The address lies in one of the two words that the call reads and answers. -/
def InWords (call : GuestImportContext) (x : GuestAddress) : Prop :=
  ((call.argument 0).toUInt32.toNat ≤ x.toNat ∧ x.toNat < (call.argument 0).toUInt32.toNat + 4) ∨
    ((call.argument 1).toUInt32.toNat ≤ x.toNat ∧ x.toNat < (call.argument 1).toUInt32.toNat + 4)

instance (call : GuestImportContext) (x : GuestAddress) : Decidable (InWords call x) :=
  inferInstanceAs (Decidable (_ ∨ _))

section

variable {η : Type} (X : Xenia η) (m : XeniaMemory η) (call : GuestImportContext)

/-- The call commits pages and wants them zeroed. -/
def CommitsZeroed : Prop :=
  (call.argument 2).toUInt32 &&& memCommit ≠ 0 ∧ (call.argument 2).toUInt32 &&& memNozero = 0

instance : Decidable (CommitsZeroed call) := inferInstanceAs (Decidable (_ ∧ _))

/-- What was not committed reads as zero after the call, what was keeps its contents; the
words of the call hold its answer. -/
def ZeroedWhereNew (range : CommittedRange) : Prop :=
  ∀ x : GuestAddress, range.Contains x → ¬ InWords call x →
    (allocateVirtualMemory X m call).1.bytes x.toNat =
      if Committed X m.heaps x then m.bytes x.toNat else 0

/-- Of the range that a fixed request names, the pages in the other state than the first read
as zero before the call. -/
def OthersZero : Prop :=
  ∀ request, preparedRequest X m call = some request → request.base ≠ 0 →
    ∀ x : GuestAddress, (CommittedRange.mk request.base request.size).Contains x →
      ¬ InWords call x → ¬ (Committed X m.heaps x ↔ Committed X m.heaps request.base) →
      m.bytes x.toNat = 0

variable {X m call}

/-- A zeroed range reads as zero. -/
theorem bytes_zero_of_contains {range : CommittedRange} {x : GuestAddress}
    (h : range.Contains x) : (m.zero range.address range.size).bytes x.toNat = 0 := by
  have hheld := (Library.Patch.mk range.address.toNat
    (List.replicate range.size.toNat (0 : UInt8))).heldBy_write m.bytes
  have hcell := Library.Patch.heldBy_iff_getElem?.1 hheld (x.toNat - range.address.toNat) 0
    (by rw [List.getElem?_replicate, if_pos (by obtain ⟨hfirst, hlast⟩ := h; omega)])
  have hplace : range.address.toNat + (x.toNat - range.address.toNat) = x.toNat :=
    Nat.add_sub_cancel' h.1
  simp only [hplace] at hcell
  exact hcell

theorem bytes_zeroNewlyCommittedPages (laws : ContentLaws X) {heap : BaseHeap}
    {range : CommittedRange} {policy : AllocationPolicy} {x : GuestAddress}
    (hcommit : policy.allocType &&& memCommit ≠ 0) (hzero : policy.allocType &&& memNozero = 0)
    (h : range.Contains x) :
    (zeroNewlyCommittedPages X m heap range policy).bytes x.toNat = 0 := by
  have hguard : ¬ (policy.allocType &&& memNozero ≠ 0 ∨ policy.allocType &&& memCommit = 0) := by
    rintro (hn | hc)
    · exact hn hzero
    · exact hcommit hc
  rw [zeroNewlyCommittedPages, if_neg hguard]
  split
  · exact bytes_zero_of_contains h
  · simp only [laws.protect]
    exact bytes_zero_of_contains h

/-- The bytes beside the words are those the heap and the zeroing leave. -/
theorem bytes_answered {after : XeniaMemory η} {region : CommittedRange} {x : GuestAddress}
    (h : ¬ InWords call x) :
    (stored (stored after ⟨(call.argument 0).toUInt32⟩ region.address)
      ⟨(call.argument 1).toUInt32⟩ region.size).bytes x.toNat = after.bytes x.toNat := by
  rw [InWords, not_or] at h
  rw [bytes_stored (by simp only; omega), bytes_stored (by simp only; omega)]

/-- For a request with a base, the condition is about the range that it names. -/
theorem othersZero_fixed {request : AllocationRequest}
    (hrequest : preparedRequest X m call = some request) (hbase : request.base ≠ 0) :
    OthersZero X m call ↔ ∀ x : GuestAddress,
      (CommittedRange.mk request.base request.size).Contains x → ¬ InWords call x →
      ¬ (Committed X m.heaps x ↔ Committed X m.heaps request.base) → m.bytes x.toNat = 0 := by
  refine ⟨fun h => h request hrequest hbase, fun h request' hrequest' _ => ?_⟩
  rw [hrequest, Option.some.injEq] at hrequest'
  subst hrequest'
  exact h

/-- The state of the first page decides: a byte in a page of the other state comes out right
only where it was zero. -/
theorem fixed_byte_iff (laws : ContentLaws X) {request : AllocationRequest}
    {policy : AllocationPolicy} {heap : BaseHeap} {x : GuestAddress}
    (hcommit : policy.allocType &&& memCommit ≠ 0) (hzero : policy.allocType &&& memNozero = 0)
    (hdone : (allocFixedFor X m request policy heap).1)
    (hx : (CommittedRange.mk request.base request.size).Contains x) :
    (if Committed X m.heaps request.base then (allocFixedFor X m request policy heap).2
      else zeroNewlyCommittedPages X (allocFixedFor X m request policy heap).2 heap
        ⟨request.base, request.size⟩ policy).bytes x.toNat =
      (if Committed X m.heaps x then m.bytes x.toNat else 0) ↔
    (¬ (Committed X m.heaps x ↔ Committed X m.heaps request.base) → m.bytes x.toNat = 0) := by
  by_cases hfirst : Committed X m.heaps request.base
  · -- nothing is zeroed
    have hkept : (allocFixedFor X m request policy heap).2.bytes = m.bytes :=
      laws.allocFixed _ _ _ _ _ _ m hdone
    rw [if_pos hfirst, hkept]
    by_cases hpage : Committed X m.heaps x
    · simp [hfirst, hpage]
    · simp [hfirst, hpage]
  · -- everything is zeroed
    rw [if_neg hfirst, bytes_zeroNewlyCommittedPages laws hcommit hzero hx]
    by_cases hpage : Committed X m.heaps x
    · simp [hfirst, hpage, eq_comm]
    · simp [hfirst, hpage]

/-- **Main result.** A successful commit zeroes what is new and keeps the rest exactly when
the pages that are not in the state of the first one read as zero before. -/
theorem commit_zeroes_iff (laws : ContentLaws X) {m : XeniaMemory η} {call : GuestImportContext}
    (hsucceeded : Succeeded (allocateVirtualMemory X m call).2) (hcommits : CommitsZeroed call) :
    ∃ range, mappedRange X m call = some range ∧
      (ZeroedWhereNew X m call range ↔ OthersZero X m call) := by
  obtain ⟨request, region, after, hrequest, hout, hafter⟩ :=
    allocateVirtualMemory_succeeded hsucceeded
  obtain ⟨hcommit, hnozero⟩ := hcommits
  refine ⟨region, mappedRange_eq hrequest hout, ?_⟩
  have hbytes : ∀ x : GuestAddress, ¬ InWords call x →
      (allocateVirtualMemory X m call).1.bytes x.toNat = after.bytes x.toNat := by
    intro x hx
    rw [hafter]
    exact bytes_answered hx
  obtain ⟨heap, hbase, -, -, hdone, heq⟩ | ⟨heap, hbase, -, hne, heq⟩ | ⟨heq, -⟩ :=
    handedOut_cases X m request (policyOf X call)
  · rw [heq, Option.some.injEq, Prod.mk.injEq] at hout
    obtain ⟨rfl, rfl⟩ := hout
    rw [othersZero_fixed hrequest hbase, ZeroedWhereNew]
    refine forall_congr' fun x => forall_congr' fun hx => forall_congr' fun hwords => ?_
    rw [hbytes x hwords]
    exact fixed_byte_iff laws hcommit hnozero hdone hx
  · rw [heq, Option.some.injEq, Prod.mk.injEq] at hout
    obtain ⟨rfl, rfl⟩ := hout
    refine iff_of_true (fun x hx hwords => ?_) fun request' hrequest' hbase' => ?_
    · have hnew : ¬ Committed X m.heaps x := laws.chosen _ _ _ _ _ _ m x hne hx.1 hx.2
      rw [hbytes x hwords, if_neg hnew]
      exact bytes_zeroNewlyCommittedPages laws hcommit hnozero hx
    · rw [hrequest, Option.some.injEq] at hrequest'
      subst hrequest'
      exact absurd hbase hbase'
  · rw [heq] at hout
    simp at hout

end

/-! ## On the paged memory -/

section

open PageTable

theorem pagedContentLaws : ContentLaws paged where
  allocFixed heap base size alignment flags protect m hdone := by
    show (PageTable.allocFixed base size flags protect m).2.bytes = m.bytes
    rw [PageTable.allocFixed]
    split
    · rfl
    · rfl
  alloc heap size alignment flags protect topDown m := by
    show (PageTable.alloc size flags protect m).2.bytes = m.bytes
    rw [PageTable.alloc]
    split
    · rfl
    · rfl
  protect heap address size protect m := rfl
  chosen heap size alignment flags protect topDown m x hne hfirst hlast := by
    have halloc : paged.alloc heap size alignment flags protect topDown m =
        PageTable.alloc size flags protect m := rfl
    rw [halloc, PageTable.alloc] at hne hfirst hlast
    cases hfit : m.heaps.firstFit (pageCount size) with
    | none =>
      rw [hfit] at hne
      exact absurd rfl hne
    | some first =>
      obtain ⟨hbegin, -, hend, hfree⟩ := firstFit_spec hfit
      simp only [hfit] at hfirst hlast
      have haddress : (UInt32.ofNat (first * 0x1000)).toNat = first * 0x1000 :=
        Library.Word.toNat_ofNat (by omega)
      rw [haddress] at hfirst hlast
      have hpage : first ≤ page x ∧ page x < first + pageCount size := by
        unfold page pageCount
        omega
      have hstate := free_iff.1 hfree (page x) hpage.1 hpage.2
      unfold Committed
      rw [paged_state, hstate]
      simp

/-- A reservation of two pages at `0x10000` of which only the second is committed, with a seven
at its start, and a page for the guest's words, which ask for both pages. -/
def mixedMemory : XeniaMemory PageTable where
  heaps p :=
    if p = 0x20 then taken 0x20 1 3 3
    else if p = 0x10 then taken 0x10 2 1 3
    else if p = 0x11 then taken 0x10 2 3 3
    else {}
  bytes a := if a = 0x11000 then 7 else if a = 0x20001 then 1 else if a = 0x20006 then 0x20 else 0

/-- `NtAllocateVirtualMemory` with `MEM_COMMIT` on words at `0x20000`. -/
def commitCall : GuestImportContext := .make [0x20000, 0x20004, 0x1000, 0x04]

/-- The page that was committed loses its contents. -/
theorem commit_clears : ContentLaws paged ∧
    ∃ (m : XeniaMemory PageTable) (call : GuestImportContext),
      Succeeded (allocateVirtualMemory paged m call).2 ∧ CommitsZeroed call ∧
      mappedRange paged m call = some ⟨0x10000, 0x2000⟩ ∧
      Committed paged m.heaps 0x11000 ∧ ¬ InWords call 0x11000 ∧ m.bytes 0x11000 = 7 ∧
      (allocateVirtualMemory paged m call).1.bytes 0x11000 = 0 := by
  refine ⟨pagedContentLaws, mixedMemory, commitCall, ?_⟩
  decide +kernel

/-- The words at `0x20000` ask for the first page of the reservation only. -/
def plainMemory : XeniaMemory PageTable where
  heaps := mixedMemory.heaps
  bytes a := if a = 0x10000 then 7 else if a = 0x20001 then 1 else if a = 0x20006 then 0x10 else 0

theorem commit_zeroes_plain : ∃ range, mappedRange paged plainMemory commitCall = some range ∧
    ZeroedWhereNew paged plainMemory commitCall range := by
  have hsucceeded : Succeeded (allocateVirtualMemory paged plainMemory commitCall).2 := by
    decide +kernel
  obtain ⟨range, hrange, hiff⟩ := commit_zeroes_iff pagedContentLaws hsucceeded (by decide)
  refine ⟨range, hrange, hiff.2 fun request hrequest _ x hx _ hdiffers => absurd ?_ hdiffers⟩
  have hprepared : preparedRequest paged plainMemory commitCall =
      some ⟨0x10000, 0x1000, 0x1000⟩ := by decide +kernel
  rw [hprepared, Option.some.injEq] at hrequest
  subst hrequest
  obtain ⟨hfirst, hlast⟩ := hx
  have hpage : page x = page 0x10000 := by
    simp only [page] at hfirst hlast ⊢
    have hbase : (0x10000 : UInt32).toNat = 0x10000 := rfl
    have hsize : (0x1000 : UInt32).toNat = 0x1000 := rfl
    omega
  have hbelow : x.toNat < 0x40000000 := by
    have hbase : (0x10000 : UInt32).toNat = 0x10000 := rfl
    have hsize : (0x1000 : UInt32).toNat = 0x1000 := rfl
    simp only at hlast
    omega
  unfold Committed
  rw [paged_state, paged_state, hpage, if_pos hbelow, if_pos (by decide)]

end

end GuestVirtualMemory

end X360Port
