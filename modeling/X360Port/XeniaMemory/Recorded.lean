import X360Port.GuestMemory.Ownership
import X360Port.Library.Ledger

/-!
# The ledger of the system heap

`recording` is a Xenia with a ledger beside its records: what its system heap
hands out and takes back is written down where it happens, and nothing else
changes. `BlocksOut` says of such a memory which blocks are out, and what a
call of the heap makes of them.
-/

namespace X360Port

open Library

structure Recorded (η : Type) where
  heaps : η
  ledger : List (LedgerEntry GuestAddress) := []

namespace XeniaMemory

variable {η : Type}

def unrecorded (m : XeniaMemory (Recorded η)) : XeniaMemory η := ⟨m.heaps.heaps, m.bytes⟩

def recorded (m : XeniaMemory η) (ledger : List (LedgerEntry GuestAddress)) :
    XeniaMemory (Recorded η) := ⟨⟨m.heaps, ledger⟩, m.bytes⟩

end XeniaMemory

def Xenia.recording {η : Type} (X : Xenia η) : Xenia (Recorded η) where
  lookupHeap := X.lookupHeap
  lookupHeapByType := X.lookupHeapByType
  queryRegionInfo heap address records := X.queryRegionInfo heap address records.heaps
  queryRangeAccess heap first last records := X.queryRangeAccess heap first last records.heaps
  lookupVirtualMappedRangeOverlapping first last records :=
    X.lookupVirtualMappedRangeOverlapping first last records.heaps
  allocFixed heap base size alignment flags protect m :=
    (X.allocFixed heap base size alignment flags protect m.unrecorded).map id
      (·.recorded m.heaps.ledger)
  alloc heap size alignment flags protect topDown m :=
    (X.alloc heap size alignment flags protect topDown m.unrecorded).map id
      (·.recorded m.heaps.ledger)
  protect heap address size protect m :=
    (X.protect heap address size protect m.unrecorded).recorded m.heaps.ledger
  decommit heap address size m :=
    (X.decommit heap address size m.unrecorded).map id (·.recorded m.heaps.ledger)
  release heap address m :=
    (X.release heap address m.unrecorded).map id (·.recorded m.heaps.ledger)
  systemHeapAlloc size m :=
    let (address, m') := X.systemHeapAlloc size m.unrecorded
    (address, m'.recorded
      (if address = 0 then m.heaps.ledger else m.heaps.ledger ++ [.handed address]))
  systemHeapFree address m :=
    (X.systemHeapFree address m.unrecorded).recorded (m.heaps.ledger ++ [.returned address])
  fromXdkProtectFlags := X.fromXdkProtectFlags
  toXdkProtectFlags := X.toXdkProtectFlags

/-! ## The blocks that are out -/

section

variable {η : Type} {X : Xenia η}

/-- The ledger has these blocks out, and the heap has each of them. -/
structure BlocksOut (heap : SystemHeap X) (m : XeniaMemory (Recorded η))
    (blocks : List GuestAddress) : Prop where
  nodup : blocks.Nodup
  out : outstanding m.heaps.ledger = some blocks.toFinset
  live : ∀ a ∈ blocks, ∃ n, heap.Live m.heaps.heaps a n

namespace BlocksOut

variable {heap : SystemHeap X} {m : XeniaMemory (Recorded η)} {blocks blocks' : List GuestAddress}

theorem fresh (heap : SystemHeap X) (m : XeniaMemory η) : BlocksOut heap (m.recorded []) [] where
  nodup := .nil
  out := rfl
  live _ h := nomatch h

theorem perm (h : BlocksOut heap m blocks) (hperm : blocks.Perm blocks') :
    BlocksOut heap m blocks' where
  nodup := hperm.nodup_iff.1 h.nodup
  out := by rw [h.out, List.toFinset_eq_of_perm _ _ hperm]
  live a ha := h.live a (hperm.mem_iff.2 ha)

/-- The heap hands out nothing, or a block that is not out. -/
theorem alloc (h : BlocksOut heap m blocks) (size : UInt32) :
    let address := (X.recording.systemHeapAlloc size m).1
    let m' := (X.recording.systemHeapAlloc size m).2
    address = 0 ∧ BlocksOut heap m' blocks ∨
      address ≠ 0 ∧ address ∉ blocks ∧ BlocksOut heap m' (address :: blocks) := by
  intro address m'
  have hkeep : ∀ b k, heap.Live m.heaps.heaps b k → heap.Live m'.heaps.heaps b k :=
    fun b k => heap.alloc_keeps size m.unrecorded b k
  have hlive : ∀ a ∈ blocks, ∃ n, heap.Live m'.heaps.heaps a n := by
    intro a ha
    obtain ⟨n, hn⟩ := h.live a ha
    exact ⟨n, hkeep a n hn⟩
  have hledger : m'.heaps.ledger =
      if address = 0 then m.heaps.ledger else m.heaps.ledger ++ [.handed address] := rfl
  by_cases hzero : address = 0
  · rw [if_pos hzero] at hledger
    exact .inl ⟨hzero, h.nodup, by rw [hledger, h.out], hlive⟩
  · rw [if_neg hzero] at hledger
    obtain ⟨hnew, n, -, hhanded⟩ := heap.alloc_live size m.unrecorded hzero
    have hout : address ∉ blocks := by
      intro ha
      obtain ⟨k, hk⟩ := h.live address ha
      exact hnew k hk
    refine .inr ⟨hzero, hout, List.nodup_cons.2 ⟨hout, h.nodup⟩, ?_, ?_⟩
    · rw [hledger, outstanding_handed h.out (by rwa [List.mem_toFinset]), List.toFinset_cons]
    · exact List.forall_mem_cons.2 ⟨⟨n, hhanded⟩, hlive⟩

/-- A block that is out is taken back. -/
theorem free {a : GuestAddress} (h : BlocksOut heap m (a :: blocks)) :
    BlocksOut heap (X.recording.systemHeapFree a m) blocks := by
  obtain ⟨hout, hnodup⟩ := List.nodup_cons.1 h.nodup
  obtain ⟨⟨n, hn⟩, hlive⟩ := List.forall_mem_cons.1 h.live
  refine ⟨hnodup, ?_, fun b hb => ?_⟩
  · have hreturned := outstanding_returned h.out (a := a) (by simp)
    rw [List.toFinset_cons, Finset.erase_insert (by rwa [List.mem_toFinset])] at hreturned
    exact hreturned
  · obtain ⟨k, hk⟩ := hlive b hb
    have hne : b ≠ a := fun heq => hout (heq ▸ hb)
    exact ⟨k, heap.free_keeps m.unrecorded a n b k hn hk hne⟩

/-- One after another. -/
theorem freeAll {l : List GuestAddress} (h : BlocksOut heap m (l ++ blocks)) :
    BlocksOut heap (l.foldl (fun m a => X.recording.systemHeapFree a m) m) blocks := by
  induction l generalizing m with
  | nil => exact h
  | cons a l ih => exact ih h.free

/-- With no block out the ledger is settled. -/
theorem settled (h : BlocksOut heap m []) : Settled m.heaps.ledger := h.out

end BlocksOut

end

end X360Port
