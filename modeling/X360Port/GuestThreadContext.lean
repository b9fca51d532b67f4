import X360Port.XeniaMemory.Recorded

/-!
# The guest thread's blocks

`GuestThreadContext` owns two blocks of the system heap, the call stack and the
control region of the one guest thread, from a successful allocation to its
`reset`. `GuestMemory` owns those that the title has allocated. What each of
their calls makes of the blocks that are out is said here, call by call.
-/

namespace X360Port

open Library

/-- `bound` says that the pointer to Xenia's memory is set, `state` that the thread state is
there. -/
structure GuestThreadContext where
  bound : Bool := false
  state : Bool := false
  stackAddress : GuestAddress := 0
  pcrAddress : GuestAddress := 0
  deriving DecidableEq, Repr

def kStackSize : UInt32 := 64 * 1024
def kPcrSize : UInt32 := 0x1000

namespace GuestThreadContext

section

variable {η : Type} (X : Xenia η) (t : GuestThreadContext) (m : XeniaMemory η)

def initializeThread : GuestThreadContext × XeniaMemory η × RuntimeFailure :=
  let (stackAddress, m) := X.systemHeapAlloc kStackSize m
  let t := { t with bound := true, stackAddress := stackAddress }
  if stackAddress = 0 then
    (t, m, ⟨.stackAllocationFailed, "Xenia could not allocate the bounded guest call stack"⟩)
  else
    let (pcrAddress, m) := X.systemHeapAlloc kPcrSize m
    let t := { t with pcrAddress := pcrAddress }
    if pcrAddress = 0 then
      (t, m, ⟨.stackAllocationFailed, "Xenia could not allocate the guest thread PCR"⟩)
    else ({ t with state := true }, m, {})

def reset : GuestThreadContext × XeniaMemory η :=
  if t.bound then
    let m := if t.stackAddress ≠ 0 then X.systemHeapFree t.stackAddress m else m
    let m := if t.pcrAddress ≠ 0 then X.systemHeapFree t.pcrAddress m else m
    ({}, m)
  else ({}, m)

end

/-- The blocks that the thread owns. -/
def blocks (t : GuestThreadContext) : List GuestAddress :=
  [t.stackAddress, t.pcrAddress].filter (· ≠ 0)

/-- Only a thread with a memory owns blocks. -/
def Sound (t : GuestThreadContext) : Prop := t.bound = true ∨ t.blocks = []

theorem blocks_eq (t : GuestThreadContext) :
    t.blocks = (if t.stackAddress = 0 then [] else [t.stackAddress]) ++
      (if t.pcrAddress = 0 then [] else [t.pcrAddress]) := by
  unfold blocks
  by_cases hstack : t.stackAddress = 0 <;> by_cases hpcr : t.pcrAddress = 0 <;>
    simp [hstack, hpcr]

section

variable {η : Type} {X : Xenia η} {heap : SystemHeap X} {m : XeniaMemory (Recorded η)}
  {rest : List GuestAddress}

/-- A thread that could not be set up owns what was allocated for it until then. -/
theorem blocksOut_initializeThread (h : BlocksOut heap m rest) :
    let (t, m', _) := initializeThread X.recording {} m
    t.Sound ∧ BlocksOut heap m' (t.blocks ++ rest) := by
  unfold initializeThread
  rcases h.alloc kStackSize with ⟨hstack, hfirst⟩ | ⟨hstack, -, hfirst⟩
  · dsimp only
    rw [if_pos hstack]
    refine ⟨.inl rfl, ?_⟩
    rw [blocks_eq]
    simpa [hstack] using hfirst
  · dsimp only
    rw [if_neg hstack]
    rcases hfirst.alloc kPcrSize with ⟨hpcr, hsecond⟩ | ⟨hpcr, -, hsecond⟩
    · rw [if_pos hpcr]
      refine ⟨.inl rfl, ?_⟩
      rw [blocks_eq]
      simpa [hstack, hpcr] using hsecond
    · rw [if_neg hpcr]
      refine ⟨.inl rfl, ?_⟩
      rw [blocks_eq]
      simp only [hstack, hpcr, if_false, List.singleton_append]
      exact hsecond.perm (.swap _ _ _)

theorem blocksOut_reset {t : GuestThreadContext} (ht : t.Sound)
    (h : BlocksOut heap m (t.blocks ++ rest)) :
    BlocksOut heap (t.reset X.recording m).2 rest := by
  unfold reset
  by_cases hbound : t.bound = true
  · rw [if_pos hbound]
    rw [blocks_eq] at h
    by_cases hstack : t.stackAddress = 0 <;> by_cases hpcr : t.pcrAddress = 0
    · simpa [hstack, hpcr] using h
    · simp only [hstack, hpcr, ne_eq, not_true_eq_false, not_false_eq_true, if_true, if_false,
        List.nil_append, List.singleton_append] at h ⊢
      exact h.free
    · simp only [hstack, hpcr, ne_eq, not_true_eq_false, not_false_eq_true, if_true, if_false,
        List.append_nil, List.singleton_append] at h ⊢
      exact h.free
    · simp only [hstack, hpcr, ne_eq, not_false_eq_true, if_true, if_false,
        List.singleton_append] at h ⊢
      exact h.free.free
  · rw [if_neg hbound]
    rw [ht.resolve_left hbound] at h
    exact h

end

end GuestThreadContext

/-! ## The title's blocks -/

namespace GuestMemory

/-- The addresses of the table. -/
def blocks (g : GuestMemory) : List GuestAddress := g.allocations.entries.map (·.1)

/-- Only a table with a memory has entries. -/
def Sound (g : GuestMemory) : Prop := g.initialized = true ∨ g.blocks = []

section

variable {η : Type} {X : Xenia η} {heap : SystemHeap X} {g : GuestMemory}
  {m : XeniaMemory (Recorded η)} {rest : List GuestAddress}

theorem mem_blocks {a : GuestAddress} :
    a ∈ g.blocks ↔ ∃ size, g.allocations.find a = some size := by
  unfold blocks
  rw [List.mem_map]
  constructor
  · rintro ⟨e, he, rfl⟩
    exact ⟨e.2, OrderedMap.find_eq_some_iff.2 he⟩
  · rintro ⟨size, hfind⟩
    exact ⟨(a, size), OrderedMap.find_eq_some_iff.1 hfind, rfl⟩

theorem nodup_blocks (g : GuestMemory) : g.blocks.Nodup := by
  refine List.pairwise_map.2 (g.allocations.sorted.imp fun {a b} hlt heq => ?_)
  rw [heq] at hlt
  exact Std.lt_irrefl hlt

/-- A new entry is one more block. -/
theorem perm_emplace {a : GuestAddress} {size : UInt32} (h : g.allocations.find a = none) :
    (a :: g.blocks).Perm
      ({ g with allocations := g.allocations.emplace a size } : GuestMemory).blocks := by
  have hnew : a ∉ g.blocks := by
    rw [mem_blocks, h]
    rintro ⟨size, ⟨⟩⟩
  refine (List.perm_ext_iff_of_nodup (List.nodup_cons.2 ⟨hnew, g.nodup_blocks⟩)
    (nodup_blocks _)).2 fun b => ?_
  unfold blocks
  simp only [List.mem_cons, List.mem_map, OrderedMap.mem_emplace_iff h]
  constructor
  · rintro (rfl | ⟨e, he, rfl⟩)
    · exact ⟨(b, size), .inl rfl, rfl⟩
    · exact ⟨e, .inr he, rfl⟩
  · rintro ⟨e, rfl | he, rfl⟩
    · exact .inl rfl
    · exact .inr ⟨e, he, rfl⟩

/-- An entry that is erased is one block less. -/
theorem perm_erase {a : GuestAddress} {size : UInt32} (h : (a, size) ∈ g.allocations.entries) :
    g.blocks.Perm
      (a :: ({ g with allocations := g.allocations.erase a } : GuestMemory).blocks) := by
  have hgone : a ∉ ({ g with allocations := g.allocations.erase a } : GuestMemory).blocks := by
    unfold blocks
    simp
  refine (List.perm_ext_iff_of_nodup g.nodup_blocks
    (List.nodup_cons.2 ⟨hgone, nodup_blocks _⟩)).2 fun b => ?_
  unfold blocks
  simp only [List.mem_cons, List.mem_map, OrderedMap.mem_erase_iff]
  constructor
  · rintro ⟨e, he, rfl⟩
    by_cases heq : e.1 = a
    · exact .inl heq
    · exact .inr ⟨e, ⟨he, heq⟩, rfl⟩
  · rintro (rfl | ⟨e, ⟨he, -⟩, rfl⟩)
    · exact ⟨(b, size), h, rfl⟩
    · exact ⟨e, he, rfl⟩

theorem blocksOut_allocate (hg : g.Sound) (h : BlocksOut heap m (g.blocks ++ rest))
    (size : UInt32) :
    let (g', m', _) := g.allocate X.recording m size
    g'.Sound ∧ BlocksOut heap m' (g'.blocks ++ rest) := by
  have halloc := h.alloc size
  rcases g.allocate_cases (X := X.recording) m size with
    ⟨hguest, -, hmemory⟩ | ⟨hready, -, hne, hfind, heq⟩
  · dsimp only
    rw [hguest]
    refine ⟨hg, ?_⟩
    rcases hmemory with hmemory | ⟨-, hmemory, hanswer⟩
    · rw [hmemory]
      exact h
    · rw [hmemory]
      rcases halloc with ⟨-, hsame⟩ | ⟨hne, hnew, -⟩
      · exact hsame
      · -- the heap hands out no block of the table
        refine absurd ?_ hnew
        obtain ⟨extent, hextent⟩ := Option.isSome_iff_exists.1 (hanswer.resolve_left hne)
        exact List.mem_append_left _ (mem_blocks.2 ⟨extent, hextent⟩)
  · rw [heq]
    refine ⟨.inl hready, ?_⟩
    rcases halloc with ⟨hzero, -⟩ | ⟨-, -, hmore⟩
    · exact absurd hzero hne
    · exact hmore.perm ((perm_emplace hfind).append_right rest)

theorem blocksOut_release (hg : g.Sound) (h : BlocksOut heap m (g.blocks ++ rest))
    (a : GuestMemoryAllocation) :
    let (g', m', _) := g.release X.recording m a
    g'.Sound ∧ BlocksOut heap m' (g'.blocks ++ rest) := by
  rcases g.release_cases (X := X.recording) m a with ⟨hguest, hmemory, -⟩ | ⟨hmem, heq⟩
  · dsimp only
    rw [hguest, hmemory]
    exact ⟨hg, h⟩
  · rw [heq]
    refine ⟨hg.imp id fun hempty => ?_, (h.perm ((perm_erase hmem).append_right rest)).free⟩
    have hblock : a.address ∈ g.blocks := List.mem_map.2 ⟨_, hmem, rfl⟩
    rw [hempty] at hblock
    cases hblock

theorem blocksOut_resetAll (hg : g.Sound) (h : BlocksOut heap m (g.blocks ++ rest)) :
    BlocksOut heap (g.reset X.recording m).2 rest := by
  unfold reset
  by_cases hready : g.initialized = true
  · rw [if_pos hready]
    have hall := h.freeAll
    unfold blocks at hall
    rwa [List.foldl_map] at hall
  · rw [if_neg hready]
    rw [hg.resolve_left hready] at h
    exact h

end

end GuestMemory

end X360Port
