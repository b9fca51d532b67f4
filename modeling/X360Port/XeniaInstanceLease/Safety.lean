import X360Port.GuestVirtualMemory.BlocksKept
import X360Port.Library.Lease
import X360Port.Runtime.Loading
import X360Port.XeniaInstanceLease

/-!
# What every order of steps leaves true

The guest may map and free any page, also one of a block that the title or the
thread has, and so may a load and the destructor, by the image's range.
`SparesBlocks` says that a step of an owner names no page of a block that is
out. In a run of such steps at most one owner has a memory, under the lease, the
blocks that are out are those that its thread and its table know of, and a
memory goes with all of them taken back (`play_safe`).
-/

namespace X360Port

open Library GuestVirtualMemory

/-! ## The calls over an owner's memory -/

namespace XeniaOwner

section

variable {η : Type} {X : Xenia η} {fresh : XeniaMemory η} {heap : SystemHeap X}
  {o : XeniaOwner (Recorded η)} {active : Bool}

/-- The pages of an image, where Xenia maps them. -/
def mappedImage (X : Xenia η) (m : XeniaMemory η) (image : ImageIdentity) : Option PageRun :=
  if (mapImage X m image).1 then
    (X.lookupHeap image.base).map fun heap => fixedRun heap image.base image.size
  else none

/-- The step names no page of a block that is out, neither to map it nor to give it back. -/
def SparesBlocks (heap : SystemHeap X) (o : XeniaOwner (Recorded η)) : OwnerStep → Prop
  | .shared (.ntAllocateVirtualMemory call) => ∀ m ∈ o.memory, ∀ r,
    mappedByGuest X.recording m call = some r → MissesBlocks heap m o.blocks r
  | .shared (.ntFreeVirtualMemory call) => ∀ m ∈ o.memory, ∀ r,
    freedByGuest X.recording m call = some r → MissesBlocks heap m o.blocks r
  | .loadModule call => ∀ m ∈ o.memory,
    let image := call.module.descriptor.image
    let mapped := (mapImage X.recording m image).2
    (∀ r, mappedImage X.recording m image = some r → MissesBlocks heap m o.blocks r) ∧
      ∀ bytes r, freedBySystemHeap X.recording { mapped with bytes := bytes } image.base = some r →
        MissesBlocks heap mapped o.blocks r
  | .tearDown => ∀ m ∈ o.memory, o.runtime.imageAddress ≠ 0 →
    let unthreaded := (o.thread.reset X.recording m).2
    ∀ r, freedBySystemHeap X.recording unthreaded o.runtime.imageAddress = some r →
      MissesBlocks heap unthreaded o.guestMemory.blocks r
  | _ => True

theorem keeps_mapImage (laws : BlocksKept heap) {blocks : List GuestAddress}
    {m : XeniaMemory (Recorded η)} {image : ImageIdentity}
    (h : ∀ r, mappedImage X.recording m image = some r → MissesBlocks heap m blocks r) :
    KeepsLive heap blocks m (mapImage X.recording m image).2 := by
  rw [mappedImage] at h
  rw [mapImage] at h ⊢
  cases hheap : X.recording.lookupHeap image.base with
  | none => exact .of_heaps rfl
  | some target =>
    rw [hheap] at h
    exact keeps_allocFixed laws hheap fun hdone => h _ (if_pos hdone)

theorem keeps_releaseImage (laws : BlocksKept heap) {blocks : List GuestAddress}
    {m : XeniaMemory (Recorded η)} {address : GuestAddress}
    (h : ∀ r, freedBySystemHeap X.recording m address = some r → MissesBlocks heap m blocks r) :
    KeepsLive heap blocks m (releaseImage X.recording m address) := by
  rw [freedBySystemHeap] at h
  rw [releaseImage]
  cases hheap : X.recording.lookupHeap address with
  | none => exact .of_heaps rfl
  | some target =>
    simp only [hheap] at h
    exact keeps_release laws hheap fun size hdone => h _ (by rw [hdone]; rfl)

/-- The calls that a load makes on the heaps: none, the allocation, or the release after it. -/
theorem heapCalls_of_loading {lookupHeap : GuestAddress → Bool} {s s' : Runtime} {call : LoadCall}
    {outcome : CallOutcome} (h : Runtime.Loading lookupHeap s call s' outcome) :
    let base := call.module.descriptor.image.base
    s'.heapCalls = s.heapCalls ∨ s'.heapCalls = s.heapCalls ++ [.allocFixed base] ∨
      s'.heapCalls = s.heapCalls ++ [.allocFixed base, .release base] := by
  cases h with
  | refused => exact .inl rfl
  | stopped => exact .inr (.inr (List.append_assoc _ _ _))
  | unwatched => exact .inr (.inr (List.append_assoc _ _ _))
  | loaded => exact .inr (.inl rfl)

/-- **A load** that spares the blocks keeps them. -/
theorem keeps_loadModule (laws : BlocksKept heap) {m : XeniaMemory (Recorded η)}
    (hm : o.memory = some m) {call : LoadCall} {o' : XeniaOwner (Recorded η)}
    (hspares : o.SparesBlocks heap (.loadModule call))
    (hload : o.loadModule X.recording m call = some o') :
    ∃ runtime m', o' = { o with runtime := runtime, memory := some m' } ∧
      KeepsLive heap o.blocks m m' := by
  obtain ⟨hmapped, hreleased⟩ := hspares m hm
  unfold XeniaOwner.loadModule at hload
  dsimp only at hload
  split at hload
  · cases hload
  · next loaded outcome heq =>
    cases hload
    refine ⟨loaded, _, rfl, ?_⟩
    have hmap : ∀ bytes : Memory UInt8, KeepsLive heap o.blocks m
        { (mapImage X.recording m call.module.descriptor.image).2 with bytes := bytes } :=
      fun bytes => (keeps_mapImage laws hmapped).trans (.of_heaps rfl)
    obtain ⟨s', outcome', hs, hloading⟩ := Runtime.loadModule_loading
      (fun address => (X.recording.lookupHeap address).isSome)
      { o.runtime with guest := { o.runtime.guest with memory := m.bytes } }
      { call with allocFixed := (mapImage X.recording m call.module.descriptor.image).1 }
    rw [heq] at hs
    cases hs
    obtain hcalls | hcalls | hcalls := heapCalls_of_loading hloading
    · rw [hcalls, List.drop_length]
      exact .of_heaps rfl
    · rw [hcalls, List.drop_left]
      exact hmap loaded.memory
    · rw [hcalls, List.drop_left]
      exact (hmap loaded.memory).trans (keeps_releaseImage laws (hreleased loaded.memory))

/-- **A service** that spares the blocks leaves those out that the tables know of. -/
theorem blocksOut_shared (laws : BlocksKept heap) {m : XeniaMemory (Recorded η)}
    (hm : o.memory = some m) (hguest : o.guestMemory.Sound) (h : BlocksOut heap m o.blocks)
    {call : SharedCall} (hspares : o.SparesBlocks heap (.shared call)) :
    let s := SharedMemory.call X.recording ⟨o.guestMemory, m⟩ call
    s.guest.Sound ∧ BlocksOut heap s.memory (s.guest.blocks ++ o.thread.blocks) := by
  have hblocks := h.perm List.perm_append_comm
  have hkeep : ∀ m', KeepsLive heap o.blocks m m' →
      BlocksOut heap m' (o.guestMemory.blocks ++ o.thread.blocks) :=
    fun m' hk => (h.keep hk).perm List.perm_append_comm
  cases call with
  | allocateGuestMemory size => exact GuestMemory.blocksOut_allocate hguest hblocks size
  | releaseGuestMemory a => exact GuestMemory.blocksOut_release hguest hblocks a
  | ntAllocateVirtualMemory call =>
    exact ⟨hguest, hkeep _ (keeps_allocateVirtualMemory laws (hspares m hm))⟩
  | ntFreeVirtualMemory call =>
    exact ⟨hguest, hkeep _ (keeps_freeVirtualMemory laws (hspares m hm))⟩
  | ntQueryVirtualMemory call =>
    exact ⟨hguest, hkeep _ (.of_heaps (heaps_queryVirtualMemory m call))⟩
  | store address bytes => exact ⟨hguest, hkeep _ (.of_heaps rfl)⟩

/-! ## What a step of an owner does -/

/-- An owner has its memory under its lease, and its tables say which blocks of it are out. -/
structure Sound (heap : SystemHeap X) (o : XeniaOwner (Recorded η)) : Prop where
  guarded : o.memory.isSome → o.lease.held = true
  outside : o.phase = .constructed ∨ o.phase = .gone → o.lease.held = false
  acquired : o.phase = .acquired → o.lease.held = true
  unused : o.phase = .constructed ∨ o.phase = .acquired →
    o.memory = none ∧ o.thread = {} ∧ o.guestMemory = {}
  emptied : o.phase = .tornDown ∨ o.phase = .gone → o.memory = none
  thread : o.thread.Sound
  guestMemory : o.guestMemory.Sound
  blocksOut : ∀ m ∈ o.memory, BlocksOut heap m o.blocks

/-- What a step does to the flag: nothing, or it raises it for the owner, or the owner lowers
it. -/
def LeaseMoves (o : XeniaOwner (Recorded η)) (active : Bool) (outcome : Outcome (Recorded η)) :
    Prop :=
  outcome.owner.lease.held = o.lease.held ∧ outcome.active = active ∨
    active = false ∧ outcome.owner.lease.held = true ∧ outcome.active = true ∨
    o.lease.held = true ∧ outcome.owner.lease.held = false ∧ outcome.active = false

theorem sound_constructed (heap : SystemHeap X) (session : Option SystemSession) :
    Sound heap { session } where
  guarded h := nomatch h
  outside _ := rfl
  acquired h := nomatch h
  unused _ := ⟨rfl, rfl, rfl⟩
  emptied _ := rfl
  thread := .inr rfl
  guestMemory := .inr rfl
  blocksOut _ h := nomatch h

theorem acquireLease_cases (h : o.lease.held = false) (active : Bool) :
    active = false ∧
        o.acquireLease active = ({ o with lease := ⟨true⟩, phase := .acquired }, true) ∨
      active = true ∧ ∃ failure,
        o.acquireLease active =
          ({ o with lease := ⟨false⟩, phase := .refused, failure := failure }, true) := by
  unfold acquireLease XeniaInstanceLease.acquire
  rw [h]
  cases active with
  | false => exact .inl ⟨rfl, rfl⟩
  | true => exact .inr ⟨rfl, _, rfl⟩

/-- An owner that is refused before it has a memory. -/
theorem Sound.refuse (h : o.Sound heap) (hphase : o.phase = .constructed)
    (failure : RuntimeFailure) :
    Sound heap { o with lease := ⟨false⟩, phase := .refused, failure := failure } := by
  obtain ⟨hmemory, hthread, hguest⟩ := h.unused (.inl hphase)
  refine ⟨fun hsome => ?_, fun hp => ?_, fun hp => ?_, fun hp => ?_, fun hp => ?_, h.thread,
    h.guestMemory, h.blocksOut⟩
  · rw [hmemory] at hsome
    cases hsome
  · rfl
  · cases hp
  · rcases hp with hp | hp <;> cases hp
  · exact hmemory

theorem Sound.acquireLease (h : o.Sound heap) (hphase : o.phase = .constructed) (active : Bool) :
    let outcome := o.acquireLease active
    Sound heap outcome.1 ∧ LeaseMoves o active ⟨outcome.1, outcome.2, none, none⟩ := by
  have hheld := h.outside (.inl hphase)
  rcases acquireLease_cases hheld active with ⟨rfl, heq⟩ | ⟨rfl, failure, heq⟩
  · rw [heq]
    refine ⟨⟨fun _ => rfl, fun hp => ?_, fun _ => rfl, fun _ => h.unused (.inl hphase),
      fun hp => ?_, h.thread, h.guestMemory, h.blocksOut⟩, .inr (.inl ⟨rfl, rfl, rfl⟩)⟩
    · rcases hp with hp | hp <;> cases hp
    · rcases hp with hp | hp <;> cases hp
  · rw [heq]
    exact ⟨h.refuse hphase failure, .inl ⟨hheld.symm, rfl⟩⟩

theorem Sound.acquireSession (h : o.Sound heap) (hphase : o.phase = .constructed)
    (platform : Platform) (s : SystemSession) (active : Bool) :
    let outcome := o.acquireSession platform s active
    Sound heap outcome.1 ∧ LeaseMoves o active ⟨outcome.1, outcome.2, none, none⟩ := by
  unfold XeniaOwner.acquireSession
  dsimp only
  by_cases hvalid : (s.config.validateConfig platform).Ok
  · rw [if_neg (not_not_intro hvalid)]
    exact h.acquireLease hphase active
  · rw [if_pos hvalid]
    have hheld := h.outside (.inl hphase)
    have hrefused := h.refuse hphase (s.config.validateConfig platform)
    rw [show (⟨false⟩ : XeniaInstanceLease) = o.lease from hheld ▸ rfl] at hrefused
    exact ⟨hrefused, .inl ⟨rfl, rfl⟩⟩

/-- An owner with a memory of its own, composed or refused. -/
theorem Sound.compose (h : o.Sound heap) (hphase : o.phase = .acquired)
    {o' : XeniaOwner (Recorded η)} (hlease : o'.lease = o.lease)
    (hphase' : o'.phase = .composed ∨ o'.phase = .refused) (hthread : o'.thread.Sound)
    (hguest : o'.guestMemory.Sound) (hmemory : ∀ m ∈ o'.memory, BlocksOut heap m o'.blocks) :
    o'.Sound heap := by
  have hheld := h.acquired hphase
  have hother : ∀ phase, phase ≠ .composed → phase ≠ .refused → o'.phase ≠ phase := by
    rintro phase hcomposed hrefused rfl
    exact hphase'.elim hcomposed hrefused
  refine ⟨fun _ => hlease ▸ hheld, fun hp => ?_, fun hp => ?_, fun hp => ?_, fun hp => ?_,
    hthread, hguest, hmemory⟩
  · rcases hp with hp | hp <;> exact absurd hp (hother _ (by decide) (by decide))
  · exact absurd hp (hother _ (by decide) (by decide))
  · rcases hp with hp | hp <;> exact absurd hp (hother _ (by decide) (by decide))
  · rcases hp with hp | hp <;> exact absurd hp (hother _ (by decide) (by decide))

theorem phase_of_ok (failure : RuntimeFailure) :
    (if failure.Ok then OwnerPhase.composed else .refused) = .composed ∨
      (if failure.Ok then OwnerPhase.composed else .refused) = .refused := by
  split
  · exact .inl rfl
  · exact .inr rfl

theorem Sound.composeContext (h : o.Sound heap) (hphase : o.phase = .acquired)
    (fresh : XeniaMemory η) (mapped setUp : Bool) :
    Sound heap (o.composeContext X.recording (fresh.recorded []) mapped setUp) ∧
      (o.composeContext X.recording (fresh.recorded []) mapped setUp).lease = o.lease := by
  obtain ⟨-, hthread, hguest⟩ := h.unused (.inr hphase)
  have hfresh := BlocksOut.fresh heap fresh
  unfold XeniaOwner.composeContext
  cases mapped with
  | false =>
    refine ⟨h.compose hphase rfl (.inr rfl) h.thread h.guestMemory fun m hm => ?_, rfl⟩
    cases hm
    unfold blocks
    rw [hthread, hguest]
    exact hfresh
  | true =>
    cases setUp with
    | false =>
      refine ⟨h.compose hphase rfl (.inr rfl) h.thread (.inl rfl) fun m hm => ?_, rfl⟩
      cases hm
      unfold blocks
      simp only [hthread, hguest]
      exact hfresh
    | true =>
      obtain ⟨hsound, hblocks⟩ := GuestThreadContext.blocksOut_initializeThread hfresh
      dsimp only
      rw [hthread]
      refine ⟨h.compose hphase rfl (phase_of_ok _) hsound (.inl rfl) fun m hm => ?_, rfl⟩
      cases hm
      unfold blocks
      simp only [hguest]
      exact hblocks

theorem Sound.composeSession (h : o.Sound heap) (hphase : o.phase = .acquired)
    (fresh : XeniaMemory η) (platform : Platform) (s : SystemSession) :
    Sound heap (o.composeSession (fresh.recorded []) platform s) ∧
      (o.composeSession (fresh.recorded []) platform s).lease = o.lease := by
  obtain ⟨-, hthread, hguest⟩ := h.unused (.inr hphase)
  refine ⟨h.compose hphase rfl (phase_of_ok _) h.thread h.guestMemory fun m hm => ?_, rfl⟩
  obtain ⟨-, ⟨⟩⟩ := Option.ite_none_right_eq_some.1 hm
  have hblocks : (o.composeSession (fresh.recorded []) platform s).blocks = [] := by
    unfold blocks XeniaOwner.composeSession
    rw [hthread, hguest]
    rfl
  rw [hblocks]
  exact .fresh heap fresh

/-- A composed context goes on with other tables over its memory. -/
theorem Sound.tables (h : o.Sound heap) {m m' : XeniaMemory (Recorded η)}
    (hphase : o.phase = .composed) (hm : o.memory = some m) {guestMemory : GuestMemory}
    (hguest : guestMemory.Sound)
    (hblocks : BlocksOut heap m' (guestMemory.blocks ++ o.thread.blocks)) :
    Sound heap { o with guestMemory := guestMemory, memory := some m' } := by
  have hheld := h.guarded (by rw [hm]; rfl)
  refine ⟨fun _ => hheld, fun hp => ?_, fun hp => ?_, fun hp => ?_, fun hp => ?_, h.thread, hguest,
    fun m hm => ?_⟩
  · exact h.outside hp
  · exact hheld
  · rcases hp with hp | hp <;> rw [hphase] at hp <;> cases hp
  · rcases hp with hp | hp <;> rw [hphase] at hp <;> cases hp
  · cases hm
    exact hblocks.perm List.perm_append_comm

theorem Sound.tearDown (laws : BlocksKept heap) (h : o.Sound heap)
    (hspares : o.SparesBlocks heap .tearDown) :
    Sound heap (o.tearDown X.recording).1 ∧ (o.tearDown X.recording).1.lease = o.lease ∧
      ∀ m ∈ (o.tearDown X.recording).2, Settled m.heaps.ledger := by
  refine ⟨⟨(nomatch ·), fun hp => ?_, (nomatch ·), fun hp => ?_, fun _ => rfl, .inr rfl, .inr rfl,
    fun _ => (nomatch ·)⟩, rfl, fun m hm => ?_⟩
  · rcases hp with hp | hp <;> cases hp
  · rcases hp with hp | hp <;> cases hp
  · obtain ⟨before, hbefore, rfl⟩ := Option.map_eq_some_iff.1 hm
    have hthread := GuestThreadContext.blocksOut_reset h.thread (h.blocksOut before hbefore)
    have hreleased : KeepsLive heap o.guestMemory.blocks (o.thread.reset X.recording before).2
        (if o.runtime.imageAddress ≠ 0 then
          releaseImage X.recording (o.thread.reset X.recording before).2 o.runtime.imageAddress
        else (o.thread.reset X.recording before).2) := by
      split
      · next hne => exact keeps_releaseImage laws (hspares before hbefore hne)
      · exact .of_heaps rfl
    have himage := hthread.keep hreleased
    rw [← List.append_nil o.guestMemory.blocks] at himage
    exact (GuestMemory.blocksOut_resetAll h.guestMemory himage).settled

/-- Whoever is torn down goes, and gives the lease back if it has it. -/
theorem Sound.leave (h : o.Sound heap) (hphase : o.phase = .tornDown) (active : Bool) :
    ({ o with phase := .gone, lease := {} } : XeniaOwner (Recorded η)).Sound heap ∧
      LeaseMoves o active
        ⟨{ o with phase := .gone, lease := {} }, o.lease.release active, none, none⟩ := by
  have hmemory := h.emptied (.inl hphase)
  refine ⟨⟨fun hm => ?_, fun _ => rfl, (nomatch ·), fun hp => ?_, fun _ => hmemory, h.thread,
    h.guestMemory, h.blocksOut⟩, ?_⟩
  · rw [hmemory] at hm
    cases hm
  · rcases hp with hp | hp <;> cases hp
  · unfold LeaseMoves XeniaInstanceLease.release
    cases hheld : o.lease.held with
    | false => exact .inl ⟨rfl, rfl⟩
    | true => exact .inr (.inr ⟨rfl, rfl, rfl⟩)

/-- **A step of an owner** keeps it sound, moves the flag by the rules and leaves no block of a
memory that goes. -/
theorem Sound.step (laws : BlocksKept heap) (h : o.Sound heap) {e : OwnerStep}
    {outcome : Outcome (Recorded η)} (hspares : o.SparesBlocks heap e)
    (hs : o.step X.recording (fresh.recorded []) active e = some outcome) :
    outcome.owner.Sound heap ∧ LeaseMoves o active outcome ∧
      ∀ m ∈ outcome.destroyed, Settled m.heaps.ledger := by
  cases e with
  | acquireContext =>
    obtain ⟨⟨hphase, -⟩, ⟨⟩⟩ := Option.ite_none_right_eq_some.1 hs
    obtain ⟨hsound, hmoves⟩ := h.acquireLease hphase active
    exact ⟨hsound, hmoves, fun _ => (nomatch ·)⟩
  | acquireSession platform =>
    cases hsession : o.session with
    | none =>
      rw [XeniaOwner.step, hsession] at hs
      cases hs
    | some s =>
      rw [XeniaOwner.step, hsession] at hs
      obtain ⟨hphase, ⟨⟩⟩ := Option.ite_none_right_eq_some.1 hs
      obtain ⟨hsound, hmoves⟩ := h.acquireSession hphase platform s active
      exact ⟨hsound, hmoves, fun _ => (nomatch ·)⟩
  | composeContext mapped setUp =>
    obtain ⟨⟨hphase, -⟩, ⟨⟩⟩ := Option.ite_none_right_eq_some.1 hs
    obtain ⟨hsound, hlease⟩ := h.composeContext hphase fresh mapped setUp
    exact ⟨hsound, .inl ⟨congrArg _ hlease, rfl⟩, fun _ => (nomatch ·)⟩
  | composeSession platform =>
    cases hsession : o.session with
    | none =>
      rw [XeniaOwner.step, hsession] at hs
      cases hs
    | some s =>
      rw [XeniaOwner.step, hsession] at hs
      obtain ⟨hphase, ⟨⟩⟩ := Option.ite_none_right_eq_some.1 hs
      obtain ⟨hsound, hlease⟩ := h.composeSession hphase fresh platform s
      exact ⟨hsound, .inl ⟨congrArg _ hlease, rfl⟩, fun _ => (nomatch ·)⟩
  | shared call =>
    cases hmemory : o.memory with
    | none =>
      rw [XeniaOwner.step, hmemory] at hs
      cases hs
    | some m =>
      rw [XeniaOwner.step, hmemory] at hs
      obtain ⟨⟨hphase, -⟩, ⟨⟩⟩ := Option.ite_none_right_eq_some.1 hs
      obtain ⟨hguest, hblocks⟩ :=
        blocksOut_shared laws hmemory h.guestMemory (h.blocksOut m hmemory) hspares
      exact ⟨h.tables hphase hmemory hguest hblocks, .inl ⟨rfl, rfl⟩, fun _ => (nomatch ·)⟩
  | loadModule call =>
    cases hmemory : o.memory with
    | none =>
      rw [XeniaOwner.step, hmemory] at hs
      cases hs
    | some m =>
      rw [XeniaOwner.step, hmemory] at hs
      obtain ⟨⟨hphase, -⟩, hs⟩ := Option.ite_none_right_eq_some.1 hs
      obtain ⟨o', hload, rfl⟩ := Option.map_eq_some_iff.1 hs
      obtain ⟨runtime, m', rfl, hkeeps⟩ := keeps_loadModule laws hmemory hspares hload
      have hblocks := ((h.blocksOut m hmemory).keep hkeeps).perm List.perm_append_comm
      have hsound := h.tables hphase hmemory h.guestMemory hblocks
      exact ⟨{ hsound with }, .inl ⟨rfl, rfl⟩, fun _ => (nomatch ·)⟩
  | launch platform path =>
    cases hsession : o.session with
    | none =>
      rw [XeniaOwner.step, hsession] at hs
      cases hs
    | some s =>
      rw [XeniaOwner.step, hsession] at hs
      obtain ⟨hphase, ⟨⟩⟩ := Option.ite_none_right_eq_some.1 hs
      exact ⟨{ h with }, .inl ⟨rfl, rfl⟩, fun _ => (nomatch ·)⟩
  | tearDown =>
    obtain ⟨-, hs⟩ := Option.ite_none_right_eq_some.1 hs
    cases hstatus : o.session.bind SystemSession.destroy with
    | some status =>
      rw [hstatus] at hs
      cases hs
      exact ⟨h, .inl ⟨rfl, rfl⟩, fun _ => (nomatch ·)⟩
    | none =>
      rw [hstatus] at hs
      cases hs
      obtain ⟨hsound, hlease, hsettled⟩ := h.tearDown laws hspares
      exact ⟨hsound, .inl ⟨congrArg _ hlease, rfl⟩, hsettled⟩
  | leave =>
    obtain ⟨hphase, ⟨⟩⟩ := Option.ite_none_right_eq_some.1 hs
    obtain ⟨hsound, hmoves⟩ := h.leave hphase active
    exact ⟨hsound, hmoves, fun _ => (nomatch ·)⟩

end

end XeniaOwner

/-! ## What every order of steps leaves true -/

namespace XeniaProcess

section

variable {η : Type} {X : Xenia η} {heap : SystemHeap X} {fresh : XeniaMemory η}
  {s s' : XeniaProcess (Recorded η)}

structure ProcessInv (heap : SystemHeap X) (s : XeniaProcess (Recorded η)) : Prop where
  leased : Leased (·.lease.held) s.owners s.instanceActive
  owners : ∀ o ∈ s.owners, o.Sound heap
  destroyed : ∀ m ∈ s.destroyed, Settled m.heaps.ledger

/-- The step of the owner spares the owner's blocks. -/
def SparesBlocks (heap : SystemHeap X) (s : XeniaProcess (Recorded η)) : ProcessEvent → Prop
  | .construct _ => True
  | .owner index ownerStep => ∀ o ∈ s.owners[index]?, o.SparesBlocks heap ownerStep

theorem ProcessInv.step (laws : BlocksKept heap) (h : ProcessInv heap s) {e : ProcessEvent}
    (hspares : s.SparesBlocks heap e)
    (hs : s.step X.recording (fresh.recorded []) e = some s') : ProcessInv heap s' := by
  cases e with
  | construct config =>
    obtain ⟨-, ⟨⟩⟩ := Option.ite_none_right_eq_some.1 hs
    refine ⟨h.leased.concat rfl, fun o ho => ?_, h.destroyed⟩
    rcases List.mem_append.1 ho with ho | ho
    · exact h.owners o ho
    · rw [List.mem_singleton.1 ho]
      exact XeniaOwner.sound_constructed heap _
  | owner index ownerStep =>
    obtain ⟨-, hs⟩ := Option.ite_none_right_eq_some.1 hs
    obtain ⟨o, ho, hs⟩ := Option.bind_eq_some_iff.1 hs
    obtain ⟨outcome, houtcome, rfl⟩ := Option.map_eq_some_iff.1 hs
    have hspares := hspares o ho
    obtain ⟨hi, rfl⟩ := List.getElem?_eq_some_iff.1 ho
    obtain ⟨hsound, hmoves, hsettled⟩ :=
      (h.owners _ (List.getElem_mem hi)).step laws hspares houtcome
    refine ⟨?_, fun o ho => ?_, fun m hm => ?_⟩
    · rcases hmoves with ⟨hheld, hactive⟩ | ⟨hfree, hheld, hactive⟩ | ⟨hholder, hheld, hactive⟩
      · dsimp only
        rw [hactive]
        exact h.leased.keep hi hheld
      · dsimp only
        rw [hactive]
        exact (hfree ▸ h.leased).take hi hheld
      · dsimp only
        rw [hactive]
        exact h.leased.drop hi hholder hheld
    · rcases List.mem_or_eq_of_mem_set ho with ho | rfl
      · exact h.owners o ho
      · exact hsound
    · rcases List.mem_append.1 hm with hm | hm
      · exact hsettled m (Option.mem_toList.1 hm)
      · exact h.destroyed m hm

/-- Whoever has a memory has the lease, which one owner has at most. -/
structure Safe (s : XeniaProcess (Recorded η)) : Prop where
  guarded : ∀ o ∈ s.owners, o.memory.isSome → o.lease.held = true
  exclusive : ∀ i j (hi : i < s.owners.length) (hj : j < s.owners.length),
    s.owners[i].lease.held = true → s.owners[j].lease.held = true → i = j
  /-- An owner that asks for the lease is refused where another one has it. -/
  refused_iff : ∀ o ∈ s.owners, o.phase = .constructed →
    ((o.acquireLease s.instanceActive).1.phase = .refused ↔
      ∃ holder ∈ s.owners, holder.lease.held = true)
  gone : ∀ o ∈ s.owners, o.phase = .gone → o.lease.held = false ∧ o.memory = none
  /-- The blocks that the heap has out are those that the owner knows of. -/
  blocks : ∀ o ∈ s.owners, ∀ m ∈ o.memory, outstanding m.heaps.ledger = some o.blocks.toFinset
  /-- A memory goes with every block taken back. -/
  destroyed : ∀ m ∈ s.destroyed, Settled m.heaps.ledger

theorem ProcessInv.safe (h : ProcessInv heap s) : s.Safe where
  guarded o ho := (h.owners o ho).guarded
  exclusive _ _ hi hj hold hold' := h.leased.unique hi hj hold hold'
  refused_iff o ho hphase := by
    rw [← h.leased.flag_iff]
    have hheld := (h.owners o ho).outside (.inl hphase)
    rcases XeniaOwner.acquireLease_cases hheld s.instanceActive with
      ⟨hactive, heq⟩ | ⟨hactive, failure, heq⟩
    · rw [heq, hactive]
      exact iff_of_false (fun hp => nomatch hp) Bool.false_ne_true
    · rw [heq]
      exact iff_of_true rfl hactive
  gone o ho hphase := ⟨(h.owners o ho).outside (.inr hphase), (h.owners o ho).emptied (.inr hphase)⟩
  blocks o ho m hm := ((h.owners o ho).blocksOut m hm).out
  destroyed := h.destroyed

/-- **One memory.** Over heaps that keep their promise, whatever contexts and sessions a process
creates, uses and destroys, on whatever threads, while no step names a page of a block that is
out: at most one has a memory, under the lease, and each memory goes with all its blocks taken
back. -/
theorem play_safe (laws : BlocksKept heap) (fresh : XeniaMemory η) (events : List ProcessEvent)
    (s : XeniaProcess (Recorded η))
    (hspares : EveryStep (step X.recording (fresh.recorded [])) (SparesBlocks heap) {} events)
    (hs : play (step X.recording (fresh.recorded [])) {} events = some s) : s.Safe := by
  have hinv : ProcessInv heap s := by
    refine play_invariant_where (fun _ _ _ h hspares hs => h.step laws hspares hs)
      ⟨.nil, fun o ho => ?_, fun m hm => ?_⟩ hspares hs
    · cases ho
    · cases hm
  exact hinv.safe

end

/-! ## A run on the paged memory -/

section

open PageTable

/-- The pages lie beside the allocations that start at the blocks. -/
def besideBlocks (m : XeniaMemory (Recorded PageTable)) (blocks : List GuestAddress)
    (r : PageRun) : Bool :=
  blocks.all fun a => r.start + r.size.toNat ≤ a.toNat ∨
    a.toNat + (m.heaps.heaps (page a)).regionPageCount.toNat * 0x1000 ≤ r.start

theorem missesBlocks_of_beside {m : XeniaMemory (Recorded PageTable)} {blocks : List GuestAddress}
    {r : PageRun} (h : besideBlocks m blocks r) : MissesBlocks pagedSystemHeap m blocks r := by
  intro a ha n hlive x hx
  have hbeside := of_decide_eq_true (List.all_eq_true.1 h a ha)
  have hextent : n = (m.heaps.heaps (page a)).regionPageCount.toNat * 0x1000 := hlive.extent
  obtain ⟨-, hbegin, hend⟩ := hx
  omega

/-- A release is a matter of the records. -/
theorem freedBySystemHeap_bytes (m : XeniaMemory (Recorded PageTable)) (bytes : Memory UInt8)
    (address : GuestAddress) :
    freedBySystemHeap paged.recording { m with bytes := bytes } address =
      freedBySystemHeap paged.recording m address := by
  have hanswer : ∀ m m' : XeniaMemory PageTable, m.heaps = m'.heaps →
      (PageTable.release address m).1 = (PageTable.release address m').1 := by
    intro m m' h
    simp only [PageTable.release, h]
    split
    · rfl
    · rfl
  rw [freedBySystemHeap, freedBySystemHeap]
  cases paged.recording.lookupHeap address with
  | none => rfl
  | some heap => exact congrArg (Option.map _) (hanswer _ _ rfl)

/-- The step spares the blocks, by what the paged memory answers. -/
def sparesPaged (o : XeniaOwner (Recorded PageTable)) : OwnerStep → Bool
  | .shared (.ntAllocateVirtualMemory call) => o.memory.all fun m =>
    (mappedByGuest paged.recording m call).all (besideBlocks m o.blocks)
  | .shared (.ntFreeVirtualMemory call) => o.memory.all fun m =>
    (freedByGuest paged.recording m call).all (besideBlocks m o.blocks)
  | .loadModule call => o.memory.all fun m =>
    let image := call.module.descriptor.image
    let mapped := (XeniaOwner.mapImage paged.recording m image).2
    (XeniaOwner.mappedImage paged.recording m image).all (besideBlocks m o.blocks) &&
      (freedBySystemHeap paged.recording mapped image.base).all (besideBlocks mapped o.blocks)
  | .tearDown => o.memory.all fun m =>
    let unthreaded := (o.thread.reset paged.recording m).2
    (freedBySystemHeap paged.recording unthreaded o.runtime.imageAddress).all
      (besideBlocks unthreaded o.guestMemory.blocks)
  | _ => true

theorem misses_of_all {m : XeniaMemory (Recorded PageTable)} {blocks : List GuestAddress}
    {run : Option PageRun} (h : run.all (besideBlocks m blocks)) :
    ∀ r, run = some r → MissesBlocks pagedSystemHeap m blocks r :=
  fun r hr => missesBlocks_of_beside ((Option.all_eq_true _ _).1 h r hr)

theorem sparesBlocks_of_paged {o : XeniaOwner (Recorded PageTable)} {e : OwnerStep}
    (h : sparesPaged o e) : o.SparesBlocks pagedSystemHeap e := by
  cases e with
  | shared call =>
    cases call with
    | ntAllocateVirtualMemory call =>
      intro m hm
      exact misses_of_all ((Option.all_eq_true _ _).1 h m hm)
    | ntFreeVirtualMemory call =>
      intro m hm
      exact misses_of_all ((Option.all_eq_true _ _).1 h m hm)
    | _ => trivial
  | loadModule call =>
    intro m hm
    obtain ⟨hmapped, hreleased⟩ :=
      Bool.and_eq_true_iff.1 ((Option.all_eq_true _ _).1 h m hm)
    refine ⟨misses_of_all hmapped, fun bytes => ?_⟩
    rw [freedBySystemHeap_bytes]
    exact misses_of_all hreleased
  | tearDown =>
    intro m hm _
    exact misses_of_all ((Option.all_eq_true _ _).1 h m hm)
  | _ => trivial

/-- The same of a step of the process. -/
def processSparesPaged (s : XeniaProcess (Recorded PageTable)) : ProcessEvent → Bool
  | .construct _ => true
  | .owner index ownerStep => s.owners[index]?.all (sparesPaged · ownerStep)

theorem processSpares_of_paged (s : XeniaProcess (Recorded PageTable)) (e : ProcessEvent)
    (h : processSparesPaged s e) : s.SparesBlocks pagedSystemHeap e := by
  cases e with
  | construct config => trivial
  | owner index ownerStep =>
    intro o ho
    exact sparesBlocks_of_paged ((Option.all_eq_true _ _).1 h o ho)

/-- A load of 32 bytes at `0x100000`, all of it code, without imports. -/
def lowLoad : LoadCall where
  module :=
    { descriptor := ⟨⟨hashBytes syntheticImage, 0x100000, 32, 0x100000⟩, ⟨0x100000, 32⟩, 0,
        hashImportManifest []⟩
      imageBytes := syntheticImage
      importManifest := [] }
  bindings := []
  symbols := plainXenia

/-- A context loads a module, the guest allocates and frees pages behind the title's page, and a
second context comes too early. -/
def busyContext : List ProcessEvent :=
  [.construct none, .owner 0 .acquireContext, .owner 0 (.composeContext true true),
    .construct none, .owner 1 .acquireContext,
    .owner 0 (.shared (.allocateGuestMemory 0x1000)), .owner 0 (.loadModule lowLoad),
    .owner 0 (.shared (.store 0x21000 (guestWordBytes 0 ++ guestWordBytes 0x1000))),
    .owner 0 (.shared (.ntAllocateVirtualMemory (.make [0x21000, 0x21004, 0x3000, 0x04]))),
    .owner 0 (.shared (.ntFreeVirtualMemory (.make [0x21000, 0x21004, 0x8000]))),
    .owner 1 .tearDown, .owner 1 .leave, .owner 0 .tearDown, .owner 0 .leave]

theorem play_safe_busyContext :
    ∃ s, play (step paged.recording (emptyMemory.recorded [])) {} busyContext = some s ∧
      s.Safe ∧ s.owners.map (fun o => (o.phase, o.runtime.module)) =
        [(.gone, true), (.gone, false)] ∧
      s.destroyed.map (·.heaps.ledger) = [[.handed 0x10000, .handed 0x20000, .handed 0x21000,
        .returned 0x10000, .returned 0x20000, .returned 0x21000]] := by
  have hview : (play (step paged.recording (emptyMemory.recorded [])) {} busyContext).map
      (fun s => (s.owners.map (fun o => (o.phase, o.runtime.module)),
        s.destroyed.map (·.heaps.ledger))) =
      some ([(.gone, true), (.gone, false)], [[.handed 0x10000, .handed 0x20000, .handed 0x21000,
        .returned 0x10000, .returned 0x20000, .returned 0x21000]]) := by decide +kernel
  have hpaged : EveryStep (step paged.recording (emptyMemory.recorded []))
      (fun s e => processSparesPaged s e) {} busyContext := by decide +kernel
  obtain ⟨s, hs, hview⟩ := Option.map_eq_some_iff.1 hview
  obtain ⟨howners, hledgers⟩ := Prod.mk.inj hview
  refine ⟨s, hs, ?_, howners, hledgers⟩
  exact play_safe pagedBlocksKept emptyMemory busyContext s (hpaged.mono processSpares_of_paged) hs

end

end XeniaProcess

end X360Port
