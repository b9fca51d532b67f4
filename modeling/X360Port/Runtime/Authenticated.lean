import X360Port.Runtime.Execution
import X360Port.RuntimeImports.PatchedImports

/-!
# Only the authenticated module runs

Whatever the guest and the title do, at any time every frame of the guest
thread runs something of the one module that a load has registered: a body
inside its code range, an override installed at an address of that range, or a
handler of one of its imports (`play_runsModule`). A module whose watch was
refused keeps its overrides, but no body of it runs: the watch is asked for
again at each entry (`Unwatched`).
-/

namespace X360Port

open Library

namespace Runtime

/-- The watch cannot be enabled. -/
def Unwatched (s : Runtime) : Prop :=
  ∀ watch, s.invalidation = some watch → ∀ enabled, watch.rearm enabled = false

/-- What the calls between two loads leave alone. -/
structure Kept (s s' : Runtime) : Prop where
  loadFailed : s'.loadFailed = s.loadFailed
  module : s'.module = s.module
  codeRange : s'.codeRange = s.codeRange
  imports : s'.imports = s.imports
  watched : s'.invalidation.isSome = s.invalidation.isSome
  unwatched : s'.Unwatched ↔ s.Unwatched

variable {s s' s'' : Runtime}

theorem Kept.refl (s : Runtime) : Kept s s := ⟨rfl, rfl, rfl, rfl, rfl, Iff.rfl⟩

theorem Kept.trans (h : Kept s s') (h' : Kept s' s'') : Kept s s'' where
  loadFailed := h'.loadFailed.trans h.loadFailed
  module := h'.module.trans h.module
  codeRange := h'.codeRange.trans h.codeRange
  imports := h'.imports.trans h.imports
  watched := h'.watched.trans h.watched
  unwatched := h'.unwatched.trans h.unwatched

/-- Another pending word. -/
theorem kept_pending {watch : ExecutableInvalidation} (h : s.invalidation = some watch)
    (packed : UInt64) :
    Kept s { s with invalidation := some { watch with pendingWrite := packed } } where
  loadFailed := rfl
  module := rfl
  codeRange := rfl
  imports := rfl
  watched := by rw [h]; rfl
  unwatched := by
    constructor
    · intro hu watch' hwatch' enabled
      rw [h] at hwatch'
      cases hwatch'
      exact hu _ rfl enabled
    · intro hu watch' hwatch' enabled
      cases hwatch'
      exact hu watch h enabled

theorem kept_observeWrite {virtualAddress length : UInt32}
    (h : s.observeWrite virtualAddress length = some s') :
    Kept s s' ∧ s'.overrides = s.overrides := by
  unfold observeWrite at h
  obtain ⟨watch, hwatch, h⟩ := Option.bind_eq_some_iff.1 h
  split at h
  · cases h
  · obtain ⟨⟨first, last⟩, -, rfl⟩ := Option.map_eq_some_iff.1 h
    exact ⟨kept_pending hwatch _, rfl⟩

theorem kept_passPending {watch : ExecutableInvalidation} (h : s.invalidation = some watch) :
    Kept s (s.passPending watch).1 ∧ (s.passPending watch).1.overrides = s.overrides := by
  have hpending := kept_pending h kNoPendingWrite
  unfold passPending
  dsimp only
  split
  · exact ⟨hpending, rfl⟩
  · exact ⟨hpending.trans ⟨rfl, rfl, rfl, rfl, rfl, Iff.rfl⟩, rfl⟩

theorem kept_notifyExecutableWrite (s : Runtime) (address : GuestAddress) (size : UInt32) :
    Kept s (s.notifyExecutableWrite address size).1 ∧
      (s.notifyExecutableWrite address size).1.overrides = s.overrides := by
  unfold notifyExecutableWrite
  split
  · exact ⟨.refl s, rfl⟩
  · exact ⟨⟨rfl, rfl, rfl, rfl, rfl, Iff.rfl⟩, rfl⟩

/-- A drain keeps the module, and lets nothing through where the watch cannot be enabled. -/
theorem drainObservedWrites_spec (s : Runtime) (enabled : Bool) :
    Kept s (s.drainObservedWrites enabled).1 ∧
      (s.drainObservedWrites enabled).1.overrides = s.overrides ∧
      ((s.drainObservedWrites enabled).2.Ok → s.Unwatched → s.invalidation = none) := by
  unfold drainObservedWrites
  cases hwatch : s.invalidation with
  | none => exact ⟨.refl s, rfl, fun _ _ => rfl⟩
  | some watch =>
    obtain ⟨hkept, hoverrides⟩ := kept_passPending hwatch
    dsimp only
    split
    · next hfailed => exact ⟨hkept, hoverrides, fun hok => absurd hok hfailed⟩
    · split
      · exact ⟨hkept, hoverrides, fun hok => absurd hok RuntimeError.noConfusion⟩
      · next hrearm =>
        refine ⟨hkept, hoverrides, fun _ hu => absurd ?_ hrearm⟩
        rw [hu watch hwatch enabled]
        exact Bool.false_ne_true

/-- A watch that was not armed cannot be enabled. -/
theorem rearm_arm_refused {code : CodeRange} {registered enabled : Bool}
    (h : ¬ (({} : ExecutableInvalidation).arm code registered enabled).2.Ok) (enabled' : Bool) :
    (({} : ExecutableInvalidation).arm code registered enabled).1.rearm enabled' = false := by
  unfold ExecutableInvalidation.arm at h ⊢
  split
  · rfl
  · next hrange =>
    rw [if_neg hrange] at h
    dsimp only at h ⊢
    split
    · rfl
    · next hregistered =>
      rw [if_neg hregistered] at h
      split
      · rfl
      · next hrearm =>
        rw [if_neg hrearm] at h
        exact absurd RuntimeFailure.ok_empty h

/-- An entry is answered by a context that keeps its module. -/
theorem entryAnswers_spec (s : Runtime) (address : GuestAddress) (answer : EntryAnswer) :
    Kept s (s.entryAnswers address answer).1 ∧
      (s.entryAnswers address answer).1.overrides = s.overrides ∧
      (s.entryAnswers address answer).2.translation = answer.translation ∧
      ((s.entryAnswers address answer).2.drained.Ok → s.Unwatched → s.invalidation = none) ∧
      ((s.entryAnswers address answer).2.insideCode = true → s.module = true ∧
        s.codeRange.Contains address.toNat) := by
  obtain ⟨hkept, hoverrides, hdrained⟩ := s.drainObservedWrites_spec answer.enabled
  refine ⟨hkept, hoverrides, rfl, hdrained, fun hinside => ?_⟩
  have hin : ((s.drainObservedWrites answer.enabled).1.isInCodeRange address) = true := hinside
  rw [isInCodeRange, Bool.and_eq_true, hkept.module, hkept.codeRange] at hin
  exact ⟨hin.1, (isInside_iff _ _).1 hin.2⟩

theorem thunkExport_mem {imports : RuntimeImports} (h : s.imports = some imports)
    {address : GuestAddress} {owned : OwnedExport} (hthunk : s.thunkExport address = some owned) :
    owned ∈ imports.tables.flatMap (·.ownedExports) := by
  rw [thunkExport, h, Option.bind_some] at hthunk
  obtain ⟨function, -, hthunk⟩ := Option.bind_eq_some_iff.1 hthunk
  obtain ⟨ref, -, hthunk⟩ := Option.bind_eq_some_iff.1 hthunk
  obtain ⟨table, htable, howned⟩ := Option.bind_eq_some_iff.1 hthunk
  exact List.mem_flatMap.2 ⟨table, List.mem_of_getElem? htable, List.mem_of_getElem? howned⟩

end Runtime

/-! ## The invariant -/

/-- The module of the context comes from this load. -/
structure Registered (s : Runtime) (loads : List (LoadCall × CallOutcome)) (load : LoadCall)
    (outcome : CallOutcome) : Prop where
  loaded : (load, outcome) ∈ loads
  module : (validateModule load.module).Ok
  bindings : (validateImports load.module load.bindings).Ok
  codeRange : s.codeRange = load.module.descriptor.code
  imports : s.imports = some ⟨tablesOf load.module.importManifest load.bindings⟩
  invalidation : s.invalidation.isSome = true
  watch : ¬ outcome.Succeeded → s.Unwatched

/-- What the load lets run. -/
def Running.Allowed (installed : List (GuestAddress × NativeOverrideHandler × Pointer))
    (load : LoadCall) (outcome : CallOutcome) : Running → Prop
  | .body address => load.module.descriptor.code.Contains address.toNat ∧ outcome.Succeeded
  | .interpreter address => load.module.descriptor.code.Contains address.toNat ∧ outcome.Succeeded
  | .hostOverride call => load.module.descriptor.code.Contains call.address.toNat ∧
      (call.address, call.handler, call.context) ∈ installed
  | .guestOverride call => load.module.descriptor.code.Contains call.address.toNat ∧
      (call.address, call.handler, call.context) ∈ installed
  | .hostImport owned => ∃ imp ∈ load.module.importManifest,
      owned.library = imp.library ∧ owned.ordinal = imp.ordinal.toUInt16

/-- The entries of the override table were installed, inside the code. -/
def Installed (overrides : OverrideDispatch)
    (installed : List (GuestAddress × NativeOverrideHandler × Pointer)) (load : LoadCall) : Prop :=
  ∀ e ∈ overrides.entries, load.module.descriptor.code.Contains e.address.toNat ∧
    (e.address, e.handler, e.context) ∈ installed

structure RunInv (s : RunningContext) : Prop where
  frames : s.running.map Running.kind = kinds s.thread.frames
  linked : s.runtime.overrides.Linked
  idle : s.runtime.module = false →
    s.runtime.invalidation = none ∧ s.runtime.overrides.entries = [] ∧ s.running = []
  registered : s.runtime.module = true → ∃ load outcome,
    Registered s.runtime s.loads load outcome ∧
      Installed s.runtime.overrides s.installed load ∧
      ∀ r ∈ s.running, r.Allowed s.installed load outcome

theorem runInv_start (memory : Memory UInt8) : RunInv (.start memory) where
  frames := rfl
  linked := OverrideDispatch.linked_fresh true
  idle _ := ⟨rfl, rfl, rfl⟩
  registered h := nomatch h

theorem Registered.kept {s s' : Runtime} {loads : List (LoadCall × CallOutcome)}
    {load : LoadCall} {outcome : CallOutcome} (h : Registered s loads load outcome)
    (hkept : s.Kept s') : Registered s' loads load outcome where
  loaded := h.loaded
  module := h.module
  bindings := h.bindings
  codeRange := hkept.codeRange.trans h.codeRange
  imports := hkept.imports.trans h.imports
  invalidation := hkept.watched.trans h.invalidation
  watch hno := hkept.unwatched.2 (h.watch hno)

theorem Running.Allowed.mono {installed installed' : List (GuestAddress × NativeOverrideHandler ×
    Pointer)} (hsub : installed ⊆ installed') {load : LoadCall} {outcome : CallOutcome}
    {r : Running} (h : r.Allowed installed load outcome) : r.Allowed installed' load outcome := by
  cases r with
  | hostOverride call => exact ⟨h.1, hsub h.2⟩
  | guestOverride call => exact ⟨h.1, hsub h.2⟩
  | _ => exact h

section

variable {s : RunningContext}

/-- A context that keeps its module and its overrides keeps the invariant. -/
theorem RunInv.kept (h : RunInv s) {runtime : Runtime} (hkept : s.runtime.Kept runtime)
    (hoverrides : runtime.overrides = s.runtime.overrides) : RunInv { s with runtime } where
  frames := h.frames
  linked := hoverrides.symm ▸ h.linked
  idle hm := by
    obtain ⟨hinvalidation, hentries, hrunning⟩ := h.idle (hkept.module.symm.trans hm)
    refine ⟨?_, hoverrides.symm ▸ hentries, hrunning⟩
    have hnone := hkept.watched
    rwa [hinvalidation, Option.isSome_none, Option.isSome_eq_false_iff,
      Option.isNone_iff_eq_none] at hnone
  registered hm := by
    obtain ⟨load, outcome, hr, hinstalled, hallowed⟩ :=
      h.registered (hkept.module.symm.trans hm)
    exact ⟨load, outcome, hr.kept hkept, hoverrides.symm ▸ hinstalled, hallowed⟩

/-- What a step of the thread enters belongs to the module. -/
def Justified (s : RunningContext) (r : Running) : Prop :=
  s.runtime.module = true ∧ ∀ load outcome, Registered s.runtime s.loads load outcome →
    Installed s.runtime.overrides s.installed load → r.Allowed s.installed load outcome

/-- A step of the thread: nothing is entered, a frame is left, or one is entered. -/
theorem RunInv.follow (h : RunInv s) {entered : Option Running} {thread : GuestThread}
    (hthread : kinds thread.frames = kinds s.thread.frames ∨
      kinds thread.frames = (kinds s.thread.frames).tail ∨
      ∃ r, entered = some r ∧ kinds thread.frames = r.kind :: kinds s.thread.frames ∧
        Justified s r) : RunInv (s.follow entered thread) := by
  have hframes := h.frames
  have hlength (frames : List Frame) : (kinds frames).length = frames.length := List.length_map _
  -- what is left of `running`, or what comes on top of it
  have hrunning : (s.follow entered thread).running.map Running.kind = kinds thread.frames ∧
      ((s.follow entered thread).running ⊆ s.running ∨ ∃ r, Justified s r ∧
        (s.follow entered thread).running = r :: s.running) := by
    unfold RunningContext.follow
    dsimp only
    rcases hthread with hsame | hleft | ⟨r, rfl, hentered, hr⟩
    · have hlen := congrArg List.length hsame
      rw [hlength, hlength] at hlen
      rw [if_neg (by omega), hlen, Nat.sub_self, List.drop_zero, hsame]
      exact ⟨hframes, .inl (List.Subset.refl _)⟩
    · have hlen := congrArg List.length hleft
      rw [hlength, List.length_tail, hlength] at hlen
      rw [if_neg (by omega), hlen, hleft, ← hframes, List.map_drop]
      refine ⟨?_, .inl (List.drop_subset _ _)⟩
      cases hs : s.thread.frames with
      | nil =>
        rw [hs] at hframes
        rw [hframes]
        rfl
      | cons frame rest =>
        rw [List.length_cons, show rest.length + 1 - (rest.length + 1 - 1) = 1 by omega,
          List.drop_one]
    · have hlen := congrArg List.length hentered
      rw [hlength, List.length_cons, hlength] at hlen
      rw [if_pos (by omega), hentered, ← hframes]
      exact ⟨rfl, .inr ⟨r, hr, rfl⟩⟩
  obtain ⟨hkinds, hmem⟩ := hrunning
  refine ⟨hkinds, h.linked, fun hm => ?_, fun hm => ?_⟩
  · obtain ⟨hinvalidation, hentries, hnone⟩ := h.idle hm
    refine ⟨hinvalidation, hentries, ?_⟩
    rcases hmem with hsub | ⟨r, hr, -⟩
    · rw [hnone] at hsub
      exact List.subset_nil.1 hsub
    · exact absurd (hr.1.symm.trans hm) Bool.noConfusion
  · obtain ⟨load, outcome, hreg, hinstalled, hallowed⟩ := h.registered hm
    refine ⟨load, outcome, hreg, hinstalled, fun r hr => ?_⟩
    rcases hmem with hsub | ⟨top, htop, hrunning⟩
    · exact hallowed r (hsub hr)
    · rw [hrunning] at hr
      rcases List.mem_cons.1 hr with rfl | hr
      · exact htop.2 load outcome hreg hinstalled
      · exact hallowed r hr

theorem native_eq_some {s' s'' : RunningContext} (h : s.native s' = some s'') : s'' = s' := by
  unfold RunningContext.native at h
  obtain ⟨-, h⟩ := Option.ite_none_right_eq_some.1 h
  exact (Option.some.inj h).symm

/-- A registered module has nothing running and no override yet. -/
theorem RunInv.registers (h : RunInv s) (hidle : s.runtime.Idle) {call : LoadCall}
    {outcome : CallOutcome} {runtime : Runtime} (hmodule : runtime.module = true)
    (hoverrides : runtime.overrides = s.runtime.overrides)
    (hreg : Registered runtime ((call, outcome) :: s.loads) call outcome) :
    RunInv { s with runtime, loads := (call, outcome) :: s.loads } where
  frames := h.frames
  linked := hoverrides.symm ▸ h.linked
  idle hm := absurd (hmodule.symm.trans hm) Bool.noConfusion
  registered _ := by
    obtain ⟨-, hentries, hrunning⟩ := h.idle hidle.2
    refine ⟨call, outcome, hreg, fun e he => ?_, fun r hr => ?_⟩
    · have he' : e ∈ runtime.overrides.entries := he
      rw [hoverrides, hentries] at he'
      cases he'
    · have hr' : r ∈ s.running := hr
      rw [hrunning] at hr'
      cases hr'

theorem registered_of_reachesArming {lookupHeap : GuestAddress → Bool} {s : Runtime}
    {call : LoadCall} {imports : RuntimeImports} {guest : Attachment}
    (hr : s.ReachesArming lookupHeap call imports guest) {runtime : Runtime}
    (hcode : runtime.codeRange = call.module.descriptor.code)
    (himports : runtime.imports = some imports)
    (hwatch : runtime.invalidation = some (({} : ExecutableInvalidation).arm
      call.module.descriptor.code call.registered call.enabled).1) {outcome : CallOutcome}
    (harmed : ¬ outcome.Succeeded → ¬ call.Armed)
    {loads : List (LoadCall × CallOutcome)} :
    Registered runtime ((call, outcome) :: loads) call outcome where
  loaded := List.mem_cons_self
  module := hr.module
  bindings := hr.bindings
  codeRange := hcode
  imports := by
    rw [himports, imports_of_create ((validateImports_ok_iff _ _).1 hr.bindings) hr.created]
  invalidation := by rw [hwatch]; rfl
  watch hno watch hwatch' enabled := by
    rw [hwatch] at hwatch'
    cases hwatch'
    exact Runtime.rearm_arm_refused (harmed hno) enabled

theorem RunInv.loadModule (h : RunInv s) {lookupHeap : GuestAddress → Bool} {call : LoadCall}
    {runtime : Runtime} {outcome : CallOutcome}
    (hl : s.runtime.loadModule lookupHeap call = .ok (runtime, outcome)) :
    RunInv { s with runtime, loads := (call, outcome) :: s.loads } := by
  obtain ⟨runtime', outcome', hl', hloading⟩ :=
    Runtime.loadModule_loading lookupHeap s.runtime call
  rw [hl] at hl'
  cases hl'
  cases hloading with
  | refused failure hf hn =>
    refine ⟨h.frames, h.linked, h.idle, fun hm => ?_⟩
    obtain ⟨load, outcome, hreg, hrest⟩ := h.registered hm
    exact ⟨load, outcome, { hreg with loaded := List.mem_cons_of_mem _ hreg.loaded }, hrest⟩
  | stopped imports guest outcome hi hf hn =>
    have hm : s.runtime.module = false := hi.2
    exact ⟨h.frames, h.linked, fun _ => h.idle hm, fun hm' => absurd (hm.symm.trans hm')
      Bool.noConfusion⟩
  | unwatched imports guest failure hr ha hf =>
    exact h.registers hr.idle rfl rfl (registered_of_reachesArming hr rfl rfl rfl fun _ => ha)
  | loaded imports guest hr ha =>
    exact h.registers hr.idle rfl rfl
      (registered_of_reachesArming hr rfl rfl rfl fun hno =>
        absurd (show CallOutcome.Succeeded (.returned {}) from RuntimeFailure.ok_empty) hno)

/-- An installation adds nothing, or the handler that it was given, inside the code. -/
theorem OverrideDispatch.install_entries (s : OverrideDispatch) (address : GuestAddress)
    (handler : Option NativeOverrideHandler) (context : Pointer) (code : CodeRange)
    (accepted : Bool) :
    (s.install address handler context code accepted).1.entries = s.entries ∨
      ∃ target, handler = some target ∧ code.Contains address.toNat ∧
        (s.install address handler context code accepted).2.Ok ∧
        (s.install address handler context code accepted).1.entries =
          ⟨s.nextNode, address, target, context⟩ :: s.entries := by
  unfold install
  split
  · exact .inl rfl
  · cases handler with
    | none => exact .inl rfl
    | some target =>
      dsimp only
      split
      · exact .inl rfl
      · next hinside =>
        split
        · exact .inl rfl
        · split
          · exact .inl rfl
          · exact .inr ⟨target, rfl, (isInside_iff _ _).1 (Decidable.not_not.1 hinside),
              RuntimeFailure.ok_empty, rfl⟩

theorem RunInv.installOverride (h : RunInv s) (address : GuestAddress)
    (handler : Option NativeOverrideHandler) (context : Pointer) (accepted : Bool) :
    let installation := s.runtime.installOverride address handler context accepted
    RunInv { s with
      runtime := installation.1
      installed := s.noteInstalled address handler context installation.2 } := by
  intro installation
  have hnoted : s.installed ⊆ s.noteInstalled address handler context installation.2 := by
    unfold RunningContext.noteInstalled
    split
    · split
      · exact List.subset_cons_self _ _
      · exact List.Subset.refl _
    · exact List.Subset.refl _
  cases hm : s.runtime.module with
  | false =>
    have hrefused : installation.1 = s.runtime := by
      show (s.runtime.installOverride address handler context accepted).1 = _
      rw [Runtime.installOverride, if_pos (by rw [hm]; exact Bool.false_ne_true)]
    rw [hrefused]
    exact ⟨h.frames, h.linked, h.idle, fun hm' => absurd (hm.symm.trans hm') Bool.noConfusion⟩
  | true =>
    obtain ⟨load, outcome, hreg, hinstalled, hallowed⟩ := h.registered hm
    have hinstall : installation = ({ s.runtime with overrides := (s.runtime.overrides.install
        address handler context s.runtime.codeRange accepted).1 }, (s.runtime.overrides.install
        address handler context s.runtime.codeRange accepted).2) := by
      show s.runtime.installOverride address handler context accepted = _
      rw [Runtime.installOverride, if_neg (not_not_intro hm)]
    rw [hinstall] at hnoted ⊢
    refine ⟨h.frames, h.linked.install address handler context _ accepted,
      fun hno => absurd (hm.symm.trans hno) Bool.noConfusion, fun _ => ⟨load, outcome,
        ⟨hreg.1, hreg.2, hreg.3, hreg.4, hreg.5, hreg.6, hreg.7⟩, fun e he => ?_,
        fun r hr => (hallowed r hr).mono hnoted⟩⟩
    rcases s.runtime.overrides.install_entries address handler context s.runtime.codeRange
      accepted with hsame | ⟨target, rfl, hinside, hok, hadded⟩
    · have hold := hinstalled e (hsame ▸ he)
      exact ⟨hold.1, hnoted hold.2⟩
    · rcases List.mem_cons.1 (hadded ▸ he) with rfl | he
      · refine ⟨hreg.codeRange ▸ hinside, ?_⟩
        show _ ∈ RunningContext.noteInstalled s address (some target) context _
        rw [RunningContext.noteInstalled, if_pos hok]
        exact List.mem_cons_self
      · have hold := hinstalled e he
        exact ⟨hold.1, hnoted hold.2⟩

theorem RunInv.removeOverride (h : RunInv s) (address : GuestAddress) (accepted : Bool) :
    RunInv { s with runtime := (s.runtime.removeOverride address accepted).1 } where
  frames := h.frames
  linked := h.linked.remove address accepted
  idle hm := by
    obtain ⟨hinvalidation, hentries, hrunning⟩ := h.idle hm
    refine ⟨hinvalidation, ?_, hrunning⟩
    show (s.runtime.overrides.remove address accepted).1.entries = []
    rcases s.runtime.overrides.remove_cases address accepted with ⟨-, hsame⟩ | hdropped
    · rw [hsame, hentries]
    · rw [hdropped, hentries]
      rfl
  registered hm := by
    obtain ⟨load, outcome, hreg, hinstalled, hallowed⟩ := h.registered hm
    refine ⟨load, outcome, ⟨hreg.1, hreg.2, hreg.3, hreg.4, hreg.5, hreg.6, hreg.7⟩, ?_, hallowed⟩
    intro e he
    have he' : e ∈ (s.runtime.overrides.remove address accepted).1.entries := he
    rcases s.runtime.overrides.remove_cases address accepted with ⟨-, hsame⟩ | hdropped
    · rw [hsame] at he'
      exact hinstalled e he'
    · rw [hdropped] at he'
      exact hinstalled e (List.mem_filter.1 he').1

/-! ## Entries -/

/-- An original body. -/
theorem RunInv.original (h : RunInv s) (address : GuestAddress) (answer : EntryAnswer)
    {runtime : Runtime} {answers : EntryAnswers}
    (hanswers : s.runtime.entryAnswers address answer = (runtime, answers)) {thread : GuestThread}
    (hthread : kinds thread.frames = kinds s.thread.frames ∨
      answers.drained.Ok ∧ answers.insideCode = true ∧ kinds thread.frames =
        (if answers.translation.isNone then .interpreter else .scope) :: kinds s.thread.frames) :
    RunInv ({ s with runtime }.follow (some (RunningContext.original address answer)) thread) := by
  obtain ⟨hkept, hoverrides, htranslation, hdrained, hinside⟩ :=
    s.runtime.entryAnswers_spec address answer
  rw [hanswers] at hkept hoverrides htranslation hdrained hinside
  refine (h.kept hkept hoverrides).follow (hthread.imp_right fun ⟨hok, hin, hkinds⟩ => .inr ?_)
  obtain ⟨hmodule, hcontains⟩ := hinside hin
  refine ⟨_, rfl, ?_, hkept.module.trans hmodule, fun load outcome hreg _ => ?_⟩
  · rw [hkinds, htranslation, RunningContext.original]
    split <;> rfl
  · have hcode : load.module.descriptor.code.Contains address.toNat := by
      have hrange : runtime.codeRange = load.module.descriptor.code := hreg.codeRange
      rw [← hrange, hkept.codeRange]
      exact hcontains
    have hsucceeded : outcome.Succeeded := by
      by_contra hno
      have hnone := hdrained hok (hkept.unwatched.1 (hreg.watch hno))
      have hsome := hkept.watched.symm.trans hreg.invalidation
      rw [hnone] at hsome
      cases hsome
    rw [RunningContext.original]
    split
    · exact ⟨hcode, hsucceeded⟩
    · exact ⟨hcode, hsucceeded⟩

theorem Installed.find {overrides : OverrideDispatch}
    {installed : List (GuestAddress × NativeOverrideHandler × Pointer)} {load : LoadCall}
    (h : Installed overrides installed load) {address : GuestAddress} {arguments : List UInt64}
    {call : HandlerCall} (hcall : overrides.dispatchHost address arguments = some call) :
    load.module.descriptor.code.Contains call.address.toNat ∧
      (call.address, call.handler, call.context) ∈ installed := by
  obtain ⟨e, he, rfl⟩ := Option.map_eq_some_iff.1 hcall
  have haddress : e.address = address := by simpa using List.find?_some he
  rw [← haddress]
  exact h e (List.mem_of_find?_eq_some he)

/-- An override answers only in a context with a module. -/
theorem RunInv.overridden (h : RunInv s) {address : GuestAddress} {arguments : List UInt64}
    {call : HandlerCall} (hcall : s.runtime.overrides.dispatchHost address arguments = some call) :
    s.runtime.module = true := by
  cases hm : s.runtime.module with
  | false =>
    have hentries := (h.idle hm).2.1
    unfold OverrideDispatch.dispatchHost OverrideDispatch.find at hcall
    rw [hentries] at hcall
    cases hcall
  | true => rfl

/-- Guest code runs only in a context with a module. -/
theorem RunInv.module_of_bodyRuns (h : RunInv s) (hb : bodyRuns s.thread.frames = true) :
    s.runtime.module = true := by
  cases hm : s.runtime.module with
  | false =>
    have hframes := h.frames
    rw [(h.idle hm).2.2] at hframes
    have hnil : s.thread.frames = [] := List.map_eq_nil_iff.1 hframes.symm
    rw [hnil] at hb
    cases hb
  | true => rfl

/-- A thunk of a registered module belongs to one of its imports. -/
theorem Registered.import_of_thunk {runtime : Runtime} {loads : List (LoadCall × CallOutcome)}
    {load : LoadCall} {outcome : CallOutcome} (h : Registered runtime loads load outcome)
    {address : GuestAddress} {owned : OwnedExport}
    (howned : runtime.thunkExport address = some owned) :
    ∃ imp ∈ load.module.importManifest,
      owned.library = imp.library ∧ owned.ordinal = imp.ordinal.toUInt16 := by
  have hmem := Runtime.thunkExport_mem h.imports howned
  have hw := wellFormed_of_ok h.module
  have hs := (validateImports_ok_iff _ _).1 h.bindings
  rw [(tablesMatch_tablesOf hw.imports hw.ordered hs).exports] at hmem
  obtain ⟨x, hx, rfl⟩ := List.mem_map.1 hmem
  exact ⟨x.1, (List.of_mem_zip hx).1, rfl, rfl⟩

/-- **One step.** -/
theorem RunInv.step (h : RunInv s) {lookupHeap : GuestAddress → Bool} {event : ContextEvent}
    {s' : RunningContext} (hstep : s.step lookupHeap event = some s') : RunInv s' := by
  cases event with
  | loadModule call =>
    rw [RunningContext.step] at hstep
    split at hstep
    · next hl =>
      rw [native_eq_some hstep]
      exact h.loadModule hl
    · cases hstep
  | installOverride address handler context accepted =>
    have hnative : s.native _ = some s' := hstep
    rw [native_eq_some hnative]
    exact h.installOverride address handler context accepted
  | removeOverride address accepted =>
    rw [native_eq_some hstep]
    exact h.removeOverride address accepted
  | notifyExecutableWrite address size =>
    rw [native_eq_some hstep]
    obtain ⟨hkept, hoverrides⟩ := s.runtime.kept_notifyExecutableWrite address size
    exact h.kept hkept hoverrides
  | execute address arguments limits answer =>
    rw [RunningContext.step] at hstep
    split at hstep
    · next call hcall =>
      obtain ⟨thread, hthread, rfl⟩ := Option.map_eq_some_iff.1 hstep
      cases GuestThread.step_cases hthread with
      | hostOverride hn =>
        exact h.follow (.inr (.inr ⟨_, rfl, rfl, h.overridden hcall,
          fun load outcome _ hinstalled => hinstalled.find hcall⟩))
    · obtain ⟨thread, hthread, rfl⟩ := Option.map_eq_some_iff.1 hstep
      cases GuestThread.step_cases hthread with
      | execute hn =>
        exact h.original address answer rfl (GuestThread.kinds_executeOriginal _ _ _ _)
  | callOriginal address arguments limits answer =>
    obtain ⟨thread, hthread, rfl⟩ := Option.map_eq_some_iff.1 hstep
    cases GuestThread.step_cases hthread with
    | callOriginal hn =>
      exact h.original address answer rfl (GuestThread.kinds_executeOriginal _ _ _ _)
  | callOriginalBody address arguments answer =>
    obtain ⟨thread, hthread, rfl⟩ := Option.map_eq_some_iff.1 hstep
    cases GuestThread.step_cases hthread with
    | callOriginalBody hn =>
      exact h.original address answer rfl (GuestThread.kinds_executeOriginal _ _ _ _)
  | callOverride address =>
    obtain ⟨call, hcall, hstep⟩ := Option.bind_eq_some_iff.1 hstep
    obtain ⟨thread, hthread, rfl⟩ := Option.map_eq_some_iff.1 hstep
    rw [RunningContext.redirected, h.linked.dispatchGuest_eq] at hcall
    cases GuestThread.step_cases hthread with
    | callOverride hb =>
      exact h.follow (.inr (.inr ⟨_, rfl, rfl, h.overridden hcall,
        fun load outcome _ hinstalled => hinstalled.find hcall⟩))
  | callImport address =>
    obtain ⟨owned, howned, hstep⟩ := Option.bind_eq_some_iff.1 hstep
    obtain ⟨thread, hthread, rfl⟩ := Option.map_eq_some_iff.1 hstep
    cases GuestThread.step_cases hthread with
    | callImport hb =>
      exact h.follow (.inr (.inr ⟨_, rfl, rfl, h.module_of_bodyRuns hb,
        fun load outcome hreg _ => hreg.import_of_thunk howned⟩))
  | observedWrite virtualAddress length own =>
    rw [RunningContext.step] at hstep
    split at hstep
    · cases hstep
      exact h
    · next runtime hobserved =>
      obtain ⟨hkept, hoverrides⟩ := Runtime.kept_observeWrite hobserved
      have hruntime := h.kept hkept hoverrides
      split at hstep
      · obtain ⟨thread, hthread, rfl⟩ := Option.map_eq_some_iff.1 hstep
        cases GuestThread.step_cases hthread with
        | writeExecutable => exact hruntime.follow (.inl (GuestThread.kinds_writeExecutable _))
      · cases hstep
        exact ⟨hruntime.frames, hruntime.linked, hruntime.idle, hruntime.registered⟩
  | guest event =>
    obtain ⟨hcalls, hstep⟩ := Option.ite_none_left_eq_some.1 hstep
    obtain ⟨thread, hthread, rfl⟩ := Option.map_eq_some_iff.1 hstep
    exact h.follow ((GuestThread.kinds_step (Bool.eq_false_iff.2 hcalls) hthread).imp_right .inl)

end

/-- **Only the authenticated module runs.** In every run of a context, whatever is loaded,
installed, removed, written and called in whatever order, and whatever Xenia answers: each frame
of the guest thread runs a body or the interpreter inside the code range of one validated module,
and then its load has succeeded, an override that was installed at an address of that range, or
the handler of an import of its manifest. -/
theorem play_runsModule {lookupHeap : GuestAddress → Bool} {memory : Memory UInt8}
    {events : List ContextEvent} {s : RunningContext}
    (h : play (RunningContext.step lookupHeap) (.start memory) events = some s) :
    s.running.map Running.kind = kinds s.thread.frames ∧
      (s.running = [] ∨ ∃ load outcome, (load, outcome) ∈ s.loads ∧
        (validateModule load.module).Ok ∧ (validateImports load.module load.bindings).Ok ∧
        ∀ r ∈ s.running, r.Allowed s.installed load outcome) := by
  have hinv : RunInv s := play_invariant (fun _ _ _ h hstep => h.step hstep)
    (runInv_start memory) h
  refine ⟨hinv.frames, ?_⟩
  cases hm : s.runtime.module with
  | false => exact .inl (hinv.idle hm).2.2
  | true =>
    obtain ⟨load, outcome, hreg, -, hallowed⟩ := hinv.registered hm
    exact .inr ⟨load, outcome, hreg.loaded, hreg.module, hreg.bindings, hallowed⟩

/-! ## A host entry -/

/-- The synthetic load succeeds, on every memory. -/
theorem syntheticLoad_loaded (memory : Memory UInt8) : ∃ s,
    (Runtime.fresh memory).loadModule (fun _ => true) (syntheticLoad true) =
        .ok (s, .returned {}) ∧
      s.module = true ∧ s.codeRange = syntheticCode ∧
      s.overrides = OverrideDispatch.bind {} ∧
      s.invalidation = some ⟨true, true, syntheticCode, kNoPendingWrite⟩ := by
  obtain ⟨guest, hreach⟩ := syntheticLoad_reachesArming memory true
  obtain ⟨s, outcome, hl, hloading⟩ :=
    Runtime.loadModule_loading (fun _ => true) (.fresh memory) (syntheticLoad true)
  refine ⟨s, ?_⟩
  cases hloading with
  | refused failure hf hn => exact absurd hreach (hn _ _)
  | stopped imports guest outcome hi hf hn => exact absurd hreach (hn _ _)
  | unwatched imports guest failure hr ha => exact absurd (by decide) ha
  | loaded imports guest hr ha =>
    exact ⟨hl, rfl, rfl, rfl, congrArg some (ExecutableInvalidation.arm_of_ok ha)⟩

def syntheticEntry : List ContextEvent :=
  [.loadModule (syntheticLoad true), .execute 0x82000000 [] {} {}]

theorem play_runsModule_entry : ∃ s,
    play (RunningContext.step fun _ => true) (.start fun _ => 0) syntheticEntry = some s ∧
      s.running = [.body 0x82000000] ∧
      ∃ load outcome, (load, outcome) ∈ s.loads ∧ (validateModule load.module).Ok ∧
        ∀ r ∈ s.running, r.Allowed s.installed load outcome := by
  obtain ⟨runtime, hl, hm, hc, ho, hi⟩ := syntheticLoad_loaded fun _ => 0
  have hload : RunningContext.step (fun _ => true) (.start fun _ => 0)
      (.loadModule (syntheticLoad true)) =
        some { runtime, loads := [(syntheticLoad true, .returned {})] } := by
    rw [RunningContext.step]
    split
    · next hl' =>
      rw [RunningContext.start] at hl'
      rw [hl] at hl'
      cases hl'
      rfl
    · next hl' =>
      rw [RunningContext.start] at hl'
      rw [hl] at hl'
      cases hl'
  have hentry : ∃ s, RunningContext.step (fun _ => true)
      { runtime, loads := [(syntheticLoad true, .returned {})] }
      (.execute 0x82000000 [] {} {}) = some s ∧ s.running = [.body 0x82000000] := by
    obtain ⟨loadFailed, guest, imports, module, codeRange, imageAddress, invalidation, overrides,
      statistics, cachedFunctions, heapCalls⟩ := runtime
    cases hm
    cases hc
    cases ho
    cases hi
    exact ⟨_, rfl, rfl⟩
  obtain ⟨s, hs, hrunning⟩ := hentry
  have hplay : play (RunningContext.step fun _ => true) (.start fun _ => 0) syntheticEntry =
      some s := by
    rw [syntheticEntry, play, hload, Option.bind_some, play, hs]
    rfl
  refine ⟨s, hplay, hrunning, ?_⟩
  rcases (play_runsModule hplay).2 with hnone | ⟨load, outcome, hmem, hmodule, -, hallowed⟩
  · rw [hrunning] at hnone
    cases hnone
  · exact ⟨load, outcome, hmem, hmodule, hallowed⟩

end X360Port
