import X360Port.GuestExecution.Scopes

/-!
# What a step can do

`ThreadInv` is the invariant of a guest thread: its pointers name the innermost
scope, each scope saves the pointers of the next one, and every scope, live or
ended, is as its own exit events say. Under it a step is one of the moves of
`Move` (`GuestThread.step_move`), each of which says which exit event it is, and
every move keeps it (`Move.inv`).
-/

namespace X360Port

open Library

/-- Live scopes from the innermost: fresh ids, saved pointers, and nothing reported but
their own events. -/
def ScopesOk (next : Nat) : List Scope → Prop
  | [] => True
  | scope :: outer => scope.id < next ∧ scope.Saves (outer.head?.map (·.id)) ∧ scope.Reported ∧
      ScopesOk scope.id outer

theorem ScopesOk.lt {next : Nat} {scopes : List Scope} (h : ScopesOk next scopes) :
    ∀ scope ∈ scopes, scope.id < next := by
  induction scopes generalizing next with
  | nil => intro scope hm; cases hm
  | cons sc outer ih =>
    intro scope hm
    rcases List.mem_cons.1 hm with rfl | hm
    · exact h.1
    · exact Nat.lt_trans (ih h.2.2.2 scope hm) h.1

theorem ScopesOk.outer_ne {next : Nat} {scope : Scope} {outer : List Scope}
    (h : ScopesOk next (scope :: outer)) : ∀ sc ∈ outer, sc.id ≠ scope.id :=
  fun sc hm => Nat.ne_of_lt (h.2.2.2.lt sc hm)

theorem ScopesOk.reported {next : Nat} {scopes : List Scope} (h : ScopesOk next scopes) :
    ∀ scope ∈ scopes, scope.Reported := by
  induction scopes generalizing next with
  | nil => intro scope hm; cases hm
  | cons sc outer ih =>
    intro scope hm
    rcases List.mem_cons.1 hm with rfl | hm
    · exact h.2.2.1
    · exact ih h.2.2.2 scope hm

theorem ScopesOk.modifyHead {next : Nat} {scopes : List Scope} (h : ScopesOk next scopes)
    {f : Scope → Scope} (hid : ∀ scope, (f scope).id = scope.id)
    (hsaves : ∀ scope outer, scope.Saves outer → (f scope).Saves outer)
    (hreported : ∀ scope, scope.Reported → (f scope).Reported) :
    ScopesOk next (scopes.modifyHead f) := by
  cases scopes with
  | nil => trivial
  | cons scope outer =>
    obtain ⟨h1, h2, h3, h4⟩ := h
    refine ⟨by rw [hid]; exact h1, hsaves _ _ h2, hreported _ h3, ?_⟩
    rw [hid]
    exact h4

/-- The innermost scope's id. -/
def innermostId (frames : List Frame) : Option Nat := (scopesOf frames).head?.map (·.id)

theorem innermostId_modifyInnermost {f : Scope → Scope} (hid : ∀ scope, (f scope).id = scope.id)
    (frames : List Frame) : innermostId (modifyInnermost f frames) = innermostId frames := by
  rw [innermostId, innermostId, scopesOf_modifyInnermost]
  cases scopesOf frames with
  | nil => rfl
  | cons scope outer => exact congrArg some (hid scope)

/-- The marks of the innermost scope. -/
def innermostMarks (frames : List Frame) : List ExitEvent :=
  ((scopesOf frames).head?.map (·.marks)).getD []

theorem innermostMarks_of_scopes {frames : List Frame} {scope : Scope} {outer : List Scope}
    (hs : scopesOf frames = scope :: outer) : innermostMarks frames = scope.marks := by
  rw [innermostMarks, hs]
  rfl

namespace GuestThread

/-- The exit event that comes next, where the marks tell what was before. -/
def nextExit (s : GuestThread) (event : GuestEvent) : Option ExitEvent :=
  exitEvent s.frames (innermostMarks s.frames) event

/-- The thread's pointers. -/
def PointsTo (s : GuestThread) (scope : Option Nat) : Prop :=
  s.executionBudget = scope ∧ s.activeGuestExecutionBudget = scope ∧
    s.activeGuestImportRefusal = scope ∧ s.activeGuestOverrideFailure = scope

def markInnermost (s : GuestThread) (event : ExitEvent) : GuestThread :=
  { s with frames := modifyInnermost (Scope.mark event) s.frames }

/-- Registers and counters. -/
def aside (s : GuestThread) (registers : GuestRegisters) (statistics : JitStatistics) :
    GuestThread :=
  { s with registers := registers, statistics := statistics }

/-- A new scope on top of native code. -/
def pushScope (s : GuestThread) (limit : UInt64) (stackPointer linkRegister : UInt64) :
    GuestThread :=
  { s with
    executionBudget := some s.nextScope
    activeGuestExecutionBudget := some s.nextScope
    activeGuestImportRefusal := some s.nextScope
    activeGuestOverrideFailure := some s.nextScope
    frames := .scope
      { id := s.nextScope
        budget := { remainingBlocks := limit }
        previous := s.executionBudget
        previousActive := s.activeGuestExecutionBudget
        previousRefusal := s.activeGuestImportRefusal
        previousOverrideFailure := s.activeGuestOverrideFailure
        previousStackPointer := stackPointer
        previousLinkRegister := linkRegister } :: s.frames
    nextScope := s.nextScope + 1 }

/-- The scope on top of the stack ends. -/
def popScope (s : GuestThread) (scope : Scope) (rest : List Frame) (executed : Bool) :
    GuestThread :=
  { s with
    executionBudget := scope.previous
    activeGuestExecutionBudget := scope.previousActive
    activeGuestImportRefusal := scope.previousRefusal
    activeGuestOverrideFailure := scope.previousOverrideFailure
    frames := rest
    ended := ⟨scope.id, scope.marks, executed, s.registers.result,
      guestResult scope executed s.registers.result⟩ :: s.ended }

end GuestThread

/-- Native code answers the body that entered it with a value. -/
def GuestEvent.ReturnsValue : GuestEvent → Prop
  | .handlerReturn result => result.Ok
  | .importReturn context => context.refusal = none
  | _ => False

/-- The block limit that a call asks for. -/
def GuestEvent.blockLimit : GuestEvent → UInt64
  | .execute _ limits _ _ => limits.maxGuestBlocks
  | .callOriginal _ limits _ => limits.maxGuestBlocks
  | .callOriginalBody _ _ => ({} : ExecutionLimits).maxGuestBlocks
  | _ => 0

/-- What a step can do, registers and counters aside. -/
inductive Move (s : GuestThread) : GuestEvent → GuestThread → Prop
  | still (event : GuestEvent) (hx : s.nextExit event = none) : Move s event s
  | aside {event : GuestEvent} {s' : GuestThread} (registers : GuestRegisters)
      (statistics : JitStatistics) (h : Move s event s') :
      Move s event (s'.aside registers statistics)
  | answered (event : GuestEvent) (result : ExecutionResult) (h : nativeRuns s.frames = true)
      (hx : s.nextExit event = none) :
      Move s event (s.deliver result)
  | entered (event : GuestEvent) (stackPointer linkRegister : UInt64)
      (h : nativeRuns s.frames = true) (hx : s.nextExit event = none) :
      Move s event (s.pushScope event.blockLimit stackPointer linkRegister)
  | pushed (event : GuestEvent) (frame : Frame) (hf : frame.scope? = none)
      (hr : ∀ entry received, frame = .native entry received → received = [])
      (h : frame.Above s.frames) (hx : s.nextExit event = none) :
      Move s event { s with frames := frame :: s.frames }
  | marked (event : GuestEvent) (exit : ExitEvent) (he : ¬ exit.failure.Ok)
      (hx : s.nextExit event = some exit) :
      Move s event (s.markInnermost exit)
  | counted (scope : Scope) (rest : List Frame) (hf : s.frames = .scope scope :: rest)
      (h : scope.budget.remainingBlocks ≠ 0) :
      Move s .enterBlock
        { s with frames := .scope scope.countBlock :: rest, blockEntries := s.blockEntries + 1 }
  | left (scope : Scope) (rest : List Frame) (executed : Bool)
      (hf : s.frames = .scope scope :: rest) :
      Move s (.functionReturn executed)
        ((s.popScope scope rest executed).deliver (guestResult scope executed s.registers.result))
  | interpreted (event : GuestEvent) (rest : List Frame) (result : ExecutionResult)
      (hf : s.frames = .interpreter :: rest) (hx : s.nextExit event = none) :
      Move s event ({ s with frames := rest }.deliver result)
  | handled (result : ExecutionResult) (received : List ExecutionResult) (rest : List Frame)
      (hf : s.frames = .native .hostOverride received :: rest) :
      Move s (.handlerReturn result) ({ s with frames := rest }.deliver result)
  | resumed (event : GuestEvent) (entry : NativeEntry) (received : List ExecutionResult)
      (rest : List Frame) (hf : s.frames = .native entry received :: rest)
      (he : event.ReturnsValue) (hb : bodyRuns rest = true) :
      Move s event { s with frames := rest }
  | failed (event : GuestEvent) (entry : NativeEntry) (received : List ExecutionResult)
      (rest : List Frame) (exit : ExitEvent) (hf : s.frames = .native entry received :: rest)
      (he : ¬ exit.failure.Ok) (hb : bodyRuns rest = true) (hx : s.nextExit event = some exit) :
      Move s event ({ s with frames := rest }.markInnermost exit)

/-- The invariant of a guest thread. -/
structure ThreadInv (s : GuestThread) : Prop where
  running : s.terminated = false
  pointers : s.PointsTo (innermostId s.frames)
  stack : StackOk s.frames
  scopes : ScopesOk s.nextScope (scopesOf s.frames)
  fresh : ∀ e ∈ s.ended, e.id < s.nextScope ∧ ∀ scope ∈ scopesOf s.frames, e.id ≠ scope.id
  ended : ∀ e ∈ s.ended, e.result = report e.marks e.executed e.r3 ∧
    ∀ event ∈ e.marks, ¬ event.failure.Ok

theorem threadInv_idle : ThreadInv .idle where
  running := rfl
  pointers := ⟨rfl, rfl, rfl, rfl⟩
  stack := trivial
  scopes := trivial
  fresh := nofun
  ended := nofun

namespace ThreadInv

variable {s : GuestThread}

theorem aside (h : ThreadInv s) (registers : GuestRegisters) (statistics : JitStatistics) :
    ThreadInv (s.aside registers statistics) :=
  ⟨h.running, h.pointers, h.stack, h.scopes, h.fresh, h.ended⟩

theorem deliver (h : ThreadInv s) (result : ExecutionResult) : ThreadInv (s.deliver result) where
  running := h.running
  pointers := by
    show GuestThread.PointsTo _ (innermostId (receive result s.frames))
    rw [innermostId, scopesOf_receive]
    exact h.pointers
  stack := h.stack.receive result
  scopes := by
    show ScopesOk _ (scopesOf (receive result s.frames))
    rw [scopesOf_receive]
    exact h.scopes
  fresh := by
    show ∀ e ∈ s.ended, _ ∧ ∀ scope ∈ scopesOf (receive result s.frames), _
    rw [scopesOf_receive]
    exact h.fresh
  ended := h.ended

/-- Changing the innermost scope without renaming it. -/
theorem modifyInnermost (h : ThreadInv s) {f : Scope → Scope}
    (hid : ∀ scope, (f scope).id = scope.id)
    (hsaves : ∀ scope outer, scope.Saves outer → (f scope).Saves outer)
    (hreported : ∀ scope, scope.Reported → (f scope).Reported) :
    ThreadInv { s with frames := modifyInnermost f s.frames } where
  running := h.running
  pointers := by
    show GuestThread.PointsTo _ (innermostId (X360Port.modifyInnermost f s.frames))
    rw [innermostId_modifyInnermost hid]
    exact h.pointers
  stack := h.stack.modifyInnermost f
  scopes := by
    show ScopesOk _ (scopesOf (X360Port.modifyInnermost f s.frames))
    rw [scopesOf_modifyInnermost]
    exact h.scopes.modifyHead hid hsaves hreported
  fresh e he := by
    obtain ⟨hlt, hne⟩ := h.fresh e he
    refine ⟨hlt, fun scope hm => ?_⟩
    rw [scopesOf_modifyInnermost] at hm
    cases hs : scopesOf s.frames with
    | nil =>
      rw [hs] at hm
      cases hm
    | cons sc outer =>
      rw [hs] at hm hne
      rcases List.mem_cons.1 hm with rfl | hm
      · rw [hid]
        exact hne sc List.mem_cons_self
      · exact hne scope (List.mem_cons_of_mem _ hm)
  ended := h.ended

theorem markInnermost (h : ThreadInv s) {exit : ExitEvent} (he : ¬ exit.failure.Ok) :
    ThreadInv (s.markInnermost exit) :=
  h.modifyInnermost (Scope.mark_id exit) (fun _ _ hs => hs.mark exit) fun _ hr => hr.mark he

/-- Dropping or pushing a frame that is no scope. -/
theorem setFrames (h : ThreadInv s) {frames : List Frame}
    (hs : scopesOf frames = scopesOf s.frames) (hstack : StackOk frames) :
    ThreadInv { s with frames := frames } where
  running := h.running
  pointers := by
    show GuestThread.PointsTo _ (innermostId frames)
    rw [innermostId, hs]
    exact h.pointers
  stack := hstack
  scopes := by
    show ScopesOk _ (scopesOf frames)
    rw [hs]
    exact h.scopes
  fresh := by
    show ∀ e ∈ s.ended, _ ∧ ∀ scope ∈ scopesOf frames, _
    rw [hs]
    exact h.fresh
  ended := h.ended

theorem pushScope (h : ThreadInv s) (limit stackPointer linkRegister : UInt64)
    (hn : nativeRuns s.frames = true) :
    ThreadInv (s.pushScope limit stackPointer linkRegister) where
  running := h.running
  pointers := ⟨rfl, rfl, rfl, rfl⟩
  stack := ⟨hn, h.stack⟩
  scopes := by
    refine ⟨Nat.lt_succ_self _, h.pointers, ⟨fun _ => rfl, fun _ => rfl, nofun, nofun⟩, h.scopes⟩
  fresh e he := by
    obtain ⟨hlt, hne⟩ := h.fresh e he
    refine ⟨Nat.lt_succ_of_lt hlt, fun scope hm => ?_⟩
    rcases List.mem_cons.1 hm with rfl | hm
    · exact Nat.ne_of_lt hlt
    · exact hne scope hm
  ended := h.ended

theorem popScope (h : ThreadInv s) {scope : Scope} {rest : List Frame} (executed : Bool)
    (hf : s.frames = .scope scope :: rest) : ThreadInv (s.popScope scope rest executed) := by
  have hscopes := h.scopes
  rw [hf, scopesOf_scope] at hscopes
  obtain ⟨hlt, hsaves, hreported, houter⟩ := hscopes
  have hstack := h.stack
  rw [hf] at hstack
  refine ⟨h.running, hsaves, hstack.2, ?_, fun e he => ?_, fun e he => ?_⟩
  · show ScopesOk s.nextScope (scopesOf rest)
    cases hs : scopesOf rest with
    | nil => trivial
    | cons sc outer =>
      rw [hs] at houter
      exact ⟨Nat.lt_trans houter.1 hlt, houter.2⟩
  · rcases List.mem_cons.1 he with rfl | he
    · exact ⟨hlt, fun sc hm => Nat.ne_of_gt (houter.lt sc hm)⟩
    · obtain ⟨h1, h2⟩ := h.fresh e he
      rw [hf, scopesOf_scope] at h2
      exact ⟨h1, fun sc hm => h2 sc (List.mem_cons_of_mem _ hm)⟩
  · rcases List.mem_cons.1 he with rfl | he
    · exact ⟨Scope.guestResult_eq_report hreported executed _, hreported.failing⟩
    · exact h.ended e he

end ThreadInv

/-- **Every move keeps the invariant.** -/
theorem Move.inv {s s' : GuestThread} {event : GuestEvent} (h : ThreadInv s)
    (hm : Move s event s') : ThreadInv s' := by
  induction hm with
  | still => exact h
  | aside registers statistics _ ih => exact ih.aside registers statistics
  | answered event result => exact h.deliver result
  | entered event sp lr hn => exact h.pushScope event.blockLimit sp lr hn
  | pushed event frame hf hr ha =>
    refine h.setFrames ?_ ⟨ha, h.stack⟩
    rw [scopesOf, List.filterMap_cons_none hf]
    rfl
  | marked event exit he => exact h.markInnermost he
  | counted scope rest hf hne =>
    have hcount := h.modifyInnermost (f := Scope.countBlock) (fun _ => rfl) (fun _ _ hs => hs)
      fun _ hr => hr.countBlock
    rw [hf] at hcount
    exact ⟨hcount.running, hcount.pointers, hcount.stack, hcount.scopes, hcount.fresh,
      hcount.ended⟩
  | left scope rest executed hf => exact (h.popScope executed hf).deliver _
  | interpreted event rest result hf =>
    have hstack := h.stack
    rw [hf] at hstack
    exact (h.setFrames (by rw [hf]; rfl) hstack.2).deliver result
  | handled result received rest hf =>
    have hstack := h.stack
    rw [hf] at hstack
    exact (h.setFrames (by rw [hf]; rfl) hstack.2).deliver result
  | resumed event entry received rest hf =>
    have hstack := h.stack
    rw [hf] at hstack
    exact h.setFrames (by rw [hf]; rfl) hstack.2
  | failed event entry received rest exit hf he =>
    have hstack := h.stack
    rw [hf] at hstack
    exact (h.setFrames (by rw [hf]; rfl) hstack.2).markInnermost he

/-! ## Following the pointers -/

namespace GuestThread

section

variable {s : GuestThread} {scope : Scope} {outer : List Scope}

theorem exitReasonAt_addMark (hs : scopesOf s.frames = scope :: outer) (event : ExitEvent) :
    (s.addMark event).exitReasonAt scope.id = some scope.budget.exitReason := by
  have hs' : scopesOf (s.addMark event).frames =
      { scope with marks := scope.marks ++ [event] } :: outer := by
    show scopesOf (modifyInnermost _ s.frames) = _
    rw [scopesOf_modifyInnermost, hs]
    rfl
  have hid : scope.id = Scope.id { scope with marks := scope.marks ++ [event] } := rfl
  rw [exitReasonAt, hid, findScope_innermost hs']
  rfl

theorem addMark_of_marked (hs : scopesOf s.frames = scope :: outer) (event : ExitEvent)
    (h : scope.budget.exitReason ≠ .none) : s.addMark event = s.markInnermost event := by
  rw [addMark, markInnermost]
  rw [modifyInnermost_congr hs (Scope.mark_of_marked event h).symm]

/-- The reason of an unmarked innermost scope is set. -/
theorem setExitReason_addMark (hs : scopesOf s.frames = scope :: outer)
    (hne : ∀ sc ∈ outer, sc.id ≠ scope.id) {event : ExitEvent}
    (hm : scope.mark event = { scope with
      marks := scope.marks ++ [event]
      budget := { scope.budget with exitReason := event.reason } }) :
    (s.addMark event).setExitReason scope.id event.reason = s.markInnermost event := by
  have hframes := (modifyScope_modifyInnermost
      (fun sc => { sc with budget := { sc.budget with exitReason := event.reason } })
      (fun sc => { sc with marks := sc.marks ++ [event] }) hs hne rfl).trans
    (modifyInnermost_congr hs hm.symm)
  exact congrArg (fun frames => { s with frames := frames }) hframes

/-- The same where the scope takes a note of the failure first. -/
theorem setExitReason_noted (hs : scopesOf s.frames = scope :: outer)
    (hne : ∀ sc ∈ outer, sc.id ≠ scope.id) {event : ExitEvent} {note : Scope → Scope}
    (hid : (note { scope with marks := scope.marks ++ [event] }).id = scope.id)
    (hm : scope.mark event = { note { scope with marks := scope.marks ++ [event] } with
      budget := { (note { scope with marks := scope.marks ++ [event] }).budget with
        exitReason := event.reason } }) :
    setExitReason { s.addMark event with
      frames := modifyScope scope.id note (s.addMark event).frames } scope.id event.reason =
      s.markInnermost event := by
  simp only [setExitReason, addMark, markInnermost]
  rw [modifyScope_modifyInnermost _ _ hs hne rfl, modifyScope_modifyInnermost _ _ hs hne hid]
  rw [modifyInnermost_congr hs hm.symm]

theorem markGuestOverrideFailed_eq (hp : s.PointsTo (some scope.id))
    (hs : scopesOf s.frames = scope :: outer) (hne : ∀ sc ∈ outer, sc.id ≠ scope.id)
    (failure : RuntimeFailure) :
    s.markGuestOverrideFailed failure = s.markInnermost (.overrideFailed failure) := by
  simp only [markGuestOverrideFailed, hp.2.1, hp.2.2.2, exitReasonAt_addMark hs, Option.some.injEq]
  split
  · next hr =>
    refine setExitReason_noted hs hne rfl ?_
    simp only [Scope.mark, hr, ne_eq, not_true_eq_false, if_false, ExitEvent.reason]
  · next hr => exact addMark_of_marked hs _ hr

theorem markGuestImportRefused_eq (hp : s.PointsTo (some scope.id))
    (hs : scopesOf s.frames = scope :: outer) (hne : ∀ sc ∈ outer, sc.id ≠ scope.id)
    (refusal : GuestImportRefusal) :
    s.markGuestImportRefused refusal = s.markInnermost (.importRefused refusal) := by
  simp only [markGuestImportRefused, hp.2.1, hp.2.2.1, exitReasonAt_addMark hs, Option.some.injEq]
  split
  · next hr =>
    refine setExitReason_noted hs hne rfl ?_
    simp only [Scope.mark, hr, ne_eq, not_true_eq_false, if_false, ExitEvent.reason]
  · next hr => exact addMark_of_marked hs _ hr

end

theorem markGuestExecutableWriteObserved_eq {s : GuestThread} (h : ThreadInv s) :
    s.markGuestExecutableWriteObserved = s.markInnermost .executableWrite := by
  have hp := h.pointers
  rw [innermostId] at hp
  cases hs : scopesOf s.frames with
  | nil =>
    rw [hs] at hp
    simp only [markGuestExecutableWriteObserved, hp.2.1, List.head?_nil, Option.map_none]
    rw [addMark, markInnermost, modifyInnermost_of_nil _ hs, modifyInnermost_of_nil _ hs]
  | cons scope outer =>
    rw [hs] at hp
    have hne := (hs ▸ h.scopes).outer_ne
    simp only [markGuestExecutableWriteObserved, hp.2.1, List.head?_cons, Option.map_some,
      exitReasonAt_addMark hs, Option.some.injEq]
    split
    · next hr =>
      refine setExitReason_addMark hs hne ?_
      simp only [Scope.mark, hr, ne_eq, not_true_eq_false, if_false]
    · next hr => exact addMark_of_marked hs _ hr

/-- A body that runs has its own scope at every pointer. -/
theorem pointsTo_scope {s : GuestThread} (h : ThreadInv s) {scope : Scope} {rest : List Frame}
    (hf : s.frames = .scope scope :: rest) :
    s.PointsTo (some scope.id) ∧ scopesOf s.frames = scope :: scopesOf rest ∧
      ∀ sc ∈ scopesOf rest, sc.id ≠ scope.id := by
  have hp := h.pointers
  have hscopes := h.scopes
  rw [hf, scopesOf_scope] at hscopes
  rw [innermostId, hf, scopesOf_scope] at hp
  exact ⟨hp, by rw [hf, scopesOf_scope], hscopes.outer_ne⟩

theorem exhaustBudget_move {s : GuestThread} (h : ThreadInv s) {scope : Scope} {rest : List Frame}
    (hf : s.frames = .scope scope :: rest) : Move s .exhaustBudget s.exhaustBudget := by
  obtain ⟨hp, hs, hne⟩ := pointsTo_scope h hf
  have hreported := h.scopes.reported scope (by rw [hs]; exact List.mem_cons_self)
  have hx : s.nextExit .exhaustBudget =
      if scope.budget.exitReason = .none then some .budgetExhausted else none := by
    rw [nextExit, innermostMarks_of_scopes hs, exitEvent]
    exact if_congr hreported.exitReason_iff.symm rfl rfl
  simp only [exhaustBudget, hp.1]
  have hreason : s.exitReasonAt scope.id = some scope.budget.exitReason := by
    rw [exitReasonAt, findScope_innermost hs]
    rfl
  simp only [hreason, Option.some.injEq]
  split
  · next hr =>
    have hmark : (s.addMark .budgetExhausted).setExitReason scope.id .blockBudgetExceeded =
        s.markInnermost .budgetExhausted := by
      refine setExitReason_addMark hs hne ?_
      simp only [Scope.mark, hr, ne_eq, not_true_eq_false, if_false]
    rw [hmark]
    exact .marked _ .budgetExhausted RuntimeError.noConfusion (by rw [hx, if_pos hr])
  · next hr => exact .still _ (by rw [hx, if_neg hr])

/-- A claimed fault marks the innermost scope with everything about it. -/
theorem claimFault_scope {s : GuestThread} {scope : Scope} {outer : List Scope}
    (hs : scopesOf s.frames = scope :: outer) (hne : ∀ sc ∈ outer, sc.id ≠ scope.id)
    (hr : scope.budget.exitReason = .none) {address : UInt32} {wasWrite : Bool}
    {budget : GuestExecutionBudget} (hb : budget = { scope.budget with
      exitReason := .guestAccessViolation
      faultGuestAddress := address
      faultWasWrite := wasWrite }) :
    { s.addMark (.accessViolation budget.faultGuestAddress budget.faultWasWrite) with
      frames := modifyScope scope.id (fun sc => { sc with budget := budget })
        (s.addMark (.accessViolation budget.faultGuestAddress budget.faultWasWrite)).frames } =
      s.markInnermost (.accessViolation address wasWrite) := by
  subst hb
  have hmark : scope.mark (.accessViolation address wasWrite) =
      { scope with
        marks := scope.marks ++ [.accessViolation address wasWrite]
        budget := { scope.budget with
          exitReason := .guestAccessViolation
          faultGuestAddress := address
          faultWasWrite := wasWrite } } := by
    simp only [Scope.mark, hr, ne_eq, not_true_eq_false, if_false, ExitEvent.reason]
  have hframes := (modifyScope_modifyInnermost
      (fun sc => { sc with budget := { scope.budget with
        exitReason := .guestAccessViolation
        faultGuestAddress := address
        faultWasWrite := wasWrite } })
      (fun sc => { sc with marks := sc.marks ++ [.accessViolation address wasWrite] })
      hs hne rfl).trans (modifyInnermost_congr hs hmark.symm)
  exact congrArg (fun frames => { s with frames := frames }) hframes

theorem nextExit_fault {s : GuestThread} (guard : GuestFaultGuard) (exception : GuestException) :
    s.nextExit (.fault guard exception) =
      if innermostMarks s.frames = [] ∧ guard.unwinds exception then
        some (.accessViolation (guard.violationAddress exception) exception.isWrite)
      else none := rfl

theorem claimFault_move {s : GuestThread} (h : ThreadInv s) (guard : GuestFaultGuard)
    (exception : GuestException) :
    Move s (.fault guard exception) (s.claimFault guard exception) := by
  have hp := h.pointers
  rw [innermostId] at hp
  cases hs : scopesOf s.frames with
  | nil =>
    rw [hs] at hp
    simp only [claimFault, hp.2.1, List.head?_nil, Option.map_none]
    by_cases hu : innermostMarks s.frames = [] ∧ guard.unwinds exception
    · -- outside a guest execution the fault belongs to the host
      have hmove := Move.marked (.fault guard exception)
        (.accessViolation (guard.violationAddress exception) exception.isWrite)
        RuntimeError.noConfusion ((nextExit_fault guard exception).trans (if_pos hu))
      rwa [GuestThread.markInnermost, modifyInnermost_of_nil _ hs] at hmove
    · exact .still _ ((nextExit_fault guard exception).trans (if_neg hu))
  | cons scope outer =>
    rw [hs] at hp
    have hne := (hs ▸ h.scopes).outer_ne
    have hreported := h.scopes.reported scope (by rw [hs]; exact List.mem_cons_self)
    have hx := nextExit_fault (s := s) guard exception
    rw [innermostMarks_of_scopes hs] at hx
    simp only [claimFault, hp.2.1, List.head?_cons, Option.map_some, findScope_innermost hs]
    by_cases hr : scope.budget.exitReason = .none
    · have hm := hreported.exitReason_iff.1 hr
      have hclaim := guard.claim_of_unmarked exception hr (hreported.clear hm)
      split
      · next hnone =>
        rw [hnone] at hclaim
        refine .still _ (hx.trans (if_neg fun hu => ?_))
        rw [if_pos hu.2] at hclaim
        cases hclaim
      · next budget pc hsome =>
        rw [hsome, Option.map_some] at hclaim
        obtain ⟨hu, hb⟩ := Option.ite_none_right_eq_some.1 hclaim.symm
        have hmove := Move.marked (.fault guard exception)
          (.accessViolation (guard.violationAddress exception) exception.isWrite)
          RuntimeError.noConfusion (hx.trans (if_pos ⟨hm, hu⟩))
        rwa [← claimFault_scope hs hne hr (Option.some.inj hb).symm] at hmove
    · rw [GuestFaultGuard.claim_of_marked hr]
      refine .still _ (hx.trans (if_neg fun hu => ?_))
      exact hr (hreported.exitReason_iff.2 hu.1)

theorem enterBlock_move {s s' : GuestThread} (h : ThreadInv s) {scope : Scope} {rest : List Frame}
    (hf : s.frames = .scope scope :: rest) (he : s.enterBlock = some s') :
    Move s .enterBlock s' := by
  obtain ⟨hp, hs, hne⟩ := pointsTo_scope h hf
  unfold enterBlock at he
  split at he
  · next hnone =>
    rw [hp.1] at hnone
    cases hnone
  · next pointer hpointer =>
    obtain rfl : scope.id = pointer := Option.some.inj (hp.1.symm.trans hpointer)
    rw [findScope_innermost hs] at he
    simp only at he
    split at he
    · cases he
    · next hr =>
      cases he
      have hcount := modifyScope_innermost Scope.countBlock hs hne
      rw [hcount, hf]
      exact .counted scope rest hf hr

/-! ## Calls -/

section

variable {s : GuestThread} {event : GuestEvent}

theorem finishOriginal_eq (s : GuestThread) (result : ExecutionResult) :
    ∃ statistics, s.finishOriginal result = (s.deliver result).aside s.registers statistics :=
  ⟨_, rfl⟩

theorem deliver_aside (s : GuestThread) (registers : GuestRegisters) (statistics : JitStatistics)
    (result : ExecutionResult) :
    (s.aside registers statistics).deliver result =
      (s.deliver result).aside registers statistics := rfl

theorem aside_aside (s : GuestThread) (r r' : GuestRegisters) (n n' : JitStatistics) :
    (s.aside r n).aside r' n' = s.aside r' n' := rfl

/-- A call that is answered at once. -/
theorem finishOriginal_move (h : nativeRuns s.frames = true) (hx : s.nextExit event = none)
    (registers : GuestRegisters) (statistics : JitStatistics) (result : ExecutionResult) :
    Move s event ((s.aside registers statistics).finishOriginal result) := by
  obtain ⟨n, hn⟩ := finishOriginal_eq (s.aside registers statistics) result
  rw [hn, deliver_aside, aside_aside]
  exact .aside _ _ (.answered event result h hx)

theorem enterGuestFunction_move (h : nativeRuns s.frames = true) (hx : s.nextExit event = none)
    (statistics : JitStatistics) (arguments : List UInt64) {limits : ExecutionLimits}
    (hl : event.blockLimit = limits.maxGuestBlocks) :
    Move s event ((s.aside s.registers statistics).enterGuestFunction arguments limits) := by
  unfold enterGuestFunction
  split
  · exact finishOriginal_move h hx _ _ _
  · next registers _ =>
    split
    · exact finishOriginal_move h hx registers statistics ⟨invalidBudget, 0⟩
    · have hmove := Move.entered event registers.stackPointer registers.lr h hx
      rw [hl] at hmove
      exact .aside registers.enterFrame statistics hmove

theorem enterInterpreter_move (h : nativeRuns s.frames = true) (hx : s.nextExit event = none)
    (statistics : JitStatistics) (arguments : List UInt64) (known : Bool) :
    Move s event ((s.aside s.registers statistics).enterInterpreter arguments known) := by
  unfold enterInterpreter
  split
  · rw [deliver_aside]
    exact .aside _ _ (.answered event _ h hx)
  · next registers _ =>
    split
    · exact .aside registers statistics (.answered event _ h hx)
    · exact .aside registers _ (.pushed event .interpreter rfl nofun h hx)

theorem executeOriginal_move (h : nativeRuns s.frames = true) (hx : s.nextExit event = none)
    (statistics : JitStatistics) (arguments : List UInt64) {limits : ExecutionLimits}
    (hl : event.blockLimit = limits.maxGuestBlocks) (answers : EntryAnswers) :
    Move s event ((s.aside s.registers statistics).executeOriginal arguments limits answers) := by
  unfold executeOriginal
  split
  · rw [deliver_aside]
    exact .aside _ _ (.answered event _ h hx)
  · split
    · rw [deliver_aside]
      exact .aside _ _ (.answered event _ h hx)
    · simp only
      split
      · exact enterInterpreter_move h hx _ _ _
      · exact enterGuestFunction_move h hx _ _ hl
      · exact enterGuestFunction_move h hx _ _ hl

theorem enterNative_move (entry : NativeEntry) (h : (Frame.native entry []).Above s.frames)
    (hx : s.nextExit event = none) : Move s event (s.enterNative entry) :=
  .aside s.registers _ (.pushed event (.native entry []) rfl (fun _ _ he => by cases he; rfl) h hx)

/-- A handler that guest code entered goes back to it. -/
theorem leaveGuestOverride_move (h : ThreadInv s) {received : List ExecutionResult}
    {rest : List Frame} (hf : s.frames = .native .guestOverride received :: rest)
    (result : ExecutionResult) :
    Move s (.handlerReturn result) ({ s with frames := rest }.leaveGuestOverride result) := by
  have hstack := h.stack
  rw [hf] at hstack
  have hpopped : ThreadInv { s with frames := rest } := h.setFrames (by rw [hf]; rfl) hstack.2
  obtain ⟨scope, rest', hr⟩ := exists_scope_of_bodyRuns hstack.1
  obtain ⟨hp, hs, hne⟩ := pointsTo_scope hpopped hr
  unfold leaveGuestOverride
  split
  · next hok => exact .aside _ s.statistics (.resumed _ _ _ rest hf hok hstack.1)
  · next hok =>
    rw [markGuestOverrideFailed_eq hp hs hne]
    refine .failed _ _ _ rest _ hf hok hstack.1 ?_
    rw [nextExit, hf, exitEvent, if_neg hok]

theorem leaveHostImport_move (h : ThreadInv s) {library : StringView} {ordinal : UInt16}
    {received : List ExecutionResult} {rest : List Frame}
    (hf : s.frames = .native (.hostImport library ordinal) received :: rest)
    (context : GuestImportContext) :
    Move s (.importReturn context)
      ({ s with frames := rest }.leaveHostImport library ordinal context) := by
  have hstack := h.stack
  rw [hf] at hstack
  have hpopped : ThreadInv { s with frames := rest } := h.setFrames (by rw [hf]; rfl) hstack.2
  obtain ⟨scope, rest', hr⟩ := exists_scope_of_bodyRuns hstack.1
  obtain ⟨hp, hs, hne⟩ := pointsTo_scope hpopped hr
  unfold leaveHostImport
  split
  · next reason hreason =>
    rw [markGuestImportRefused_eq hp hs hne]
    refine .failed _ _ _ rest (.importRefused _) hf RuntimeError.noConfusion hstack.1 ?_
    rw [nextExit, hf, exitEvent, hreason, Option.map_some]
  · next hnone => exact .aside _ s.statistics (.resumed _ _ _ rest hf hnone hstack.1)

end

/-- **Every step is a move.** -/
theorem step_move {s s' : GuestThread} {event : GuestEvent} (h : ThreadInv s)
    (hs : s.step event = some s') : Move s event s' := by
  cases step_cases hs with
  | hostOverride hn => exact enterNative_move .hostOverride hn rfl
  | execute hn => exact executeOriginal_move hn rfl s.statistics _ rfl _
  | callOriginal hn => exact executeOriginal_move hn rfl _ _ rfl _
  | callOriginalBody hn => exact executeOriginal_move hn rfl _ _ rfl _
  | enterBlock hb he =>
    obtain ⟨scope, rest, hf⟩ := exists_scope_of_bodyRuns hb
    exact enterBlock_move h hf he
  | exhaustBudget hb =>
    obtain ⟨scope, rest, hf⟩ := exists_scope_of_bodyRuns hb
    exact exhaustBudget_move h hf
  | @compute registers _ => exact .aside registers s.statistics (.still _ rfl)
  | callOverride hb => exact enterNative_move .guestOverride hb rfl
  | @callImport library ordinal hb => exact enterNative_move (.hostImport library ordinal) hb rfl
  | writeExecutable =>
    rw [writeExecutable, markGuestExecutableWriteObserved_eq h]
    exact .aside s.registers _ (.marked _ .executableWrite RuntimeError.noConfusion rfl)
  | @fault guard exception => exact claimFault_move h guard exception
  | @functionReturn executed scope rest hf =>
    obtain ⟨n, hn⟩ := finishOriginal_eq ((s.popScope scope rest executed).aside
      (s.registers.leaveFrame scope.previousStackPointer scope.previousLinkRegister)
      s.statistics) (guestResult scope executed s.registers.result)
    have hleave : s.leaveGuestFunction scope rest executed = _ := hn
    rw [hleave, deliver_aside, aside_aside]
    exact .aside _ _ (.left scope rest executed hf)
  | @interpreterReturn _ rest hf => exact .aside s.registers _ (.interpreted _ rest _ hf rfl)
  | @handlerReturn result received rest hf => exact .handled result received rest hf
  | @overrideReturn result received rest hf => exact leaveGuestOverride_move h hf result
  | @importReturn context library ordinal received rest hf =>
    exact leaveHostImport_move h hf context

end GuestThread

/-- Every state a thread reaches satisfies the invariant. -/
theorem play_threadInv {events : List GuestEvent} {s : GuestThread}
    (h : play GuestThread.step .idle events = some s) : ThreadInv s :=
  play_invariant (fun _ _ _ hi hs => (GuestThread.step_move hi hs).inv hi) threadInv_idle h

end X360Port
