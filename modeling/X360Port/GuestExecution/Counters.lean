import X360Port.GuestExecution.Marks

/-!
# The exit counters

`ExecuteOriginal` counts by the error of the result. An `ExitLedger` keeps the
exit reasons of a thread's ended guest executions beside its counters: `Counted`
says that each counter is the number of executions that ended for its reason.
The error names the reason wherever the runtime made the failure itself. An
override's failure is passed on as it is, and its error may be that of an
execution inside the override, which has been counted already.
-/

namespace X360Port

open Library

/-- The counters of `JitStatistics` that count exits. -/
inductive ExitCounter where
  | importServiceRefusals
  | executionInvalidations
  | guestAccessViolations
  | executionBudgetExhaustions
  deriving DecidableEq, Repr

namespace ExitCounter

def all : List ExitCounter :=
  [.importServiceRefusals, .executionInvalidations, .guestAccessViolations,
    .executionBudgetExhaustions]

theorem mem_all (counter : ExitCounter) : counter ∈ all := by
  cases counter <;> decide

def value : ExitCounter → JitStatistics → UInt64
  | .importServiceRefusals => (·.importServiceRefusals)
  | .executionInvalidations => (·.executionInvalidations)
  | .guestAccessViolations => (·.guestAccessViolations)
  | .executionBudgetExhaustions => (·.executionBudgetExhaustions)

/-- The exit reason it is there for. -/
def reason : ExitCounter → GuestExecutionExitReason
  | .importServiceRefusals => .hostServiceRefused
  | .executionInvalidations => .executableWriteObserved
  | .guestAccessViolations => .guestAccessViolation
  | .executionBudgetExhaustions => .blockBudgetExceeded

/-- The error it is raised on. -/
def error : ExitCounter → RuntimeError
  | .importServiceRefusals => .importServiceRefused
  | .executionInvalidations => .executionInvalidated
  | .guestAccessViolations => .guestAccessViolation
  | .executionBudgetExhaustions => .executionBudgetExceeded

end ExitCounter

/-- A thread with the exit reasons of its ended guest executions, the last one first. -/
structure ExitLedger where
  thread : GuestThread := .idle
  exits : List GuestExecutionExitReason := []

/-- The exit reason of the execution that the event ends. -/
def exitOf (frames : List Frame) : GuestEvent → List GuestExecutionExitReason
  | .functionReturn _ =>
    match frames with
    | .scope scope :: _ => [scope.budget.exitReason]
    | _ => []
  | _ => []

namespace ExitLedger

def step (l : ExitLedger) (event : GuestEvent) : Option ExitLedger :=
  (l.thread.step event).map fun thread => ⟨thread, exitOf l.thread.frames event ++ l.exits⟩

/-- Each counter counts the executions that were stopped for its reason. -/
def Counted (l : ExitLedger) : Prop :=
  ∀ counter : ExitCounter,
    counter.value l.thread.statistics = .ofNat (l.exits.count counter.reason)

/-- An execution that ends because an override failed does not carry the error of an exit. -/
def CarriesNoExit (l : ExitLedger) (event : GuestEvent) : Prop :=
  match event, l.thread.frames with
  | .functionReturn _, .scope scope :: _ =>
    scope.budget.exitReason = .nativeOverrideFailed →
      ∀ counter ∈ ExitCounter.all, scope.overrideFailure.error ≠ counter.error
  | _, _ => True

instance CarriesNoExit.decidable (l : ExitLedger) :
    (event : GuestEvent) → Decidable (l.CarriesNoExit event)
  | .functionReturn _ =>
    match hf : l.thread.frames with
    | .scope scope :: _ =>
      decidable_of_iff (scope.budget.exitReason = .nativeOverrideFailed →
          ∀ counter ∈ ExitCounter.all, scope.overrideFailure.error ≠ counter.error)
        (by simp only [CarriesNoExit, hf])
    | .native _ _ :: _ => .isTrue (by simp only [CarriesNoExit, hf])
    | .interpreter :: _ => .isTrue (by simp only [CarriesNoExit, hf])
    | [] => .isTrue (by simp only [CarriesNoExit, hf])
  | .execute .. | .callOriginal .. | .callOriginalBody .. | .enterBlock | .exhaustBudget
  | .compute _ | .callOverride | .callImport .. | .writeExecutable | .fault ..
  | .interpreterReturn _ | .handlerReturn _ | .importReturn _ => .isTrue trivial

end ExitLedger

/-! ## What is counted -/

/-- A result is counted by its error. -/
theorem value_finishOriginal (s : GuestThread) (result : ExecutionResult)
    (counter : ExitCounter) :
    counter.value (s.finishOriginal result).statistics =
      counter.value s.statistics + if result.failure.error = counter.error then 1 else 0 := by
  have hadd : ∀ (p : Prop) [Decidable p] (n : UInt64),
      (if p then n + 1 else n) = n + if p then 1 else 0 := by
    intro p _ n
    split
    · rfl
    · exact (UInt64.add_zero n).symm
  simp only [GuestThread.finishOriginal, GuestThread.deliver]
  cases counter with
  | importServiceRefusals =>
    simp only [ExitCounter.value, apply_ite JitStatistics.importServiceRefusals, ite_self]
    exact hadd _ _
  | executionInvalidations =>
    simp only [ExitCounter.value, apply_ite JitStatistics.executionInvalidations, ite_self]
    exact hadd _ _
  | guestAccessViolations =>
    simp only [ExitCounter.value, apply_ite JitStatistics.guestAccessViolations, ite_self]
    exact hadd _ _
  | executionBudgetExhaustions =>
    simp only [ExitCounter.value, apply_ite JitStatistics.executionBudgetExhaustions, ite_self]
    exact hadd _ _

/-- The error of a call's answer is a counter's for two reasons. -/
theorem error_guestResult_iff (scope : Scope) (executed : Bool) (r3 : UInt64)
    (counter : ExitCounter) :
    (guestResult scope executed r3).failure.error = counter.error ↔
      scope.budget.exitReason = counter.reason ∨
        (scope.budget.exitReason = .nativeOverrideFailed ∧
          scope.overrideFailure.error = counter.error) := by
  rw [guestResult]
  cases scope.budget.exitReason with
  | nativeOverrideFailed => cases counter <;> simp [ExitCounter.reason]
  | none => cases executed <;> cases counter <;>
      simp [ExitCounter.reason, ExitCounter.error, refusedExecution]
  | _ => cases counter <;> simp [ExitCounter.reason, ExitCounter.error, invalidated,
      importRefused, accessViolation, budgetExceeded]

/-- Nothing is counted. -/
def CountsNothing (s s' : GuestThread) : Prop :=
  ∀ counter : ExitCounter, counter.value s'.statistics = counter.value s.statistics

section

variable {s s' : GuestThread}

theorem GuestThread.OnlyMarks.countsNothing (h : s.OnlyMarks s') : CountsNothing s s' :=
  fun counter => by rw [h.statistics]

theorem countsNothing_finishOriginal (result : ExecutionResult)
    (h : ∀ counter : ExitCounter, result.failure.error ≠ counter.error) :
    CountsNothing s (s.finishOriginal result) := by
  intro counter
  rw [value_finishOriginal, if_neg (h counter)]
  exact UInt64.add_zero _

theorem tooManyArguments_error (counter : ExitCounter) :
    tooManyArguments.error ≠ counter.error := by
  cases counter <;> decide

theorem invalidBudget_error (counter : ExitCounter) : invalidBudget.error ≠ counter.error := by
  cases counter <;> decide

theorem prepareGuestArguments_error {registers : GuestRegisters} {arguments : List UInt64}
    {failure : RuntimeFailure} (h : prepareGuestArguments registers arguments = .error failure) :
    failure = tooManyArguments := by
  unfold prepareGuestArguments at h
  split at h
  · cases h
    rfl
  · cases h

theorem countsNothing_enterGuestFunction (s : GuestThread) (arguments : List UInt64)
    (limits : ExecutionLimits) : CountsNothing s (s.enterGuestFunction arguments limits) := by
  unfold GuestThread.enterGuestFunction
  split
  · next failure hprepare =>
    rw [prepareGuestArguments_error hprepare]
    exact countsNothing_finishOriginal _ tooManyArguments_error
  · next registers _ =>
    split
    · have hbudget := countsNothing_finishOriginal (s := { s with registers := registers })
        ⟨invalidBudget, 0⟩ invalidBudget_error
      exact hbudget
    · exact fun _ => rfl

theorem countsNothing_enterInterpreter (s : GuestThread) (arguments : List UInt64) (known : Bool) :
    CountsNothing s (s.enterInterpreter arguments known) := by
  unfold GuestThread.enterInterpreter
  split
  · exact fun _ => rfl
  · simp only
    split
    · exact fun _ => rfl
    · intro counter
      cases counter <;> rfl

theorem countsNothing_leaveInterpreter (s : GuestThread) (rest : List Frame)
    (answer : InterpreterAnswer) : CountsNothing s (s.leaveInterpreter rest answer) := by
  intro counter
  unfold GuestThread.leaveInterpreter
  cases answer.exit <;> cases counter <;> rfl

theorem countsNothing_executeOriginal (s : GuestThread) (arguments : List UInt64)
    (limits : ExecutionLimits) (answers : EntryAnswers) :
    CountsNothing s (s.executeOriginal arguments limits answers) := by
  unfold GuestThread.executeOriginal
  split
  · exact fun _ => rfl
  · split
    · exact fun _ => rfl
    · simp only
      split
      · intro counter
        rw [countsNothing_enterInterpreter]
        cases counter <;> rfl
      · exact countsNothing_enterGuestFunction s arguments limits
      · intro counter
        rw [countsNothing_enterGuestFunction]
        cases counter <;> rfl

theorem countsNothing_callOriginal (s : GuestThread) (arguments : List UInt64)
    (limits : ExecutionLimits) (answers : EntryAnswers) :
    CountsNothing s (s.callOriginal arguments limits answers) := by
  intro counter
  rw [GuestThread.callOriginal, countsNothing_executeOriginal]
  cases counter <;> rfl

theorem countsNothing_enterNative (s : GuestThread) (entry : NativeEntry) :
    CountsNothing s (s.enterNative entry) := by
  intro counter
  cases entry <;> cases counter <;> rfl

theorem countsNothing_writeExecutable (s : GuestThread) : CountsNothing s s.writeExecutable := by
  intro counter
  cases counter <;> rfl

end

/-- **A step counts where a guest execution ends**, and nowhere else. -/
theorem step_counts {s s' : GuestThread} {event : GuestEvent} (hs : s.step event = some s') :
    (exitOf s.frames event = [] ∧ CountsNothing s s') ∨
      ∃ scope rest executed, event = .functionReturn executed ∧
        s.frames = .scope scope :: rest ∧ s' = s.leaveGuestFunction scope rest executed := by
  cases GuestThread.step_cases hs with
  | hostOverride => exact .inl ⟨rfl, countsNothing_enterNative s .hostOverride⟩
  | execute => exact .inl ⟨rfl, countsNothing_executeOriginal s _ _ _⟩
  | callOriginal => exact .inl ⟨rfl, countsNothing_callOriginal s _ _ _⟩
  | callOriginalBody => exact .inl ⟨rfl, countsNothing_callOriginal s _ {} _⟩
  | enterBlock _ h => exact .inl ⟨rfl, (s.onlyMarks_enterBlock h).countsNothing⟩
  | exhaustBudget => exact .inl ⟨rfl, s.onlyMarks_exhaustBudget.countsNothing⟩
  | compute => exact .inl ⟨rfl, fun _ => rfl⟩
  | callOverride => exact .inl ⟨rfl, countsNothing_enterNative s .guestOverride⟩
  | callImport => exact .inl ⟨rfl, countsNothing_enterNative s (.hostImport _ _)⟩
  | writeExecutable => exact .inl ⟨rfl, countsNothing_writeExecutable s⟩
  | fault => exact .inl ⟨rfl, (s.onlyMarks_claimFault _ _).countsNothing⟩
  | @functionReturn executed scope rest hf => exact .inr ⟨scope, rest, executed, rfl, hf, rfl⟩
  | @interpreterReturn answer rest => exact .inl ⟨rfl, countsNothing_leaveInterpreter s rest answer⟩
  | handlerReturn => exact .inl ⟨rfl, fun _ => rfl⟩
  | overrideReturn =>
    refine .inl ⟨rfl, ?_⟩
    unfold GuestThread.leaveGuestOverride
    split
    · exact fun _ => rfl
    · exact (GuestThread.onlyMarks_markGuestOverrideFailed _ _).countsNothing
  | importReturn =>
    refine .inl ⟨rfl, ?_⟩
    unfold GuestThread.leaveHostImport
    split
    · exact (GuestThread.onlyMarks_markGuestImportRefused _ _).countsNothing
    · exact fun _ => rfl

namespace ExitLedger

variable {l l' : ExitLedger} {event : GuestEvent}

theorem ofNat_count_cons (counter : ExitCounter) (reason : GuestExecutionExitReason)
    (exits : List GuestExecutionExitReason) :
    UInt64.ofNat ((reason :: exits).count counter.reason) =
      .ofNat (exits.count counter.reason) + if reason = counter.reason then 1 else 0 := by
  rw [List.count_cons, UInt64.ofNat_add]
  by_cases h : reason = counter.reason <;> simp [h]

theorem reason_ne_nativeOverrideFailed (counter : ExitCounter) :
    counter.reason ≠ .nativeOverrideFailed := by
  cases counter <;> decide

/-- A step keeps the counters right exactly when it carries no exit that was counted before. -/
theorem carriesNoExit_iff (hc : l.Counted) (hs : l.step event = some l') :
    l.CarriesNoExit event ↔ l'.Counted := by
  rw [step, Option.map_eq_some_iff] at hs
  obtain ⟨thread, hthread, rfl⟩ := hs
  rcases step_counts hthread with ⟨hexit, hnothing⟩ | ⟨scope, rest, executed, rfl, hf, rfl⟩
  · refine iff_of_true ?_ fun counter => ?_
    · unfold CarriesNoExit
      split
      · next hframes =>
        rw [hframes] at hexit
        cases hexit
      · trivial
    · rw [hexit]
      exact (hnothing counter).trans (hc counter)
  · have hvalue : ∀ counter : ExitCounter,
        counter.value (l.thread.leaveGuestFunction scope rest executed).statistics =
          counter.value l.thread.statistics +
            if (guestResult scope executed l.thread.registers.result).failure.error = counter.error
              then 1 else 0 := fun counter => value_finishOriginal _ _ counter
    have hexits :
        exitOf l.thread.frames (.functionReturn executed) = [scope.budget.exitReason] := by
      rw [hf]
      rfl
    have hcarries : l.CarriesNoExit (.functionReturn executed) ↔
        (scope.budget.exitReason = .nativeOverrideFailed →
          ∀ counter ∈ ExitCounter.all, scope.overrideFailure.error ≠ counter.error) := by
      simp only [CarriesNoExit, hf]
    rw [hcarries, Counted]
    simp only [hexits, List.singleton_append, ofNat_count_cons, hvalue, error_guestResult_iff]
    constructor
    · intro hno counter
      have hiff : (scope.budget.exitReason = counter.reason ∨
          scope.budget.exitReason = .nativeOverrideFailed ∧
            scope.overrideFailure.error = counter.error) ↔
          scope.budget.exitReason = counter.reason :=
        or_iff_left fun h => hno h.1 counter counter.mem_all h.2
      rw [hc counter]
      simp only [hiff]
    · intro hcounted hoverride counter _ herror
      have h := hcounted counter
      rw [hc counter, if_pos (.inr ⟨hoverride, herror⟩),
        if_neg fun h => reason_ne_nativeOverrideFailed counter (h.symm.trans hoverride)] at h
      have hone : (1 : UInt64) = 0 := (UInt64.add_right_inj _).1 h
      exact absurd hone (by decide)

/-- **Main result.** In a run the exit counters count the stopped executions throughout exactly
when no execution ends on an override's failure with the error of an exit. -/
theorem carriesNoExit_iff_counted {events : List GuestEvent} {last : ExitLedger}
    (hplay : play step {} events = some last) :
    EveryStep step CarriesNoExit {} events ↔
      ∀ front, front <+: events → ∀ l, play step {} front = some l → Counted l := by
  refine everyStep_iff_prefixes (I := fun _ => True) (fun _ _ _ _ _ _ _ => trivial)
    (fun _ _ _ _ hc hs => carriesNoExit_iff hc hs) trivial (fun counter => ?_) hplay
  cases counter <;> rfl

/-- A body calls an overridden function, whose override calls the original body, is told that a
refused import stopped it, and answers `result`. -/
def refusedInside (result : ExecutionResult) : List GuestEvent :=
  [.execute [] {} false {}, .callOverride, .callOriginalBody [] {}, .callImport [0x78] 1,
    .importReturn ((GuestImportContext.make []).refuse .hostUnavailable), .functionReturn false,
    .handlerReturn result, .functionReturn true]

theorem carriesNoExit_iff_counted_handled : ∃ last,
    play step {} (refusedInside ⟨{}, 0⟩) = some last ∧ last.Counted ∧
      last.thread.statistics.importServiceRefusals = 1 := by
  have hcarries : EveryStep step CarriesNoExit {} (refusedInside ⟨{}, 0⟩) := by decide +kernel
  refine ⟨_, rfl, ?_, by decide +kernel⟩
  exact (carriesNoExit_iff_counted rfl).1 hcarries _ List.prefix_rfl _ rfl

/-- The override passes the failure of the original body on: one refusal is counted twice. -/
theorem not_counted_carried : ¬ ∀ (events : List GuestEvent) (last : ExitLedger),
    play step {} events = some last → last.Counted := by
  intro hall
  have h := hall (refusedInside ⟨importRefused ⟨[0x78], 1, .hostUnavailable⟩, 0⟩) _ rfl
    .importServiceRefusals
  exact absurd h (by decide +kernel)

end ExitLedger

end X360Port
