import X360Port.GuestExecution
import X360Port.Library.Machine

/-!
# A guest thread

The thread's stack alternates between translated bodies, each under its
`Scope`, and the native code they call or are called from: override handlers
and host imports. Native code may start further guest calls. `step` takes one
event: a call, a return, a basic block of the running body, or an event that
stops a guest execution. What the tables and the translator answer to a call
(is the address overridden, is it inside the code, is there machine code) comes
with the call's event, so a run may install and remove overrides as it likes.

The pointers of the source are scope ids, and `modifyScope` follows one. The
fields from `nextScope` on are history.
-/

namespace X360Port

open Library

/-- Who entered a native handler. -/
inductive NativeEntry where
  | hostOverride
  | guestOverride
  | hostImport (library : StringView) (ordinal : UInt16)
  deriving DecidableEq, Repr

/-- A stack frame of the thread. `received` is what the native code's own guest
calls have answered. -/
inductive Frame where
  | scope (scope : Scope)
  | native (entry : NativeEntry) (received : List ExecutionResult)
  | interpreter
  deriving DecidableEq, Repr

/-- A scope that has ended, with what its function did and what it answered. -/
structure EndedScope where
  id : Nat
  marks : List ExitEvent
  executed : Bool
  r3 : UInt64
  result : ExecutionResult
  deriving DecidableEq, Repr

structure GuestThread where
  registers : GuestRegisters := {}
  statistics : JitStatistics := {}
  executionBudget : Option Nat := none
  activeGuestExecutionBudget : Option Nat := none
  activeGuestImportRefusal : Option Nat := none
  activeGuestOverrideFailure : Option Nat := none
  frames : List Frame := []
  terminated : Bool := false
  nextScope : Nat := 0
  blockEntries : Nat := 0
  ended : List EndedScope := []
  hostResults : List ExecutionResult := []
  deriving DecidableEq, Repr

/-- What a call to an original body finds: the drain's failure, whether the entry lies in
the authenticated code, the translation (with the size of new host code), and whether the
processor knows the function at all. -/
structure EntryAnswers where
  drained : RuntimeFailure := {}
  insideCode : Bool := true
  translation : Option (Option UInt64) := some none
  known : Bool := true
  deriving DecidableEq, Repr

inductive InterpreterExit where
  | completed
  | unsupportedInstruction
  | memoryFault
  | instructionBudgetExceeded
  | invalidEntry
  deriving DecidableEq, Repr

structure InterpreterAnswer where
  exit : InterpreterExit
  guestPc : UInt32
  instruction : UInt32
  instructionsExecuted : UInt64
  deriving DecidableEq, Repr

inductive GuestEvent where
  /-- Native code calls into the runtime; `overridden` is the override table's answer. -/
  | execute (arguments : List UInt64) (limits : ExecutionLimits) (overridden : Bool)
      (answers : EntryAnswers)
  | callOriginal (arguments : List UInt64) (limits : ExecutionLimits) (answers : EntryAnswers)
  | callOriginalBody (arguments : List UInt64) (answers : EntryAnswers)
  /-- The running body or the interpreter. -/
  | enterBlock
  | exhaustBudget
  | compute (registers : GuestRegisters)
  | callOverride
  | callImport (library : StringView) (ordinal : UInt16)
  | writeExecutable
  | fault (guard : GuestFaultGuard) (exception : GuestException)
  /-- Returns. -/
  | functionReturn (executed : Bool)
  | interpreterReturn (answer : InterpreterAnswer)
  | handlerReturn (result : ExecutionResult)
  | importReturn (context : GuestImportContext)

/-! ## Scopes on the stack -/

def Frame.scope? : Frame → Option Scope
  | .scope sc => some sc
  | _ => none

/-- The scopes of a stack, innermost first. -/
def scopesOf (frames : List Frame) : List Scope := frames.filterMap Frame.scope?

def Frame.mapScope (f : Scope → Scope) : Frame → Frame
  | .scope sc => .scope (f sc)
  | frame => frame

/-- One block less to run. -/
def Scope.countBlock (scope : Scope) : Scope :=
  { scope with
    budget := { scope.budget with remainingBlocks := scope.budget.remainingBlocks - 1 } }

/-- Follow a pointer to a scope's objects. -/
def modifyScope (id : Nat) (f : Scope → Scope) (frames : List Frame) : List Frame :=
  frames.map (Frame.mapScope fun scope => if scope.id = id then f scope else scope)

def findScope (id : Nat) (frames : List Frame) : Option Scope :=
  (scopesOf frames).find? (·.id = id)

/-- Change the innermost scope. -/
def modifyInnermost (f : Scope → Scope) : List Frame → List Frame
  | [] => []
  | .scope scope :: rest => .scope (f scope) :: rest
  | frame :: rest => frame :: modifyInnermost f rest

/-- Guest code is running: a translated body or the interpreter. -/
def guestRuns : List Frame → Bool
  | .scope _ :: _ => true
  | .interpreter :: _ => true
  | _ => false

/-- A translated body is running. -/
def bodyRuns : List Frame → Bool
  | .scope _ :: _ => true
  | _ => false

/-- Native code is running: the host, or a handler that guest code entered. -/
def nativeRuns : List Frame → Bool
  | [] => true
  | .native _ _ :: _ => true
  | _ => false

/-- A handler receives the result of its call. -/
def receive (result : ExecutionResult) : List Frame → List Frame
  | .native entry received :: rest => .native entry (result :: received) :: rest
  | frames => frames

namespace GuestThread

/-- A host thread that has not called into the guest. -/
def idle : GuestThread := {}

/-- The history of marks belongs to the innermost scope. -/
def addMark (s : GuestThread) (event : ExitEvent) : GuestThread :=
  { s with
    frames := modifyInnermost (fun scope => { scope with marks := scope.marks ++ [event] })
      s.frames }

def exitReasonAt (s : GuestThread) (pointer : Nat) : Option GuestExecutionExitReason :=
  (findScope pointer s.frames).map (·.budget.exitReason)

def setExitReason (s : GuestThread) (pointer : Nat) (reason : GuestExecutionExitReason) :
    GuestThread :=
  { s with
    frames := modifyScope pointer
      (fun scope => { scope with budget := { scope.budget with exitReason := reason } }) s.frames }

/-! ## The marks -/

def markGuestOverrideFailed (s : GuestThread) (failure : RuntimeFailure) : GuestThread :=
  match s.activeGuestExecutionBudget, s.activeGuestOverrideFailure with
  | some budget, some slot =>
    let s := s.addMark (.overrideFailed failure)
    if s.exitReasonAt budget = some .none then
      let s := { s with
        frames := modifyScope slot (fun scope => { scope with overrideFailure := failure })
          s.frames }
      s.setExitReason budget .nativeOverrideFailed
    else s
  | _, _ => { s with terminated := true }

def markGuestImportRefused (s : GuestThread) (refusal : GuestImportRefusal) : GuestThread :=
  match s.activeGuestExecutionBudget, s.activeGuestImportRefusal with
  | some budget, some slot =>
    let s := s.addMark (.importRefused refusal)
    if s.exitReasonAt budget = some .none then
      let s := { s with
        frames := modifyScope slot (fun scope => { scope with importRefusal := refusal })
          s.frames }
      s.setExitReason budget .hostServiceRefused
    else s
  | _, _ => { s with terminated := true }

def markGuestExecutableWriteObserved (s : GuestThread) : GuestThread :=
  let s' := s.addMark .executableWrite
  match s.activeGuestExecutionBudget with
  | some budget =>
    if s'.exitReasonAt budget = some .none then s'.setExitReason budget .executableWriteObserved
    else s'
  | none => s'

/-- Xenia's block guard runs out of budget. -/
def exhaustBudget (s : GuestThread) : GuestThread :=
  match s.executionBudget with
  | some budget =>
    if s.exitReasonAt budget = some .none then
      (s.addMark .budgetExhausted).setExitReason budget .blockBudgetExceeded
    else s
  | none => s

def claimFault (s : GuestThread) (guard : GuestFaultGuard) (exception : GuestException) :
    GuestThread :=
  match s.activeGuestExecutionBudget with
  | none => s
  | some pointer =>
    match findScope pointer s.frames with
    | none => s
    | some scope =>
      match guard.claim exception scope.budget with
      | none => s
      | some (budget, _) =>
        let s := s.addMark (.accessViolation budget.faultGuestAddress budget.faultWasWrite)
        { s with
          frames := modifyScope pointer (fun scope => { scope with budget := budget }) s.frames }

/-! ## Calls and returns -/

/-- Hand a result to the native code that called. -/
def deliver (s : GuestThread) (result : ExecutionResult) : GuestThread :=
  { s with
    frames := receive result s.frames
    hostResults := if s.frames.isEmpty then result :: s.hostResults else s.hostResults }

/-- The end of `ExecuteOriginal`: count the result, then return it. -/
def finishOriginal (s : GuestThread) (result : ExecutionResult) : GuestThread :=
  let n := s.statistics
  let error := result.failure.error
  let n := if error = .executionBudgetExceeded then
    { n with executionBudgetExhaustions := n.executionBudgetExhaustions + 1 } else n
  let n := if error = .executionInvalidated then
    { n with executionInvalidations := n.executionInvalidations + 1 } else n
  let n := if error = .importServiceRefused then
    { n with importServiceRefusals := n.importServiceRefusals + 1 } else n
  let n := if error = .guestAccessViolation then
    { n with guestAccessViolations := n.guestAccessViolations + 1 } else n
  let n := if result.Ok then { n with executionCalls := n.executionCalls + 1 } else n
  { s with statistics := n }.deliver result

/-- `ExecuteGuestFunction` up to the call of the translated function. -/
def enterGuestFunction (s : GuestThread) (arguments : List UInt64) (limits : ExecutionLimits) :
    GuestThread :=
  match prepareGuestArguments s.registers arguments with
  | .error failure => s.finishOriginal ⟨failure, 0⟩
  | .ok registers =>
    if limits.maxGuestBlocks = 0 then
      { s with registers := registers }.finishOriginal ⟨invalidBudget, 0⟩
    else
      let scope : Scope :=
        { id := s.nextScope
          budget := { remainingBlocks := limits.maxGuestBlocks }
          previous := s.executionBudget
          previousActive := s.activeGuestExecutionBudget
          previousRefusal := s.activeGuestImportRefusal
          previousOverrideFailure := s.activeGuestOverrideFailure
          previousStackPointer := registers.stackPointer
          previousLinkRegister := registers.lr }
      { s with
        registers := registers.enterFrame
        executionBudget := some s.nextScope
        activeGuestExecutionBudget := some s.nextScope
        activeGuestImportRefusal := some s.nextScope
        activeGuestOverrideFailure := some s.nextScope
        frames := .scope scope :: s.frames
        nextScope := s.nextScope + 1 }

/-- `ExecuteGuestFunction` from there on: the result, then the destructors. -/
def leaveGuestFunction (s : GuestThread) (scope : Scope) (rest : List Frame) (executed : Bool) :
    GuestThread :=
  let result := guestResult scope executed s.registers.result
  { s with
    registers := s.registers.leaveFrame scope.previousStackPointer scope.previousLinkRegister
    executionBudget := scope.previous
    activeGuestExecutionBudget := scope.previousActive
    activeGuestImportRefusal := scope.previousRefusal
    activeGuestOverrideFailure := scope.previousOverrideFailure
    frames := rest
    ended := ⟨scope.id, scope.marks, executed, s.registers.result, result⟩ :: s.ended
    }.finishOriginal result

/-- `ExecuteInterpreterFallback` up to the interpreter. -/
def enterInterpreter (s : GuestThread) (arguments : List UInt64) (known : Bool) : GuestThread :=
  match prepareGuestArguments s.registers arguments with
  | .error failure => s.deliver ⟨failure, 0⟩
  | .ok registers =>
    let s := { s with registers := registers }
    if ¬ known then
      s.deliver ⟨⟨.translationFailed,
        "Xenia could not resolve the requested guest function for translation or fallback"⟩, 0⟩
    else
      { s with
        statistics := { s.statistics with
          interpreterFallbackEntries := s.statistics.interpreterFallbackEntries + 1 }
        frames := .interpreter :: s.frames }

/-- `ExecuteInterpreterFallback` from there on. -/
def leaveInterpreter (s : GuestThread) (rest : List Frame) (answer : InterpreterAnswer) :
    GuestThread :=
  let n := s.statistics
  let n := { n with interpreterFallbackInstructions :=
    n.interpreterFallbackInstructions + answer.instructionsExecuted }
  let pc := toString answer.guestPc.toNat
  let (n, result) : JitStatistics × ExecutionResult :=
    match answer.exit with
    | .completed =>
      ({ n with executionCalls := n.executionCalls + 1 }, ⟨{}, s.registers.result⟩)
    | .unsupportedInstruction =>
      ({ n with interpreterFallbackUnsupported := n.interpreterFallbackUnsupported + 1 },
        ⟨⟨.interpreterFallbackUnsupported, "bounded interpreter refused guest PC " ++ pc ++
          " opcode " ++ toString answer.instruction.toNat⟩, 0⟩)
    | .memoryFault =>
      ({ n with
          interpreterFallbackMemoryFailures := n.interpreterFallbackMemoryFailures + 1 },
        ⟨⟨.interpreterFallbackMemoryInvalid,
          "bounded interpreter could not access guest PC " ++ pc⟩, 0⟩)
    | .instructionBudgetExceeded =>
      ({ n with
          interpreterFallbackBudgetExhaustions := n.interpreterFallbackBudgetExhaustions + 1 },
        ⟨⟨.interpreterFallbackBudgetExceeded,
          "bounded interpreter exhausted its instruction budget at guest PC " ++ pc⟩, 0⟩)
    | .invalidEntry =>
      (n, ⟨⟨.translationFailed,
        "Xenia could not translate or interpret the requested guest function"⟩, 0⟩)
  { s with statistics := n, frames := rest }.deliver result

def executeOriginal (s : GuestThread) (arguments : List UInt64) (limits : ExecutionLimits)
    (answers : EntryAnswers) : GuestThread :=
  if ¬ answers.drained.Ok then s.deliver ⟨answers.drained, 0⟩
  else if ¬ answers.insideCode then
    s.deliver ⟨⟨.entryOutsideCode,
      "guest entry is outside the authenticated executable range"⟩, 0⟩
  else
    let n := s.statistics
    match answers.translation with
    | none =>
      { s with statistics := { n with translationFailures := n.translationFailures + 1 }
        }.enterInterpreter arguments answers.known
    | some none => s.enterGuestFunction arguments limits
    | some (some emitted) =>
      { s with statistics :=
          { n with
            translatedFunctions := n.translatedFunctions + 1
            emittedHostBytes := n.emittedHostBytes + emitted }
        }.enterGuestFunction arguments limits

def callOriginal (s : GuestThread) (arguments : List UInt64) (limits : ExecutionLimits)
    (answers : EntryAnswers) : GuestThread :=
  { s with statistics :=
      { s.statistics with originalCalls := s.statistics.originalCalls + 1 }
    }.executeOriginal arguments limits answers

/-- A native frame is entered; an override call is counted. -/
def enterNative (s : GuestThread) (entry : NativeEntry) : GuestThread :=
  let n := s.statistics
  { s with
    statistics := match entry with
      | .hostImport _ _ => n
      | _ => { n with nativeOverrideCalls := n.nativeOverrideCalls + 1 }
    frames := .native entry [] :: s.frames }

/-- The end of `DispatchGuest`. The runtime binds no sink for unscoped failures. -/
def leaveGuestOverride (s : GuestThread) (result : ExecutionResult) : GuestThread :=
  if result.Ok then { s with registers := s.registers.setResult result.value }
  else s.markGuestOverrideFailed result.failure

/-- The end of `DispatchFunction`. -/
def leaveHostImport (s : GuestThread) (library : StringView) (ordinal : UInt16)
    (context : GuestImportContext) : GuestThread :=
  match context.refusal with
  | some reason => s.markGuestImportRefused ⟨library, ordinal.toUInt32, reason⟩
  | none => { s with registers := s.registers.setResult context.returnValue }

/-- Xenia's guard at a block entry counts the block off the context's budget; without a
budget nothing stops the body. -/
def enterBlock (s : GuestThread) : Option GuestThread :=
  match s.executionBudget with
  | none => some { s with blockEntries := s.blockEntries + 1 }
  | some pointer =>
    match findScope pointer s.frames with
    | none => none
    | some scope =>
      if scope.budget.remainingBlocks = 0 then none
      else some
        { s with
          blockEntries := s.blockEntries + 1
          frames := modifyScope pointer Scope.countBlock s.frames }

/-- An observed executable write. -/
def writeExecutable (s : GuestThread) : GuestThread :=
  { s.markGuestExecutableWriteObserved with
    statistics :=
      { s.statistics with observedExecutableWrites := s.statistics.observedExecutableWrites + 1 } }

def step (s : GuestThread) (event : GuestEvent) : Option GuestThread :=
  if s.terminated then none
  else
    match event with
    | .execute arguments limits overridden answers =>
      if ¬ nativeRuns s.frames then none
      else if overridden then some (s.enterNative .hostOverride)
      else some (s.executeOriginal arguments limits answers)
    | .callOriginal arguments limits answers =>
      if nativeRuns s.frames then some (s.callOriginal arguments limits answers) else none
    | .callOriginalBody arguments answers =>
      if nativeRuns s.frames then some (s.callOriginal arguments {} answers) else none
    | .enterBlock => if bodyRuns s.frames then s.enterBlock else none
    | .exhaustBudget => if bodyRuns s.frames then some s.exhaustBudget else none
    | .compute registers =>
      if guestRuns s.frames then some { s with registers := registers } else none
    | .callOverride => if bodyRuns s.frames then some (s.enterNative .guestOverride) else none
    | .callImport library ordinal =>
      if bodyRuns s.frames then some (s.enterNative (.hostImport library ordinal)) else none
    | .writeExecutable => some s.writeExecutable
    | .fault guard exception => some (s.claimFault guard exception)
    | .functionReturn executed =>
      match s.frames with
      | .scope scope :: rest => some (s.leaveGuestFunction scope rest executed)
      | _ => none
    | .interpreterReturn answer =>
      match s.frames with
      | .interpreter :: rest => some (s.leaveInterpreter rest answer)
      | _ => none
    | .handlerReturn result =>
      match s.frames with
      | .native .hostOverride _ :: rest => some ({ s with frames := rest }.deliver result)
      | .native .guestOverride _ :: rest =>
        some ({ s with frames := rest }.leaveGuestOverride result)
      | _ => none
    | .importReturn context =>
      match s.frames with
      | .native (.hostImport library ordinal) _ :: rest =>
        some ({ s with frames := rest }.leaveHostImport library ordinal context)
      | _ => none

/-! ## What a step is -/

/-- The branches of `step`. -/
inductive StepOf (s : GuestThread) : GuestEvent → GuestThread → Prop where
  | hostOverride {arguments : List UInt64} {limits : ExecutionLimits} {answers : EntryAnswers}
      (hn : nativeRuns s.frames = true) :
      StepOf s (.execute arguments limits true answers) (s.enterNative .hostOverride)
  | execute {arguments : List UInt64} {limits : ExecutionLimits} {answers : EntryAnswers}
      (hn : nativeRuns s.frames = true) :
      StepOf s (.execute arguments limits false answers)
        (s.executeOriginal arguments limits answers)
  | callOriginal {arguments : List UInt64} {limits : ExecutionLimits} {answers : EntryAnswers}
      (hn : nativeRuns s.frames = true) :
      StepOf s (.callOriginal arguments limits answers) (s.callOriginal arguments limits answers)
  | callOriginalBody {arguments : List UInt64} {answers : EntryAnswers}
      (hn : nativeRuns s.frames = true) :
      StepOf s (.callOriginalBody arguments answers) (s.callOriginal arguments {} answers)
  | enterBlock {s' : GuestThread} (hb : bodyRuns s.frames = true) (h : s.enterBlock = some s') :
      StepOf s .enterBlock s'
  | exhaustBudget (hb : bodyRuns s.frames = true) : StepOf s .exhaustBudget s.exhaustBudget
  | compute {registers : GuestRegisters} (hg : guestRuns s.frames = true) :
      StepOf s (.compute registers) { s with registers := registers }
  | callOverride (hb : bodyRuns s.frames = true) :
      StepOf s .callOverride (s.enterNative .guestOverride)
  | callImport {library : StringView} {ordinal : UInt16} (hb : bodyRuns s.frames = true) :
      StepOf s (.callImport library ordinal) (s.enterNative (.hostImport library ordinal))
  | writeExecutable : StepOf s .writeExecutable s.writeExecutable
  | fault {guard : GuestFaultGuard} {exception : GuestException} :
      StepOf s (.fault guard exception) (s.claimFault guard exception)
  | functionReturn {executed : Bool} {scope : Scope} {rest : List Frame}
      (hf : s.frames = .scope scope :: rest) :
      StepOf s (.functionReturn executed) (s.leaveGuestFunction scope rest executed)
  | interpreterReturn {answer : InterpreterAnswer} {rest : List Frame}
      (hf : s.frames = .interpreter :: rest) :
      StepOf s (.interpreterReturn answer) (s.leaveInterpreter rest answer)
  | handlerReturn {result : ExecutionResult} {received : List ExecutionResult} {rest : List Frame}
      (hf : s.frames = .native .hostOverride received :: rest) :
      StepOf s (.handlerReturn result) ({ s with frames := rest }.deliver result)
  | overrideReturn {result : ExecutionResult} {received : List ExecutionResult} {rest : List Frame}
      (hf : s.frames = .native .guestOverride received :: rest) :
      StepOf s (.handlerReturn result) ({ s with frames := rest }.leaveGuestOverride result)
  | importReturn {context : GuestImportContext} {library : StringView} {ordinal : UInt16}
      {received : List ExecutionResult} {rest : List Frame}
      (hf : s.frames = .native (.hostImport library ordinal) received :: rest) :
      StepOf s (.importReturn context)
        ({ s with frames := rest }.leaveHostImport library ordinal context)

theorem step_cases {s s' : GuestThread} {event : GuestEvent} (hs : s.step event = some s') :
    StepOf s event s' := by
  unfold step at hs
  split at hs
  · cases hs
  cases event with
  | execute arguments limits overridden answers =>
    simp only at hs
    split at hs
    · cases hs
    · next hn =>
      have hn := Decidable.not_not.1 hn
      cases overridden with
      | true =>
        cases hs
        exact .hostOverride hn
      | false =>
        cases hs
        exact .execute hn
  | callOriginal arguments limits answers =>
    obtain ⟨hn, ⟨⟩⟩ := Option.ite_none_right_eq_some.1 hs
    exact .callOriginal hn
  | callOriginalBody arguments answers =>
    obtain ⟨hn, ⟨⟩⟩ := Option.ite_none_right_eq_some.1 hs
    exact .callOriginalBody hn
  | enterBlock =>
    obtain ⟨hb, hs⟩ := Option.ite_none_right_eq_some.1 hs
    exact .enterBlock hb hs
  | exhaustBudget =>
    obtain ⟨hb, ⟨⟩⟩ := Option.ite_none_right_eq_some.1 hs
    exact .exhaustBudget hb
  | compute registers =>
    obtain ⟨hg, ⟨⟩⟩ := Option.ite_none_right_eq_some.1 hs
    exact .compute hg
  | callOverride =>
    obtain ⟨hb, ⟨⟩⟩ := Option.ite_none_right_eq_some.1 hs
    exact .callOverride hb
  | callImport library ordinal =>
    obtain ⟨hb, ⟨⟩⟩ := Option.ite_none_right_eq_some.1 hs
    exact .callImport hb
  | writeExecutable =>
    cases hs
    exact .writeExecutable
  | fault guard exception =>
    cases hs
    exact .fault
  | functionReturn executed =>
    simp only at hs
    split at hs
    · next hf =>
      cases hs
      exact .functionReturn hf
    · cases hs
  | interpreterReturn answer =>
    simp only at hs
    split at hs
    · next hf =>
      cases hs
      exact .interpreterReturn hf
    · cases hs
  | handlerReturn result =>
    simp only at hs
    split at hs
    · next hf =>
      cases hs
      exact .handlerReturn hf
    · next hf =>
      cases hs
      exact .overrideReturn hf
    · cases hs
  | importReturn context =>
    simp only at hs
    split at hs
    · next hf =>
      cases hs
      exact .importReturn hf
    · cases hs

end GuestThread

end X360Port
