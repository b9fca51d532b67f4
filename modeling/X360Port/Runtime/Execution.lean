import X360Port.GuestExecution.Thread
import X360Port.OverrideDispatch.Redirects
import X360Port.Runtime.Loading
import X360Port.RuntimeImports.Dispatch

/-!
# The runtime and its guest thread

A `RunningContext` is a context together with the thread that calls into it. A
guest thread takes what it is answered to a call with the call; here the
answers come from the context: is the address overridden, does the watch let the
entry through, is it inside the code, which export does a thunk belong to. Only
Xenia's own answers are left (`EntryAnswer`).

The counters stand where the parts that count have them: those of the
notifications in the context, all others in the thread.

History: `running` says what each frame of the thread runs, `loads` and
`installed` what the context was asked for.
-/

namespace X360Port

open Library

/-- What Xenia answers to an entry. -/
structure EntryAnswer where
  /-- To `EnableVirtualMemoryAccessCallbacks`. -/
  enabled : Bool := true
  /-- The translation, with the size of new host code. -/
  translation : Option (Option UInt64) := some none
  /-- The processor knows the function. -/
  known : Bool := true
  deriving DecidableEq, Repr

namespace Runtime

/-- A write that the watch sees, if it is one to the code. -/
def observeWrite (s : Runtime) (virtualAddress length : UInt32) : Option Runtime :=
  s.invalidation.bind fun watch =>
    if ¬ watch.memory then none
    else (clampWrite watch.codeRange virtualAddress length).map fun (first, last) =>
      { s with
        invalidation :=
          some { watch with pendingWrite := mergeWrite watch.pendingWrite first last } }

/-- `Notify` on a range of the watch. -/
def notifyRange (s : Runtime) (code : CodeRange) (address : GuestAddress) (size : UInt32) :
    Runtime × RuntimeFailure :=
  let (n, failure) := notify code address size
    { cache := s.cachedFunctions
      translationInvalidations := s.statistics.translationInvalidations }
  ({ s with
      cachedFunctions := n.cache
      statistics :=
        { s.statistics with translationInvalidations := n.translationInvalidations } }, failure)

/-- The exchange of the pending word, then what it covers is notified. -/
def passPending (s : Runtime) (watch : ExecutableInvalidation) : Runtime × RuntimeFailure :=
  let s : Runtime :=
    { s with invalidation := some { watch with pendingWrite := kNoPendingWrite } }
  match drainRange watch.codeRange watch.pendingWrite with
  | none => (s, {})
  | some (start, length) => s.notifyRange watch.codeRange start length

/-- What `ExecuteOriginal` does first, if there is a watch. -/
def drainObservedWrites (s : Runtime) (enabled : Bool) : Runtime × RuntimeFailure :=
  match s.invalidation with
  | none => (s, {})
  | some watch =>
    let (s, failure) := s.passPending watch
    if ¬ failure.Ok then (s, failure)
    else if ¬ watch.rearm enabled then (s, refusedRearm)
    else (s, {})

/-- What the thread is answered when it calls an original body. -/
def entryAnswers (s : Runtime) (address : GuestAddress) (answer : EntryAnswer) :
    Runtime × EntryAnswers :=
  let (s, failure) := s.drainObservedWrites answer.enabled
  (s, { drained := failure
        insideCode := s.isInCodeRange address
        translation := answer.translation
        known := answer.known })

/-- The export whose thunk is at the address. -/
def thunkExport (s : Runtime) (address : GuestAddress) : Option OwnedExport :=
  s.imports.bind fun imports =>
    (s.guest.functions.find? (·.address = address)).bind fun function =>
      function.callbackContext.bind imports.exportAt

end Runtime

/-- A write of another thread is counted as well. -/
def GuestThread.countObserved (s : GuestThread) : GuestThread :=
  { s with
    statistics :=
      { s.statistics with observedExecutableWrites := s.statistics.observedExecutableWrites + 1 } }

/-! ## Frames -/

inductive FrameKind where
  | scope
  | interpreter
  | native (entry : NativeEntry)
  deriving DecidableEq, Repr

def Frame.kind : Frame → FrameKind
  | .scope _ => .scope
  | .interpreter => .interpreter
  | .native entry _ => .native entry

def kinds (frames : List Frame) : List FrameKind := frames.map Frame.kind

/-- What a frame runs. -/
inductive Running where
  | body (address : GuestAddress)
  | interpreter (address : GuestAddress)
  | hostOverride (call : HandlerCall)
  | guestOverride (call : HandlerCall)
  | hostImport (owned : OwnedExport)
  deriving DecidableEq, Repr

def Running.kind : Running → FrameKind
  | .body _ => .scope
  | .interpreter _ => .interpreter
  | .hostOverride _ => .native .hostOverride
  | .guestOverride _ => .native .guestOverride
  | .hostImport owned => .native (.hostImport owned.library owned.ordinal)

/-! ## Events -/

/-- The event calls into the context, which answers it. -/
def GuestEvent.Calls : GuestEvent → Bool
  | .execute .. | .callOriginal .. | .callOriginalBody .. => true
  | .callOverride | .callImport .. | .writeExecutable => true
  | _ => false

inductive ContextEvent where
  | loadModule (call : LoadCall)
  | installOverride (address : GuestAddress) (handler : Option NativeOverrideHandler)
      (context : Pointer) (accepted : Bool)
  | removeOverride (address : GuestAddress) (accepted : Bool)
  | notifyExecutableWrite (address : GuestAddress) (size : UInt32)
  | execute (address : GuestAddress) (arguments : List UInt64) (limits : ExecutionLimits)
      (answer : EntryAnswer)
  | callOriginal (address : GuestAddress) (arguments : List UInt64) (limits : ExecutionLimits)
      (answer : EntryAnswer)
  | callOriginalBody (address : GuestAddress) (arguments : List UInt64) (answer : EntryAnswer)
  /-- The running body calls an address that Xenia redirects. -/
  | callOverride (address : GuestAddress)
  /-- Xenia calls out from the thunk at the address, which the running body has called. -/
  | callImport (address : GuestAddress)
  /-- The watch sees a write of this thread or of another one. -/
  | observedWrite (virtualAddress length : UInt32) (own : Bool)
  | guest (event : GuestEvent)

structure RunningContext where
  runtime : Runtime
  thread : GuestThread := .idle
  loads : List (LoadCall × CallOutcome) := []
  installed : List (GuestAddress × NativeOverrideHandler × Pointer) := []
  running : List Running := []

namespace RunningContext

def start (memory : Memory UInt8) : RunningContext := { runtime := .fresh memory }

/-- The thread goes on; a frame that it enters runs `entered`. -/
def follow (s : RunningContext) (entered : Option Running) (thread : GuestThread) :
    RunningContext :=
  { s with
    thread := thread
    running :=
      if s.thread.frames.length < thread.frames.length then entered.toList ++ s.running
      else s.running.drop (s.thread.frames.length - thread.frames.length) }

/-- What was asked for, if it was installed. -/
def noteInstalled (s : RunningContext) (address : GuestAddress)
    (handler : Option NativeOverrideHandler) (context : Pointer) (failure : RuntimeFailure) :
    List (GuestAddress × NativeOverrideHandler × Pointer) :=
  match handler with
  | some handler =>
    if failure.Ok then (address, handler, context) :: s.installed else s.installed
  | none => s.installed

/-- What an original body's frame runs. -/
def original (address : GuestAddress) (answer : EntryAnswer) : Running :=
  if answer.translation.isNone then .interpreter address else .body address

/-- A call of the context's interface, which only native code makes. -/
def native (s : RunningContext) (s' : RunningContext) : Option RunningContext :=
  if ¬ s.thread.terminated ∧ nativeRuns s.thread.frames then some s' else none

/-- The registers hold a guest call's arguments. -/
def redirected (s : RunningContext) (address : GuestAddress) : Option HandlerCall :=
  s.runtime.overrides.dispatchGuest address s.thread.registers.arguments

def step (lookupHeap : GuestAddress → Bool) (s : RunningContext) (event : ContextEvent) :
    Option RunningContext :=
  match event with
  | .loadModule call =>
    match s.runtime.loadModule lookupHeap call with
    | .ok (runtime, outcome) => s.native { s with runtime, loads := (call, outcome) :: s.loads }
    | .error _ => none
  | .installOverride address handler context accepted =>
    let (runtime, failure) := s.runtime.installOverride address handler context accepted
    s.native { s with runtime, installed := s.noteInstalled address handler context failure }
  | .removeOverride address accepted =>
    s.native { s with runtime := (s.runtime.removeOverride address accepted).1 }
  | .notifyExecutableWrite address size =>
    s.native { s with runtime := (s.runtime.notifyExecutableWrite address size).1 }
  | .execute address arguments limits answer =>
    match s.runtime.overrides.dispatchHost address arguments with
    | some call =>
      (s.thread.step (.execute arguments limits true {})).map (s.follow (some (.hostOverride call)))
    | none =>
      let (runtime, answers) := s.runtime.entryAnswers address answer
      (s.thread.step (.execute arguments limits false answers)).map
        ({ s with runtime }.follow (some (original address answer)))
  | .callOriginal address arguments limits answer =>
    let (runtime, answers) := s.runtime.entryAnswers address answer
    (s.thread.step (.callOriginal arguments limits answers)).map
      ({ s with runtime }.follow (some (original address answer)))
  | .callOriginalBody address arguments answer =>
    let (runtime, answers) := s.runtime.entryAnswers address answer
    (s.thread.step (.callOriginalBody arguments answers)).map
      ({ s with runtime }.follow (some (original address answer)))
  | .callOverride address =>
    (s.redirected address).bind fun call =>
      (s.thread.step .callOverride).map (s.follow (some (.guestOverride call)))
  | .callImport address =>
    (s.runtime.thunkExport address).bind fun owned =>
      (s.thread.step (.callImport owned.library owned.ordinal)).map
        (s.follow (some (.hostImport owned)))
  | .observedWrite virtualAddress length own =>
    match s.runtime.observeWrite virtualAddress length with
    | none => some s
    | some runtime =>
      if own then (s.thread.step .writeExecutable).map ({ s with runtime }.follow none)
      else some { s with runtime, thread := s.thread.countObserved }
  | .guest event =>
    if event.Calls then none else (s.thread.step event).map (s.follow none)

end RunningContext

/-! ## The kinds of the thread's frames -/

section

variable (id : Nat) (f : Scope → Scope) (result : ExecutionResult) (frames : List Frame)

theorem kinds_modifyScope : kinds (modifyScope id f frames) = kinds frames := by
  rw [kinds, modifyScope, List.map_map]
  refine List.map_congr_left fun frame _ => ?_
  cases frame <;> rfl

theorem kinds_modifyInnermost : kinds (modifyInnermost f frames) = kinds frames := by
  induction frames with
  | nil => rfl
  | cons frame rest ih =>
    cases frame with
    | scope scope => rfl
    | native entry received => exact congrArg (_ :: ·) ih
    | interpreter => exact congrArg (_ :: ·) ih

theorem kinds_receive : kinds (receive result frames) = kinds frames := by
  cases frames with
  | nil => rfl
  | cons frame rest => cases frame <;> rfl

end

namespace GuestThread

variable {s s' : GuestThread}

theorem kinds_deliver (s : GuestThread) (result : ExecutionResult) :
    kinds (s.deliver result).frames = kinds s.frames := kinds_receive result s.frames

theorem kinds_finishOriginal (s : GuestThread) (result : ExecutionResult) :
    kinds (s.finishOriginal result).frames = kinds s.frames := kinds_receive result s.frames

theorem kinds_setExitReason (s : GuestThread) (pointer : Nat) (reason : GuestExecutionExitReason) :
    kinds (s.setExitReason pointer reason).frames = kinds s.frames :=
  kinds_modifyScope pointer _ s.frames

theorem kinds_addMark (s : GuestThread) (event : ExitEvent) :
    kinds (s.addMark event).frames = kinds s.frames := kinds_modifyInnermost _ s.frames

theorem kinds_markGuestOverrideFailed (s : GuestThread) (failure : RuntimeFailure) :
    kinds (s.markGuestOverrideFailed failure).frames = kinds s.frames := by
  unfold markGuestOverrideFailed
  split
  · dsimp only
    split
    · rw [kinds_setExitReason]
      exact (kinds_modifyScope _ _ _).trans (kinds_addMark s _)
    · exact kinds_addMark s _
  · rfl

theorem kinds_markGuestImportRefused (s : GuestThread) (refusal : GuestImportRefusal) :
    kinds (s.markGuestImportRefused refusal).frames = kinds s.frames := by
  unfold markGuestImportRefused
  split
  · dsimp only
    split
    · rw [kinds_setExitReason]
      exact (kinds_modifyScope _ _ _).trans (kinds_addMark s _)
    · exact kinds_addMark s _
  · rfl

theorem kinds_writeExecutable (s : GuestThread) :
    kinds s.writeExecutable.frames = kinds s.frames := by
  unfold writeExecutable markGuestExecutableWriteObserved
  dsimp only
  split
  · split
    · exact (kinds_setExitReason _ _ _).trans (kinds_addMark s _)
    · exact kinds_addMark s _
  · exact kinds_addMark s _

theorem kinds_exhaustBudget (s : GuestThread) :
    kinds s.exhaustBudget.frames = kinds s.frames := by
  unfold exhaustBudget
  split
  · split
    · exact (kinds_setExitReason _ _ _).trans (kinds_addMark s _)
    · rfl
  · rfl

theorem kinds_claimFault (s : GuestThread) (guard : GuestFaultGuard)
    (exception : GuestException) :
    kinds (s.claimFault guard exception).frames = kinds s.frames := by
  unfold claimFault
  split
  · rfl
  split
  · rfl
  split
  · rfl
  · exact (kinds_modifyScope _ _ _).trans (kinds_addMark s _)

theorem kinds_enterBlock (h : s.enterBlock = some s') : kinds s'.frames = kinds s.frames := by
  unfold enterBlock at h
  split at h
  · cases h
    rfl
  · split at h
    · cases h
    · split at h
      · cases h
      · cases h
        exact kinds_modifyScope _ _ _

/-- An event that calls nothing leaves the frames, or returns from the one on top. -/
theorem kinds_step {event : GuestEvent} (hcalls : event.Calls = false)
    (h : s.step event = some s') :
    kinds s'.frames = kinds s.frames ∨ kinds s'.frames = (kinds s.frames).tail := by
  cases step_cases h with
  | hostOverride => cases hcalls
  | execute => cases hcalls
  | callOriginal => cases hcalls
  | callOriginalBody => cases hcalls
  | callOverride => cases hcalls
  | callImport => cases hcalls
  | writeExecutable => cases hcalls
  | enterBlock hb he => exact .inl (kinds_enterBlock he)
  | exhaustBudget hb => exact .inl (kinds_exhaustBudget s)
  | compute hg => exact .inl rfl
  | fault => exact .inl (kinds_claimFault s _ _)
  | functionReturn hf =>
    rw [hf]
    exact .inr (kinds_finishOriginal _ _)
  | interpreterReturn hf =>
    rw [hf]
    exact .inr (kinds_deliver _ _)
  | handlerReturn hf =>
    rw [hf]
    exact .inr (kinds_deliver _ _)
  | overrideReturn hf =>
    rw [hf]
    refine .inr ?_
    unfold leaveGuestOverride
    split
    · rfl
    · exact kinds_markGuestOverrideFailed _ _
  | importReturn hf =>
    rw [hf]
    refine .inr ?_
    unfold leaveHostImport
    split
    · exact kinds_markGuestImportRefused _ _
    · rfl

theorem kinds_enterGuestFunction (s : GuestThread) (arguments : List UInt64)
    (limits : ExecutionLimits) :
    kinds (s.enterGuestFunction arguments limits).frames = kinds s.frames ∨
      kinds (s.enterGuestFunction arguments limits).frames = .scope :: kinds s.frames := by
  unfold enterGuestFunction
  split
  · exact .inl (kinds_finishOriginal _ _)
  · split
    · exact .inl (kinds_finishOriginal _ _)
    · exact .inr rfl

theorem kinds_enterInterpreter (s : GuestThread) (arguments : List UInt64) (known : Bool) :
    kinds (s.enterInterpreter arguments known).frames = kinds s.frames ∨
      kinds (s.enterInterpreter arguments known).frames = .interpreter :: kinds s.frames := by
  unfold enterInterpreter
  split
  · exact .inl (kinds_deliver _ _)
  · dsimp only
    split
    · exact .inl (kinds_deliver _ _)
    · exact .inr rfl

/-- An original body is entered only through the watch and inside the code. -/
theorem kinds_executeOriginal (s : GuestThread) (arguments : List UInt64)
    (limits : ExecutionLimits) (answers : EntryAnswers) :
    kinds (s.executeOriginal arguments limits answers).frames = kinds s.frames ∨
      answers.drained.Ok ∧ answers.insideCode = true ∧
        kinds (s.executeOriginal arguments limits answers).frames =
          (if answers.translation.isNone then .interpreter else .scope) :: kinds s.frames := by
  unfold executeOriginal
  split
  · exact .inl (kinds_deliver _ _)
  · next hdrained =>
    split
    · exact .inl (kinds_deliver _ _)
    · next hinside =>
      have hd := Decidable.not_not.1 hdrained
      have hi := Decidable.not_not.1 hinside
      cases answers.translation with
      | none =>
        exact (kinds_enterInterpreter _ arguments answers.known).imp_right fun h => ⟨hd, hi, h⟩
      | some emitted =>
        cases emitted with
        | none => exact (kinds_enterGuestFunction _ arguments limits).imp_right fun h => ⟨hd, hi, h⟩
        | some emitted =>
          exact (kinds_enterGuestFunction _ arguments limits).imp_right fun h => ⟨hd, hi, h⟩

end GuestThread

end X360Port
