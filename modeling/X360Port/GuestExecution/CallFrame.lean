import X360Port.GuestExecution.Marks

/-!
# The caller's stack pointer and link register

A `CallLedger` notes `r1` and `lr` when native code calls into the runtime and
again when the call has answered. A translated body runs inside a
`GuestCallFrame`, which puts both back however the body ends. The interpreter
runs without one: what it leaves in the two registers is what the caller finds.
-/

namespace X360Port

open Library

/-- `r1` and `lr`. -/
structure Linkage where
  stackPointer : UInt64
  linkRegister : UInt64
  deriving DecidableEq, Repr

namespace GuestRegisters

def linkage (registers : GuestRegisters) : Linkage := ⟨registers.stackPointer, registers.lr⟩

@[simp] theorem linkage_setArguments (registers : GuestRegisters) (arguments : List UInt64) :
    (registers.setArguments arguments).linkage = registers.linkage := by
  simp [linkage, setArguments, stackPointer]

@[simp] theorem linkage_setResult (registers : GuestRegisters) (value : UInt64) :
    (registers.setResult value).linkage = registers.linkage := by
  simp [linkage, setResult, stackPointer]

@[simp] theorem linkage_leaveFrame (registers : GuestRegisters)
    (stackPointer linkRegister : UInt64) :
    (registers.leaveFrame stackPointer linkRegister).linkage = ⟨stackPointer, linkRegister⟩ := by
  simp [linkage, leaveFrame, setStackPointer, GuestRegisters.stackPointer]

theorem linkage_prepareGuestArguments {registers registers' : GuestRegisters}
    {arguments : List UInt64} (h : prepareGuestArguments registers arguments = .ok registers') :
    registers'.linkage = registers.linkage := by
  unfold prepareGuestArguments at h
  split at h
  · simp at h
  · rw [← Except.ok.inj h]
    exact linkage_setArguments registers arguments

end GuestRegisters

/-- A call that has answered. -/
structure FinishedCall where
  before : Linkage
  after : Linkage
  deriving DecidableEq, Repr

/-- A thread with the calls in progress, innermost first, and the ones that have answered. -/
structure CallLedger where
  thread : GuestThread
  pending : List Linkage := []
  finished : List FinishedCall := []

/-- Native code calls into the runtime. -/
def GuestEvent.callsRuntime : GuestEvent → Bool
  | .execute _ _ _ _ => true
  | .callOriginal _ _ _ => true
  | .callOriginalBody _ _ => true
  | _ => false

/-- The event ends the call on top of the stack. -/
def GuestEvent.endsCall (frames : List Frame) : GuestEvent → Bool
  | .functionReturn _ => true
  | .interpreterReturn _ => true
  | .handlerReturn _ =>
    match frames with
    | .native .hostOverride _ :: _ => true
    | _ => false
  | _ => false

namespace CallLedger

/-- The host's thread with any registers. -/
def start (registers : GuestRegisters) : CallLedger :=
  { thread := { GuestThread.idle with registers := registers } }

def record (l : CallLedger) (event : GuestEvent) (thread : GuestThread) : CallLedger :=
  let before := l.thread.registers.linkage
  let after := thread.registers.linkage
  if event.callsRuntime then
    if l.thread.frames.length < thread.frames.length then
      ⟨thread, before :: l.pending, l.finished⟩
    else
      -- the call was answered at once
      ⟨thread, l.pending, ⟨before, after⟩ :: l.finished⟩
  else if event.endsCall l.thread.frames then
    match l.pending with
    | before :: pending => ⟨thread, pending, ⟨before, after⟩ :: l.finished⟩
    | [] => ⟨thread, [], l.finished⟩
  else ⟨thread, l.pending, l.finished⟩

def step (l : CallLedger) (event : GuestEvent) : Option CallLedger :=
  (l.thread.step event).map (l.record event)

/-- Every call that has answered left the two registers as it found them. -/
def Restored (l : CallLedger) : Prop := ∀ call ∈ l.finished, call.after = call.before

/-- Between the host's calls the two registers are those it started with. -/
def Undrifted (registers : GuestRegisters) (l : CallLedger) : Prop :=
  l.thread.frames = [] → l.thread.registers.linkage = registers.linkage

/-- The interpreter returns with the two registers that its call began with. -/
def InterpreterRestores (l : CallLedger) (event : GuestEvent) : Prop :=
  match event with
  | .interpreterReturn _ => l.pending.head? = some l.thread.registers.linkage
  | _ => True

instance InterpreterRestores.decidable (l : CallLedger) :
    (event : GuestEvent) → Decidable (l.InterpreterRestores event)
  | .interpreterReturn _ =>
    inferInstanceAs (Decidable (l.pending.head? = some l.thread.registers.linkage))
  | .execute .. | .callOriginal .. | .callOriginalBody .. | .enterBlock | .exhaustBudget
  | .compute _ | .callOverride | .callImport .. | .writeExecutable | .fault ..
  | .functionReturn _ | .handlerReturn _ | .importReturn _ => .isTrue trivial

end CallLedger

/-! ## What a step does to the calls -/

namespace GuestThread

def calls (s : GuestThread) : List CallFrame := s.frames.map Frame.call

/-- A step, as far as frames and the two registers go. -/
inductive CallStep (s : GuestThread) : GuestEvent → GuestThread → Prop
  | aside {event : GuestEvent} {s' : GuestThread} (hcall : event.callsRuntime = false)
      (hend : event.endsCall s.frames = false) (hc : s'.calls = s.calls)
      (hl : s'.registers.linkage = s.registers.linkage) : CallStep s event s'
  | computed {event : GuestEvent} {s' : GuestThread} {frame : CallFrame} {rest : List CallFrame}
      (hcall : event.callsRuntime = false) (hend : event.endsCall s.frames = false)
      (hs : s.calls = frame :: rest) (hframe : frame ≠ .handler ∧ frame ≠ .entered)
      (hc : s'.calls = s.calls) : CallStep s event s'
  | answered {event : GuestEvent} {s' : GuestThread} (hcall : event.callsRuntime = true)
      (hc : s'.calls = s.calls) (hl : s'.registers.linkage = s.registers.linkage) :
      CallStep s event s'
  | called {event : GuestEvent} {s' : GuestThread} (hcall : event.callsRuntime = true)
      (hc : s'.calls =
        .translated s.registers.linkage.stackPointer s.registers.linkage.linkRegister :: s.calls) :
      CallStep s event s'
  | interprets {event : GuestEvent} {s' : GuestThread} (hcall : event.callsRuntime = true)
      (hc : s'.calls = .interpreted :: s.calls) : CallStep s event s'
  | handles {event : GuestEvent} {s' : GuestThread} (hcall : event.callsRuntime = true)
      (hc : s'.calls = .handler :: s.calls)
      (hl : s'.registers.linkage = s.registers.linkage) : CallStep s event s'
  | enters {event : GuestEvent} {s' : GuestThread} (hcall : event.callsRuntime = false)
      (hend : event.endsCall s.frames = false) (hc : s'.calls = .entered :: s.calls)
      (hl : s'.registers.linkage = s.registers.linkage) : CallStep s event s'
  | leaves {event : GuestEvent} {s' : GuestThread} (hcall : event.callsRuntime = false)
      (hend : event.endsCall s.frames = false) (hc : s.calls = .entered :: s'.calls)
      (hl : s'.registers.linkage = s.registers.linkage) : CallStep s event s'
  | returned {executed : Bool} {s' : GuestThread} {stackPointer linkRegister : UInt64}
      (hc : s.calls = .translated stackPointer linkRegister :: s'.calls)
      (hl : s'.registers.linkage = ⟨stackPointer, linkRegister⟩) :
      CallStep s (.functionReturn executed) s'
  | interpreted {answer : InterpreterAnswer} {s' : GuestThread}
      (hc : s.calls = .interpreted :: s'.calls)
      (hl : s'.registers.linkage = s.registers.linkage) : CallStep s (.interpreterReturn answer) s'
  | handled {result : ExecutionResult} {s' : GuestThread}
      (hend : (GuestEvent.handlerReturn result).endsCall s.frames = true)
      (hc : s.calls = .handler :: s'.calls)
      (hl : s'.registers.linkage = s.registers.linkage) : CallStep s (.handlerReturn result) s'

section

variable {s s' : GuestThread} {event : GuestEvent}

theorem calls_deliver (s : GuestThread) (result : ExecutionResult) :
    (s.deliver result).calls = s.calls := call_receive result s.frames

theorem calls_finishOriginal (s : GuestThread) (result : ExecutionResult) :
    (s.finishOriginal result).calls = s.calls := call_receive result s.frames

/-- A step that only writes marks. -/
theorem CallStep.of_onlyMarks (h : s.OnlyMarks s') (hcall : event.callsRuntime = false)
    (hend : event.endsCall s.frames = false) : CallStep s event s' :=
  .aside hcall hend h.calls (congrArg GuestRegisters.linkage h.registers)

/-- Native code that guest code entered goes back to it. -/
theorem CallStep.of_entered {rest : List Frame} (hc : s.calls = .entered :: rest.map Frame.call)
    (hcall : event.callsRuntime = false) (hend : event.endsCall s.frames = false)
    (h : OnlyMarks { s with frames := rest } s') : CallStep s event s' := by
  refine .leaves hcall hend ?_ (congrArg GuestRegisters.linkage h.registers)
  exact hc.trans (congrArg _ h.calls.symm)

theorem enterGuestFunction_callStep (hcall : event.callsRuntime = true)
    (arguments : List UInt64) (limits : ExecutionLimits) :
    CallStep s event (s.enterGuestFunction arguments limits) := by
  unfold enterGuestFunction
  split
  · exact .answered hcall (calls_finishOriginal s _) rfl
  · next registers hprepare =>
    have hl := GuestRegisters.linkage_prepareGuestArguments hprepare
    split
    · exact .answered hcall (calls_finishOriginal _ _) hl
    · refine .called hcall ?_
      rw [← hl]
      rfl

theorem enterInterpreter_callStep (hcall : event.callsRuntime = true) (arguments : List UInt64)
    (known : Bool) : CallStep s event (s.enterInterpreter arguments known) := by
  unfold enterInterpreter
  split
  · exact .answered hcall (calls_deliver s _) rfl
  · next registers hprepare =>
    have hl := GuestRegisters.linkage_prepareGuestArguments hprepare
    simp only
    split
    · exact .answered hcall (calls_deliver _ _) hl
    · exact .interprets hcall rfl

/-- The counters of the thread that a call starts from do not matter. -/
theorem CallStep.of_statistics {statistics : JitStatistics}
    (h : CallStep { s with statistics := statistics } event s') : CallStep s event s' := by
  cases h with
  | aside hcall hend hc hl => exact .aside hcall hend hc hl
  | computed hcall hend hs hframe hc => exact .computed hcall hend hs hframe hc
  | answered hcall hc hl => exact .answered hcall hc hl
  | called hcall hc => exact .called hcall hc
  | interprets hcall hc => exact .interprets hcall hc
  | handles hcall hc hl => exact .handles hcall hc hl
  | enters hcall hend hc hl => exact .enters hcall hend hc hl
  | leaves hcall hend hc hl => exact .leaves hcall hend hc hl
  | returned hc hl => exact .returned hc hl
  | interpreted hc hl => exact .interpreted hc hl
  | handled hend hc hl => exact .handled hend hc hl

theorem executeOriginal_callStep (hcall : event.callsRuntime = true) (arguments : List UInt64)
    (limits : ExecutionLimits) (answers : EntryAnswers) :
    CallStep s event (s.executeOriginal arguments limits answers) := by
  unfold executeOriginal
  split
  · exact .answered hcall (calls_deliver s _) rfl
  · split
    · exact .answered hcall (calls_deliver s _) rfl
    · simp only
      split
      · exact (enterInterpreter_callStep hcall arguments answers.known).of_statistics
      · exact enterGuestFunction_callStep hcall arguments limits
      · exact (enterGuestFunction_callStep hcall arguments limits).of_statistics

/-- Guest code that computes is a body or the interpreter. -/
theorem calls_of_guestRuns (h : guestRuns s.frames = true) :
    ∃ frame rest, s.calls = frame :: rest ∧
      frame ≠ CallFrame.handler ∧ frame ≠ CallFrame.entered := by
  unfold calls
  rcases hf : s.frames with _ | ⟨_ | _ | _, rest⟩
  · rw [hf] at h
    cases h
  · exact ⟨_, _, rfl, nofun, nofun⟩
  · rw [hf] at h
    cases h
  · exact ⟨_, _, rfl, nofun, nofun⟩

theorem calls_of_entered {frame : Frame} {rest : List Frame} (hf : s.frames = frame :: rest)
    (hentered : frame.call = .entered) : s.calls = .entered :: rest.map Frame.call := by
  rw [calls, hf, List.map_cons, hentered]

/-- **What a step does to the calls.** -/
theorem step_callStep (hs : s.step event = some s') : CallStep s event s' := by
  cases step_cases hs with
  | hostOverride => exact .handles rfl rfl rfl
  | execute => exact executeOriginal_callStep rfl _ _ _
  | callOriginal => exact (executeOriginal_callStep rfl _ _ _).of_statistics
  | callOriginalBody => exact (executeOriginal_callStep rfl _ _ _).of_statistics
  | enterBlock _ h => exact .of_onlyMarks (s.onlyMarks_enterBlock h) rfl rfl
  | exhaustBudget => exact .of_onlyMarks s.onlyMarks_exhaustBudget rfl rfl
  | compute hruns =>
    obtain ⟨frame, rest, hf, hframe⟩ := calls_of_guestRuns hruns
    exact .computed rfl rfl hf hframe rfl
  | callOverride => exact .enters rfl rfl rfl rfl
  | callImport => exact .enters rfl rfl rfl rfl
  | writeExecutable =>
    have hmarks := s.onlyMarks_markGuestExecutableWriteObserved
    exact .aside rfl rfl hmarks.calls (congrArg GuestRegisters.linkage hmarks.registers)
  | fault => exact .of_onlyMarks (s.onlyMarks_claimFault _ _) rfl rfl
  | @functionReturn executed scope rest hf =>
    have hc : s.calls = .translated scope.previousStackPointer scope.previousLinkRegister ::
        (s.leaveGuestFunction scope rest executed).calls := by
      rw [leaveGuestFunction, calls_finishOriginal, calls, hf]
      rfl
    exact .returned hc (GuestRegisters.linkage_leaveFrame _ _ _)
  | interpreterReturn hf =>
    refine .interpreted ?_ rfl
    rw [leaveInterpreter, calls_deliver, calls, hf]
    rfl
  | handlerReturn hf =>
    refine .handled (by rw [hf]; rfl) ?_ rfl
    rw [calls_deliver, calls, hf]
    rfl
  | @overrideReturn result received rest hf =>
    have hend : (GuestEvent.handlerReturn result).endsCall s.frames = false := by
      rw [hf]
      rfl
    unfold leaveGuestOverride
    split
    · exact .leaves rfl hend (calls_of_entered hf rfl) (GuestRegisters.linkage_setResult _ _)
    · exact .of_entered (calls_of_entered hf rfl) rfl hend (onlyMarks_markGuestOverrideFailed _ _)
  | importReturn hf =>
    unfold leaveHostImport
    split
    · exact .of_entered (calls_of_entered hf rfl) rfl rfl (onlyMarks_markGuestImportRefused _ _)
    · exact .leaves rfl rfl (calls_of_entered hf rfl) (GuestRegisters.linkage_setResult _ _)

end

end GuestThread

/-! ## The calls in progress -/

/-- Below each frame lies what its call began with; only guest code may have changed the two
registers since. -/
def Keeps (first : Linkage) : List CallFrame → Linkage → List Linkage → Prop
  | [], now, pending => pending = [] ∧ now = first
  | .translated stackPointer linkRegister :: rest, _, before :: pending =>
    before = ⟨stackPointer, linkRegister⟩ ∧ Keeps first rest before pending
  | .interpreted :: rest, _, before :: pending => Keeps first rest before pending
  | .handler :: rest, now, before :: pending => now = before ∧ Keeps first rest before pending
  | .entered :: rest, now, pending => Keeps first rest now pending
  | _, _, [] => False

theorem Keeps.compute {first now now' : Linkage} {frame : CallFrame} {rest : List CallFrame}
    {pending : List Linkage} (hframe : frame ≠ .handler ∧ frame ≠ .entered)
    (h : Keeps first (frame :: rest) now pending) : Keeps first (frame :: rest) now' pending := by
  cases frame with
  | translated stackPointer linkRegister =>
    cases pending with
    | nil => exact h
    | cons before pending => exact h
  | interpreted =>
    cases pending with
    | nil => exact h
    | cons before pending => exact h
  | handler => exact absurd rfl hframe.1
  | entered => exact absurd rfl hframe.2

/-- A call is pending below every frame but one that guest code entered. -/
theorem Keeps.pop {first now : Linkage} {frame : CallFrame} {rest : List CallFrame}
    {pending : List Linkage} (h : Keeps first (frame :: rest) now pending)
    (hframe : frame ≠ .entered) : ∃ before older, pending = before :: older := by
  cases pending with
  | nil => cases frame <;> first | exact h.elim | exact absurd rfl hframe
  | cons before older => exact ⟨before, older, rfl⟩

namespace CallLedger

/-- The ledger's calls in progress are those of the thread's stack. -/
def InStep (registers : GuestRegisters) (l : CallLedger) : Prop :=
  Keeps registers.linkage l.thread.calls l.thread.registers.linkage l.pending

section

variable {registers : GuestRegisters} {l l' : CallLedger} {event : GuestEvent}

theorem InStep.undrifted (h : l.InStep registers) : l.Undrifted registers := by
  intro hf
  rw [InStep, GuestThread.calls, hf] at h
  exact h.2

theorem length_calls (s : GuestThread) : s.calls.length = s.frames.length :=
  List.length_map Frame.call

theorem record_pushed {thread : GuestThread} {frame : CallFrame}
    (hcall : event.callsRuntime = true) (hc : thread.calls = frame :: l.thread.calls) :
    l.record event thread =
      ⟨thread, l.thread.registers.linkage :: l.pending, l.finished⟩ := by
  have hlength := congrArg List.length hc
  rw [List.length_cons, length_calls, length_calls] at hlength
  simp only [record, hcall, if_true, hlength, Nat.lt_succ_self]

theorem record_answered {thread : GuestThread} (hcall : event.callsRuntime = true)
    (hc : thread.calls = l.thread.calls) :
    l.record event thread = ⟨thread, l.pending,
      ⟨l.thread.registers.linkage, thread.registers.linkage⟩ :: l.finished⟩ := by
  have hlength := congrArg List.length hc
  rw [length_calls, length_calls] at hlength
  simp only [record, hcall, if_true, hlength, Nat.lt_irrefl, if_false]

theorem record_aside (thread : GuestThread) (hcall : event.callsRuntime = false)
    (hend : event.endsCall l.thread.frames = false) :
    l.record event thread = ⟨thread, l.pending, l.finished⟩ := by
  simp only [record, hcall, hend, Bool.false_eq_true, if_false]

theorem record_ended (thread : GuestThread) {before : Linkage} {pending : List Linkage}
    (hcall : event.callsRuntime = false) (hend : event.endsCall l.thread.frames = true)
    (hp : l.pending = before :: pending) :
    l.record event thread =
      ⟨thread, pending, ⟨before, thread.registers.linkage⟩ :: l.finished⟩ := by
  simp only [record, hcall, hend, hp, Bool.false_eq_true, if_false, if_true]

/-- The calls that a step ends restore the two registers exactly when the interpreter does, and
then the ledger stays in step. -/
structure Finishes (registers : GuestRegisters) (l : CallLedger) (event : GuestEvent)
    (l' : CallLedger) (ended : List FinishedCall) : Prop where
  finished : l'.finished = ended ++ l.finished
  restores : l.InterpreterRestores event ↔ ∀ call ∈ ended, call.after = call.before
  inStep : l.InterpreterRestores event → l'.InStep registers

theorem finishes_none {thread : GuestThread} {pending : List Linkage}
    (hr : l.InterpreterRestores event)
    (hrecord : l.record event thread = ⟨thread, pending, l.finished⟩)
    (hk : Keeps registers.linkage thread.calls thread.registers.linkage pending) :
    Finishes registers l event (l.record event thread) [] := by
  rw [hrecord]
  exact ⟨rfl, iff_of_true hr nofun, fun _ => hk⟩

theorem finishes_restored {thread : GuestThread} {pending : List Linkage} {call : FinishedCall}
    (hr : l.InterpreterRestores event)
    (hrecord : l.record event thread = ⟨thread, pending, call :: l.finished⟩)
    (hcall : call.after = call.before)
    (hk : Keeps registers.linkage thread.calls thread.registers.linkage pending) :
    Finishes registers l event (l.record event thread) [call] := by
  rw [hrecord]
  refine ⟨rfl, iff_of_true hr ?_, fun _ => hk⟩
  rw [List.forall_mem_singleton]
  exact hcall

/-- Only the interpreter's return asks for anything. -/
theorem interpreterRestores_of_not_return (h : ∀ answer, event ≠ .interpreterReturn answer) :
    l.InterpreterRestores event := by
  unfold InterpreterRestores
  split
  · exact absurd rfl (h _)
  · trivial

theorem interpreterRestores_of_callsRuntime (hcall : event.callsRuntime = true) :
    l.InterpreterRestores event := by
  refine interpreterRestores_of_not_return fun answer heq => ?_
  subst heq
  cases hcall

theorem interpreterRestores_of_not_endsCall (hend : event.endsCall l.thread.frames = false) :
    l.InterpreterRestores event := by
  refine interpreterRestores_of_not_return fun answer heq => ?_
  subst heq
  cases hend

/-- **One step.** -/
theorem record_cases {thread : GuestThread} (h : l.InStep registers)
    (hs : GuestThread.CallStep l.thread event thread) :
    ∃ ended, Finishes registers l event (l.record event thread) ended := by
  unfold InStep at h
  cases hs with
  | aside hcall hend hc hl =>
    refine ⟨[], finishes_none (interpreterRestores_of_not_endsCall hend)
      (record_aside thread hcall hend) ?_⟩
    rw [hc, hl]
    exact h
  | computed hcall hend hs hframe hc =>
    refine ⟨[], finishes_none (interpreterRestores_of_not_endsCall hend)
      (record_aside thread hcall hend) ?_⟩
    rw [hc, hs]
    rw [hs] at h
    exact h.compute hframe
  | answered hcall hc hl =>
    refine ⟨_, finishes_restored (interpreterRestores_of_callsRuntime hcall)
      (record_answered hcall hc) hl ?_⟩
    rw [hc, hl]
    exact h
  | called hcall hc =>
    refine ⟨[], finishes_none (interpreterRestores_of_callsRuntime hcall)
      (record_pushed hcall hc) ?_⟩
    rw [hc]
    exact ⟨rfl, h⟩
  | interprets hcall hc =>
    refine ⟨[], finishes_none (interpreterRestores_of_callsRuntime hcall)
      (record_pushed hcall hc) ?_⟩
    rw [hc]
    exact h
  | handles hcall hc hl =>
    refine ⟨[], finishes_none (interpreterRestores_of_callsRuntime hcall)
      (record_pushed hcall hc) ?_⟩
    rw [hc]
    exact ⟨hl, h⟩
  | enters hcall hend hc hl =>
    refine ⟨[], finishes_none (interpreterRestores_of_not_endsCall hend)
      (record_aside thread hcall hend) ?_⟩
    rw [hc, hl]
    exact h
  | leaves hcall hend hc hl =>
    refine ⟨[], finishes_none (interpreterRestores_of_not_endsCall hend)
      (record_aside thread hcall hend) ?_⟩
    rw [hc] at h
    rw [hl]
    exact h
  | returned hc hl =>
    rw [hc] at h
    obtain ⟨before, pending, hp⟩ := h.pop nofun
    rw [hp] at h
    obtain ⟨rfl, hrest⟩ := h
    refine ⟨_, finishes_restored trivial (record_ended thread rfl rfl hp) hl ?_⟩
    rw [hl]
    exact hrest
  | @interpreted answer _ hc hl =>
    rw [hc] at h
    obtain ⟨before, pending, hp⟩ := h.pop nofun
    rw [hp] at h
    have hiff : l.InterpreterRestores (.interpreterReturn answer) ↔
        thread.registers.linkage = before := by
      rw [hl]
      simp only [InterpreterRestores, hp, List.head?_cons, Option.some.injEq]
      exact eq_comm
    rw [record_ended thread rfl rfl hp]
    refine ⟨[_], rfl, ?_, fun hc => ?_⟩
    · rw [List.forall_mem_singleton]
      exact hiff
    · show Keeps _ thread.calls thread.registers.linkage pending
      rw [hiff.1 hc]
      exact h
  | handled hend hc hl =>
    rw [hc] at h
    obtain ⟨before, pending, hp⟩ := h.pop nofun
    rw [hp] at h
    obtain ⟨hnow, hrest⟩ := h
    refine ⟨_, finishes_restored trivial (record_ended thread rfl hend hp) (hl.trans hnow) ?_⟩
    rw [hl, hnow]
    exact hrest

theorem step_iff (h : l.InStep registers) (hr : l.Restored) (hs : l.step event = some l') :
    (l.InterpreterRestores event ↔ l'.Restored) ∧
      (l.InterpreterRestores event → l'.InStep registers) := by
  rw [step, Option.map_eq_some_iff] at hs
  obtain ⟨thread, hthread, rfl⟩ := hs
  obtain ⟨ended, hfinished, hiff, hstep⟩ := record_cases h (GuestThread.step_callStep hthread)
  refine ⟨hiff.trans ?_, hstep⟩
  rw [Restored, hfinished, List.forall_mem_append]
  exact (and_iff_left hr).symm

/-- **Main result.** In a run every call leaves `r1` and `lr` as it found them exactly when the
interpreter does in each call that it runs; the stack has not drifted then. -/
theorem interpreterRestores_iff_restored (registers : GuestRegisters) {events : List GuestEvent}
    {last : CallLedger} (hplay : play step (start registers) events = some last) :
    EveryStep step InterpreterRestores (start registers) events ↔
      ∀ front, front <+: events → ∀ l, play step (start registers) front = some l →
        l.Restored ∧ l.Undrifted registers := by
  have hstart : (start registers).InStep registers := ⟨rfl, rfl⟩
  refine everyStep_iff_prefixes (I := InStep registers) (fun l event l' h hr hs hr' => ?_)
    (fun l event l' h hr hs => ?_) hstart ⟨nofun, hstart.undrifted⟩ hplay
  · obtain ⟨hiff, hkeep⟩ := step_iff h hr.1 hs
    exact hkeep (hiff.2 hr'.1)
  · obtain ⟨hiff, hkeep⟩ := step_iff h hr.1 hs
    exact ⟨fun hc => ⟨hiff.1 hc, (hkeep hc).undrifted⟩, fun hr' => hiff.2 hr'.1⟩

end

/-- The host calls a function that has no translation; the interpreter stops in it with
`registers`. -/
def interpretedCall (registers : GuestRegisters) : List GuestEvent :=
  [.execute [] {} false { translation := none }, .compute registers,
    .interpreterReturn ⟨.unsupportedInstruction, 0x82000004, 0, 1⟩]

/-- A stack frame is open: `stwu r1, -16(r1)`. -/
def openFrame : GuestRegisters := GuestRegisters.setStackPointer {} (0 - 16)

theorem interpreterRestores_iff_restored_leaf : ∃ last,
    play step (start {}) (interpretedCall (GuestRegisters.setResult {} 7)) = some last ∧
      last.Restored ∧ last.Undrifted {} ∧ last.thread.frames = [] := by
  have hrestores : EveryStep step InterpreterRestores (start {})
      (interpretedCall (GuestRegisters.setResult {} 7)) := by decide +kernel
  obtain ⟨hrestored, hundrifted⟩ :=
    (interpreterRestores_iff_restored {} rfl).1 hrestores _ List.prefix_rfl _ rfl
  exact ⟨_, rfl, hrestored, hundrifted, rfl⟩

/-- The interpreter stops inside a frame: the caller's stack pointer is not put back. -/
theorem not_restored_interpreted : ¬ ∀ (registers : GuestRegisters) (events : List GuestEvent)
    (last : CallLedger), play step (start registers) events = some last → last.Restored := by
  intro hall
  have h := hall {} (interpretedCall openFrame) _ rfl _ List.mem_cons_self
  exact absurd h (by decide +kernel)

end CallLedger

end X360Port
