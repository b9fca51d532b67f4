import X360Port.GuestExecution.CallFrame
import X360Port.SystemSession.Overrides

/-!
# The guest threads of a title

A `SystemTitle` is a session with the guest threads of the titles that it has
launched. The threads run at the same time, in any order; an override runs on
the thread that called it, and so does the original body that it calls. A main
thread is suspended when it is made, and once more where its title is refused.

`pending` and `finished` of a thread are history: `r1` and `lr` when a handler
or an original body was called, and again when it had returned. So is `refused`.
-/

namespace X360Port

open Library

/-- What stands on the host stack of a guest thread. -/
inductive TitleFrame where
  /-- The thread's own body. -/
  | body
  /-- An original body, inside a `GuestCallFrame`. -/
  | original (stackPointer linkRegister : UInt64)
  /-- A handler, with the answers of the original bodies that it has called. -/
  | handler (call : HandlerCall) (received : List ExecutionResult)
  deriving DecidableEq, Repr

structure TitleThread where
  main : Bool
  /-- The title whose code it runs. -/
  title : LoadedTitle
  suspendCount : Nat
  registers : GuestRegisters
  frames : List TitleFrame := [.body]
  /-- The session has refused the title. -/
  refused : Bool := false
  pending : List Linkage := []
  finished : List FinishedCall := []

inductive ThreadEvent where
  | compute (registers : GuestRegisters)
  /-- A call that Xenia redirects. -/
  | call (address : GuestAddress)
  /-- `translated` says whether the processor has a translation of the body. -/
  | callOriginalBody (arguments : List UInt64) (translated : Bool)
  | originalReturn (executed : Bool)
  | handlerReturn (value : UInt64)
  | exit
  deriving DecidableEq, Repr

def originalNotTranslated : RuntimeFailure :=
  ⟨.overrideNotInstalled, "the overridden guest body has no translated code to re-enter"⟩

def originalRefused : RuntimeFailure :=
  ⟨.executionFailed, "Xenia's translated original body refused execution"⟩

namespace TitleThread

def guestRuns (t : TitleThread) : Bool :=
  match t.frames with
  | .body :: _ | .original _ _ :: _ => true
  | _ => false

/-- `DispatchGuest` calls the handler. -/
def enterHandler (t : TitleThread) (call : HandlerCall) : TitleThread :=
  { t with frames := .handler call [] :: t.frames, pending := t.registers.linkage :: t.pending }

/-- The call on top of `rest` is over, and leaves `registers`. -/
def returnTo (t : TitleThread) (rest : List TitleFrame) (registers : GuestRegisters) :
    TitleThread :=
  { t with
    registers := registers
    frames := rest
    pending := t.pending.drop 1
    finished := (t.pending.head?.map (FinishedCall.mk · registers.linkage)).toList ++ t.finished }

/-- The end of `DispatchGuest` where the handler has answered. -/
def leaveHandler (t : TitleThread) (rest : List TitleFrame) (value : UInt64) : TitleThread :=
  t.returnTo rest (t.registers.setResult value)

/-- `CallOriginalBody` answers its handler. -/
def answer (t : TitleThread) (result : ExecutionResult) : TitleThread :=
  match t.frames with
  | .handler call received :: rest =>
    { t with frames := .handler call (received ++ [result]) :: rest }
  | _ => t

/-- `CallOriginalBody`, up to the body, on the thread that entered the override. -/
def callOriginalBody (t : TitleThread) (arguments : List UInt64) (translated : Bool) :
    TitleThread :=
  if ¬ translated then t.answer ⟨originalNotTranslated, 0⟩
  else
    match prepareGuestArguments t.registers arguments with
    | .error failure => t.answer ⟨failure, 0⟩
    | .ok registers =>
      { t with
        registers := registers.enterFrame
        frames := .original registers.stackPointer registers.lr :: t.frames
        pending := t.registers.linkage :: t.pending }

/-- The end of `CallOriginalBody`, and of its `GuestCallFrame`. -/
def leaveOriginal (t : TitleThread) (rest : List TitleFrame)
    (stackPointer linkRegister : UInt64) (executed : Bool) : TitleThread :=
  (t.returnTo rest (t.registers.leaveFrame stackPointer linkRegister)).answer
    (if executed then ⟨{}, t.registers.result⟩ else ⟨originalRefused, 0⟩)

def step (overrides : OverrideDispatch) (t : TitleThread) : ThreadEvent → Option TitleThread
  | .compute registers => if t.guestRuns then some { t with registers } else none
  | .call address =>
    if t.guestRuns then
      (overrides.dispatchGuest address t.registers.arguments).map t.enterHandler
    else none
  | .callOriginalBody arguments translated =>
    match t.frames with
    | .handler _ _ :: _ => some (t.callOriginalBody arguments translated)
    | _ => none
  | .originalReturn executed =>
    match t.frames with
    | .original stackPointer linkRegister :: rest =>
      some (t.leaveOriginal rest stackPointer linkRegister executed)
    | _ => none
  | .handlerReturn value =>
    match t.frames with
    | .handler _ _ :: rest => some (t.leaveHandler rest value)
    | _ => none
  | .exit =>
    match t.frames with
    | [.body] => some { t with frames := [] }
    | _ => none

/-- The calls of the handlers that are running. -/
def handlerCalls (t : TitleThread) : List HandlerCall :=
  t.frames.filterMap fun
    | .handler call _ => some call
    | _ => none

end TitleThread

/-! ## The title -/

inductive TitleEvent where
  /-- `resumed` says whether Xenia gets to resume the main thread, which it starts with
  `registers`. -/
  | launch (path : LaunchPath) (registers : GuestRegisters) (resumed : Bool)
  | run (thread : Nat) (event : ThreadEvent)
  /-- The handler on a thread returns. -/
  | overrideReturn (thread : Nat) (result : ExecutionResult)
  /-- Guest code makes a thread, and suspends and resumes one. -/
  | spawn (thread : Nat) (registers : GuestRegisters) (suspended : Bool)
  | suspend (thread target : Nat)
  | resume (thread target : Nat)
  /-- The host destroys the session. -/
  | destroy

inductive ProcessEnd where
  /-- `FatalError`. -/
  | fatal (message : String)
  /-- The session is gone, with the status that it ended the process with, if it did. -/
  | destroyed (status : Option Nat)
  deriving DecidableEq, Repr

structure SystemTitle where
  session : SystemSession
  threads : List TitleThread := []
  nativeOverrideCalls : UInt64 := 0
  ended : Option ProcessEnd := none

/-- `EndTitleAfterOverrideFailure`. -/
def endTitleAfterOverrideFailure (failure : RuntimeFailure) : ProcessEnd :=
  .fatal ("x360port: a native override failed on a guest thread: " ++ failure.detail)

namespace SystemTitle

/-- `HoldMainThread`: every main thread is suspended once more. -/
def holdMainThread (threads : List TitleThread) : List TitleThread :=
  threads.map fun t => if t.main then { t with suspendCount := t.suspendCount + 1 } else t

def resumeThread (threads : List TitleThread) (target : Nat) : List TitleThread :=
  threads.modify target fun t => { t with suspendCount := t.suspendCount - 1 }

/-- `Launch`. Xenia makes the main thread before the listener runs and resumes it afterwards. -/
def launch (platform : Platform) (s : SystemTitle) (path : LaunchPath)
    (registers : GuestRegisters) (resumed : Bool) : SystemTitle :=
  let session := (s.session.launch platform path).1
  match s.session.emulator, path.loaded with
  | true, some title =>
    let main : TitleThread :=
      { main := true, title, suspendCount := 1, registers, refused := session.held }
    let threads := s.threads ++ [main]
    let threads := if session.held then holdMainThread threads else threads
    { s with
      session := session
      threads := if resumed then resumeThread threads s.threads.length else threads }
  | _, _ => { s with session }

/-- The thread, if the process runs and nothing holds it. -/
def running (s : SystemTitle) (thread : Nat) : Option TitleThread :=
  if s.ended.isSome then none else s.threads[thread]?.filter (·.suspendCount == 0)

/-- The override's counter goes up when its handler is called. -/
def onThread (s : SystemTitle) (thread : Nat) (event : ThreadEvent) : Option SystemTitle := do
  let t ← s.running thread
  let t ← t.step s.session.overrides event
  let calls := match event with
    | .call _ => s.nativeOverrideCalls + 1
    | _ => s.nativeOverrideCalls
  return { s with threads := s.threads.set thread t, nativeOverrideCalls := calls }

/-- The end of `DispatchGuest`. No guest thread of a session has a budget, so the sink that
`Initialize` bound gets the failure. -/
def overrideReturn (s : SystemTitle) (thread : Nat) (result : ExecutionResult) :
    Option SystemTitle :=
  if result.Ok then s.onThread thread (.handlerReturn result.value)
  else do
    let t ← s.running thread
    match t.frames with
    | .handler _ _ :: _ =>
      return { s with ended := some (endTitleAfterOverrideFailure result.failure) }
    | _ => none

def spawn (s : SystemTitle) (thread : Nat) (registers : GuestRegisters) (suspended : Bool) :
    Option SystemTitle := do
  let t ← s.running thread
  let spawned : TitleThread := {
    main := false
    title := t.title
    suspendCount := suspended.toNat
    registers
    refused := t.refused }
  if t.guestRuns then return { s with threads := s.threads ++ [spawned] } else none

def suspend (s : SystemTitle) (thread target : Nat) : Option SystemTitle := do
  let t ← s.running thread
  let threads := s.threads.modify target fun u => { u with suspendCount := u.suspendCount + 1 }
  if t.guestRuns then return { s with threads } else none

def resume (s : SystemTitle) (thread target : Nat) : Option SystemTitle := do
  let t ← s.running thread
  if t.guestRuns then return { s with threads := resumeThread s.threads target } else none

def step (platform : Platform) (s : SystemTitle) : TitleEvent → Option SystemTitle
  | .launch path registers resumed =>
    if s.ended.isSome then none else some (s.launch platform path registers resumed)
  | .run thread event => s.onThread thread event
  | .overrideReturn thread result => s.overrideReturn thread result
  | .spawn thread registers suspended => s.spawn thread registers suspended
  | .suspend thread target => s.suspend thread target
  | .resume thread target => s.resume thread target
  | .destroy =>
    if s.ended.isSome then none
    else some { s with ended := some (.destroyed s.session.destroy) }

end SystemTitle

end X360Port
