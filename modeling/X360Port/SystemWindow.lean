import X360Port.Library.Machine
import X360Port.SystemSession

/-!
# The windowed system

`RunWindowedSystem` from the start of its emulator thread to its end. The
emulator thread is where its next step is; a step of it may need the UI thread
(the presenter, handed over in a synchronous call) or the title (whose exit it
waits for). The UI thread pumps its loop until it has been told to quit, by the
player or by a closure that the emulator thread has posted.

A synchronous call that the loop no longer serves may be refused or stay
unanswered: the step `refusePresenter` may happen or not.
-/

namespace X360Port

open Library

def exitSuccess : Nat := 0

/-- The emulator thread's next step. -/
inductive EmulatorThread where
  | initializing
  | handingOver
  | launching
  | storing
  | announcing
  | waiting
  | quitting
  | finished
  deriving DecidableEq, Repr

inductive UiThread where
  | looping
  /-- `RunMainGTKLoop` has returned. -/
  | ended
  /-- It has read that the title was not launched. -/
  | joining
  /-- The emulator thread is joined; what is left are the locals. -/
  | returning
  | returned (failure : RuntimeFailure)
  deriving DecidableEq, Repr

structure WindowedSystem where
  session : SystemSession
  emulator : EmulatorThread := .initializing
  ui : UiThread := .looping
  failure : RuntimeFailure := {}
  launched : Bool := false
  /-- The closure that quits the UI loop is in its queue. -/
  posted : Bool := false
  /-- The UI loop has been told to quit. -/
  quit : Bool := false
  presenter : Bool := false
  titleRuns : Bool := false
  /-- The status that the process ended with. -/
  exited : Option Nat := none
  deriving DecidableEq, Repr

inductive WindowEvent where
  | initializeSession
  /-- The UI thread runs the synchronous call. -/
  | setPresenter
  /-- The call comes back without having run. -/
  | refusePresenter
  | launch
  | storeLaunched
  | onLaunched
  | titleExits
  | waitUntilExit
  | postQuit
  /-- The UI thread runs the posted closure. -/
  | runQuit
  /-- The player closes the window. -/
  | close
  | leaveLoop
  | loadLaunched
  | join
  /-- `return failure`, with the destructors of the locals. -/
  | returnFailure
  deriving DecidableEq, Repr

namespace WindowedSystem

def start (config : SystemSessionConfig) : WindowedSystem where
  session := { config }

section

variable (platform : Platform) (path : LaunchPath)

def step (s : WindowedSystem) (event : WindowEvent) : Option WindowedSystem :=
  if s.exited ≠ none then none
  else match event with
  | .initializeSession =>
    if s.emulator = .initializing then
      let (session, failure) := SystemSession.initializeSession platform s.session.config
      some { s with
        session := session
        failure := failure
        emulator := if failure.Ok then .handingOver else .quitting }
    else none
  | .setPresenter =>
    if s.emulator = .handingOver ∧ s.ui = .looping then
      some { s with presenter := true, emulator := .launching }
    else none
  | .refusePresenter =>
    if s.emulator = .handingOver ∧ s.quit then some { s with emulator := .launching } else none
  | .launch =>
    if s.emulator = .launching then
      let (session, failure) := s.session.launch platform path
      some { s with
        session := session
        failure := failure
        titleRuns := failure.Ok
        emulator := if failure.Ok then .storing else .quitting }
    else none
  | .storeLaunched =>
    if s.emulator = .storing then some { s with launched := true, emulator := .announcing }
    else none
  | .onLaunched =>
    if s.emulator = .announcing then some { s with emulator := .waiting } else none
  | .titleExits => if s.titleRuns then some { s with titleRuns := false } else none
  | .waitUntilExit =>
    if s.emulator = .waiting ∧ ¬ s.titleRuns then some { s with emulator := .quitting } else none
  | .postQuit =>
    if s.emulator = .quitting then some { s with posted := true, emulator := .finished } else none
  | .runQuit =>
    if s.ui = .looping ∧ s.posted then some { s with posted := false, quit := true } else none
  | .close => if s.ui = .looping then some { s with quit := true } else none
  | .leaveLoop => if s.ui = .looping ∧ s.quit then some { s with ui := .ended } else none
  | .loadLaunched =>
    if s.ui = .ended then
      some (if s.launched then { s with exited := some exitSuccess } else { s with ui := .joining })
    else none
  | .join =>
    if s.ui = .joining ∧ s.emulator = .finished then
      some { s with ui := .returning, presenter := false }
    else none
  | .returnFailure =>
    if s.ui = .returning then
      match s.session.destroy with
      | some status => some { s with exited := some status }
      | none => some { s with ui := .returned s.failure }
    else none

end

end WindowedSystem

end X360Port
