import X360Port.GuestExecution.Thread

/-!
# What a scope reports

`exitEvent` tells from an event of the thread, and from who is running, whether
a guest execution is to be stopped and for what; it looks at no budget, no slot
and no mark. `ExitEvent.failure` says what the call must report for each way of
stopping it, and `report` what it answers given the events of its scope: the
first one, or the function's own result when there was none. `Scope.mark` is
what an exit event makes of the scope that it reaches.
-/

namespace X360Port

open Library

namespace ExitEvent

def reason : ExitEvent → GuestExecutionExitReason
  | .importRefused _ => .hostServiceRefused
  | .overrideFailed _ => .nativeOverrideFailed
  | .executableWrite => .executableWriteObserved
  | .accessViolation _ _ => .guestAccessViolation
  | .budgetExhausted => .blockBudgetExceeded

/-- What a call stopped by the event reports. -/
def failure : ExitEvent → RuntimeFailure
  | .importRefused refusal => X360Port.importRefused refusal
  | .overrideFailed failure => failure
  | .executableWrite => invalidated
  | .accessViolation address wasWrite => X360Port.accessViolation address wasWrite
  | .budgetExhausted => budgetExceeded

end ExitEvent

/-- The answer of a call with these exit events. -/
def report (marks : List ExitEvent) (executed : Bool) (r3 : UInt64) : ExecutionResult :=
  match marks with
  | event :: _ => ⟨event.failure, 0⟩
  | [] => if executed then ⟨{}, r3⟩ else ⟨refusedExecution, 0⟩

/-! ## Which events are exit events -/

namespace GuestFaultGuard

/-- The guard can unwind the function that faulted. -/
def unwinds (guard : GuestFaultGuard) (exception : GuestException) : Bool :=
  exception.isAccessViolation && guard.inGeneratedCode exception.pc &&
    (guard.lookupFunction exception.pc).any fun function =>
      ¬ (function.epilogOffset = 0 ∨ function.machineCode = 0 ∨
        function.epilogOffset ≥ function.machineCodeLength)

/-- Where the guest faulted: an address below the guest mapping is not told. -/
def violationAddress (guard : GuestFaultGuard) (exception : GuestException) : UInt32 :=
  if exception.faultAddress ≥ guard.virtualMembase then
    guard.hostToGuestVirtual exception.faultAddress
  else 0

/-- A budget without a reason is marked by every fault that the guard can unwind. -/
theorem claim_of_unmarked (guard : GuestFaultGuard) (exception : GuestException)
    {budget : GuestExecutionBudget} (hr : budget.exitReason = .none)
    (ha : budget.faultGuestAddress = 0) :
    (guard.claim exception budget).map Prod.fst =
      if guard.unwinds exception then some
        { budget with
          exitReason := .guestAccessViolation
          faultGuestAddress := guard.violationAddress exception
          faultWasWrite := exception.isWrite }
      else none := by
  unfold claim unwinds violationAddress
  cases hv : exception.isAccessViolation with
  | false => rfl
  | true =>
    cases hc : guard.inGeneratedCode exception.pc with
    | false => simp [hr]
    | true =>
      cases hl : guard.lookupFunction exception.pc with
      | none => simp [hr]
      | some function =>
        simp only [hr, ha, ne_eq, not_true_eq_false, if_false, Bool.true_and, Option.any_some,
          decide_eq_true_eq, ite_not]
        split
        · rfl
        · rfl

theorem claim_of_marked {guard : GuestFaultGuard} {exception : GuestException}
    {budget : GuestExecutionBudget} (hr : budget.exitReason ≠ .none) :
    guard.claim exception budget = none := by
  rw [claim, if_pos hr, ite_self]

end GuestFaultGuard

/-- The exit event that an event of the thread is. `earlier` are those that the scope has had;
Xenia and the guard stop a guest execution only once. -/
def exitEvent (frames : List Frame) (earlier : List ExitEvent) : GuestEvent → Option ExitEvent
  | .importReturn context =>
    match frames with
    | .native (.hostImport library ordinal) _ :: _ =>
      context.refusal.map fun reason => .importRefused ⟨library, ordinal.toUInt32, reason⟩
    | _ => none
  | .handlerReturn result =>
    match frames with
    | .native .guestOverride _ :: _ =>
      if result.Ok then none else some (.overrideFailed result.failure)
    | _ => none
  | .writeExecutable => some .executableWrite
  | .fault guard exception =>
    if earlier = [] ∧ guard.unwinds exception then
      some (.accessViolation (guard.violationAddress exception) exception.isWrite)
    else none
  | .exhaustBudget => if earlier = [] then some .budgetExhausted else none
  | _ => none

namespace Scope

/-- The detail slots of the scope hold the event's own detail. -/
def Details (scope : Scope) : ExitEvent → Prop
  | .importRefused refusal => scope.importRefusal = refusal
  | .overrideFailed failure => scope.overrideFailure = failure
  | .accessViolation address wasWrite =>
    scope.budget.faultGuestAddress = address ∧ scope.budget.faultWasWrite = wasWrite
  | _ => True

/-- The reason and the details are those of the first event. -/
structure Reported (scope : Scope) : Prop where
  unmarked : scope.marks = [] → scope.budget.exitReason = .none
  clear : scope.marks = [] → scope.budget.faultGuestAddress = 0
  first : ∀ event rest, scope.marks = event :: rest →
    scope.budget.exitReason = event.reason ∧ scope.Details event
  failing : ∀ event ∈ scope.marks, ¬ event.failure.Ok

/-- An exit event reaches the scope. -/
def mark (event : ExitEvent) (scope : Scope) : Scope :=
  let marked := { scope with marks := scope.marks ++ [event] }
  if scope.budget.exitReason ≠ .none then marked
  else
    let marked :=
      { marked with budget := { scope.budget with exitReason := event.reason } }
    match event with
    | .importRefused refusal => { marked with importRefusal := refusal }
    | .overrideFailed failure => { marked with overrideFailure := failure }
    | .accessViolation address wasWrite =>
      { marked with budget :=
          { marked.budget with faultGuestAddress := address, faultWasWrite := wasWrite } }
    | _ => marked

/-- The four pointers to restore are `outer`. -/
def Saves (scope : Scope) (outer : Option Nat) : Prop :=
  scope.previous = outer ∧ scope.previousActive = outer ∧ scope.previousRefusal = outer ∧
    scope.previousOverrideFailure = outer

theorem reason_ne_none (event : ExitEvent) : event.reason ≠ .none := by
  cases event <;> exact GuestExecutionExitReason.noConfusion

@[simp] theorem mark_id (event : ExitEvent) (scope : Scope) : (scope.mark event).id = scope.id := by
  unfold mark; split
  · rfl
  · cases event <;> rfl

@[simp] theorem mark_marks (event : ExitEvent) (scope : Scope) :
    (scope.mark event).marks = scope.marks ++ [event] := by
  unfold mark; split
  · rfl
  · cases event <;> rfl

theorem mark_marks_ne_nil (event : ExitEvent) (scope : Scope) : (scope.mark event).marks ≠ [] := by
  rw [mark_marks]
  exact List.append_ne_nil_of_right_ne_nil _ (List.cons_ne_nil _ _)

@[simp] theorem mark_remainingBlocks (event : ExitEvent) (scope : Scope) :
    (scope.mark event).budget.remainingBlocks = scope.budget.remainingBlocks := by
  unfold mark; split
  · rfl
  · cases event <;> rfl

theorem Saves.mark {scope : Scope} {outer : Option Nat} (h : scope.Saves outer)
    (event : ExitEvent) : (scope.mark event).Saves outer := by
  unfold Scope.mark; split
  · exact h
  · cases event <;> exact h

/-- A late event leaves the reason and the details alone. -/
theorem mark_of_marked {scope : Scope} (event : ExitEvent)
    (h : scope.budget.exitReason ≠ .none) :
    scope.mark event = { scope with marks := scope.marks ++ [event] } := by
  simp only [mark, if_pos h]

theorem Reported.exitReason_iff {scope : Scope} (h : scope.Reported) :
    scope.budget.exitReason = .none ↔ scope.marks = [] := by
  cases hm : scope.marks with
  | nil => simp [h.unmarked hm]
  | cons event rest => simp [(h.first event rest hm).1, reason_ne_none]

theorem Reported.mark {scope : Scope} (h : scope.Reported) {event : ExitEvent}
    (he : ¬ event.failure.Ok) : (scope.mark event).Reported where
  unmarked hm := by simp at hm
  clear hm := by simp at hm
  first e rest hm := by
    rw [mark_marks] at hm
    by_cases hr : scope.budget.exitReason = .none
    · rw [h.exitReason_iff.1 hr] at hm
      cases hm
      unfold Scope.mark
      rw [if_neg (by simp [hr])]
      cases event with
      | accessViolation => exact ⟨rfl, rfl, rfl⟩
      | _ => exact ⟨rfl, by trivial⟩
    · rw [mark_of_marked event hr]
      cases hs : scope.marks with
      | nil => exact absurd (h.unmarked hs) hr
      | cons e' rest' =>
        rw [hs] at hm
        cases hm
        exact h.first e rest' hs
  failing e hm := by
    rw [mark_marks, List.mem_append, List.mem_singleton] at hm
    rcases hm with hm | rfl
    · exact h.failing e hm
    · exact he

theorem Reported.countBlock {scope : Scope} (h : scope.Reported) : scope.countBlock.Reported where
  unmarked := h.unmarked
  clear := h.clear
  first event rest hm := by
    obtain ⟨hr, hd⟩ := h.first event rest hm
    cases event <;> exact ⟨hr, hd⟩
  failing := h.failing

/-- **The first event decides the answer.** -/
theorem guestResult_eq_report {scope : Scope} (h : scope.Reported) (executed : Bool)
    (r3 : UInt64) : guestResult scope executed r3 = report scope.marks executed r3 := by
  cases hm : scope.marks with
  | nil => simp only [guestResult, h.unmarked hm, report]
  | cons event rest =>
    obtain ⟨hr, hd⟩ := h.first event rest hm
    simp only [guestResult, hr, report, ExitEvent.reason]
    cases event with
    | importRefused refusal =>
      have hr : scope.importRefusal = refusal := hd
      simp only [hr, ExitEvent.failure]
    | overrideFailed failure =>
      have hf : scope.overrideFailure = failure := hd
      simp only [hf, ExitEvent.failure]
    | executableWrite => rfl
    | accessViolation address wasWrite =>
      obtain ⟨ha, hw⟩ := hd
      simp only [ha, hw, ExitEvent.failure]
    | budgetExhausted => rfl

end Scope

/-- An event that stops a call makes it answer a failure. -/
theorem report_not_ok {marks : List ExitEvent} (hf : ∀ event ∈ marks, ¬ event.failure.Ok)
    (hm : marks ≠ []) (executed : Bool) (r3 : UInt64) : ¬ (report marks executed r3).Ok := by
  cases marks with
  | nil => exact (hm rfl).elim
  | cons event rest => exact hf event List.mem_cons_self

/-! ## The stack -/

section Stack

variable {frames rest : List Frame} {scope : Scope}

@[simp] theorem scopesOf_scope : scopesOf (.scope scope :: rest) = scope :: scopesOf rest := rfl

@[simp] theorem scopesOf_receive (result : ExecutionResult) (frames : List Frame) :
    scopesOf (receive result frames) = scopesOf frames := by
  rcases frames with _ | ⟨_ | _ | _, rest⟩ <;> rfl

@[simp] theorem scopesOf_deliver (s : GuestThread) (result : ExecutionResult) :
    scopesOf (s.deliver result).frames = scopesOf s.frames := scopesOf_receive result s.frames

theorem scopesOf_modifyInnermost (f : Scope → Scope) (frames : List Frame) :
    scopesOf (modifyInnermost f frames) = (scopesOf frames).modifyHead f := by
  induction frames with
  | nil => rfl
  | cons frame rest ih =>
    cases frame with
    | scope scope => rfl
    | native entry received => exact ih
    | interpreter => exact ih

/-- Only what happens to the innermost scope matters. -/
theorem modifyInnermost_congr {f g : Scope → Scope} {outer : List Scope}
    (hs : scopesOf frames = scope :: outer) (h : f scope = g scope) :
    modifyInnermost f frames = modifyInnermost g frames := by
  induction frames with
  | nil => rfl
  | cons frame rest ih =>
    cases frame with
    | scope sc =>
      cases hs
      rw [modifyInnermost, modifyInnermost, h]
    | native entry received => exact congrArg (_ :: ·) (ih hs)
    | interpreter => exact congrArg (_ :: ·) (ih hs)

theorem modifyInnermost_comp (f g : Scope → Scope) (frames : List Frame) :
    modifyInnermost g (modifyInnermost f frames) = modifyInnermost (fun sc => g (f sc)) frames := by
  induction frames with
  | nil => rfl
  | cons frame rest ih =>
    cases frame with
    | scope scope => rfl
    | native entry received => exact congrArg (_ :: ·) ih
    | interpreter => exact congrArg (_ :: ·) ih

theorem modifyScope_of_not_mem {id : Nat} (f : Scope → Scope)
    (h : ∀ sc ∈ scopesOf frames, sc.id ≠ id) : modifyScope id f frames = frames := by
  induction frames with
  | nil => rfl
  | cons frame rest ih =>
    cases frame with
    | scope sc =>
      rw [scopesOf_scope, List.forall_mem_cons] at h
      have := ih h.2
      simp only [modifyScope, List.map_cons, Frame.mapScope, if_neg h.1] at this ⊢
      rw [this]
    | native entry received => exact congrArg (_ :: ·) (ih h)
    | interpreter => exact congrArg (_ :: ·) (ih h)

/-- A pointer to the innermost scope reaches it and no other. -/
theorem modifyScope_innermost {outer : List Scope} (f : Scope → Scope)
    (hs : scopesOf frames = scope :: outer) (h : ∀ sc ∈ outer, sc.id ≠ scope.id) :
    modifyScope scope.id f frames = modifyInnermost f frames := by
  induction frames with
  | nil => rfl
  | cons frame rest ih =>
    cases frame with
    | scope sc =>
      cases hs
      have := modifyScope_of_not_mem f h
      simp only [modifyScope, List.map_cons, Frame.mapScope, if_true, modifyInnermost] at this ⊢
      rw [this]
    | native entry received => exact congrArg (_ :: ·) (ih hs)
    | interpreter => exact congrArg (_ :: ·) (ih hs)

theorem modifyInnermost_of_nil (f : Scope → Scope) (hs : scopesOf frames = []) :
    modifyInnermost f frames = frames := by
  induction frames with
  | nil => rfl
  | cons frame rest ih =>
    cases frame with
    | scope sc => cases hs
    | native entry received => exact congrArg (_ :: ·) (ih hs)
    | interpreter => exact congrArg (_ :: ·) (ih hs)

/-- A pointer to the innermost scope still reaches it after a change. -/
theorem modifyScope_modifyInnermost {outer : List Scope} (f g : Scope → Scope)
    (hs : scopesOf frames = scope :: outer) (h : ∀ sc ∈ outer, sc.id ≠ scope.id)
    (hg : (g scope).id = scope.id) :
    modifyScope scope.id f (modifyInnermost g frames) =
      modifyInnermost (fun sc => f (g sc)) frames := by
  have hs' : scopesOf (modifyInnermost g frames) = g scope :: outer := by
    rw [scopesOf_modifyInnermost, hs]
    rfl
  have hm := modifyScope_innermost f hs' (by rw [hg]; exact h)
  rw [hg] at hm
  rw [hm, modifyInnermost_comp]

theorem findScope_innermost {outer : List Scope} (hs : scopesOf frames = scope :: outer) :
    findScope scope.id frames = some scope := by
  rw [findScope, hs, List.find?_cons_of_pos (by simp)]

/-- What may lie right below a frame: native code below what it called, a translated body
below the native code it entered. -/
def Frame.Above : Frame → List Frame → Prop
  | .native .guestOverride _, rest => bodyRuns rest = true
  | .native (.hostImport _ _) _, rest => bodyRuns rest = true
  | _, rest => nativeRuns rest = true

def StackOk : List Frame → Prop
  | [] => True
  | frame :: rest => frame.Above rest ∧ StackOk rest

theorem StackOk.receive (h : StackOk frames) (result : ExecutionResult) :
    StackOk (receive result frames) := by
  rcases frames with _ | ⟨_ | ⟨_ | _ | _, _⟩ | _, rest⟩ <;> exact h

theorem above_modifyInnermost {frame : Frame} (f : Scope → Scope) (h : frame.Above rest) :
    frame.Above (modifyInnermost f rest) := by
  have hn : nativeRuns (modifyInnermost f rest) = nativeRuns rest := by
    rcases rest with _ | ⟨_ | _ | _, _⟩ <;> rfl
  have hb : bodyRuns (modifyInnermost f rest) = bodyRuns rest := by
    rcases rest with _ | ⟨_ | _ | _, _⟩ <;> rfl
  rcases frame with _ | ⟨_ | _ | _, _⟩ | _
  · exact hn.trans h
  · exact hn.trans h
  · exact hb.trans h
  · exact hb.trans h
  · exact hn.trans h

theorem StackOk.modifyInnermost (h : StackOk frames) (f : Scope → Scope) :
    StackOk (modifyInnermost f frames) := by
  induction frames with
  | nil => trivial
  | cons frame rest ih =>
    cases frame with
    | scope sc => exact h
    | native entry received => exact ⟨above_modifyInnermost f h.1, ih h.2⟩
    | interpreter => exact ⟨above_modifyInnermost f h.1, ih h.2⟩

/-- A running body has an innermost scope. -/
theorem exists_scope_of_bodyRuns (h : bodyRuns frames = true) :
    ∃ sc rest, frames = .scope sc :: rest := by
  rcases frames with _ | ⟨sc | _ | _, rest⟩
  · cases h
  · exact ⟨sc, rest, rfl⟩
  · cases h
  · cases h

end Stack

end X360Port
