/-!
# Typed runtime failures

Every refusal of the runtime is a `RuntimeFailure`: an error of the closed
vocabulary and a detail. The error `none` is success.
-/

namespace X360Port

inductive RuntimeError where
  | none
  | instanceAlreadyActive
  | memoryInitializationFailed
  | backendInitializationFailed
  | stackAllocationFailed
  | moduleAlreadyLoaded
  | moduleValidationFailed
  | importValidationFailed
  | variableResolutionFailed
  | importAttachmentFailed
  | loadStateInvalid
  | imageAllocationFailed
  | moduleRegistrationFailed
  | entryOutsideCode
  | translationFailed
  | interpreterFallbackUnsupported
  | interpreterFallbackMemoryInvalid
  | interpreterFallbackBudgetExceeded
  | executionBudgetInvalid
  | executionBudgetExceeded
  | executionInvalidated
  | guestAccessViolation
  | importServiceRefused
  | executionFailed
  | overrideInvalid
  | overrideAlreadyInstalled
  | overrideNotInstalled
  | overrideDispatchFailed
  | deviceRangeInvalid
  | deviceRangeRegistrationFailed
  | executableRangeInvalid
  | executableWatchRegistrationFailed
  | executableWatchRearmFailed
  | guestMemoryAllocationFailed
  | guestMemoryRangeInvalid
  deriving DecidableEq, Repr

structure RuntimeFailure where
  error : RuntimeError := .none
  detail : String := ""
  deriving DecidableEq, Repr

/-- No failure. -/
def RuntimeFailure.Ok (failure : RuntimeFailure) : Prop := failure.error = .none

instance RuntimeFailure.decidableOk (failure : RuntimeFailure) : Decidable failure.Ok := by
  unfold RuntimeFailure.Ok; infer_instance

@[simp] theorem RuntimeFailure.ok_empty : ({} : RuntimeFailure).Ok := rfl

/-- How a call that may also unwind with an exception ends. -/
inductive CallOutcome where
  | returned (failure : RuntimeFailure)
  | threw
  deriving DecidableEq, Repr

/-- The call returned without a failure. -/
def CallOutcome.Succeeded : CallOutcome → Prop
  | .returned failure => failure.Ok
  | .threw => False

instance CallOutcome.decidableSucceeded (outcome : CallOutcome) : Decidable outcome.Succeeded := by
  cases outcome <;> unfold CallOutcome.Succeeded <;> infer_instance

/-- Undefined behaviour a call could run into; no accepted input reaches it. -/
inductive Undefined where
  | indexOutOfRange
  | nullCall
  | nullExport
  deriving DecidableEq, Repr

end X360Port
