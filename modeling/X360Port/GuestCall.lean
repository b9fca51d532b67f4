import X360Port.ModuleContract
import X360Port.RuntimeFailure

/-!
# Guest calls

What a guest call reads and answers: the registers of the guest thread, the
limits it runs under, its result, and the counters the runtime keeps of it.
`GuestImportContext` is the view of one call that a host import handler gets.
-/

namespace X360Port

structure ExecutionResult where
  failure : RuntimeFailure := {}
  value : UInt64 := 0
  deriving DecidableEq, Repr

/-- The call returned a value. -/
def ExecutionResult.Ok (result : ExecutionResult) : Prop := result.failure.Ok

instance ExecutionResult.decidableOk (result : ExecutionResult) : Decidable result.Ok := by
  unfold ExecutionResult.Ok; infer_instance

structure ExecutionLimits where
  maxGuestBlocks : UInt64 := 1000000
  maxInterpreterInstructions : UInt64 := 100000
  deriving DecidableEq, Repr

structure JitStatistics where
  translatedFunctions : UInt64 := 0
  emittedHostBytes : UInt64 := 0
  translationFailures : UInt64 := 0
  executionCalls : UInt64 := 0
  executionBudgetExhaustions : UInt64 := 0
  executionInvalidations : UInt64 := 0
  importServiceRefusals : UInt64 := 0
  nativeOverrideCalls : UInt64 := 0
  originalCalls : UInt64 := 0
  translationInvalidations : UInt64 := 0
  observedExecutableWrites : UInt64 := 0
  interpreterFallbackEntries : UInt64 := 0
  interpreterFallbackInstructions : UInt64 := 0
  interpreterFallbackUnsupported : UInt64 := 0
  interpreterFallbackMemoryFailures : UInt64 := 0
  interpreterFallbackBudgetExhaustions : UInt64 := 0
  guestAccessViolations : UInt64 := 0
  deriving DecidableEq, Repr

/-- The general registers and the link register of a guest thread. -/
structure GuestRegisters where
  r : Vector UInt64 32 := Vector.replicate 32 0
  lr : UInt64 := 0
  deriving DecidableEq, Repr

/-- The eight register arguments, `r3` to `r10`. -/
def GuestRegisters.arguments (registers : GuestRegisters) : List UInt64 :=
  (registers.r.toList.drop 3).take 8

/-- The value of `r3`. -/
def GuestRegisters.result (registers : GuestRegisters) : UInt64 := registers.r[3]

/-- A result is delivered in `r3`. -/
def GuestRegisters.setResult (registers : GuestRegisters) (value : UInt64) : GuestRegisters :=
  { registers with r := registers.r.set 3 value }

/-- The value of `r1`. -/
def GuestRegisters.stackPointer (registers : GuestRegisters) : UInt64 := registers.r[1]

def GuestRegisters.setStackPointer (registers : GuestRegisters) (value : UInt64) :
    GuestRegisters :=
  { registers with r := registers.r.set 1 value }

/-! ## Host imports -/

inductive ImportRefusalReason where
  | unsupportedService
  | invalidGuestMemory
  | invalidArguments
  | hostUnavailable
  deriving DecidableEq, Repr

structure GuestImportContext where
  arguments : List UInt64
  returnValue : UInt64
  refusal : Option ImportRefusalReason := none
  deriving DecidableEq, Repr

namespace GuestImportContext

def make (arguments : List UInt64) : GuestImportContext where
  arguments := arguments
  returnValue := arguments.headD 0

def argument (context : GuestImportContext) (index : Nat) : UInt64 :=
  context.arguments.getD index 0

def setReturnValue (context : GuestImportContext) (value : UInt64) : GuestImportContext :=
  { context with returnValue := value }

def refuse (context : GuestImportContext) (reason : ImportRefusalReason) : GuestImportContext :=
  { context with refusal := some reason }

end GuestImportContext

end X360Port
