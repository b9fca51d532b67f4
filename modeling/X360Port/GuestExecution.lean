import X360Port.GuestCall

/-!
# Guest execution

One `ExecuteGuestFunction` call keeps a budget with an exit reason and two
detail slots on its own stack, and makes them the thread's active ones for as
long as it runs. The refusals, failures, writes and faults that happen inside
find them through the thread's pointers and mark them: the first mark wins.
`guestResult` is what the call answers when the translated function is done.

`Scope` is one such call. The list `marks` in it is history: the exit events
that were marked in it, in order.
-/

namespace X360Port

inductive GuestExecutionExitReason where
  | none
  | blockBudgetExceeded
  | executableWriteObserved
  | hostServiceRefused
  | nativeOverrideFailed
  | guestAccessViolation
  deriving DecidableEq, Repr

structure GuestExecutionBudget where
  remainingBlocks : UInt64
  exitReason : GuestExecutionExitReason := .none
  faultGuestAddress : UInt32 := 0
  faultWasWrite : Bool := false
  deriving DecidableEq, Repr

structure GuestImportRefusal where
  library : StringView := []
  ordinal : UInt32 := 0
  reason : ImportRefusalReason := .unsupportedService
  deriving DecidableEq, Repr

/-- The ways a guest execution is stopped, with what is known of each. -/
inductive ExitEvent where
  | importRefused (refusal : GuestImportRefusal)
  | overrideFailed (failure : RuntimeFailure)
  | executableWrite
  | accessViolation (address : UInt32) (wasWrite : Bool)
  | budgetExhausted
  deriving DecidableEq, Repr

structure Scope where
  /-- Names the objects of this call; no other call of the thread has it. -/
  id : Nat
  budget : GuestExecutionBudget
  importRefusal : GuestImportRefusal := {}
  overrideFailure : RuntimeFailure := {}
  previous : Option Nat
  previousActive : Option Nat
  previousRefusal : Option Nat
  previousOverrideFailure : Option Nat
  previousStackPointer : UInt64
  previousLinkRegister : UInt64
  marks : List ExitEvent := []
  deriving DecidableEq, Repr

def kReturnAddress : UInt64 := 0xBCBCBCBC

def kRegisterArgumentCount : Nat := 8

def formatGuestAddress (address : UInt32) : String :=
  let digits := "0123456789ABCDEF".toList
  String.ofList ((List.range 8).reverse.map fun index =>
    digits.getD ((address.toNat >>> (index * 4)) &&& 0xF) '0')

def refusalReasonText : ImportRefusalReason → String
  | .unsupportedService => "unsupported service"
  | .invalidGuestMemory => "invalid guest memory"
  | .invalidArguments => "invalid arguments"
  | .hostUnavailable => "host service unavailable"

/-! ## Arguments -/

def tooManyArguments : RuntimeFailure :=
  ⟨.executionFailed, "this bounded call contract accepts at most eight register arguments"⟩

def invalidBudget : RuntimeFailure :=
  ⟨.executionBudgetInvalid, "guest execution requires a non-zero translated-block budget"⟩

/-- The registers `r3` and up take the arguments. -/
def GuestRegisters.setArguments (registers : GuestRegisters) (arguments : List UInt64) :
    GuestRegisters :=
  { registers with r := Vector.ofFn fun i : Fin 32 =>
      if 3 ≤ i.val then arguments.getD (i.val - 3) registers.r[i] else registers.r[i] }

def prepareGuestArguments (registers : GuestRegisters) (arguments : List UInt64) :
    Except RuntimeFailure GuestRegisters :=
  if arguments.length > kRegisterArgumentCount then .error tooManyArguments
  else .ok (registers.setArguments arguments)

/-- `GuestCallFrame`: a stack frame for the callee, and the host's return address. -/
def GuestRegisters.enterFrame (registers : GuestRegisters) : GuestRegisters :=
  { registers.setStackPointer (registers.stackPointer - (64 + 112)) with lr := kReturnAddress }

def GuestRegisters.leaveFrame (registers : GuestRegisters) (stackPointer linkRegister : UInt64) :
    GuestRegisters :=
  { registers.setStackPointer stackPointer with lr := linkRegister }

/-! ## The result -/

def invalidated : RuntimeFailure :=
  ⟨.executionInvalidated, "Xenia stopped the guest call after observing an executable write"⟩

def importRefused (refusal : GuestImportRefusal) : RuntimeFailure :=
  ⟨.importServiceRefused, "host import " ++ refusal.library.text ++ " ordinal " ++
    toString refusal.ordinal.toNat ++ " refused: " ++ refusalReasonText refusal.reason⟩

def accessViolation (address : UInt32) (wasWrite : Bool) : RuntimeFailure :=
  ⟨.guestAccessViolation, "guest execution faulted " ++
    (if wasWrite then "writing" else "reading") ++ " guest address 0x" ++
    formatGuestAddress address⟩

def budgetExceeded : RuntimeFailure :=
  ⟨.executionBudgetExceeded,
    "Xenia stopped the guest call after exhausting its translated-block budget"⟩

def refusedExecution : RuntimeFailure :=
  ⟨.executionFailed, "Xenia's translated guest function refused execution"⟩

/-- What a call answers: its exit reason decides, then whether the function ran. -/
def guestResult (scope : Scope) (executed : Bool) (r3 : UInt64) : ExecutionResult :=
  match scope.budget.exitReason with
  | .executableWriteObserved => ⟨invalidated, 0⟩
  | .hostServiceRefused => ⟨importRefused scope.importRefusal, 0⟩
  | .nativeOverrideFailed => ⟨scope.overrideFailure, 0⟩
  | .guestAccessViolation =>
    ⟨accessViolation scope.budget.faultGuestAddress scope.budget.faultWasWrite, 0⟩
  | .blockBudgetExceeded => ⟨budgetExceeded, 0⟩
  | .none => if executed then ⟨{}, r3⟩ else ⟨refusedExecution, 0⟩

/-! ## Claiming a fault -/

structure GuestException where
  isAccessViolation : Bool
  pc : UInt64
  faultAddress : UInt64
  isWrite : Bool
  deriving DecidableEq, Repr

/-- A function of the code cache. -/
structure HostFunction where
  machineCode : UInt64
  machineCodeLength : UInt64
  epilogOffset : UInt64
  deriving DecidableEq, Repr

/-- The code cache and the guest mapping that the guard looks at. -/
structure GuestFaultGuard where
  executeBase : UInt64
  totalSize : UInt64
  lookupFunction : UInt64 → Option HostFunction
  virtualMembase : UInt64
  hostToGuestVirtual : UInt64 → UInt32

namespace GuestFaultGuard

def inGeneratedCode (guard : GuestFaultGuard) (hostPc : UInt64) : Bool :=
  decide (guard.executeBase ≤ hostPc ∧ hostPc < guard.executeBase + guard.totalSize)

/-- The budget after the claim and the address to resume at, when the guard claims. -/
def claim (guard : GuestFaultGuard) (exception : GuestException) (budget : GuestExecutionBudget) :
    Option (GuestExecutionBudget × UInt64) :=
  if ¬ exception.isAccessViolation then none
  else if budget.exitReason ≠ .none then none
  else if ¬ guard.inGeneratedCode exception.pc then none
  else
    match guard.lookupFunction exception.pc with
    | none => none
    | some function =>
      if function.epilogOffset = 0 ∨ function.machineCode = 0 ∨
          function.epilogOffset ≥ function.machineCodeLength then none
      else some
        ({ budget with
            faultGuestAddress :=
              if exception.faultAddress ≥ guard.virtualMembase then
                guard.hostToGuestVirtual exception.faultAddress
              else budget.faultGuestAddress
            faultWasWrite := exception.isWrite
            exitReason := .guestAccessViolation },
          function.machineCode + function.epilogOffset)

end GuestFaultGuard

end X360Port
