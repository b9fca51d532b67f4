import X360Port.GuestCall
import X360Port.GuestEndian
import X360Port.Library.EarlyExit
import X360Port.Validation

/-!
# Runtime imports

`create` turns a manifest and its bindings into one export table per library.
It checks nothing itself: it opens a table whenever the library differs from
the last table's, indexes the table's slots by ordinal and reads the bindings
by index. Whatever would be undefined behaviour there is an `Undefined` error
here. `attach` registers the tables with Xenia, declares every function import
and patches guest memory: a 16-byte thunk at a function's address, the resolved
address at a variable's record. `dispatchFunction` serves one guest call of a
function import.
-/

namespace X360Port

open Library

structure OwnedExport where
  library : StringView
  name : StringView
  ordinal : UInt16
  kind : ImportKind
  address : GuestAddress
  recordAddress : GuestAddress
  functionHandler : Option ImportFunctionHandler
  functionContext : Pointer
  resolvedVariable : GuestAddress
  deriving DecidableEq, Repr

/-- `static_cast<std::uint16_t>` narrows the ordinal. -/
def OwnedExport.make (requirement : ImportRequirement) (binding : ImportBinding)
    (resolvedVariable : GuestAddress) : OwnedExport where
  library := requirement.library
  name := requirement.name
  ordinal := requirement.ordinal.toUInt16
  kind := requirement.kind
  address := requirement.address
  recordAddress := requirement.recordAddress
  functionHandler := binding.functionHandler
  functionContext := binding.functionContext
  resolvedVariable := resolvedVariable

/-- The exports of one library. A slot is null or points to an owned export,
known here by its index. -/
structure OwnedTable where
  library : StringView
  ownedExports : List OwnedExport := []
  exportsByOrdinal : List (Option Nat) := []
  deriving DecidableEq, Repr

/-- `vector::resize(size, nullptr)` where it only ever grows. -/
def growSlots (slots : List (Option Nat)) (size : Nat) : List (Option Nat) :=
  slots ++ List.replicate (size - slots.length) none

/-- `slots[index] = export`. -/
def storeSlot (slots : List (Option Nat)) (index owned : Nat) :
    Except Undefined (List (Option Nat)) :=
  if index < slots.length then .ok (slots.set index (some owned)) else .error .indexOutOfRange

/-- Put one export into its table. -/
def OwnedTable.insert (table : OwnedTable) (ordinal : Nat) (owned : OwnedExport) :
    Except Undefined OwnedTable :=
  let slots := if table.exportsByOrdinal.length ≤ ordinal then
    growSlots table.exportsByOrdinal (ordinal + 1) else table.exportsByOrdinal
  match storeSlot slots ordinal table.ownedExports.length with
  | .error e => .error e
  | .ok slots => .ok ⟨table.library, table.ownedExports ++ [owned], slots⟩

structure RuntimeImports where
  tables : List OwnedTable
  deriving DecidableEq, Repr

structure RuntimeImportsCreateResult where
  imports : Option RuntimeImports
  failure : RuntimeFailure
  deriving DecidableEq, Repr

/-- The result converts to true. -/
def RuntimeImportsCreateResult.Ok (result : RuntimeImportsCreateResult) : Prop :=
  result.imports.isSome ∧ result.failure.Ok

namespace RuntimeImports

def nullVariable : RuntimeFailure :=
  ⟨.variableResolutionFailed, "variable import resolver returned the null guest address"⟩

/-- The address a variable import resolves to; zero for a function import. -/
def resolveVariable (requirement : ImportRequirement) (binding : ImportBinding) :
    Except Undefined GuestAddress :=
  if requirement.kind = ImportKind.variable then
    match binding.variableResolver with
    | none => .error .nullCall
    | some resolver => .ok (resolver binding.variableResolutionContext)
  else .ok 0

/-- Put an export into the last table, opening one when its library is new. -/
def placeExport (tables : List OwnedTable) (library : StringView) (ordinal : Nat)
    (owned : OwnedExport) : Except Undefined (List OwnedTable) :=
  match tables.getLast? with
  | some last =>
    if last.library ≠ library then
      (OwnedTable.insert ⟨library, [], []⟩ ordinal owned).map (tables ++ [·])
    else (last.insert ordinal owned).map (tables.dropLast ++ [·])
  | none => (OwnedTable.insert ⟨library, [], []⟩ ordinal owned).map (tables ++ [·])

/-- One turn of the loop over the requirements; it leaves with undefined behaviour
or with the failure that `create` answers. -/
def createTurn (bindings : List ImportBinding) (tables : List OwnedTable)
    (turn : ImportRequirement × Nat) :
    List OwnedTable × Option (Except Undefined RuntimeFailure) :=
  match bindings[turn.2]? with
  | none => (tables, some (.error .indexOutOfRange))
  | some binding =>
    match resolveVariable turn.1 binding with
    | .error e => (tables, some (.error e))
    | .ok resolved =>
      if turn.1.kind = ImportKind.variable ∧ resolved = 0 then (tables, some (.ok nullVariable))
      else
        match placeExport tables turn.1.library turn.1.ordinal.toNat
          (.make turn.1 binding resolved) with
        | .error e => (tables, some (.error e))
        | .ok tables => (tables, none)

def create (requirements : List ImportRequirement) (bindings : List ImportBinding) :
    Except Undefined RuntimeImportsCreateResult :=
  match forEach (createTurn bindings) requirements.zipIdx [] with
  | (_, some (.error e)) => .error e
  | (_, some (.ok failure)) => .ok ⟨none, failure⟩
  | (tables, none) => .ok ⟨some ⟨tables⟩, {}⟩

end RuntimeImports

/-! ## Attaching -/

/-- An owned export, by the indices of its table and of itself in it. -/
structure ExportRef where
  table : Nat
  index : Nat
  deriving DecidableEq, Repr

/-- Xenia's answer to `DeclareFunction`: the symbol's status, and whether the
function, if there is one, is a guest function. -/
inductive DeclareAnswer where
  | declared (isNew : Bool) (function : Option Bool)
  | threw
  deriving DecidableEq, Repr

/-- The part of Xenia that attaching uses. -/
structure XeniaSymbols where
  /-- The export that a mapping call reaches among the tables registered so far. -/
  exportFor : List OwnedTable → StringView → UInt16 → Option ExportRef
  /-- The answer for an address, after the addresses declared so far. -/
  declareFunction : List GuestAddress → GuestAddress → DeclareAnswer

/-- A declared import thunk, calling out through an export. -/
structure GuestFunction where
  address : GuestAddress
  endAddress : GuestAddress
  name : StringView
  callbackContext : Option ExportRef
  exportValue : ExportRef
  deriving DecidableEq, Repr

/-- What attaching has done so far. -/
structure Attachment where
  registered : List OwnedTable := []
  functionMapping : ExportRef → Option ExportRef := fun _ => none
  variablePtr : ExportRef → GuestAddress := fun _ => 0
  declared : List GuestAddress := []
  functions : List GuestFunction := []
  memory : Memory UInt8

namespace RuntimeImports

def refusedAddress : RuntimeFailure :=
  ⟨.importAttachmentFailed, "Xenia refused a validated function import address"⟩

/-- `resolver.SetFunctionMapping`: the export found dispatches to `target`. -/
def setFunctionMapping (xenia : XeniaSymbols) (library : StringView) (ordinal : UInt16)
    (target : ExportRef) (s : Attachment) : Attachment :=
  let found := xenia.exportFor s.registered library ordinal
  { s with functionMapping := fun ref => if found = some ref then some target
                                         else s.functionMapping ref }

/-- `resolver.SetVariableMapping`. -/
def setVariableMapping (xenia : XeniaSymbols) (library : StringView) (ordinal : UInt16)
    (value : GuestAddress) (s : Attachment) : Attachment :=
  let found := xenia.exportFor s.registered library ordinal
  { s with variablePtr := fun ref => if found = some ref then value else s.variablePtr ref }

section

variable (xenia : XeniaSymbols) (library : StringView) (ordinal : UInt16) (target : ExportRef)
  (value : GuestAddress) (s : Attachment)

@[simp] theorem setFunctionMapping_registered :
    (setFunctionMapping xenia library ordinal target s).registered = s.registered := rfl

@[simp] theorem setFunctionMapping_declared :
    (setFunctionMapping xenia library ordinal target s).declared = s.declared := rfl

@[simp] theorem setFunctionMapping_memory :
    (setFunctionMapping xenia library ordinal target s).memory = s.memory := rfl

@[simp] theorem setVariableMapping_registered :
    (setVariableMapping xenia library ordinal value s).registered = s.registered := rfl

@[simp] theorem setVariableMapping_declared :
    (setVariableMapping xenia library ordinal value s).declared = s.declared := rfl

@[simp] theorem setVariableMapping_memory :
    (setVariableMapping xenia library ordinal value s).memory = s.memory := rfl

end

/-- The four words of an import thunk: `sc`, `blr` and two `nop`s. -/
def storeThunk (m : Memory UInt8) (thunk : Nat) : Memory UInt8 :=
  let m := storeGuestWord m thunk 0x44000042
  let m := storeGuestWord m (thunk + 4) 0x4E800020
  let m := storeGuestWord m (thunk + 8) 0x60000000
  storeGuestWord m (thunk + 12) 0x60000000

/-- One turn of the inner loop: the export `owned`, known to Xenia as `ref`. -/
def attachExport (xenia : XeniaSymbols) (library : StringView) (table : Nat) (s : Attachment)
    (turn : OwnedExport × Nat) : Attachment × Option CallOutcome :=
  let owned := turn.1
  let ref : ExportRef := ⟨table, turn.2⟩
  match owned.kind with
  | .function =>
    let s := setFunctionMapping xenia library owned.ordinal ref s
    match xenia.declareFunction s.declared owned.address with
    | .threw => (s, some .threw)
    | .declared true (some true) =>
      ({ s with
          declared := s.declared ++ [owned.address]
          memory := storeThunk s.memory owned.address.toNat
          functions := s.functions ++
            [⟨owned.address, owned.address + 12, owned.name, s.functionMapping ref, ref⟩] }, none)
    | .declared _ _ =>
      ({ s with declared := s.declared ++ [owned.address] }, some (.returned refusedAddress))
  | ImportKind.variable =>
    let s := setVariableMapping xenia library owned.ordinal owned.resolvedVariable s
    ({ s with memory := storeGuestWord s.memory owned.recordAddress.toNat (s.variablePtr ref) },
      none)

/-- One turn of the outer loop. -/
def attachTable (xenia : XeniaSymbols) (s : Attachment) (turn : OwnedTable × Nat) :
    Attachment × Option CallOutcome :=
  let s := { s with registered := s.registered ++ [turn.1] }
  forEach (attachExport xenia turn.1.library turn.2) turn.1.ownedExports.zipIdx s

def attach (imports : RuntimeImports) (xenia : XeniaSymbols) (s : Attachment) :
    Attachment × CallOutcome :=
  let (s, exit) := forEach (attachTable xenia) imports.tables.zipIdx s
  (s, exit.getD (.returned {}))

end RuntimeImports

/-! ## Serving a call -/

/-- What a served import call does to the guest thread. -/
inductive ImportDispatch where
  | returned (registers : GuestRegisters)
  | refused (library : StringView) (ordinal : UInt16) (reason : ImportRefusalReason)
  deriving DecidableEq, Repr

/-- A guest call of a function import, for a title whose handlers run as `service`. -/
def dispatchFunction (service : ImportFunctionHandler → Pointer → GuestImportContext →
    GuestImportContext) (owned : OwnedExport) (registers : GuestRegisters) :
    Except Undefined ImportDispatch :=
  match owned.functionHandler with
  | none => .error .nullCall
  | some handler =>
    let context := service handler owned.functionContext (.make registers.arguments)
    match context.refusal with
    | some reason => .ok (.refused owned.library owned.ordinal reason)
    | none => .ok (.returned (registers.setResult context.returnValue))

end X360Port
