import Mathlib.Data.List.Nodup
import X360Port.Library.Acceptance
import X360Port.RuntimeFailure
import X360Port.Validation

/-!
# Import claims

A host service claims an import by the name of the export it provides; the
image's manifest carries only library and ordinal. `resolve` turns a list of
claims into ordinals through the export tables, all claims or none, and `apply`
installs the handler of one manifest entry.

Xenia's ordinal tables are the parameter `exports`: one list of exports for each
library, in the table's order.
-/

namespace X360Port

open Library

/-! ## Export names -/

inductive ExportNames.Library where
  | kernel
  | xam
  deriving DecidableEq, Repr

structure ExportNames.Export where
  name : StringView
  ordinal : UInt32 := 0
  kind : ImportKind := .function
  deriving DecidableEq, Repr

/-- `Exports`: the table of each library. -/
abbrev ExportTables := ExportNames.Library → List ExportNames.Export

namespace ExportNames

/-- `xboxkrnl.exe` -/
def kernelLibraryName : StringView :=
  [0x78, 0x62, 0x6f, 0x78, 0x6b, 0x72, 0x6e, 0x6c, 0x2e, 0x65, 0x78, 0x65]

/-- `xam.xex` -/
def xamLibraryName : StringView := [0x78, 0x61, 0x6d, 0x2e, 0x78, 0x65, 0x78]

def parseLibrary (name : StringView) : Option ExportNames.Library :=
  if name = kernelLibraryName then some .kernel
  else if name = xamLibraryName then some .xam
  else none

def find (exports : ExportTables) (library : ExportNames.Library) (name : StringView) :
    Option Export :=
  (exports library).find? fun candidate => candidate.name == name

def exportCount (exports : ExportTables) (library : ExportNames.Library) : Nat :=
  (exports library).length

end ExportNames

open ExportNames (parseLibrary)

def libraryName : ExportNames.Library → StringView
  | .kernel => ExportNames.kernelLibraryName
  | .xam => ExportNames.xamLibraryName

theorem parseLibrary_eq_some_iff {name : StringView} {library : ExportNames.Library} :
    parseLibrary name = some library ↔ name = libraryName library := by
  have hne : ExportNames.xamLibraryName ≠ ExportNames.kernelLibraryName := by decide
  constructor
  · intro h
    unfold parseLibrary at h
    split_ifs at h with hkernel hxam
    · obtain rfl := Option.some.inj h
      exact hkernel
    · obtain rfl := Option.some.inj h
      exact hxam
  · rintro rfl
    cases library with
    | kernel => exact if_pos rfl
    | xam =>
      rw [parseLibrary, libraryName, if_neg hne]
      exact if_pos rfl

/-- No library declares two exports of one name. -/
def UniqueNames (exports : ExportTables) : Prop :=
  ∀ library, ((exports library).map ExportNames.Export.name).Nodup

theorem find_eq_some_iff {exports : ExportTables} (hunique : UniqueNames exports)
    {library : ExportNames.Library} {name : StringView} {found : ExportNames.Export} :
    ExportNames.find exports library name = some found ↔
      found ∈ exports library ∧ found.name = name := by
  constructor
  · intro h
    exact ⟨List.mem_of_find?_eq_some h, by simpa using List.find?_some h⟩
  · rintro ⟨hmem, hname⟩
    cases hfind : ExportNames.find exports library name with
    | none =>
      have := List.find?_eq_none.1 hfind found hmem
      simp [hname] at this
    | some other =>
      have hother : other.name = name := by simpa using List.find?_some hfind
      have heq : other = found := List.inj_on_of_nodup_map (hunique library)
        (List.mem_of_find?_eq_some hfind) hmem (hother.trans hname.symm)
      exact congrArg some heq

/-! ## The table -/

structure ImportClaim where
  library : ExportNames.Library := .kernel
  exportName : StringView
  handler : Option ImportFunctionHandler := none
  context : Pointer := 0
  deriving DecidableEq, Repr

/-- `Describe`. -/
def ImportClaim.describe (claim : ImportClaim) : String :=
  (libraryName claim.library).text ++ " export " ++ claim.exportName.text

/-- A claim in the table has a handler: resolution refuses one without. -/
structure ResolvedClaim where
  library : ExportNames.Library
  ordinal : UInt32
  handler : ImportFunctionHandler
  context : Pointer
  deriving DecidableEq, Repr

/-- The import a resolved claim binds. -/
def ResolvedClaim.key (claim : ResolvedClaim) : ExportNames.Library × UInt32 :=
  (claim.library, claim.ordinal)

/-- No two claims of the table bind one import. -/
structure ImportClaimTable where
  resolved : List ResolvedClaim
  applied : Nat
  distinct : resolved.Pairwise fun a b => ¬ a.key = b.key

namespace ImportClaimTable

def size (table : ImportClaimTable) : Nat := table.resolved.length

/-- A table as it is constructed. -/
def empty : ImportClaimTable where
  resolved := []
  applied := 0
  distinct := .nil

def clear (_ : ImportClaimTable) : ImportClaimTable := empty

/-- One turn of the loop over the claims. -/
def resolveClaim (exports : ExportTables) (resolved : List ResolvedClaim) (claim : ImportClaim) :
    Except RuntimeFailure ResolvedClaim :=
  match claim.handler with
  | none => .error ⟨.importValidationFailed, claim.describe ++ " was claimed without a handler"⟩
  | some handler =>
    match ExportNames.find exports claim.library claim.exportName with
    | none =>
      .error ⟨.importValidationFailed, claim.describe ++ " is not declared by that library; " ++
        toString (ExportNames.exportCount exports claim.library) ++ " exports were searched"⟩
    | some found =>
      if found.kind ≠ .function then
        .error ⟨.importValidationFailed,
          claim.describe ++ " is a variable export and cannot take a handler"⟩
      else if resolved.any fun candidate =>
          candidate.library == claim.library && candidate.ordinal == found.ordinal then
        .error ⟨.importValidationFailed,
          claim.describe ++ " was claimed by more than one service"⟩
      else .ok ⟨claim.library, found.ordinal, handler, claim.context⟩

/-- The claim as the table would hold it, whatever the other claims are. -/
def resolution (exports : ExportTables) (claim : ImportClaim) : Option ResolvedClaim :=
  claim.handler.bind fun handler =>
    (ExportNames.find exports claim.library claim.exportName).bind fun found =>
      if found.kind = .function then
        some ⟨claim.library, found.ordinal, handler, claim.context⟩
      else none

theorem resolveClaim_accepts (exports : ExportTables) :
    Accepts (resolveClaim exports) (resolution exports) fun a b => a.key = b.key := by
  intro resolved claim entry
  cases hhandler : claim.handler with
  | none => simp [resolveClaim, resolution, hhandler]
  | some handler =>
    cases hfind : ExportNames.find exports claim.library claim.exportName with
    | none => simp [resolveClaim, resolution, hhandler, hfind]
    | some found =>
      by_cases hkind : found.kind = .function
      · simp only [resolveClaim, resolution, hhandler, hfind, hkind, Option.bind_some, if_true,
          not_true_eq_false, ne_eq, if_false, Option.some.injEq]
        rw [ite_eq_iff]
        simp only [reduceCtorEq, and_false, false_or, List.any_eq_true, Bool.and_eq_true,
          beq_iff_eq, Except.ok.injEq, not_exists, not_and]
        constructor
        · rintro ⟨hfree, rfl⟩
          refine ⟨rfl, fun c hc hkey => ?_⟩
          exact hfree c hc (congrArg Prod.fst hkey) (congrArg Prod.snd hkey)
        · rintro ⟨rfl, hfree⟩
          refine ⟨fun c hc hl ho => hfree c hc ?_, rfl⟩
          exact Prod.ext hl ho
      · simp [resolveClaim, resolution, hhandler, hfind, hkind]

/-- The claims are resolved into a new list; the table takes it only when the
loop has come to its end. -/
def resolve (exports : ExportTables) (table : ImportClaimTable) (claims : List ImportClaim) :
    RuntimeFailure × ImportClaimTable :=
  match hresolved : acceptAll (resolveClaim exports) claims [] with
  | .error failure => (failure, table)
  | .ok resolved =>
    ({}, { resolved := resolved
           applied := 0
           distinct := (accepted_of_ok (resolveClaim_accepts exports) hresolved).2.2 })

def find (table : ImportClaimTable) (library : ExportNames.Library) (ordinal : UInt32) :
    Option ResolvedClaim :=
  table.resolved.find? fun candidate =>
    candidate.library == library && candidate.ordinal == ordinal

def apply (table : ImportClaimTable) (requirement : ImportRequirement) (binding : ImportBinding) :
    ImportClaimTable × ImportBinding :=
  if requirement.kind ≠ .function then (table, binding)
  else
    match parseLibrary requirement.library with
    | none => (table, binding)
    | some library =>
      match table.find library requirement.ordinal with
      | none => (table, binding)
      | some claim =>
        ({ table with applied := table.applied + 1 },
          { binding with
            functionHandler := some claim.handler
            functionContext := claim.context })

/-- The composition owner's walk over the manifest and its bindings. -/
def applyManifest (table : ImportClaimTable) :
    List (ImportRequirement × ImportBinding) → ImportClaimTable × List ImportBinding
  | [] => (table, [])
  | (requirement, binding) :: rest =>
    let (table, binding) := table.apply requirement binding
    let (table, bindings) := table.applyManifest rest
    (table, binding :: bindings)

end ImportClaimTable

end X360Port
