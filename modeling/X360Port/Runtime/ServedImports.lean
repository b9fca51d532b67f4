import X360Port.ImportClaims.Applied
import X360Port.Runtime.Loading
import X360Port.RuntimeImports.Dispatch

/-!
# Imports from the claims to the guest's calls

The title's claims are resolved against the export tables, applied to the
bindings of a manifest, and the module is loaded with the result. Whatever
loads came before, a guest call of a function import whose thunk stands then runs
the handler of the claim that names the import's export, or the import's own where
no claim does, and a handler's refusal names that import. The load leaves every
thunk standing exactly when the imports' patches are compatible.
-/

namespace X360Port

open Library

namespace Runtime

/-- A guest call at the address in a loaded context, with the memory as it is now. -/
def serveImport (s : Runtime) (callOut : CallOut) (now : Memory UInt8)
    (service : ImportFunctionHandler → Pointer → GuestImportContext → GuestImportContext)
    (address : GuestAddress) (registers : GuestRegisters) :
    Option (Except Undefined ImportDispatch) :=
  s.imports.bind fun imports =>
    imports.serve callOut s.guest.functions now service address registers

end Runtime

/-- What the guest thread sees of an import's handler that ended in `context`. -/
def ImportRequirement.answered (imp : ImportRequirement) (registers : GuestRegisters)
    (context : GuestImportContext) : ImportDispatch :=
  match context.refusal with
  | some reason => .refused imp.library imp.ordinal.toUInt16 reason
  | none => .returned (registers.setResult context.returnValue)

/-- The handler that a manifest entry gets: a claim's, or its own where none names it. -/
inductive HandledBy (exports : ExportTables) (claims : List ImportClaim)
    (imp : ImportRequirement) (binding : ImportBinding) : ImportFunctionHandler → Pointer → Prop
  | claimed (claim : ImportClaim) (handler : ImportFunctionHandler) (hm : claim ∈ claims)
      (hb : claim.Binds exports imp) (hh : claim.handler = some handler) :
      HandledBy exports claims imp binding handler claim.context
  | unclaimed (handler : ImportFunctionHandler)
      (hn : ∀ claim ∈ claims, ¬ claim.Binds exports imp)
      (hh : binding.functionHandler = some handler) :
      HandledBy exports claims imp binding handler binding.functionContext

/-- The import's export serves its calls by its handler. -/
theorem dispatchFunction_answered {imp : ImportRequirement} {binding : ImportBinding}
    {handler : ImportFunctionHandler} (hh : binding.functionHandler = some handler)
    (service : ImportFunctionHandler → Pointer → GuestImportContext → GuestImportContext)
    (registers : GuestRegisters) :
    dispatchFunction service (exportOf (imp, binding)) registers =
      .ok (imp.answered registers
        (service handler binding.functionContext (.make registers.arguments))) := by
  have hf : (exportOf (imp, binding)).functionHandler = some handler := hh
  simp only [dispatchFunction, hf]
  unfold ImportRequirement.answered
  split
  · next reason hr =>
    have hr' : (service handler binding.functionContext (.make registers.arguments)).refusal =
        some reason := hr
    rw [hr']
    rfl
  · next hr =>
    have hr' : (service handler binding.functionContext (.make registers.arguments)).refusal =
        none := hr
    rw [hr']
    rfl

/-! ## Loaded contexts -/

/-- A context that can still load a module is as it was created. -/
theorem LoadHistory.idle_fresh {lookupHeap : GuestAddress → Bool} {memory : Memory UInt8}
    {calls : List LoadCall} {h : LoadHistory}
    (hplay : play (LoadHistory.step lookupHeap) (.start memory) calls = some h)
    (hidle : h.context.Idle) : h.context = .fresh memory := by
  refine play_invariant (P := fun h => h.context.Idle → h.context = .fresh memory)
    (fun h call h' hfresh hstep => ?_) (fun _ => rfl) hplay hidle
  obtain ⟨s, outcome, hl, hloading⟩ := Runtime.loadModule_loading lookupHeap h.context call
  rw [LoadHistory.step_of_loadModule hl] at hstep
  cases hstep
  cases hloading with
  | refused => exact hfresh
  | stopped => exact fun hi => absurd hi.1 Bool.noConfusion
  | unwatched => exact fun hi => absurd hi.1 Bool.noConfusion
  | loaded => exact fun hi => absurd hi.2 Bool.noConfusion

/-- A successful load leaves a thunk for each function import, in manifest order, and the words
of every import where these are compatible. -/
theorem Runtime.loaded_thunks {lookupHeap : GuestAddress → Bool} {memory : Memory UInt8}
    {calls : List LoadCall} {h : LoadHistory}
    (hplay : play (LoadHistory.step lookupHeap) (.start memory) calls = some h) {call : LoadCall}
    {s : Runtime} {outcome : CallOutcome}
    (hl : h.context.loadModule lookupHeap call = .ok (s, outcome)) (hok : outcome.Succeeded)
    (hr : ∀ imports, s.imports = some imports → ResolverFinds call.symbols imports.tables)
    (hd : DeclareSucceeds call.symbols) :
    WellFormedModule call.module ∧
      List.Forall₂ ShapedBinding call.module.importManifest call.bindings ∧
      (EveryImportPatched call.module.importManifest call.bindings s.memory ↔
        PatchesCompatible call.module.importManifest call.bindings) ∧
      ∃ imports, s.imports = some imports ∧ List.Forall₂ (ThunkFor imports) s.guest.functions
        (functionExports ((call.module.importManifest.zip call.bindings).map exportOf)) := by
  obtain ⟨s1, outcome1, h1, hloading⟩ := Runtime.loadModule_loading lookupHeap h.context call
  rw [hl] at h1
  cases h1
  cases hloading with
  | refused failure hf => exact absurd hok hf
  | stopped imports guest outcome hi hf => exact absurd hok hf
  | unwatched imports guest failure hr ha hf => exact absurd hok hf
  | loaded imports guest hreach ha =>
    have hw := wellFormed_of_ok hreach.module
    have hs := (validateImports_ok_iff _ _).1 hreach.bindings
    have hfresh := LoadHistory.idle_fresh hplay hreach.idle
    obtain rfl := imports_of_create hs hreach.created
    have hmatch := tablesMatch_tablesOf hw.imports hw.ordered hs
    obtain ⟨failure, hfailure, hattach⟩ := hreach.attached
    have hguest : (h.context.copyImage call.module).guest =
        { memory := (h.context.copyImage call.module).memory } := by
      rw [hfresh]
      rfl
    rw [hguest] at hattach
    refine ⟨hw, hs, ?_, _, rfl, ?_⟩
    · obtain ⟨attached, hattached, hmemory⟩ := attach_tablesOf hw.imports hw.apart hw.ordered hs
        (hr _ rfl) hd (h.context.copyImage call.module).memory
      obtain rfl : attached = guest := congrArg Prod.fst (hattached.symm.trans hattach)
      have hpatched := everyImportPatched_iff hw.imports hs.length_eq hw.apart
        (h.context.copyImage call.module).memory
      rw [← hmemory] at hpatched
      exact hpatched
    · rw [← hmatch.exports]
      exact attach_thunks (hr _ rfl) hmatch.slot_owned rfl rfl hfailure hattach

/-- The function imports have addresses of their own. -/
theorem WellFormedModule.functionExports_nodup {module : GuestModule} (h : WellFormedModule module)
    {bindings : List ImportBinding} (hlen : module.importManifest.length = bindings.length) :
    ((functionExports ((module.importManifest.zip bindings).map exportOf)).map
      (·.address)).Nodup :=
  functionAddresses_nodup hlen h.apart

/-- The binding that the claims leave for a function import has the import's handler. -/
theorem ImportClaimTable.install_handledBy {exports : ExportTables} (hunique : UniqueNames exports)
    {table : ImportClaimTable} {claims : List ImportClaim}
    (hclaims : (table.resolve exports claims).1.Ok) {imp : ImportRequirement}
    {binding : ImportBinding} {handler : ImportFunctionHandler}
    (hh : (install ((table.resolve exports claims).2.claimFor imp) binding).functionHandler =
      some handler) :
    HandledBy exports claims imp binding handler
      (install ((table.resolve exports claims).2.claimFor imp) binding).functionContext := by
  cases hentry : (table.resolve exports claims).2.claimFor imp with
  | none =>
    rw [hentry] at hh
    refine .unclaimed handler (fun claim hclaim hbinds => ?_) hh
    obtain ⟨entry, hsome, -⟩ := claimFor_resolve hunique hclaims hclaim hbinds
    rw [hentry] at hsome
    cases hsome
  | some entry =>
    rw [hentry] at hh
    obtain ⟨claim, hclaim, hbinds⟩ := binds_of_claimFor hunique hclaims hentry
    obtain ⟨entry', hsome, hhandler, hcontext⟩ :=
      claimFor_resolve hunique hclaims hclaim hbinds
    rw [hentry] at hsome
    cases hsome
    have hsame : entry.handler = handler := Option.some.inj hh
    have hclaimed : HandledBy exports claims imp binding handler claim.context :=
      .claimed claim handler hclaim hbinds (hhandler.trans (congrArg some hsame))
    rw [← hcontext] at hclaimed
    exact hclaimed

/-- **Main result.** In every context, after every run of loads, a load that succeeds with the
bindings that the resolved claims were applied to leaves every import's words standing where
they are compatible. As long as the thunk of a function import stands, the import is served by
the handler and the context of the claim that names it, or by its own; and nothing else is
served. -/
theorem loadModule_servesImports (callOut : CallOut) (hcalls : CallsThunks callOut)
    (exports : ExportTables) (hunique : UniqueNames exports)
    (table : ImportClaimTable) (claims : List ImportClaim)
    (hclaims : (table.resolve exports claims).1.Ok) (lookupHeap : GuestAddress → Bool)
    (memory : Memory UInt8) (calls : List LoadCall) (h : LoadHistory)
    (hplay : play (LoadHistory.step lookupHeap) (.start memory) calls = some h) (call : LoadCall)
    (base : List ImportBinding)
    (hbindings : call.bindings = ((table.resolve exports claims).2.applyManifest
      (call.module.importManifest.zip base)).2)
    (s : Runtime) (outcome : CallOutcome)
    (hl : h.context.loadModule lookupHeap call = .ok (s, outcome)) (hok : outcome.Succeeded)
    (hr : ∀ imports, s.imports = some imports → ResolverFinds call.symbols imports.tables)
    (hd : DeclareSucceeds call.symbols) :
    (EveryImportPatched call.module.importManifest call.bindings s.memory ↔
      PatchesCompatible call.module.importManifest call.bindings) ∧
    (∀ (index : Nat) imp binding, call.module.importManifest[index]? = some imp →
      base[index]? = some binding → imp.kind = .function →
      ∃ handler context, HandledBy exports claims imp binding handler context ∧
        ∀ now, ThunkAt now imp.address.toNat → ∀ service registers,
          s.serveImport callOut now service imp.address registers =
            some (.ok (imp.answered registers
              (service handler context (.make registers.arguments))))) ∧
    ∀ address, (∀ imp ∈ call.module.importManifest, imp.kind = .function →
        imp.address ≠ address) →
      ∀ now service registers, s.serveImport callOut now service address registers = none := by
  obtain ⟨hw, hs, hpatched, imports, himports, hthunks⟩ := Runtime.loaded_thunks hplay hl hok hr hd
  have hnodup := hw.functionExports_nodup hs.length_eq
  unfold Runtime.serveImport
  rw [himports]
  refine ⟨hpatched, ?_, ?_⟩
  · intro index imp binding himp hbase hkind
    let applied := ImportClaimTable.install
      ((table.resolve exports claims).2.claimFor imp) binding
    have happlied : call.bindings[index]? = some applied := by
      have hentry : (call.module.importManifest.zip base)[index]? = some (imp, binding) :=
        List.getElem?_zip_eq_some.2 ⟨himp, hbase⟩
      rw [hbindings, ImportClaimTable.applyManifest_eq, List.getElem?_map, hentry]
      rfl
    have hx : (imp, applied) ∈ call.module.importManifest.zip call.bindings :=
      mem_zip_iff_getElem?.2 ⟨index, himp, happlied⟩
    have hshaped : ShapedBinding imp applied := (List.forall₂_iff_zip.1 hs).2 hx
    obtain ⟨handler, hh⟩ := Option.isSome_iff_exists.1 (hshaped.function_callbacks hkind).1
    refine ⟨handler, applied.functionContext,
      ImportClaimTable.install_handledBy hunique hclaims hh,
      fun now hstands service registers => ?_⟩
    have howned : exportOf (imp, applied) ∈ functionExports
        ((call.module.importManifest.zip call.bindings).map exportOf) :=
      List.mem_filter.2 ⟨List.mem_map_of_mem hx, decide_eq_true hkind⟩
    rw [Option.bind_some, ← dispatchFunction_answered hh]
    exact serve_of_mem hcalls hthunks hnodup howned hstands
  · intro address haddress now service registers
    refine serve_of_not_mem hcalls hthunks fun hm => ?_
    obtain ⟨owned, howned, rfl⟩ := List.mem_map.1 hm
    obtain ⟨hmem, hkind⟩ := List.mem_filter.1 howned
    obtain ⟨x, hx, rfl⟩ := List.mem_map.1 hmem
    exact haddress x.1 (List.of_mem_zip hx).1 (of_decide_eq_true hkind) rfl

/-! ## A title that claims one import -/

def claimedImports : List ImportRequirement :=
  [{ kind := .function, library := ExportNames.xamLibraryName, ordinal := 1, name := [0x41],
     address := 0x82000000, recordAddress := 0x82000014 }]

def unclaimedBindings : List ImportBinding :=
  [{ library := ExportNames.xamLibraryName, ordinal := 1, kind := .function,
     functionHandler := some ⟨1⟩ }]

def titleClaims : List ImportClaim := [⟨.xam, [0x41], some ⟨7⟩, 9⟩]

def claimedLoad : LoadCall where
  module := syntheticModule claimedImports
  bindings := [{ library := ExportNames.xamLibraryName, ordinal := 1, kind := .function,
                 functionHandler := some ⟨7⟩, functionContext := 9 }]
  symbols := plainXenia

theorem claimedLoad_loads : ∃ s,
    (Runtime.fresh fun _ => 0).loadModule (fun _ => true) claimedLoad = .ok (s, .returned {}) ∧
      s.imports = some ⟨tablesOf claimedImports claimedLoad.bindings⟩ := by
  have hmodule : (validateModule claimedLoad.module).Ok :=
    syntheticModule_accepted (by decide)
  have hw := wellFormed_of_ok hmodule
  have hbound : (validateImports claimedLoad.module claimedLoad.bindings).Ok := by decide
  obtain ⟨guest, hattach, -⟩ := attach_tablesOf hw.imports hw.apart hw.ordered
    ((validateImports_ok_iff _ _).1 hbound) (plainXenia_finds (by decide)) plainXenia_declares
    ((Runtime.fresh fun _ => 0).copyImage claimedLoad.module).memory
  have hreach : (Runtime.fresh fun _ => 0).ReachesArming (fun _ => true) claimedLoad
      ⟨tablesOf claimedImports claimedLoad.bindings⟩ guest :=
    ⟨⟨rfl, rfl⟩, hmodule, hbound, by decide, rfl, rfl, ⟨{}, rfl, hattach⟩, rfl⟩
  obtain ⟨s, outcome, hl, hloading⟩ :=
    Runtime.loadModule_loading (fun _ => true) (.fresh fun _ => 0) claimedLoad
  refine ⟨s, ?_⟩
  cases hloading with
  | refused failure hf hn => exact absurd hreach (hn _ _)
  | stopped imports guest outcome hi hf hn => exact absurd hreach (hn _ _)
  | unwatched imports guest failure hr ha => exact absurd (by decide) ha
  | loaded imports guest hr ha =>
    refine ⟨hl, ?_⟩
    have hcreated := hr.created.symm.trans hreach.created
    cases hcreated
    rfl

/-- A Xenia that calls out from the words of a thunk and from no others. -/
def plainCallOut : CallOut := fun functions memory address =>
  (functions.find? (·.address = address)).bind fun function =>
    if ThunkAt memory address.toNat then function.callbackContext else none

theorem plainCallOut_callsThunks : CallsThunks plainCallOut where
  thunk functions memory function hfind hstands := by
    rw [plainCallOut, hfind, Option.bind_some, if_pos hstands]
  undeclared functions memory address h := by
    have hfind : functions.find? (·.address = address) = none := by
      rw [List.find?_eq_none]
      intro function hfunction haddress
      exact h function hfunction (of_decide_eq_true haddress)
    rw [plainCallOut, hfind]
    rfl

/-- The claim's handler serves the call, not the binding's. -/
theorem loadModule_servesImports_synthetic : ∃ s : Runtime, ∃ handler context,
    HandledBy ImportClaimTable.aliasedExports titleClaims claimedImports[0] unclaimedBindings[0]
      handler context ∧ ThunkAt s.memory 0x82000000 ∧
      ∀ service registers,
        s.serveImport plainCallOut s.memory service 0x82000000 registers =
          some (.ok (claimedImports[0].answered registers
            (service handler context (.make registers.arguments)))) := by
  obtain ⟨s, hl, himports⟩ := claimedLoad_loads
  have hfinds : ∀ imports, s.imports = some imports →
      ResolverFinds claimedLoad.symbols imports.tables := by
    intro imports h
    rw [himports] at h
    cases h
    exact plainXenia_finds (by decide)
  obtain ⟨hpatched, hserves, -⟩ := loadModule_servesImports plainCallOut plainCallOut_callsThunks
    ImportClaimTable.aliasedExports ImportClaimTable.aliasedExports_unique .empty titleClaims
    (by decide) (fun _ => true) (fun _ => 0) [] (.start fun _ => 0) rfl claimedLoad
    unclaimedBindings rfl s (.returned {}) hl rfl hfinds plainXenia_declares
  obtain ⟨handler, context, hhandled, hserved⟩ := hserves 0 _ _ rfl rfl rfl
  have hstands : ThunkAt s.memory 0x82000000 :=
    hpatched.2 (by decide) (claimedImports[0], claimedLoad.bindings[0]) List.mem_cons_self
  exact ⟨s, handler, context, hhandled, hstands, hserved s.memory hstands⟩

end X360Port
