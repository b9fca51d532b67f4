import X360Port.RuntimeImports.PatchedImports

/-!
# What a guest call of an import reaches

A declared thunk holds the callback context that the resolver's export had when
it was declared. After a successful `attach` there is one thunk for each
function import, in table order, and it calls out through that import's own
export (`attach_thunks`).

How a guest call comes to call out is Xenia's: it translates the words at the
address and runs them. `CallOut` stands for that, and `CallsThunks` is what is
assumed of it. `serve` is a guest call at an address, through what it calls out
with and the export's handler.
-/

namespace X360Port

open Library

/-- The export that a reference names. -/
def RuntimeImports.exportAt (imports : RuntimeImports) (ref : ExportRef) : Option OwnedExport :=
  imports.tables[ref.table]?.bind fun table => table.ownedExports[ref.index]?

/-- The callback context that a guest call of an address calls out with, if it does, by the
functions that are declared and the memory that Xenia translates the words from. -/
abbrev CallOut := List GuestFunction → Memory UInt8 → GuestAddress → Option ExportRef

/-- What is assumed of Xenia: a declared function whose words are a thunk's calls its extern
handler, and an address where none is declared has none. -/
structure CallsThunks (callOut : CallOut) : Prop where
  thunk : ∀ functions memory function,
    functions.find? (·.address = function.address) = some function →
    ThunkAt memory function.address.toNat →
    callOut functions memory function.address = function.callbackContext
  undeclared : ∀ functions memory address, (∀ function ∈ functions, function.address ≠ address) →
    callOut functions memory address = none

/-- A guest call at the address, for a title whose handlers run as `service`. -/
def RuntimeImports.serve (imports : RuntimeImports) (callOut : CallOut)
    (functions : List GuestFunction) (memory : Memory UInt8)
    (service : ImportFunctionHandler → Pointer → GuestImportContext → GuestImportContext)
    (address : GuestAddress) (registers : GuestRegisters) :
    Option (Except Undefined ImportDispatch) :=
  (callOut functions memory address).bind fun ref => (imports.exportAt ref).map fun owned =>
    dispatchFunction service owned registers

/-- The function is the thunk of an export. -/
structure ThunkFor (imports : RuntimeImports) (function : GuestFunction) (owned : OwnedExport) :
    Prop where
  address : function.address = owned.address
  endAddress : function.endAddress = owned.address + 12
  name : function.name = owned.name
  target : function.callbackContext = some function.exportValue
  named : imports.exportAt function.exportValue = some owned

/-- The exports of functions, in order. -/
def functionExports (exports : List OwnedExport) : List OwnedExport :=
  exports.filter fun owned => owned.kind = .function

theorem functionExports_append (exports more : List OwnedExport) :
    functionExports (exports ++ more) = functionExports exports ++ functionExports more :=
  List.filter_append ..

section

variable {xenia : XeniaSymbols} {imports : RuntimeImports} {s : Attachment}

/-- One export that the resolver finds: its thunk, if it is a function. -/
theorem attachExport_thunk {library : StringView} {table index : Nat} {owned : OwnedExport}
    {exports : List OwnedExport}
    (hfound : xenia.exportFor s.registered library owned.ordinal = some ⟨table, index⟩)
    (hnamed : imports.exportAt ⟨table, index⟩ = some owned)
    (h : List.Forall₂ (ThunkFor imports) s.functions (functionExports exports)) :
    Ended (fun s' => s'.registered = s.registered ∧
        List.Forall₂ (ThunkFor imports) s'.functions (functionExports (exports ++ [owned])))
      (fun _ exit => ¬ exit.Succeeded)
      (RuntimeImports.attachExport xenia library table s (owned, index)) := by
  unfold RuntimeImports.attachExport
  rw [functionExports_append]
  cases hk : owned.kind with
  | function =>
    have hself : functionExports [owned] = [owned] := by simp [functionExports, hk]
    simp only [hk, hself]
    split
    · exact id
    · refine ⟨rfl, List.rel_append h (.cons ⟨rfl, rfl, rfl, ?_, hnamed⟩ .nil)⟩
      exact if_pos hfound
    · exact RuntimeError.noConfusion
  | «variable» =>
    have hself : functionExports [owned] = [] := by simp [functionExports, hk]
    simp only [hk, hself, List.append_nil]
    exact ⟨rfl, h⟩

/-- One table of the import set. -/
theorem attachTable_thunks {table : Nat} {t : OwnedTable} {exports : List OwnedExport}
    (ht : imports.tables[table]? = some t)
    (hfound : ∀ (index : Nat) owned, t.ownedExports[index]? = some owned →
      xenia.exportFor (s.registered ++ [t]) t.library owned.ordinal = some ⟨table, index⟩)
    (h : List.Forall₂ (ThunkFor imports) s.functions (functionExports exports)) :
    Ended (fun s' => s'.registered = s.registered ++ [t] ∧
        List.Forall₂ (ThunkFor imports) s'.functions (functionExports (exports ++ t.ownedExports)))
      (fun _ exit => ¬ exit.Succeeded) (RuntimeImports.attachTable xenia s (t, table)) := by
  have hloop := forEach_ended (RuntimeImports.attachExport xenia t.library table)
    t.ownedExports.zipIdx { s with registered := s.registered ++ [t] }
    (fun done s' => s'.registered = s.registered ++ [t] ∧
      List.Forall₂ (ThunkFor imports) s'.functions
        (functionExports (exports ++ done.map (·.1))))
    (fun _ exit => ¬ exit.Succeeded) ⟨rfl, by rwa [List.map_nil, List.append_nil]⟩
    fun done turn rest s1 hx ⟨hregistered, hthunks⟩ => by
      obtain ⟨hi, rfl⟩ := turn_of_zipIdx hx
      have howned := List.getElem?_eq_getElem hi
      have hnamed : imports.exportAt ⟨table, done.length⟩ = some t.ownedExports[done.length] := by
        rw [RuntimeImports.exportAt, ht]
        exact howned
      have hone := attachExport_thunk (hregistered ▸ hfound _ _ howned) hnamed hthunks
      refine hone.mono (fun s2 ⟨hr, ht⟩ => ⟨hr.trans hregistered, ?_⟩) fun _ _ he => he
      rwa [List.map_append, ← List.append_assoc]
  unfold RuntimeImports.attachTable
  rwa [List.zipIdx_map_fst] at hloop

/-- **The thunks of an import set** whose exports the resolver finds. -/
theorem attach_thunks (hr : ResolverFinds xenia imports.tables)
    (hslots : ∀ t ∈ imports.tables, ∀ (index : Nat) owned, t.ownedExports[index]? = some owned →
      t.exportsByOrdinal[owned.ordinal.toNat]? = some (some index))
    (hregistered : s.registered = []) (hfunctions : s.functions = []) {s' : Attachment}
    {failure : RuntimeFailure} (hok : failure.Ok)
    (h : imports.attach xenia s = (s', .returned failure)) :
    List.Forall₂ (ThunkFor imports) s'.functions
      (functionExports (imports.tables.flatMap (·.ownedExports))) := by
  have hloop := forEach_ended (RuntimeImports.attachTable xenia) imports.tables.zipIdx s
    (fun done s' => s'.registered = done.map (·.1) ∧
      List.Forall₂ (ThunkFor imports) s'.functions
        (functionExports ((done.map (·.1)).flatMap (·.ownedExports))))
    (fun _ exit => ¬ exit.Succeeded) ⟨hregistered, by rw [hfunctions]; exact .nil⟩
    fun done turn rest s1 hx ⟨hreg, hthunks⟩ => by
      obtain ⟨hi, rfl⟩ := turn_of_zipIdx hx
      have htable := List.getElem?_eq_getElem hi
      have htables : imports.tables = done.map (·.1) ++ imports.tables[done.length] ::
          rest.map (·.1) := by
        conv_lhs => rw [← List.zipIdx_map_fst 0 imports.tables, hx, List.map_append, List.map_cons]
      have htake : imports.tables.take (done.length + 1) =
          done.map (·.1) ++ [imports.tables[done.length]] := by
        conv_lhs => rw [htables]
        rw [List.take_append, List.length_map, List.take_of_length_le (by simp)]
        simp
      have hone := attachTable_thunks htable (fun index owned ho => by
        rw [hreg, ← htake]
        exact hr _ _ htable _ _ (hslots _ (List.getElem_mem hi) _ _ ho)) hthunks
      refine hone.mono (fun s2 ⟨hr, ht⟩ => ⟨?_, ?_⟩) fun _ _ he => he
      · rw [hr, hreg, List.map_append]
        rfl
      · rw [List.map_append, List.flatMap_append]
        simpa using ht
  unfold RuntimeImports.attach at h
  rcases hrun : forEach (RuntimeImports.attachTable xenia) imports.tables.zipIdx s with
    ⟨s1, _ | exit⟩
  · rw [hrun] at h
    cases h
    have hthunks := (hloop.of_done hrun).2
    rwa [List.zipIdx_map_fst] at hthunks
  · rw [hrun] at h
    cases h
    exact absurd hok (hloop.of_exit hrun)

end

/-! ## Calls -/

section

variable {callOut : CallOut} {imports : RuntimeImports} {functions : List GuestFunction}
  {exports : List OwnedExport} {memory : Memory UInt8}
  {service : ImportFunctionHandler → Pointer → GuestImportContext → GuestImportContext}
  {registers : GuestRegisters}

/-- An export's thunk is the first function declared at its address. -/
theorem find_thunk (h : List.Forall₂ (ThunkFor imports) functions exports)
    (hnodup : (exports.map (·.address)).Nodup) {owned : OwnedExport} (hm : owned ∈ exports) :
    ∃ function, functions.find? (·.address = owned.address) = some function ∧
      ThunkFor imports function owned := by
  induction h with
  | nil => cases hm
  | @cons function first functions exports hthunk hrest ih =>
    rw [List.map_cons, List.nodup_cons] at hnodup
    rcases List.mem_cons.1 hm with rfl | hm
    · exact ⟨function, List.find?_cons_of_pos (by simpa using hthunk.address), hthunk⟩
    · have hother : function.address ≠ owned.address := by
        rw [hthunk.address]
        exact fun he => hnodup.1 (he ▸ List.mem_map_of_mem hm)
      rw [List.find?_cons_of_neg (by simpa using hother)]
      exact ih hnodup.2 hm

/-- A call at an export's address reaches that export, where its thunk stands. -/
theorem serve_of_mem (hcalls : CallsThunks callOut)
    (h : List.Forall₂ (ThunkFor imports) functions exports)
    (hnodup : (exports.map (·.address)).Nodup) {owned : OwnedExport} (hm : owned ∈ exports)
    (hstands : ThunkAt memory owned.address.toNat) :
    imports.serve callOut functions memory service owned.address registers =
      some (dispatchFunction service owned registers) := by
  obtain ⟨function, hfind, hthunk⟩ := find_thunk h hnodup hm
  rw [← hthunk.address] at hfind hstands ⊢
  have hcall := hcalls.thunk functions memory function hfind hstands
  rw [RuntimeImports.serve, hcall, hthunk.target, Option.bind_some, hthunk.named]
  rfl

/-- A call anywhere else reaches none. -/
theorem serve_of_not_mem (hcalls : CallsThunks callOut)
    (h : List.Forall₂ (ThunkFor imports) functions exports) {address : GuestAddress}
    (hm : address ∉ exports.map (·.address)) :
    imports.serve callOut functions memory service address registers = none := by
  have hnone : ∀ function ∈ functions, function.address ≠ address := by
    intro function hfunction haddress
    obtain ⟨index, hi, rfl⟩ := List.getElem_of_mem hfunction
    have hlength := h.length_eq
    have hthunk := (List.forall₂_iff_get.1 h).2 index hi (hlength ▸ hi)
    refine hm (List.mem_map.2 ⟨_, List.getElem_mem (hlength ▸ hi), ?_⟩)
    rw [← haddress]
    exact hthunk.address.symm
  rw [RuntimeImports.serve, hcalls.undeclared functions memory address hnone]
  rfl

end

end X360Port
