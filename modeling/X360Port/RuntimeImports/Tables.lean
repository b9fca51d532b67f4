import Mathlib.Data.List.Forall2
import Mathlib.Data.List.Induction
import X360Port.Library.Runs
import X360Port.RuntimeImports
import X360Port.Validation.WellFormed

/-!
# The export tables

`create` looks only at the last table and writes slots by ordinal, so that its
tables are right rests on what the validators accepted. An ordered manifest
gives one run per library (`Library.runsOf_ok`), distinct ordinals inside a
library give every slot one writer (`slot_iff`), and a shaped binding has the
callback its import needs. `TablesMatch` says what the tables are and
`create_tablesMatch` proves it.
-/

namespace X360Port

open Library

/-- A requirement and the binding at the same index. -/
abbrev BoundImport := ImportRequirement × ImportBinding

/-- The address a variable import's resolver answers; zero for a function import. -/
def resolvedAddress (x : BoundImport) : GuestAddress :=
  if x.1.kind = ImportKind.variable then
    x.2.variableResolver.elim 0 (· x.2.variableResolutionContext)
  else 0

/-- The export built for an import. -/
def exportOf (x : BoundImport) : OwnedExport := .make x.1 x.2 (resolvedAddress x)

/-- Every variable import resolves. -/
def VariablesResolve (requirements : List ImportRequirement) (bindings : List ImportBinding) :
    Prop :=
  ∀ x ∈ requirements.zip bindings, x.1.kind = ImportKind.variable → resolvedAddress x ≠ 0

instance (requirements : List ImportRequirement) (bindings : List ImportBinding) :
    Decidable (VariablesResolve requirements bindings) := by
  unfold VariablesResolve; infer_instance

/-! ## One table -/

namespace OwnedTable

/-- `insert` with the slots grown first. -/
def add (table : OwnedTable) (x : BoundImport) : OwnedTable where
  library := table.library
  ownedExports := table.ownedExports ++ [exportOf x]
  exportsByOrdinal := (growSlots table.exportsByOrdinal (x.1.ordinal.toNat + 1)).set
    x.1.ordinal.toNat (some table.ownedExports.length)

/-- The table of a library's imports. -/
def ofMembers (library : StringView) (members : List BoundImport) : OwnedTable :=
  members.foldl add ⟨library, [], []⟩

theorem length_growSlots (slots : List (Option Nat)) (size : Nat) :
    (growSlots slots size).length = max slots.length size := by
  simp only [growSlots, List.length_append, List.length_replicate]; omega

/-- The grown slots reach the ordinal, so the store is in range. -/
theorem insert_eq_add (table : OwnedTable) (x : BoundImport) :
    table.insert x.1.ordinal.toNat (exportOf x) = .ok (table.add x) := by
  have hg : (if table.exportsByOrdinal.length ≤ x.1.ordinal.toNat then
      growSlots table.exportsByOrdinal (x.1.ordinal.toNat + 1) else table.exportsByOrdinal) =
      growSlots table.exportsByOrdinal (x.1.ordinal.toNat + 1) := by
    split
    · rfl
    · next h => rw [growSlots, Nat.sub_eq_zero_of_le (by omega)]; simp
  have hlt : x.1.ordinal.toNat <
      (growSlots table.exportsByOrdinal (x.1.ordinal.toNat + 1)).length := by
    rw [length_growSlots]; omega
  simp only [insert, hg, storeSlot, if_pos hlt, add]

theorem growSlots_eq_some_iff {slots : List (Option Nat)} {size o k : Nat} :
    (growSlots slots size)[o]? = some (some k) ↔ slots[o]? = some (some k) := by
  rw [growSlots, List.getElem?_append]
  split
  · rfl
  · next h =>
    rw [List.getElem?_replicate, List.getElem?_eq_none (by omega)]
    split <;> simp

theorem add_slot_iff {table : OwnedTable} {x : BoundImport} {o k : Nat} :
    (table.add x).exportsByOrdinal[o]? = some (some k) ↔
      (o = x.1.ordinal.toNat ∧ k = table.ownedExports.length) ∨
        (o ≠ x.1.ordinal.toNat ∧ table.exportsByOrdinal[o]? = some (some k)) := by
  unfold add
  rw [List.getElem?_set]
  by_cases h : x.1.ordinal.toNat = o
  · have hlt : o < (growSlots table.exportsByOrdinal (x.1.ordinal.toNat + 1)).length := by
      rw [length_growSlots]; omega
    rw [if_pos h, h, if_pos (h ▸ hlt)]
    simp [eq_comm]
  · rw [if_neg h, growSlots_eq_some_iff]
    simp [Ne.symm h]

theorem ofMembers_concat (library : StringView) (members : List BoundImport) (x : BoundImport) :
    ofMembers library (members ++ [x]) = (ofMembers library members).add x := by
  unfold ofMembers; rw [List.foldl_append]; rfl

@[simp] theorem ofMembers_library (library : StringView) (members : List BoundImport) :
    (ofMembers library members).library = library := by
  induction members using List.reverseRecOn with
  | nil => rfl
  | append_singleton members x ih => rw [ofMembers_concat]; exact ih

theorem ofMembers_ownedExports (library : StringView) (members : List BoundImport) :
    (ofMembers library members).ownedExports = members.map exportOf := by
  induction members using List.reverseRecOn with
  | nil => rfl
  | append_singleton members x ih => rw [ofMembers_concat, List.map_append, ← ih]; rfl

/-- With distinct ordinals, a slot points to the export of its ordinal and to no other. -/
theorem ofMembers_slot_iff {library : StringView} {members : List BoundImport}
    (h : (members.map (·.1.ordinal.toNat)).Nodup) {o k : Nat} :
    (ofMembers library members).exportsByOrdinal[o]? = some (some k) ↔
      ∃ x, members[k]? = some x ∧ x.1.ordinal.toNat = o := by
  induction members using List.reverseRecOn generalizing k with
  | nil => simp [ofMembers]
  | append_singleton members x ih =>
    rw [List.map_append, List.nodup_append] at h
    have hnew : ∀ y ∈ members, y.1.ordinal.toNat ≠ x.1.ordinal.toNat := fun y hy =>
      h.2.2 _ (List.mem_map_of_mem hy) _ (by simp)
    rw [ofMembers_concat, add_slot_iff, ih h.1, ofMembers_ownedExports, List.length_map]
    constructor
    · rintro (⟨rfl, rfl⟩ | ⟨hne, y, hy, rfl⟩)
      · exact ⟨x, by simp, rfl⟩
      · refine ⟨y, ?_, rfl⟩
        rw [List.getElem?_append_left (List.getElem?_eq_some_iff.1 hy).1, hy]
    · rintro ⟨y, hy, rfl⟩
      rw [List.getElem?_append] at hy
      split at hy
      · exact .inr ⟨hnew y (List.mem_of_getElem? hy), y, hy, rfl⟩
      · next hk =>
        rw [List.getElem?_singleton] at hy
        split at hy
        · cases hy; exact .inl ⟨rfl, by omega⟩
        · cases hy

end OwnedTable

/-! ## All tables -/

/-- The imports with their libraries as keys. -/
def keyedImports (requirements : List ImportRequirement) (bindings : List ImportBinding) :
    List (StringView × BoundImport) :=
  (requirements.zip bindings).map fun x => (x.1.library, x)

/-- The tables of a manifest: one for each run of a library. -/
def tablesOf (requirements : List ImportRequirement) (bindings : List ImportBinding) :
    List OwnedTable :=
  runsOf OwnedTable.library (⟨·, [], []⟩) OwnedTable.add (keyedImports requirements bindings)

theorem placeExport_eq (tables : List OwnedTable) (x : BoundImport) :
    RuntimeImports.placeExport tables x.1.library x.1.ordinal.toNat (exportOf x) =
      .ok (extendRuns OwnedTable.library (⟨·, [], []⟩) OwnedTable.add tables x.1.library x) := by
  unfold RuntimeImports.placeExport extendRuns
  cases h : tables.getLast? with
  | none =>
    rw [List.getLast?_eq_none_iff.1 h]
    simp only [OwnedTable.insert_eq_add]
    rfl
  | some last =>
    simp only [OwnedTable.insert_eq_add, ne_eq, ite_not]
    split <;> rfl

section

variable {requirements : List ImportRequirement} {bindings : List ImportBinding}

/-- A shaped binding's resolver is called when its import is a variable and never otherwise. -/
theorem resolveVariable_eq {imp : ImportRequirement} {binding : ImportBinding}
    (h : ShapedBinding imp binding) :
    RuntimeImports.resolveVariable imp binding = .ok (resolvedAddress (imp, binding)) := by
  unfold RuntimeImports.resolveVariable resolvedAddress
  cases hk : imp.kind with
  | function => rfl
  | «variable» =>
    obtain ⟨resolver, hr⟩ := Option.isSome_iff_exists.1 (h.variable_callbacks hk).2.2
    simp only [hr]
    rfl

theorem createTurn_eq {tables : List OwnedTable} {imp : ImportRequirement}
    {binding : ImportBinding} {index : Nat} (hb : bindings[index]? = some binding)
    (h : ShapedBinding imp binding) :
    RuntimeImports.createTurn bindings tables (imp, index) =
      if imp.kind = ImportKind.variable ∧ resolvedAddress (imp, binding) = 0 then
        (tables, some (.ok RuntimeImports.nullVariable))
      else (extendRuns OwnedTable.library (⟨·, [], []⟩) OwnedTable.add tables imp.library
        (imp, binding), none) := by
  unfold RuntimeImports.createTurn
  simp only [hb, resolveVariable_eq h]
  split
  · rfl
  · have := placeExport_eq tables (imp, binding)
    simp only [exportOf] at this
    simp only [this]

/-- `create` on shaped bindings: the tables of the manifest, or a variable that did
not resolve. -/
theorem create_defined (h : List.Forall₂ ShapedBinding requirements bindings) :
    RuntimeImports.create requirements bindings =
        .ok ⟨some ⟨tablesOf requirements bindings⟩, {}⟩ ∨
      RuntimeImports.create requirements bindings = .ok ⟨none, RuntimeImports.nullVariable⟩ ∧
        ¬ VariablesResolve requirements bindings := by
  obtain ⟨hlen, hshape⟩ := List.forall₂_iff_get.1 h
  have hended := forEach_ended
    (RuntimeImports.createTurn bindings) requirements.zipIdx []
    (fun done tables => tables =
      runsOf OwnedTable.library (⟨·, [], []⟩) OwnedTable.add
        ((keyedImports requirements bindings).take done.length))
    (fun _ exit => exit = .ok RuntimeImports.nullVariable ∧
      ¬ VariablesResolve requirements bindings)
    rfl fun done turn rest tables hx hI => by
      obtain ⟨hi, rfl⟩ := turn_of_zipIdx hx
      have hzip : done.length < (requirements.zip bindings).length := by
        rw [List.length_zip]; omega
      have hshaped : ShapedBinding requirements[done.length] bindings[done.length] :=
        hshape _ hi (hlen ▸ hi)
      rw [createTurn_eq (List.getElem?_eq_getElem (hlen ▸ hi)) hshaped]
      split
      · next hnull =>
        refine ⟨rfl, fun hv => ?_⟩
        have hmem : (requirements[done.length], bindings[done.length]) ∈
            requirements.zip bindings := by
          rw [← List.getElem_zip (h := hzip)]; exact List.getElem_mem hzip
        exact hv _ hmem hnull.1 hnull.2
      · have hkeyed : done.length < (keyedImports requirements bindings).length := by
          rw [keyedImports, List.length_map]; exact hzip
        show _ = _
        rw [hI, List.length_append, List.length_singleton, List.take_succ_eq_append_getElem hkeyed,
          runsOf_concat]
        simp only [keyedImports, List.getElem_map, List.getElem_zip]
  unfold RuntimeImports.create
  rcases hrun : forEach (RuntimeImports.createTurn bindings) requirements.zipIdx [] with
    ⟨tables, _ | exit⟩
  · left
    rw [show tables = _ from hended.of_done hrun, List.length_zipIdx, List.take_of_length_le]
    · rfl
    · rw [keyedImports, List.length_map, List.length_zip]; omega
  · obtain ⟨rfl, hv⟩ := hended.of_exit hrun
    exact .inr ⟨rfl, hv⟩

theorem create_of_variablesResolve (h : List.Forall₂ ShapedBinding requirements bindings)
    (hv : VariablesResolve requirements bindings) :
    RuntimeImports.create requirements bindings =
      .ok ⟨some ⟨tablesOf requirements bindings⟩, {}⟩ := by
  rcases create_defined h with hc | ⟨-, hn⟩
  · exact hc
  · exact (hn hv).elim

/-! ## What the tables are -/

/-- The tables of a manifest and its bindings: every import in the slot of its
library and ordinal, and nothing else anywhere. -/
structure TablesMatch (requirements : List ImportRequirement) (bindings : List ImportBinding)
    (tables : List OwnedTable) : Prop where
  libraries_nodup : (tables.map (·.library)).Nodup
  libraries : ∀ library, library ∈ tables.map (·.library) ↔ library ∈ requirements.map (·.library)
  identity : requirements.Pairwise fun a b => ¬ (a.library = b.library ∧ a.ordinal = b.ordinal)
  exports : tables.flatMap (·.ownedExports) = (requirements.zip bindings).map exportOf
  slot_required : ∀ (index : Nat) imp binding, requirements[index]? = some imp →
    bindings[index]? = some binding → ∃ table ∈ tables, table.library = imp.library ∧
      ∃ owned : Nat, table.exportsByOrdinal[imp.ordinal.toNat]? = some (some owned) ∧
        table.ownedExports[owned]? = some (exportOf (imp, binding))
  slot_occupied : ∀ table ∈ tables, ∀ ordinal owned : Nat,
    table.exportsByOrdinal[ordinal]? = some (some owned) →
    ∃ (index : Nat) (imp : ImportRequirement) (binding : ImportBinding),
      requirements[index]? = some imp ∧ bindings[index]? = some binding ∧
        imp.library = table.library ∧ imp.ordinal.toNat = ordinal ∧
        table.ownedExports[owned]? = some (exportOf (imp, binding))
  slot_owned : ∀ table ∈ tables, ∀ (index : Nat) owned, table.ownedExports[index]? = some owned →
    table.exportsByOrdinal[owned.ordinal.toNat]? = some (some index)
  narrowed : ∀ x ∈ requirements.zip bindings, (exportOf x).ordinal.toNat = x.1.ordinal.toNat
  dispatched : ∀ table ∈ tables, ∀ owned ∈ table.ownedExports, owned.kind = .function →
    ∀ service registers, ∃ dispatch, dispatchFunction service owned registers = .ok dispatch

theorem mem_zip_iff_getElem? {x : BoundImport} : x ∈ requirements.zip bindings ↔
    ∃ index : Nat, requirements[index]? = some x.1 ∧ bindings[index]? = some x.2 := by
  simp only [List.mem_iff_getElem?, List.getElem?_zip_eq_some]

/-- The imports of one library, in order. -/
def libraryImports (requirements : List ImportRequirement) (bindings : List ImportBinding)
    (library : StringView) : List BoundImport :=
  itemsOf (keyedImports requirements bindings) library

theorem mem_libraryImports {library : StringView} {x : BoundImport} :
    x ∈ libraryImports requirements bindings library ↔
      x ∈ requirements.zip bindings ∧ x.1.library = library := by
  rw [libraryImports, mem_itemsOf, keyedImports, List.mem_map]
  constructor
  · rintro ⟨y, hy, h⟩
    cases h
    exact ⟨hy, rfl⟩
  · rintro ⟨hx, rfl⟩
    exact ⟨x, hx, rfl⟩

theorem zip_ordered (hlen : requirements.length = bindings.length)
    (h : requirements.Pairwise ImportBefore) :
    (requirements.zip bindings).Pairwise fun a b => ImportBefore a.1 b.1 := by
  rw [← List.map_fst_zip (Nat.le_of_eq hlen), List.pairwise_map] at h
  exact h

theorem keyedImports_ordered (hlen : requirements.length = bindings.length)
    (h : requirements.Pairwise ImportBefore) :
    (keyedImports requirements bindings).Pairwise fun a b => a.1 < b.1 ∨ a.1 = b.1 := by
  rw [keyedImports, List.pairwise_map]
  exact (zip_ordered hlen h).imp fun h => h.imp_right And.left

/-- A library's imports have distinct ordinals. -/
theorem libraryImports_ordinals (hlen : requirements.length = bindings.length)
    (h : requirements.Pairwise ImportBefore) (library : StringView) :
    ((libraryImports requirements bindings library).map (·.1.ordinal.toNat)).Nodup := by
  have hp : (libraryImports requirements bindings library).Pairwise
      fun a b => ImportBefore a.1 b.1 := by
    rw [libraryImports, itemsOf, List.pairwise_map]
    apply List.Pairwise.filter
    rw [keyedImports, List.pairwise_map]
    exact zip_ordered hlen h
  rw [List.Nodup, List.pairwise_map]
  refine hp.imp_of_mem fun {a b} ha hb hab => ?_
  have hla := (mem_libraryImports.1 ha).2
  have hlb := (mem_libraryImports.1 hb).2
  rcases hab with hab | ⟨-, hab⟩
  · rw [hla, hlb] at hab
    exact (List.lt_irrefl _ hab).elim
  · exact Nat.ne_of_lt (UInt32.lt_iff_toNat_lt.1 hab)

/-- Every table is the table of its library's imports. -/
theorem tablesOf_runs (hlen : requirements.length = bindings.length)
    (h : requirements.Pairwise ImportBefore) :
    RunsOk OwnedTable.library (⟨·, [], []⟩) OwnedTable.add (keyedImports requirements bindings)
      (tablesOf requirements bindings) :=
  runsOf_ok (fun _ => rfl) (fun _ _ => rfl) (keyedImports_ordered hlen h)

theorem eq_ofMembers (hlen : requirements.length = bindings.length)
    (h : requirements.Pairwise ImportBefore) {table : OwnedTable}
    (ht : table ∈ tablesOf requirements bindings) :
    table = .ofMembers table.library (libraryImports requirements bindings table.library) :=
  (tablesOf_runs hlen h).run table ht

theorem map_library_keyedImports (hlen : requirements.length = bindings.length) :
    (keyedImports requirements bindings).map (·.1) = requirements.map (·.library) := by
  rw [keyedImports, List.map_map]
  conv_rhs => rw [← List.map_fst_zip (Nat.le_of_eq hlen), List.map_map]
  rfl

/-- A function import's export serves its calls: its handler is there to be called. -/
theorem dispatchFunction_defined {imp : ImportRequirement} {binding : ImportBinding}
    (h : ShapedBinding imp binding) (hk : imp.kind = .function)
    (service : ImportFunctionHandler → Pointer → GuestImportContext → GuestImportContext)
    (registers : GuestRegisters) :
    ∃ dispatch, dispatchFunction service (exportOf (imp, binding)) registers = .ok dispatch := by
  obtain ⟨handler, hh⟩ := Option.isSome_iff_exists.1 (h.function_callbacks hk).1
  have hf : (exportOf (imp, binding)).functionHandler = some handler := hh
  simp only [dispatchFunction, hf]
  split <;> exact ⟨_, rfl⟩

/-- The tables of an accepted manifest and accepted bindings match them. -/
theorem tablesMatch_tablesOf {image : ImageIdentity} {code : CodeRange}
    (hw : ∀ imp ∈ requirements, WellFormedImport image code imp)
    (ho : requirements.Pairwise ImportBefore)
    (hb : List.Forall₂ ShapedBinding requirements bindings) :
    TablesMatch requirements bindings (tablesOf requirements bindings) := by
  have hlen := hb.length_eq
  have hruns := tablesOf_runs hlen ho
  have hshaped : ∀ x ∈ requirements.zip bindings, ShapedBinding x.1 x.2 := fun x hx =>
    List.forall₂_iff_zip.1 hb |>.2 hx
  have hslot : ∀ table ∈ tablesOf requirements bindings, ∀ ordinal owned : Nat,
      table.exportsByOrdinal[ordinal]? = some (some owned) ↔
        ∃ x, (libraryImports requirements bindings table.library)[owned]? = some x ∧
          x.1.ordinal.toNat = ordinal := by
    intro table ht ordinal owned
    rw [eq_ofMembers hlen ho ht, OwnedTable.ofMembers_library]
    exact OwnedTable.ofMembers_slot_iff (libraryImports_ordinals hlen ho _)
  have hexports : ∀ table ∈ tablesOf requirements bindings, table.ownedExports =
      (libraryImports requirements bindings table.library).map exportOf := by
    intro table ht
    conv_lhs => rw [eq_ofMembers hlen ho ht, OwnedTable.ofMembers_ownedExports]
  have hnarrowed : ∀ x ∈ requirements.zip bindings,
      (exportOf x).ordinal.toNat = x.1.ordinal.toNat := by
    intro x hx
    have ho := (hw x.1 (List.of_mem_zip hx).1).ordinal
    show x.1.ordinal.toUInt16.toNat = _
    rw [UInt32.toNat_toUInt16]
    omega
  refine ⟨hruns.nodup, fun library => ?_, ?_, ?_, ?_, ?_, ?_, hnarrowed, ?_⟩
  · rw [hruns.keys, map_library_keyedImports hlen]
  · refine ho.imp fun h he => ?_
    rcases h with h | ⟨-, h⟩
    · exact List.lt_irrefl _ (he.1 ▸ h)
    · exact UInt32.lt_irrefl _ (he.2 ▸ h)
  · rw [tablesOf, flatMap_runsOf (fun _ => rfl) (fun _ _ => rfl), keyedImports, List.map_map]
    rfl
  · intro index imp binding hi hbi
    have hx : (imp, binding) ∈ requirements.zip bindings := mem_zip_iff_getElem?.2 ⟨index, hi, hbi⟩
    have hlib : imp.library ∈ (tablesOf requirements bindings).map OwnedTable.library := by
      rw [hruns.keys, map_library_keyedImports hlen]
      exact List.mem_map_of_mem (List.mem_of_getElem? hi)
    obtain ⟨table, ht, htl⟩ := List.mem_map.1 hlib
    obtain ⟨owned, hk⟩ := List.mem_iff_getElem?.1 (mem_libraryImports.2 ⟨hx, htl.symm⟩)
    refine ⟨table, ht, htl, owned, (hslot table ht _ _).2 ⟨_, hk, rfl⟩, ?_⟩
    rw [hexports table ht, List.getElem?_map, hk]
    rfl
  · intro table ht ordinal owned hs
    obtain ⟨x, hx, rfl⟩ := (hslot table ht _ _).1 hs
    obtain ⟨hz, hl⟩ := mem_libraryImports.1 (List.mem_of_getElem? hx)
    obtain ⟨index, hi, hbi⟩ := mem_zip_iff_getElem?.1 hz
    refine ⟨index, x.1, x.2, hi, hbi, hl, rfl, ?_⟩
    rw [hexports table ht, List.getElem?_map, hx]
    rfl
  · intro table ht index owned hi
    rw [hexports table ht, List.getElem?_map, Option.map_eq_some_iff] at hi
    obtain ⟨x, hx, rfl⟩ := hi
    rw [hnarrowed x (mem_libraryImports.1 (List.mem_of_getElem? hx)).1]
    exact (hslot table ht _ _).2 ⟨x, hx, rfl⟩
  · intro table ht owned hm hk service registers
    rw [hexports table ht, List.mem_map] at hm
    obtain ⟨x, hx, rfl⟩ := hm
    exact dispatchFunction_defined (hshaped x (mem_libraryImports.1 hx).1) hk service registers

end

/-- **The tables are the manifest's.** For a module and bindings the validators
accept, whose variable imports all resolve, `create` succeeds and its tables
match the manifest. -/
theorem create_tablesMatch (module : GuestModule) (bindings : List ImportBinding)
    (hm : (validateModule module).Ok) (hb : (validateImports module bindings).Ok)
    (hv : VariablesResolve module.importManifest bindings) :
    ∃ tables, RuntimeImports.create module.importManifest bindings = .ok ⟨some ⟨tables⟩, {}⟩ ∧
      TablesMatch module.importManifest bindings tables := by
  have hw := wellFormed_of_ok hm
  have hs := (validateImports_ok_iff module bindings).1 hb
  exact ⟨_, create_of_variablesResolve hs hv, tablesMatch_tablesOf hw.imports hw.ordered hs⟩

/-- Bindings of the synthetic manifest. -/
def syntheticBindings : List ImportBinding :=
  [{ library := [0x78, 0x61, 0x6d], ordinal := 1, kind := .function, functionHandler := some ⟨7⟩ },
   { library := [0x78, 0x61, 0x6d], ordinal := 2, kind := ImportKind.variable,
     variableResolver := some fun _ => 0x82000040 }]

theorem create_tablesMatch_synthetic :
    ∃ tables, RuntimeImports.create syntheticImports syntheticBindings =
        .ok ⟨some ⟨tables⟩, {}⟩ ∧ TablesMatch syntheticImports syntheticBindings tables :=
  create_tablesMatch (syntheticModule syntheticImports) syntheticBindings syntheticImports_accepted
    (by decide) (by decide)

end X360Port
