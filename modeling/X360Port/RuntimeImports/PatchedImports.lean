import X360Port.RuntimeImports.Patches

/-!
# When every import is patched

After `attach` each import's own words should stand in guest memory. By
`Library.held_writeAll_iff` they all do exactly when any two imports agree
wherever their words meet. The validator keeps equal addresses apart, which is
enough for two records but not for a 16-byte thunk and anything inside it:
`ImportsCompatible` is what is left to ask of two accepted imports.
-/

namespace X360Port

open Library

/-- The four thunk words stand at `a`. -/
def ThunkAt (m : Memory UInt8) (a : Nat) : Prop :=
  loadWordAt m a = 0x44000042 ∧ loadWordAt m (a + 4) = 0x4E800020 ∧
    loadWordAt m (a + 8) = 0x60000000 ∧ loadWordAt m (a + 12) = 0x60000000

instance (m : Memory UInt8) (a : Nat) : Decidable (ThunkAt m a) :=
  inferInstanceAs (Decidable (_ ∧ _ ∧ _ ∧ _))

/-- An import's own words stand in memory. -/
def ImportPatched (m : Memory UInt8) (x : BoundImport) : Prop :=
  match x.1.kind with
  | .function => ThunkAt m x.1.address.toNat
  | ImportKind.variable => loadWordAt m x.1.recordAddress.toNat = resolvedAddress x

def EveryImportPatched (requirements : List ImportRequirement) (bindings : List ImportBinding)
    (m : Memory UInt8) : Prop :=
  ∀ x ∈ requirements.zip bindings, ImportPatched m x

/-- A record inside a thunk resolves to the thunk's own word there. -/
def RecordFits (f v : BoundImport) : Prop :=
  ∀ k < 4, v.1.recordAddress.toNat = f.1.address.toNat + 4 * k →
    thunkWords[k]? = some (resolvedAddress v)

/-- Two imports whose words agree where they meet. -/
def ImportsCompatible (a b : BoundImport) : Prop :=
  match a.1.kind, b.1.kind with
  | .function, .function => a.1.address.toNat + 16 ≤ b.1.address.toNat ∨
      b.1.address.toNat + 16 ≤ a.1.address.toNat
  | .function, ImportKind.variable => RecordFits a b
  | ImportKind.variable, .function => RecordFits b a
  | ImportKind.variable, ImportKind.variable => True

instance (f v : BoundImport) : Decidable (RecordFits f v) := by
  unfold RecordFits; infer_instance

instance (a b : BoundImport) : Decidable (ImportsCompatible a b) := by
  unfold ImportsCompatible; split <;> infer_instance

/-- No two thunks overlap, and every record inside a thunk fits. -/
def PatchesCompatible (requirements : List ImportRequirement) (bindings : List ImportBinding) :
    Prop :=
  (requirements.zip bindings).Pairwise ImportsCompatible

instance (requirements : List ImportRequirement) (bindings : List ImportBinding) :
    Decidable (PatchesCompatible requirements bindings) := by
  unfold PatchesCompatible; infer_instance

/-- The writes of an import. -/
def importPatches (x : BoundImport) : List (Patch UInt8) :=
  exportPatches (exportOf x) (resolvedAddress x)

theorem importPatches_function {x : BoundImport} (h : x.1.kind = .function) :
    importPatches x = thunkPatches x.1.address.toNat := by
  simp only [importPatches, exportPatches, exportOf, OwnedExport.make, h]

theorem importPatches_variable {x : BoundImport} (h : x.1.kind = ImportKind.variable) :
    importPatches x = [wordPatch x.1.recordAddress.toNat (resolvedAddress x)] := by
  simp only [importPatches, exportPatches, exportOf, OwnedExport.make, h]

/-- The words of an import are held exactly when it is patched. -/
theorem importPatched_iff {m : Memory UInt8} {x : BoundImport} :
    ImportPatched m x ↔ ∀ p ∈ importPatches x, p.HeldBy m := by
  unfold ImportPatched
  cases hk : x.1.kind with
  | function => simp only [importPatches_function hk, thunkPatches, ThunkAt, List.forall_mem_cons,
      heldBy_wordPatch_iff, List.not_mem_nil, false_implies, implies_true, and_true]
  | «variable» => simp only [importPatches_variable hk, List.forall_mem_singleton,
      heldBy_wordPatch_iff]

/-- The words of one thunk lie apart. -/
theorem thunkPatches_agree (a : Nat) : (thunkPatches a).Pairwise Patch.Agrees := by
  have h : ∀ i j v w, i + 4 ≤ j → (wordPatch (a + i) v).Agrees (wordPatch (a + j) w) :=
    fun i j v w hij => Patch.agrees_of_disjoint (.inl (show a + i + 4 ≤ a + j by omega))
  simp only [thunkPatches, List.pairwise_cons, List.forall_mem_cons, List.not_mem_nil,
    false_implies, implies_true, and_true, List.Pairwise.nil]
  exact ⟨⟨h 0 4 _ _ (by omega), h 0 8 _ _ (by omega), h 0 12 _ _ (by omega)⟩,
    ⟨h 4 8 _ _ (by omega), h 4 12 _ _ (by omega)⟩, h 8 12 _ _ (by omega)⟩

theorem mem_thunkPatches {a : Nat} {p : Patch UInt8} :
    p ∈ thunkPatches a ↔ ∃ k w, thunkWords[k]? = some w ∧ p = wordPatch (a + 4 * k) w := by
  constructor
  · intro hp
    simp only [thunkPatches, List.mem_cons, List.not_mem_nil, or_false] at hp
    rcases hp with rfl | rfl | rfl | rfl
    · exact ⟨0, _, rfl, rfl⟩
    · exact ⟨1, _, rfl, rfl⟩
    · exact ⟨2, _, rfl, rfl⟩
    · exact ⟨3, _, rfl, rfl⟩
  · rintro ⟨k, w, hk, rfl⟩
    have hlt : k < thunkWords.length := (List.getElem?_eq_some_iff.1 hk).1
    have hlen : thunkWords.length = 4 := rfl
    obtain rfl | rfl | rfl | rfl : k = 0 ∨ k = 1 ∨ k = 2 ∨ k = 3 := by omega
    all_goals
      cases hk
      simp [thunkPatches]

/-- Two thunks agree only when they lie apart: the first word is no other word. -/
theorem thunks_agree_iff {a b : Nat} (ha : a % 4 = 0) (hb : b % 4 = 0) (hne : a ≠ b) :
    (∀ p ∈ thunkPatches a, ∀ q ∈ thunkPatches b, p.Agrees q) ↔ a + 16 ≤ b ∨ b + 16 ≤ a := by
  have hfirst : ∀ (k : Nat) w, thunkWords[k]? = some w → w = 0x44000042 → k = 0 := by
    intro k w hk hw
    match k, hk with
    | 0, _ => rfl
    | 1, hk | 2, hk | 3, hk => cases hk; exact absurd hw (by decide)
  constructor
  · intro h
    by_contra hc
    -- the thunk that starts inside the other puts its first word on one of its later words
    rcases Nat.lt_or_ge a b with hab | hab
    · obtain ⟨k, hk⟩ : ∃ k, b = a + 4 * k := ⟨(b - a) / 4, by omega⟩
      have hk4 : k < thunkWords.length := by show k < 4; omega
      have hag := h _ (mem_thunkPatches.2 ⟨k, _, List.getElem?_eq_getElem hk4, rfl⟩) _
        (mem_thunkPatches.2 ⟨0, _, rfl, rfl⟩)
      have := hfirst k _ (List.getElem?_eq_getElem hk4)
        ((wordPatch_agrees_iff (by omega)).1 hag (by omega))
      omega
    · obtain ⟨k, hk⟩ : ∃ k, a = b + 4 * k := ⟨(a - b) / 4, by omega⟩
      have hk4 : k < thunkWords.length := by show k < 4; omega
      have hag := h _ (mem_thunkPatches.2 ⟨0, _, rfl, rfl⟩) _
        (mem_thunkPatches.2 ⟨k, _, List.getElem?_eq_getElem hk4, rfl⟩)
      have := hfirst k _ (List.getElem?_eq_getElem hk4)
        ((wordPatch_agrees_iff (by omega)).1 hag (by omega)).symm
      omega
  · intro h p hp q hq
    apply Patch.agrees_of_disjoint
    obtain ⟨i, v, hi, rfl⟩ := mem_thunkPatches.1 hp
    obtain ⟨j, w, hj, rfl⟩ := mem_thunkPatches.1 hq
    have hi4 : i < 4 := (List.getElem?_eq_some_iff.1 hi).1
    have hj4 : j < 4 := (List.getElem?_eq_some_iff.1 hj).1
    show a + 4 * i + 4 ≤ b + 4 * j ∨ b + 4 * j + 4 ≤ a + 4 * i
    omega

/-- A thunk agrees with a record exactly when the record fits. -/
theorem thunk_record_agree_iff {f v : BoundImport} (hf : f.1.address.toNat % 4 = 0)
    (hv : v.1.recordAddress.toNat % 4 = 0) :
    (∀ p ∈ thunkPatches f.1.address.toNat,
      p.Agrees (wordPatch v.1.recordAddress.toNat (resolvedAddress v))) ↔ RecordFits f v := by
  constructor
  · intro h k hk hr
    have hk' : k < thunkWords.length := hk
    have := (wordPatch_agrees_iff (by omega)).1
      (h _ (mem_thunkPatches.2 ⟨k, _, List.getElem?_eq_getElem hk', rfl⟩)) hr.symm
    rw [List.getElem?_eq_getElem hk', this]
  · intro h p hp
    obtain ⟨k, w, hk, rfl⟩ := mem_thunkPatches.1 hp
    refine (wordPatch_agrees_iff (by omega)).2 fun he => ?_
    have := h k (List.getElem?_eq_some_iff.1 hk).1 he.symm
    exact Option.some.inj (hk.symm.trans this)

/-- Two accepted imports agree exactly when they are compatible. -/
theorem importPatches_agree_iff {image : ImageIdentity} {code : CodeRange} {a b : BoundImport}
    (ha : WellFormedImport image code a.1) (hb : WellFormedImport image code b.1)
    (hab : ImportsApart a.1 b.1) :
    (∀ p ∈ importPatches a, ∀ q ∈ importPatches b, p.Agrees q) ↔ ImportsCompatible a b := by
  have hne : a.1.address.toNat ≠ b.1.address.toNat := fun h => hab.1 (UInt32.toNat_inj.1 h)
  have hner : a.1.recordAddress.toNat ≠ b.1.recordAddress.toNat :=
    fun h => hab.2 (UInt32.toNat_inj.1 h)
  have har := ha.record_aligned
  have hbr := hb.record_aligned
  unfold ImportsCompatible
  cases hka : a.1.kind <;> cases hkb : b.1.kind
  · rw [importPatches_function hka, importPatches_function hkb]
    exact thunks_agree_iff ha.address_aligned hb.address_aligned hne
  · rw [importPatches_function hka, importPatches_variable hkb]
    simp only [List.forall_mem_singleton]
    exact thunk_record_agree_iff ha.address_aligned hbr
  · rw [importPatches_variable hka, importPatches_function hkb]
    simp only [List.forall_mem_singleton]
    rw [← thunk_record_agree_iff hb.address_aligned har]
    exact forall₂_congr fun p _ => ⟨Patch.Agrees.symm, Patch.Agrees.symm⟩
  · rw [importPatches_variable hka, importPatches_variable hkb]
    simp only [List.forall_mem_singleton, iff_true]
    exact (wordPatch_agrees_iff (by omega)).2 fun h => (hner h).elim

section

variable {requirements : List ImportRequirement} {bindings : List ImportBinding}

/-- The thunks of an accepted manifest have distinct addresses. -/
theorem functionAddresses_nodup (hlen : requirements.length = bindings.length)
    (ha : requirements.Pairwise ImportsApart) :
    (functionAddresses ((requirements.zip bindings).map exportOf)).Nodup := by
  have hzip : (requirements.zip bindings).Pairwise fun a b => ImportsApart a.1 b.1 := by
    rw [← List.map_fst_zip (Nat.le_of_eq hlen), List.pairwise_map] at ha
    exact ha
  rw [functionAddresses, List.Nodup, List.pairwise_map]
  apply List.Pairwise.filter
  rw [List.pairwise_map]
  exact hzip.imp fun h => h.1

/-- Attaching the tables of an accepted manifest succeeds and writes its words in order. -/
theorem attach_tablesOf {image : ImageIdentity} {code : CodeRange}
    (hw : ∀ imp ∈ requirements, WellFormedImport image code imp)
    (ha : requirements.Pairwise ImportsApart) (ho : requirements.Pairwise ImportBefore)
    (hb : List.Forall₂ ShapedBinding requirements bindings) {xenia : XeniaSymbols}
    (hr : ResolverFinds xenia (tablesOf requirements bindings)) (hd : DeclareSucceeds xenia)
    (memory : Memory UInt8) :
    ∃ s, RuntimeImports.attach ⟨tablesOf requirements bindings⟩ xenia { memory := memory } =
        (s, .returned {}) ∧
      s.memory = writeAll ((requirements.zip bindings).flatMap importPatches) memory := by
  have hmatch := tablesMatch_tablesOf hw ho hb
  have hnodup := functionAddresses_nodup hb.length_eq ha
  rw [← hmatch.exports] at hnodup
  obtain ⟨s, hs, hmem⟩ := attach_attached ⟨tablesOf requirements bindings⟩ memory
    hmatch.slot_owned hnodup hr hd
  refine ⟨s, hs, ?_⟩
  rw [hmem, hmatch.exports, List.flatMap_map]
  rfl

/-- The words of an accepted manifest stand in memory exactly when they are compatible. -/
theorem everyImportPatched_iff {image : ImageIdentity} {code : CodeRange}
    (hw : ∀ imp ∈ requirements, WellFormedImport image code imp)
    (hlen : requirements.length = bindings.length) (ha : requirements.Pairwise ImportsApart)
    (memory : Memory UInt8) :
    EveryImportPatched requirements bindings
        (writeAll ((requirements.zip bindings).flatMap importPatches) memory) ↔
      PatchesCompatible requirements bindings := by
  have hzip : (requirements.zip bindings).Pairwise fun a b => ImportsApart a.1 b.1 := by
    rw [← List.map_fst_zip (Nat.le_of_eq hlen), List.pairwise_map] at ha
    exact ha
  have hown : ∀ x, (importPatches x).Pairwise Patch.Agrees := by
    intro x
    cases hk : x.1.kind with
    | function => rw [importPatches_function hk]; exact thunkPatches_agree _
    | «variable» => rw [importPatches_variable hk]; exact List.pairwise_singleton _ _
  have hall : EveryImportPatched requirements bindings
      (writeAll ((requirements.zip bindings).flatMap importPatches) memory) ↔
        ∀ p ∈ (requirements.zip bindings).flatMap importPatches,
          p.HeldBy (writeAll ((requirements.zip bindings).flatMap importPatches) memory) := by
    simp only [EveryImportPatched, importPatched_iff, List.forall_mem_flatMap]
  rw [hall, held_writeAll_iff, List.pairwise_flatMap, PatchesCompatible,
    and_iff_right fun x _ => hown x]
  have hagree : ∀ x y, x ∈ requirements.zip bindings → y ∈ requirements.zip bindings →
      ImportsApart x.1 y.1 →
        ((∀ p ∈ importPatches x, ∀ q ∈ importPatches y, p.Agrees q) ↔ ImportsCompatible x y) :=
    fun x y hx hy hxy => importPatches_agree_iff (hw x.1 (List.of_mem_zip hx).1)
      (hw y.1 (List.of_mem_zip hy).1) hxy
  constructor
  · intro h
    exact (h.and hzip).imp_of_mem fun hx hy hxy => (hagree _ _ hx hy hxy.2).1 hxy.1
  · intro h
    exact (h.and hzip).imp_of_mem fun hx hy hxy => (hagree _ _ hx hy hxy.2).2 hxy.1

end

/-- A created import set is the one of the manifest's tables. -/
theorem imports_of_create {requirements : List ImportRequirement} {bindings : List ImportBinding}
    (h : List.Forall₂ ShapedBinding requirements bindings) {imports : RuntimeImports}
    (hc : RuntimeImports.create requirements bindings = .ok ⟨some imports, {}⟩) :
    imports = ⟨tablesOf requirements bindings⟩ := by
  rcases create_defined h with h | ⟨h, -⟩
  · rw [h] at hc
    cases hc
    rfl
  · rw [h] at hc
    cases hc

/-- **When every import stays patched.** For an accepted module and bindings, after a
successful create and attach every thunk and record holds its words if and only if no
two thunks overlap and every record inside a thunk resolves to the thunk's word there. -/
theorem attach_everyImportPatched_iff (module : GuestModule) (bindings : List ImportBinding)
    (hm : (validateModule module).Ok) (hb : (validateImports module bindings).Ok)
    (imports : RuntimeImports)
    (hc : RuntimeImports.create module.importManifest bindings = .ok ⟨some imports, {}⟩)
    (xenia : XeniaSymbols) (hr : ResolverFinds xenia imports.tables) (hd : DeclareSucceeds xenia)
    (memory : Memory UInt8) :
    ∃ s, imports.attach xenia { memory := memory } = (s, .returned {}) ∧
      (EveryImportPatched module.importManifest bindings s.memory ↔
        PatchesCompatible module.importManifest bindings) := by
  have hw := wellFormed_of_ok hm
  have hs := (validateImports_ok_iff module bindings).1 hb
  obtain rfl := imports_of_create hs hc
  obtain ⟨s, hattach, hmem⟩ := attach_tablesOf hw.imports hw.apart hw.ordered hs hr hd memory
  exact ⟨s, hattach, hmem ▸ everyImportPatched_iff hw.imports hs.length_eq hw.apart memory⟩

/-! ## A resolver by name -/

/-- A Xenia that looks a library up by name and declares each address once. -/
def plainXenia : XeniaSymbols where
  exportFor tables library ordinal :=
    (tables.findIdx? fun table => table.library == library).bind fun index =>
      (tables[index]?.bind fun table =>
        table.exportsByOrdinal[ordinal.toNat]?.join).map (⟨index, ·⟩)
  declareFunction declared address := .declared (!declared.contains address) (some true)

theorem plainXenia_declares : DeclareSucceeds plainXenia := by
  intro declared address h
  simp [plainXenia, h]

/-- Distinct libraries are found by name. -/
theorem plainXenia_finds {tables : List OwnedTable} (h : (tables.map (·.library)).Nodup) :
    ResolverFinds plainXenia tables := by
  intro index table ht ordinal owned hs
  have hi := (List.getElem?_eq_some_iff.1 ht).1
  have hfind : ((tables.take (index + 1)).findIdx? fun t => t.library == table.library) =
      some index := by
    rw [List.findIdx?_eq_some_iff_getElem]
    refine ⟨by rw [List.length_take]; omega, ?_, ?_⟩
    · simp [(List.getElem?_eq_some_iff.1 ht).2]
    · intro j hj
      have hne := (List.pairwise_iff_getElem.1 (List.pairwise_map.1 h)) j index (by omega) hi hj
      simp only [List.getElem_take, Bool.not_eq_true, beq_eq_false_iff_ne, ne_eq]
      rwa [(List.getElem?_eq_some_iff.1 ht).2] at hne
  simp only [plainXenia, hfind, Option.bind_some, List.getElem?_take, if_pos (Nat.lt_succ_self _),
    ht, hs]
  rfl

theorem attach_everyImportPatched_iff_synthetic :
    ∃ s, RuntimeImports.attach ⟨tablesOf syntheticImports syntheticBindings⟩ plainXenia
        { memory := fun _ => 0 } = (s, .returned {}) ∧
      (EveryImportPatched syntheticImports syntheticBindings s.memory ↔
        PatchesCompatible syntheticImports syntheticBindings) :=
  attach_everyImportPatched_iff (syntheticModule syntheticImports) syntheticBindings
    syntheticImports_accepted (by decide) ⟨tablesOf syntheticImports syntheticBindings⟩
    (by decide) plainXenia (plainXenia_finds (by decide)) plainXenia_declares fun _ => 0

/-- Two thunks four bytes apart: the second starts on the first one's `blr`. -/
def overlappingImports : List ImportRequirement :=
  [{ kind := .function, library := [0x78, 0x61, 0x6d], ordinal := 1, name := [0x41],
     address := 0x82000000, recordAddress := 0x82000018 },
   { kind := .function, library := [0x78, 0x61, 0x6d], ordinal := 2, name := [0x42],
     address := 0x82000004, recordAddress := 0x8200001c }]

def overlappingBindings : List ImportBinding :=
  [{ library := [0x78, 0x61, 0x6d], ordinal := 1, kind := .function, functionHandler := some ⟨7⟩ },
   { library := [0x78, 0x61, 0x6d], ordinal := 2, kind := .function, functionHandler := some ⟨8⟩ }]

/-- The validators accept overlapping thunks, and the second overwrites the first. -/
theorem attach_overlappingThunks :
    ∃ s, (validateModule (syntheticModule overlappingImports)).Ok ∧
      (validateImports (syntheticModule overlappingImports) overlappingBindings).Ok ∧
      RuntimeImports.create overlappingImports overlappingBindings =
        .ok ⟨some ⟨tablesOf overlappingImports overlappingBindings⟩, {}⟩ ∧
      ResolverFinds plainXenia (tablesOf overlappingImports overlappingBindings) ∧
      DeclareSucceeds plainXenia ∧
      RuntimeImports.attach ⟨tablesOf overlappingImports overlappingBindings⟩ plainXenia
        { memory := fun _ => 0 } = (s, .returned {}) ∧
      ¬ EveryImportPatched overlappingImports overlappingBindings s.memory := by
  have haccepted : (validateModule (syntheticModule overlappingImports)).Ok :=
    syntheticModule_accepted (by decide)
  have hw := wellFormed_of_ok haccepted
  have hbound : (validateImports (syntheticModule overlappingImports) overlappingBindings).Ok := by
    decide
  have hs := (validateImports_ok_iff _ _).1 hbound
  have hfinds : ResolverFinds plainXenia (tablesOf overlappingImports overlappingBindings) :=
    plainXenia_finds (by decide)
  obtain ⟨s, hattach, hmem⟩ := attach_tablesOf hw.imports hw.apart hw.ordered hs hfinds
    plainXenia_declares fun _ => 0
  refine ⟨s, haccepted, hbound, by decide, hfinds, plainXenia_declares, hattach, fun h => ?_⟩
  rw [hmem] at h
  exact absurd ((everyImportPatched_iff hw.imports hs.length_eq hw.apart _).1 h) (by decide)

end X360Port
