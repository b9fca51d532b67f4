import Mathlib.Data.List.Nodup
import X360Port.ImportClaims

/-!
# What resolved claims bind

`resolve_ok_iff` says of a list of claims when it resolves, in terms of the
claims and the export tables alone; `applyManifest_eq` is the walk over a
manifest in closed form. An import is bound by the claim that names its export,
whatever other name the tables give that ordinal.
-/

namespace X360Port

open Library
open ExportNames (parseLibrary)

/-! ## The claims -/

/-- The claim names the export of that library and ordinal. -/
def ImportClaim.Names (exports : ExportTables) (claim : ImportClaim)
    (library : ExportNames.Library) (ordinal : UInt32) : Prop :=
  claim.library = library ∧
    ∃ found ∈ exports library, found.name = claim.exportName ∧ found.ordinal = ordinal

/-- The claim has no handler, or names no export or a variable. -/
def ImportClaim.Defective (exports : ExportTables) (claim : ImportClaim) : Prop :=
  claim.handler = none ∨
    (∀ found ∈ exports claim.library, found.name ≠ claim.exportName) ∨
    ∃ found ∈ exports claim.library, found.name = claim.exportName ∧
      found.kind = ImportKind.variable

/-- Two claims for one export. -/
def SameExport (exports : ExportTables) (a b : ImportClaim) : Prop :=
  ∃ library ordinal, a.Names exports library ordinal ∧ b.Names exports library ordinal

/-- The manifest entry is a function import that the claim names. -/
def ImportClaim.Binds (exports : ExportTables) (claim : ImportClaim)
    (requirement : ImportRequirement) : Prop :=
  requirement.kind = .function ∧ requirement.library = libraryName claim.library ∧
    claim.Names exports claim.library requirement.ordinal

instance (exports : ExportTables) (claim : ImportClaim) (library : ExportNames.Library)
    (ordinal : UInt32) : Decidable (claim.Names exports library ordinal) :=
  inferInstanceAs (Decidable (_ ∧ ∃ found ∈ exports library, _ ∧ _))

instance (exports : ExportTables) (claim : ImportClaim) (requirement : ImportRequirement) :
    Decidable (claim.Binds exports requirement) :=
  inferInstanceAs (Decidable (_ ∧ _ ∧ claim.Names _ _ _))

namespace ImportClaimTable

variable {exports : ExportTables} {table : ImportClaimTable} {claims : List ImportClaim}

theorem resolution_eq_some_iff (hunique : UniqueNames exports) {claim : ImportClaim}
    {entry : ResolvedClaim} :
    resolution exports claim = some entry ↔
      ∃ found ∈ exports claim.library, found.name = claim.exportName ∧ found.kind = .function ∧
        claim.handler = some entry.handler ∧ entry.library = claim.library ∧
        entry.ordinal = found.ordinal ∧ entry.context = claim.context := by
  simp only [resolution, Option.bind_eq_some_iff, find_eq_some_iff hunique,
    Option.ite_none_right_eq_some, Option.some.injEq]
  constructor
  · rintro ⟨handler, hhandler, found, ⟨hmem, hname⟩, hkind, rfl⟩
    exact ⟨found, hmem, hname, hkind, hhandler, rfl, rfl, rfl⟩
  · rintro ⟨found, hmem, hname, hkind, hhandler, hlibrary, hordinal, hcontext⟩
    refine ⟨entry.handler, hhandler, found, ⟨hmem, hname⟩, hkind, ?_⟩
    rw [← hlibrary, ← hordinal, ← hcontext]

theorem names_of_resolution (hunique : UniqueNames exports) {claim : ImportClaim}
    {entry : ResolvedClaim} (h : resolution exports claim = some entry) :
    claim.Names exports entry.library entry.ordinal := by
  obtain ⟨found, hmem, hname, -, -, hlibrary, hordinal, -⟩ := (resolution_eq_some_iff hunique).1 h
  exact ⟨hlibrary.symm, found, hlibrary ▸ hmem, hname, hordinal.symm⟩

/-- A name has one ordinal. -/
theorem names_inj (hunique : UniqueNames exports) {claim : ImportClaim}
    {library library' : ExportNames.Library} {ordinal ordinal' : UInt32}
    (h : claim.Names exports library ordinal) (h' : claim.Names exports library' ordinal') :
    (library, ordinal) = (library', ordinal') := by
  obtain ⟨rfl, found, hmem, hname, rfl⟩ := h
  obtain ⟨rfl, found', hmem', hname', rfl⟩ := h'
  have heq : found = found' :=
    List.inj_on_of_nodup_map (hunique claim.library) hmem hmem' (hname.trans hname'.symm)
  rw [heq]

theorem resolution_isSome_iff (hunique : UniqueNames exports) {claim : ImportClaim} :
    (resolution exports claim).isSome ↔ ¬ claim.Defective exports := by
  rw [Option.isSome_iff_exists]
  constructor
  · rintro ⟨entry, h⟩
    obtain ⟨found, hmem, hname, hkind, hhandler, -, -, -⟩ := (resolution_eq_some_iff hunique).1 h
    rintro (hnone | hlack | ⟨other, hother, hsame, hvariable⟩)
    · rw [hhandler] at hnone
      simp at hnone
    · exact hlack found hmem hname
    · have heq : found = other :=
        List.inj_on_of_nodup_map (hunique claim.library) hmem hother (hname.trans hsame.symm)
      rw [heq, hvariable] at hkind
      simp at hkind
  · intro h
    simp only [ImportClaim.Defective, not_or, not_forall, not_exists, not_and, not_not] at h
    obtain ⟨hhandler, ⟨found, hmem, hname⟩, hnone⟩ := h
    obtain ⟨handler, hhandler⟩ := Option.ne_none_iff_exists'.1 hhandler
    have hkind : found.kind = .function := by
      cases hk : found.kind with
      | function => rfl
      | «variable» => exact absurd hk (hnone found hmem hname)
    exact ⟨⟨claim.library, found.ordinal, handler, claim.context⟩,
      (resolution_eq_some_iff hunique).2 ⟨found, hmem, hname, hkind, hhandler, rfl, rfl, rfl⟩⟩

/-- Claims that resolve clash exactly when they are for one export. -/
theorem clashing_iff (hunique : UniqueNames exports) {a b : ImportClaim}
    (ha : (resolution exports a).isSome) (hb : (resolution exports b).isSome) :
    Clashing (resolution exports) (fun x y => x.key = y.key) a b ↔ SameExport exports a b := by
  constructor
  · rintro ⟨x, y, hx, hy, hkey⟩
    refine ⟨x.library, x.ordinal, names_of_resolution hunique hx, ?_⟩
    have hlibrary : x.library = y.library := congrArg Prod.fst hkey
    have hordinal : x.ordinal = y.ordinal := congrArg Prod.snd hkey
    rw [hlibrary, hordinal]
    exact names_of_resolution hunique hy
  · rintro ⟨library, ordinal, hna, hnb⟩
    obtain ⟨x, hx⟩ := Option.isSome_iff_exists.1 ha
    obtain ⟨y, hy⟩ := Option.isSome_iff_exists.1 hb
    refine ⟨x, y, hx, hy, ?_⟩
    exact (names_inj hunique (names_of_resolution hunique hx) hna).trans
      (names_inj hunique hnb (names_of_resolution hunique hy))

/-! ## Resolution -/

theorem resolveClaim_error {resolved : List ResolvedClaim} {claim : ImportClaim}
    {failure : RuntimeFailure} (h : resolveClaim exports resolved claim = .error failure) :
    failure.error = .importValidationFailed := by
  unfold resolveClaim at h
  split at h
  · next hhandler =>
    obtain rfl := Except.error.inj h
    rfl
  next handler hhandler =>
    split at h
    · next hfind =>
      obtain rfl := Except.error.inj h
      rfl
    next found hfind =>
      split at h
      · next hkind =>
        obtain rfl := Except.error.inj h
        rfl
      · split at h
        · next hclaimed =>
          obtain rfl := Except.error.inj h
          rfl
        · simp at h

/-- How a resolution ends: the table is replaced by all the claims, or left alone. -/
theorem resolve_cases (exports : ExportTables) (table : ImportClaimTable)
    (claims : List ImportClaim) :
    (∃ resolved, acceptAll (resolveClaim exports) claims [] = .ok resolved ∧
      (table.resolve exports claims).1.Ok ∧
      (table.resolve exports claims).2.resolved = resolved ∧
      (table.resolve exports claims).2.applied = 0) ∨
    (∃ failure, acceptAll (resolveClaim exports) claims [] = .error failure ∧
      ¬ (table.resolve exports claims).1.Ok ∧ (table.resolve exports claims).2 = table) := by
  unfold resolve
  split
  · rename_i failure hresolved
    refine .inr ⟨failure, hresolved, ?_, rfl⟩
    obtain ⟨claim, -, accepted, herror⟩ := acceptAll_eq_error hresolved
    simp [RuntimeFailure.Ok, resolveClaim_error herror]
  · rename_i resolved hresolved
    exact .inl ⟨resolved, hresolved, rfl, rfl, rfl⟩

theorem resolve_ok_iff_acceptAll :
    (table.resolve exports claims).1.Ok ↔
      ∃ resolved, acceptAll (resolveClaim exports) claims [] = .ok resolved := by
  obtain ⟨resolved, hok, h, -, -⟩ | ⟨failure, herror, h, -⟩ := resolve_cases exports table claims
  · exact ⟨fun _ => ⟨resolved, hok⟩, fun _ => h⟩
  · refine ⟨fun hok => absurd hok h, ?_⟩
    rintro ⟨resolved, hok⟩
    rw [herror] at hok
    simp at hok

/-- A refusal leaves the claims and the count as they were. -/
theorem resolve_failed (h : ¬ (table.resolve exports claims).1.Ok) :
    (table.resolve exports claims).2 = table := by
  obtain ⟨_, _, hok, _⟩ | ⟨_, _, _, htable⟩ := resolve_cases exports table claims
  · exact absurd hok h
  · exact htable

/-- An accepted list is the whole of the new table. -/
theorem resolve_resolved (h : (table.resolve exports claims).1.Ok) :
    (table.resolve exports claims).2.resolved = claims.filterMap (resolution exports) ∧
      (table.resolve exports claims).2.applied = 0 := by
  obtain ⟨resolved, hok, -, hresolved, hzero⟩ | ⟨_, _, hno, _⟩ :=
    resolve_cases exports table claims
  · have haccepted := accepted_of_ok (resolveClaim_accepts exports) hok
    exact ⟨hresolved.trans haccepted.2.1, hzero⟩
  · exact absurd h hno

/-- **When a list of claims resolves.** -/
theorem resolve_ok_iff (hunique : UniqueNames exports) :
    (table.resolve exports claims).1.Ok ↔
      (∀ claim ∈ claims, ¬ claim.Defective exports) ∧
        claims.Pairwise fun a b => ¬ SameExport exports a b := by
  rw [resolve_ok_iff_acceptAll, acceptAll_ok_iff (resolveClaim_accepts exports)]
  simp only [resolution_isSome_iff hunique]
  refine and_congr_right fun hsound => List.Pairwise.iff_of_mem ?_
  intro a b ha hb
  rw [clashing_iff hunique ((resolution_isSome_iff hunique).2 (hsound a ha))
    ((resolution_isSome_iff hunique).2 (hsound b hb))]

/-- The verdict does not depend on the order of the claims. -/
theorem resolve_ok_perm {claims' : List ImportClaim} (h : claims.Perm claims') :
    (table.resolve exports claims).1.Ok ↔ (table.resolve exports claims').1.Ok := by
  rw [resolve_ok_iff_acceptAll, resolve_ok_iff_acceptAll]
  exact acceptAll_ok_perm (resolveClaim_accepts exports) (fun x y hxy => hxy.symm) h

/-! ## Application -/

/-- The claim that binds a manifest entry. -/
def claimFor (table : ImportClaimTable) (requirement : ImportRequirement) :
    Option ResolvedClaim :=
  if requirement.kind = .function then
    (parseLibrary requirement.library).bind fun library =>
      table.find library requirement.ordinal
  else none

/-- A binding with the claim's handler and context. -/
def install (claim : Option ResolvedClaim) (binding : ImportBinding) : ImportBinding :=
  match claim with
  | none => binding
  | some claim =>
    { binding with
      functionHandler := some claim.handler
      functionContext := claim.context }

theorem find_eq_some_iff {library : ExportNames.Library} {ordinal : UInt32}
    {entry : ResolvedClaim} :
    table.find library ordinal = some entry ↔
      entry ∈ table.resolved ∧ entry.library = library ∧ entry.ordinal = ordinal := by
  constructor
  · intro h
    refine ⟨List.mem_of_find?_eq_some h, ?_⟩
    simpa using List.find?_some h
  · rintro ⟨hmem, hlibrary, hordinal⟩
    cases hfind : table.find library ordinal with
    | none =>
      have := List.find?_eq_none.1 hfind entry hmem
      simp [hlibrary, hordinal] at this
    | some other =>
      have hother : other.library = library ∧ other.ordinal = ordinal := by
        simpa using List.find?_some hfind
      have hkey : other.key = entry.key :=
        Prod.ext (hother.1.trans hlibrary.symm) (hother.2.trans hordinal.symm)
      by_contra hne
      have hne' : other ≠ entry := fun h => hne (congrArg some h)
      have hsymm : Std.Symm fun a b : ResolvedClaim => ¬ a.key = b.key :=
        ⟨fun _ _ hab hba => hab hba.symm⟩
      exact table.distinct.forall (List.mem_of_find?_eq_some hfind) hmem hne' hkey

theorem claimFor_eq_some_iff {requirement : ImportRequirement} {entry : ResolvedClaim} :
    table.claimFor requirement = some entry ↔
      requirement.kind = .function ∧ requirement.library = libraryName entry.library ∧
        entry ∈ table.resolved ∧ entry.ordinal = requirement.ordinal := by
  simp only [claimFor, Option.ite_none_right_eq_some, Option.bind_eq_some_iff,
    parseLibrary_eq_some_iff, find_eq_some_iff]
  constructor
  · rintro ⟨hkind, library, hname, hmem, rfl, hordinal⟩
    exact ⟨hkind, hname, hmem, hordinal⟩
  · rintro ⟨hkind, hname, hmem, hordinal⟩
    exact ⟨hkind, entry.library, hname, hmem, rfl, hordinal⟩

/-- One entry of the manifest. -/
theorem apply_eq (table : ImportClaimTable) (requirement : ImportRequirement)
    (binding : ImportBinding) :
    table.apply requirement binding =
      ({ table with
         applied := table.applied + if (table.claimFor requirement).isSome then 1 else 0 },
        install (table.claimFor requirement) binding) := by
  unfold apply claimFor
  by_cases hkind : requirement.kind = .function
  · cases hparse : parseLibrary requirement.library with
    | none => simp [hkind, install]
    | some library =>
      cases hfind : table.find library requirement.ordinal with
      | none => simp [hkind, hfind, install]
      | some claim => simp [hkind, hfind, install]
  · simp [hkind, install]

/-- **The walk over a manifest.** The bindings are independent of each other;
the count is the number of entries that a claim binds. -/
theorem applyManifest_eq (table : ImportClaimTable)
    (manifest : List (ImportRequirement × ImportBinding)) :
    table.applyManifest manifest =
      ({ table with
         applied := table.applied +
           manifest.countP fun entry => (table.claimFor entry.1).isSome },
        manifest.map fun entry => install (table.claimFor entry.1) entry.2) := by
  induction manifest generalizing table with
  | nil => rfl
  | cons entry rest ih =>
    obtain ⟨requirement, binding⟩ := entry
    -- the count plays no part in looking a claim up
    have hclaims : ∀ applied requirement,
        claimFor { table with applied := applied } requirement = table.claimFor requirement :=
      fun _ _ => rfl
    simp only [applyManifest, apply_eq, ih, hclaims, List.map_cons, List.countP_cons,
      Prod.mk.injEq, and_true]
    congr 1
    omega

/-- Each import occurs once in the manifest. -/
def DistinctImports (manifest : List (ImportRequirement × ImportBinding)) : Prop :=
  manifest.Pairwise fun a b => ¬ (a.1.library = b.1.library ∧ a.1.ordinal = b.1.ordinal)

instance (manifest : List (ImportRequirement × ImportBinding)) :
    Decidable (DistinctImports manifest) :=
  inferInstanceAs (Decidable (List.Pairwise _ manifest))

/-- No claim binds two entries, so no more entries are bound than there are claims. -/
theorem count_claimed_le {manifest : List (ImportRequirement × ImportBinding)}
    (h : DistinctImports manifest) :
    (manifest.countP fun entry => (table.claimFor entry.1).isSome) ≤ table.size := by
  have hlength : (manifest.filterMap fun entry => table.claimFor entry.1).length =
      manifest.countP fun entry => (table.claimFor entry.1).isSome :=
    List.length_filterMap_eq_countP
  have hnodup : (manifest.filterMap fun entry => table.claimFor entry.1).Nodup := by
    rw [List.Nodup, List.pairwise_filterMap]
    refine h.imp ?_
    rintro a b hab entry ha entry' hb rfl
    obtain ⟨-, hlibrary, -, hordinal⟩ := claimFor_eq_some_iff.1 ha
    obtain ⟨-, hlibrary', -, hordinal'⟩ := claimFor_eq_some_iff.1 hb
    exact hab ⟨hlibrary.trans hlibrary'.symm, hordinal.symm.trans hordinal'⟩
  have hsubset : (manifest.filterMap fun entry => table.claimFor entry.1) ⊆ table.resolved := by
    intro claim hclaim
    obtain ⟨entry, -, hentry⟩ := List.mem_filterMap.1 hclaim
    exact (claimFor_eq_some_iff.1 hentry).2.2.1
  rw [← hlength]
  exact (List.subperm_of_subset hnodup hsubset).length_le

/-! ## Applying what was resolved -/

/-- After a success an entry is bound by the claim that names its export. -/
theorem claimFor_resolve (hunique : UniqueNames exports)
    (hok : (table.resolve exports claims).1.Ok) {claim : ImportClaim} (hclaim : claim ∈ claims)
    {requirement : ImportRequirement} (hbinds : claim.Binds exports requirement) :
    ∃ entry, (table.resolve exports claims).2.claimFor requirement = some entry ∧
      claim.handler = some entry.handler ∧ entry.context = claim.context := by
  obtain ⟨hkind, hlibrary, hnames⟩ := hbinds
  have hsound := ((resolve_ok_iff hunique).1 hok).1 claim hclaim
  obtain ⟨entry, hentry⟩ := Option.isSome_iff_exists.1 ((resolution_isSome_iff hunique).2 hsound)
  obtain ⟨-, -, -, -, hhandler, hsame, -, hcontext⟩ := (resolution_eq_some_iff hunique).1 hentry
  have hkey := names_inj hunique (names_of_resolution hunique hentry) hnames
  refine ⟨entry, claimFor_eq_some_iff.2 ⟨hkind, ?_, ?_, congrArg Prod.snd hkey⟩, hhandler,
    hcontext⟩
  · rw [hsame]
    exact hlibrary
  · rw [(resolve_resolved hok).1]
    exact List.mem_filterMap.2 ⟨claim, hclaim, hentry⟩

/-- Every claim that binds an entry is one of those resolved. -/
theorem binds_of_claimFor (hunique : UniqueNames exports)
    (hok : (table.resolve exports claims).1.Ok) {requirement : ImportRequirement}
    {entry : ResolvedClaim}
    (h : (table.resolve exports claims).2.claimFor requirement = some entry) :
    ∃ claim ∈ claims, claim.Binds exports requirement := by
  obtain ⟨hkind, hlibrary, hmem, hordinal⟩ := claimFor_eq_some_iff.1 h
  rw [(resolve_resolved hok).1] at hmem
  obtain ⟨claim, hclaim, hentry⟩ := List.mem_filterMap.1 hmem
  have hnames := names_of_resolution hunique hentry
  rw [hordinal] at hnames
  have hsame : claim.library = entry.library := hnames.1
  refine ⟨claim, hclaim, hkind, ?_, ?_⟩
  · rw [hsame]
    exact hlibrary
  · rw [hsame]
    exact hnames

/-- Whether some claim of the list binds the manifest entry. -/
def anyBinds (exports : ExportTables) (claims : List ImportClaim)
    (requirement : ImportRequirement) : Bool :=
  claims.any fun claim => decide (claim.Binds exports requirement)

theorem claimFor_isSome (hunique : UniqueNames exports)
    (hok : (table.resolve exports claims).1.Ok) (requirement : ImportRequirement) :
    ((table.resolve exports claims).2.claimFor requirement).isSome =
      anyBinds exports claims requirement := by
  rw [Bool.eq_iff_iff, Option.isSome_iff_exists, anyBinds, List.any_eq_true]
  simp only [decide_eq_true_eq]
  constructor
  · rintro ⟨entry, h⟩
    exact binds_of_claimFor hunique hok h
  · rintro ⟨claim, hclaim, hbinds⟩
    obtain ⟨entry, hentry, -, -⟩ := claimFor_resolve hunique hok hclaim hbinds
    exact ⟨entry, hentry⟩

theorem exists_getElem?_of_not_pairwise {R : ImportClaim → ImportClaim → Prop}
    {claims : List ImportClaim} :
    ¬ (claims.Pairwise fun a b => ¬ R a b) ↔
      ∃ (i j : Nat) (a b : ImportClaim),
        i < j ∧ claims[i]? = some a ∧ claims[j]? = some b ∧ R a b := by
  rw [List.pairwise_iff_getElem]
  push Not
  constructor
  · rintro ⟨i, j, hi, hj, hij, h⟩
    exact ⟨i, j, _, _, hij, List.getElem?_eq_getElem hi, List.getElem?_eq_getElem hj, h⟩
  · rintro ⟨i, j, a, b, hij, ha, hb, h⟩
    obtain ⟨hi, rfl⟩ := List.getElem?_eq_some_iff.1 ha
    obtain ⟨hj, rfl⟩ := List.getElem?_eq_some_iff.1 hb
    exact ⟨i, j, hi, hj, hij, h⟩

/-- **Main result.** A list of claims is refused exactly for a defective claim or
for two claims of one export, in whatever order they stand, and a refusal leaves
the table alone. The table of an accepted list gives each import of a manifest
the handler and context of the claim that names its export, and nothing else. -/
theorem resolve_then_apply (exports : ExportTables) (hunique : UniqueNames exports)
    (table : ImportClaimTable) (claims : List ImportClaim) :
    (¬ (table.resolve exports claims).1.Ok ↔
      (∃ claim ∈ claims, claim.Defective exports) ∨
        ∃ (i j : Nat) (a b : ImportClaim),
          i < j ∧ claims[i]? = some a ∧ claims[j]? = some b ∧ SameExport exports a b) ∧
    (∀ claims', claims.Perm claims' →
      ((table.resolve exports claims').1.Ok ↔ (table.resolve exports claims).1.Ok)) ∧
    (¬ (table.resolve exports claims).1.Ok → (table.resolve exports claims).2 = table) ∧
    ((table.resolve exports claims).1.Ok → ∀ manifest, DistinctImports manifest →
      let run := (table.resolve exports claims).2.applyManifest manifest
      run.2.length = manifest.length ∧
      (∀ (i : Nat) requirement binding, manifest[i]? = some (requirement, binding) →
        (∀ claim ∈ claims, claim.Binds exports requirement →
          run.2[i]? = some { binding with
            functionHandler := claim.handler
            functionContext := claim.context }) ∧
        ((∀ claim ∈ claims, ¬ claim.Binds exports requirement) → run.2[i]? = some binding)) ∧
      run.1.applied = manifest.countP (fun entry => anyBinds exports claims entry.1) ∧
      run.1.applied ≤ run.1.size) := by
  refine ⟨?_, fun claims' h => (resolve_ok_perm h).symm, resolve_failed, ?_⟩
  · rw [resolve_ok_iff hunique, not_and_or, exists_getElem?_of_not_pairwise]
    push Not
    rfl
  · intro hok manifest hdistinct
    have hzero := (resolve_resolved hok).2
    simp only [applyManifest_eq, List.length_map, List.getElem?_map, hzero, Nat.zero_add]
    refine ⟨trivial, ?_, ?_, count_claimed_le hdistinct⟩
    · intro i requirement binding hi
      rw [hi]
      constructor
      · intro claim hclaim hbinds
        obtain ⟨entry, hentry, hhandler, hcontext⟩ :=
          claimFor_resolve hunique hok hclaim hbinds
        simp [hentry, install, hhandler, hcontext]
      · intro hnone
        have hno : (table.resolve exports claims).2.claimFor requirement = none := by
          rw [Option.eq_none_iff_forall_ne_some]
          intro entry hentry
          obtain ⟨claim, hclaim, hbinds⟩ := binds_of_claimFor hunique hok hentry
          exact hnone claim hclaim hbinds
        simp [hno, install]
    · exact List.countP_congr fun entry _ => by rw [claimFor_isSome hunique hok]

/-- Two names of one ordinal and a variable. -/
def aliasedExports : ExportTables
  | .kernel => [⟨[0x41], 1, .function⟩, ⟨[0x42], 1, .function⟩, ⟨[0x43], 2, ImportKind.variable⟩]
  | .xam => [⟨[0x41], 1, .function⟩]

theorem aliasedExports_unique : UniqueNames aliasedExports := by
  intro library
  cases library with
  | kernel => decide
  | xam => decide

/-- A claim by the second name binds the ordinal, in its own library only. -/
theorem resolve_then_apply_alias :
    let claim : ImportClaim := ⟨.kernel, [0x42], some ⟨7⟩, 9⟩
    let manifest : List (ImportRequirement × ImportBinding) :=
      [({ library := ExportNames.kernelLibraryName, ordinal := 1, name := [0x41] },
        { library := ExportNames.kernelLibraryName, ordinal := 1 }),
       ({ library := ExportNames.xamLibraryName, ordinal := 1, name := [0x41] },
        { library := ExportNames.xamLibraryName, ordinal := 1 })]
    let run := (empty.resolve aliasedExports [claim]).2.applyManifest manifest
    run.2[0]? = some { library := ExportNames.kernelLibraryName
                       ordinal := 1
                       functionHandler := some ⟨7⟩
                       functionContext := 9 } ∧
    run.2[1]? = some { library := ExportNames.xamLibraryName, ordinal := 1 } ∧
    run.1.applied = 1 ∧ run.1.applied ≤ run.1.size := by
  intro claim manifest run
  obtain ⟨-, -, -, h⟩ := resolve_then_apply aliasedExports aliasedExports_unique empty [claim]
  obtain ⟨-, hbound, hcount, hle⟩ := h (by decide) manifest (by decide)
  refine ⟨?_, ?_, ?_, hle⟩
  · exact (hbound 0 _ _ rfl).1 claim List.mem_cons_self (by decide)
  · exact (hbound 1 _ _ rfl).2 (by decide)
  · rw [hcount]
    decide

end ImportClaimTable

end X360Port
