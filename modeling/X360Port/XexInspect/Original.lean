import X360Port.XexInspect.Walk

/-!
# Walks over the original image

`entriesOf` and `rewritesOf` say what a library asks for when its records are
read from the image as it was loaded. A walk reads the words of a later
library after the rewrites of the earlier ones, so it leaves `rewrittenMemory`
(`Normalizes.rewritten`). `ReadsOriginal` says that it still finds the original
words; then the whole walk is the rewrites of the
original image, one after another (`Normalizes.original`,
`normalizes_original`). Rewrites that lie apart leave it so
(`readsOriginal_of_apart`).
-/

namespace X360Port

open Library

/-- The imports of a library as the words of a memory encode them. -/
def entriesOf (bounds : ImageBounds) (m : Memory UInt8) (lib : ImportLibrary) :
    List ImportEntry := (pairImports (lib.records.map (rawAt bounds m))).getD []

/-- The rewrites these imports ask for. -/
def rewritesOf (bounds : ImageBounds) (m : Memory UInt8) (lib : ImportLibrary) :
    List (Patch UInt8) := (entriesOf bounds m lib).flatMap (·.rewrites bounds)

/-- The imports of all libraries as the words of a memory encode them. -/
def originalImports (bounds : ImageBounds) (names : List StringView) (m : Memory UInt8)
    (libs : List ImportLibrary) : List XexImport :=
  libs.flatMap fun lib =>
    (entriesOf bounds m lib).map (·.toImport (names.getD lib.nameIndex []))

/-- The memory after the rewrites of all libraries, each read over what those before it left. -/
def rewrittenMemory (bounds : ImageBounds) (m : Memory UInt8) (libs : List ImportLibrary) :
    Memory UInt8 := libs.foldl (fun m lib => writeAll (rewritesOf bounds m lib) m) m

/-- Each library finds the words of `m` at its records, although `written` and the rewrites of
the libraries before it were made. -/
def ReadsOriginal (bounds : ImageBounds) (m : Memory UInt8) :
    List (Patch UInt8) → List ImportLibrary → Prop
  | _, [] => True
  | written, lib :: libs =>
    (∀ a ∈ lib.records, loadWordAt (writeAll written m) (bounds.offset a) =
      loadWordAt m (bounds.offset a)) ∧
    ReadsOriginal bounds m (written ++ rewritesOf bounds m lib) libs

section

variable {bounds : ImageBounds} {names : List StringView} {m m' : Memory UInt8}
  {lib : ImportLibrary} {libs : List ImportLibrary} {written : List (Patch UInt8)}

theorem entriesOf_eq {entries : List ImportEntry}
    (h : Pairs (lib.records.map (rawAt bounds m)) entries) : entriesOf bounds m lib = entries := by
  unfold entriesOf
  rw [pairImports_of_pairs h]
  rfl

/-- A walk leaves the rewrites its records ask for. -/
theorem Normalizes.rewritten {imports : List XexImport}
    (h : Normalizes bounds names m libs imports m') : m' = rewrittenMemory bounds m libs := by
  induction h with
  | nil m => rfl
  | cons hname hpairs hstubs hrun ih =>
    rw [ih, rewrittenMemory, rewrittenMemory, List.foldl_cons, rewritesOf, entriesOf_eq hpairs]

/-- Equal words give equal records. -/
theorem map_rawAt_congr {m₁ m₂ : Memory UInt8} {records : List GuestAddress}
    (h : ∀ a ∈ records, loadWordAt m₁ (bounds.offset a) = loadWordAt m₂ (bounds.offset a)) :
    records.map (rawAt bounds m₁) = records.map (rawAt bounds m₂) := by
  refine List.map_congr_left fun a ha => ?_
  unfold rawAt
  rw [h a ha]

/-- A walk that reads original words makes the original rewrites. -/
theorem Normalizes.original (written : List (Patch UInt8)) {imports : List XexImport}
    (h : Normalizes bounds names (writeAll written m) libs imports m')
    (hreads : ReadsOriginal bounds m written libs) :
    m' = writeAll (written ++ libs.flatMap (rewritesOf bounds m)) m ∧
      imports = originalImports bounds names m libs ∧
      ∀ lib ∈ libs, Pairs (lib.records.map (rawAt bounds m)) (entriesOf bounds m lib) := by
  induction libs generalizing written imports with
  | nil =>
    cases h
    exact ⟨by rw [List.flatMap_nil, List.append_nil], rfl, fun lib hlib => nomatch hlib⟩
  | cons lib libs ih =>
    obtain ⟨hwords, hrest⟩ := hreads
    cases h with
    | @cons _ library _ entries imports _ _ hname hpairs hstubs hrun =>
      rw [map_rawAt_congr hwords] at hpairs
      have hentries := entriesOf_eq hpairs
      have hrewrites : entries.flatMap (·.rewrites bounds) = rewritesOf bounds m lib := by
        rw [rewritesOf, hentries]
      rw [hrewrites, ← writeAll_append] at hrun
      obtain ⟨hm, himports, hall⟩ := ih _ hrun hrest
      refine ⟨by rw [hm, List.flatMap_cons, List.append_assoc], ?_, ?_⟩
      · unfold originalImports at himports ⊢
        rw [List.flatMap_cons, ← himports, hentries, List.getD_eq_getElem?_getD, hname]
        rfl
      · rw [List.forall_mem_cons]
        exact ⟨hentries.symm ▸ hpairs, hall⟩

/-- A walk exists where the original words are read, pair, and have their stubs in the image. -/
theorem normalizes_original (written : List (Patch UInt8))
    (hreads : ReadsOriginal bounds m written libs)
    (hnames : ∀ lib ∈ libs, lib.nameIndex < names.length)
    (hpairs : ∀ lib ∈ libs, Pairs (lib.records.map (rawAt bounds m)) (entriesOf bounds m lib))
    (hstubs : ∀ lib ∈ libs, ∀ e ∈ entriesOf bounds m lib, e.StubInImage bounds) :
    Normalizes bounds names (writeAll written m) libs (originalImports bounds names m libs)
      (writeAll (written ++ libs.flatMap (rewritesOf bounds m)) m) := by
  induction libs generalizing written with
  | nil =>
    rw [List.flatMap_nil, List.append_nil]
    exact .nil _
  | cons lib libs ih =>
    obtain ⟨hwords, hrest⟩ := hreads
    rw [List.forall_mem_cons] at hnames hpairs hstubs
    have hrun := ih _ hrest hnames.2 hpairs.2 hstubs.2
    rw [List.append_assoc, ← List.flatMap_cons, writeAll_append] at hrun
    have hname : names[lib.nameIndex]? = some (names.getD lib.nameIndex []) := by
      rw [List.getD_eq_getElem?_getD, List.getElem?_eq_getElem hnames.1]
      rfl
    have hlib : Pairs (lib.records.map (rawAt bounds (writeAll written m)))
        (entriesOf bounds m lib) := by
      rw [map_rawAt_congr hwords]
      exact hpairs.1
    rw [rewritesOf] at hrun
    rw [originalImports, List.flatMap_cons]
    exact .cons hname hlib hstubs.1 hrun

/-- A record address of a library lies in one of the rewrites of its entries. -/
theorem exists_rewrite_of_record {entries : List ImportEntry} {a : GuestAddress}
    (h : Pairs (lib.records.map (rawAt bounds m)) entries) (ha : a ∈ lib.records) :
    ∃ p ∈ entries.flatMap (·.rewrites bounds),
      ∀ x, bounds.offset a ≤ x → x < bounds.offset a + 4 → p.Covers x := by
  obtain ⟨e, he, hused⟩ := h.exists_entry (List.mem_map_of_mem (f := rawAt bounds m) ha)
  rcases hused with hrecord | ⟨record, rfl⟩
  · refine ⟨recordPatch bounds (rawAt bounds m a), List.mem_flatMap.2 ⟨e, he, ?_⟩,
      fun x hlow hhigh => ⟨hlow, hhigh⟩⟩
    rw [hrecord]
    cases e with
    | «variable» record => exact List.mem_cons_self
    | function record thunk => exact List.mem_cons_self
  · refine ⟨stubPatch bounds a, List.mem_flatMap.2 ⟨_, he,
      List.mem_cons_of_mem _ List.mem_cons_self⟩, fun x hlow hhigh => ⟨hlow, ?_⟩⟩
    show x < bounds.offset a + 16
    omega

/-- Rewrites that lie apart spoil no later read. -/
theorem readsOriginal_of_apart
    (hpairs : ∀ lib ∈ libs, Pairs (lib.records.map (rawAt bounds m)) (entriesOf bounds m lib))
    (hapart : (written ++ libs.flatMap (rewritesOf bounds m)).Pairwise Patch.Apart) :
    ReadsOriginal bounds m written libs := by
  induction libs generalizing written with
  | nil => exact trivial
  | cons lib libs ih =>
    rw [List.forall_mem_cons] at hpairs
    rw [List.flatMap_cons] at hapart
    refine ⟨fun a ha => loadWordAt_congr fun x hlow hhigh => writeAll_frame fun q hq => ?_, ?_⟩
    · obtain ⟨p, hp, hcovers⟩ := exists_rewrite_of_record hpairs.1 ha
      exact ((List.pairwise_append.1 hapart).2.2 q hq p (List.mem_append_left _ hp)).not_covers
        (hcovers x hlow hhigh)
    · exact ih hpairs.2 (by rw [List.append_assoc]; exact hapart)

end

end X360Port
