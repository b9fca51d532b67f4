import X360Port.XexInspect.Descriptor

/-!
# Which walks normalize the image

After a walk every reported record word should stand reversed, every reported
thunk should be the canonical stub, the imports should be those the original
words encode, and nothing else should have changed (`ImportsNormalized`). The
walk never compares the ranges it rewrites. `parseImports_normalizes_iff` gives
the exact condition on the loaded file: rewrites that meet write the same
bytes, and no library lists a word that an earlier one has changed.
-/

namespace X360Port

open Library

/-- The import that two neighbouring records of a library, or one of them, encode. -/
def EncodedBy (bounds : ImageBounds) (m : Memory UInt8) (lib : ImportLibrary) (imp : XexImport) :
    Prop :=
  (rawAt bounds m imp.recordAddress).type = 0 ∧
    (rawAt bounds m imp.recordAddress).ordinal = imp.ordinal ∧
    match imp.kind with
    | .function => (rawAt bounds m imp.address).type = 1 ∧
        (rawAt bounds m imp.address).ordinal = imp.ordinal ∧
        ∃ after, imp.recordAddress :: imp.address :: after <:+ lib.records
    | ImportKind.variable => imp.address = imp.recordAddress ∧
        ∃ after, imp.recordAddress :: after <:+ lib.records ∧
          ∀ next ∈ after.head?, (rawAt bounds m next).type ≠ 1

/-- The image offsets an import asks to have rewritten. -/
def XexImport.Rewrites (bounds : ImageBounds) (imp : XexImport) (x : Nat) : Prop :=
  (bounds.offset imp.recordAddress ≤ x ∧ x < bounds.offset imp.recordAddress + 4) ∨
    (imp.kind = .function ∧ bounds.offset imp.address ≤ x ∧ x < bounds.offset imp.address + 16)

/-- The image `m'` is the image `m` with the reported imports normalized. -/
structure ImportsNormalized (bounds : ImageBounds) (libs : List ImportLibrary)
    (m m' : Memory UInt8) (imports : List XexImport) : Prop where
  encoded : ∀ imp ∈ imports, ∃ lib ∈ libs, EncodedBy bounds m lib imp
  records : ∀ imp ∈ imports, ∀ i < 4,
    m' (bounds.offset imp.recordAddress + i) = m (bounds.offset imp.recordAddress + (3 - i))
  stubs : ∀ imp ∈ imports, imp.kind = .function → ∀ i b, kFunctionStub[i]? = some b →
    m' (bounds.offset imp.address + i) = b
  unchanged : ∀ x, (∀ imp ∈ imports, ¬ imp.Rewrites bounds x) → m' x = m x

/-- No rewrite that the original image asks for spoils another one or a later read. -/
structure SeparateRewrites (bounds : ImageBounds) (m : Memory UInt8) (libs : List ImportLibrary) :
    Prop where
  agree : (libs.flatMap (rewritesOf bounds m)).Pairwise Patch.Agrees
  reads : ReadsOriginal bounds m [] libs

section

variable {bounds : ImageBounds} {m m' : Memory UInt8} {a b : GuestAddress}

/-! ## Words and patches -/

theorem littleWordBytes_loadWordAt (m : Memory UInt8) (o : Nat) :
    littleWordBytes (loadWordAt m o) = [m (o + 3), m (o + 2), m (o + 1), m o] := by
  have h := congrArg List.reverse (guestWordBytes_loadWordAt m o)
  exact h

/-- A record's rewrite is held where the word stands reversed. -/
theorem recordPatch_heldBy_iff :
    (recordPatch bounds (rawAt bounds m a)).HeldBy m' ↔
      ∀ i < 4, m' (bounds.offset a + i) = m (bounds.offset a + (3 - i)) := by
  rw [Patch.heldBy_iff_getElem?]
  show (∀ i b, (littleWordBytes (loadWordAt m (bounds.offset a)))[i]? = some b →
    m' (bounds.offset a + i) = b) ↔ _
  rw [littleWordBytes_loadWordAt]
  constructor
  · intro h i hi
    refine h i _ ?_
    match i, hi with
    | 0, _ | 1, _ | 2, _ | 3, _ => rfl
  · intro h i b hb
    match i, hb with
    | 0, hb => exact (h 0 (by omega)).trans (Option.some.inj hb)
    | 1, hb => exact (h 1 (by omega)).trans (Option.some.inj hb)
    | 2, hb => exact (h 2 (by omega)).trans (Option.some.inj hb)
    | 3, hb => exact (h 3 (by omega)).trans (Option.some.inj hb)

/-- The type of a word is its first byte. -/
theorem toNat_rawAt_type : (rawAt bounds m a).type.toNat = (m (bounds.offset a)).toNat := by
  have h0 := (m (bounds.offset a)).toNat_lt
  have h1 := (m (bounds.offset a + 1)).toNat_lt
  have h2 := (m (bounds.offset a + 2)).toNat_lt
  have h3 := (m (bounds.offset a + 3)).toNat_lt
  show (loadWordAt m (bounds.offset a) >>> 24).toNat = _
  rw [UInt32.toNat_shiftRight, loadWordAt, toNat_loadGuestWord]
  simp only [UInt32.reduceToNat, Nat.reduceMod, Nat.shiftRight_eq_div_pow]
  omega

/-- The ordinal of a word is its last two bytes. -/
theorem toNat_rawAt_ordinal : (rawAt bounds m a).ordinal.toNat =
    (m (bounds.offset a + 2)).toNat * 2 ^ 8 + (m (bounds.offset a + 3)).toNat := by
  have h2 := (m (bounds.offset a + 2)).toNat_lt
  have h3 := (m (bounds.offset a + 3)).toNat_lt
  have hmask : (0xFFFF : UInt32).toNat = 2 ^ 16 - 1 := by decide
  show (loadWordAt m (bounds.offset a) &&& 0xFFFF).toNat = _
  rw [UInt32.toNat_and, hmask, Nat.and_two_pow_sub_one_eq_mod, loadWordAt, toNat_loadGuestWord]
  omega

/-- A reversed word of the same type 0 and the same ordinal is the word itself. -/
theorem loadWordAt_eq_of_reversed
    (hrev : ∀ i < 4, m' (bounds.offset a + i) = m (bounds.offset a + (3 - i)))
    (htype : (rawAt bounds m a).type = 0) (htype' : (rawAt bounds m' a).type = 0)
    (hordinal : (rawAt bounds m a).ordinal = (rawAt bounds m' a).ordinal) :
    loadWordAt m' (bounds.offset a) = loadWordAt m (bounds.offset a) := by
  have h0 : m' (bounds.offset a) = m (bounds.offset a + 3) := hrev 0 (by omega)
  have h1 : m' (bounds.offset a + 1) = m (bounds.offset a + 2) := hrev 1 (by omega)
  have h2 : m' (bounds.offset a + 2) = m (bounds.offset a + 1) := hrev 2 (by omega)
  have h3 : m' (bounds.offset a + 3) = m (bounds.offset a) := hrev 3 (by omega)
  rw [← UInt32.toNat_inj, toNat_rawAt_type, UInt32.toNat_zero] at htype htype'
  rw [← UInt32.toNat_inj, toNat_rawAt_ordinal, toNat_rawAt_ordinal, h2, h3] at hordinal
  rw [h0] at htype'
  rw [← UInt32.toNat_inj, loadWordAt, loadWordAt, toNat_loadGuestWord, toNat_loadGuestWord, h0, h1,
    h2, h3]
  have hmiddle : (m (bounds.offset a + 1)).toNat = (m (bounds.offset a + 2)).toNat := by
    simp only [htype, htype', Nat.add_zero] at hordinal
    exact (Nat.eq_of_mul_eq_mul_right (Nat.two_pow_pos 8) hordinal).symm
  rw [htype, htype', hmiddle]

/-- A word inside a stub is of neither type. -/
theorem type_of_stub (hheld : (stubPatch bounds b).HeldBy m') {j : Nat} (hj : j < 4)
    (ha : bounds.offset a = bounds.offset b + 4 * j) :
    (rawAt bounds m' a).type ≠ 0 ∧ (rawAt bounds m' a).type ≠ 1 := by
  have hbyte : ∀ c, kFunctionStub[4 * j]? = some c → m' (bounds.offset a) = c := by
    intro c hc
    rw [ha]
    exact (Patch.heldBy_iff_getElem?.1 hheld) (4 * j) c hc
  have htype : (rawAt bounds m' a).type.toNat = (m' (bounds.offset a)).toNat := toNat_rawAt_type
  constructor
  all_goals
    intro h
    rw [h] at htype
    match j, hj with
    | 0, _ | 1, _ | 2, _ => rw [hbyte 0x60 rfl] at htype; cases htype
    | 3, _ => rw [hbyte 0x4e rfl] at htype; cases htype

end

/-- A rewrite that the original image asks for: of a variable record, or of a thunk. -/
inductive OriginalRewrite (bounds : ImageBounds) (m : Memory UInt8) : Patch UInt8 → Prop
  | record {a : GuestAddress} : ValidRecord bounds a → (rawAt bounds m a).type = 0 →
      OriginalRewrite bounds m (recordPatch bounds (rawAt bounds m a))
  | stub {a : GuestAddress} : ValidRecord bounds a → OriginalRewrite bounds m (stubPatch bounds a)

section

variable {bounds : ImageBounds} {names : List StringView} {m m' final : Memory UInt8}
  {lib : ImportLibrary} {libs all : List ImportLibrary} {written : List (Patch UInt8)}
  {imports reported : List XexImport}

/-- The records of entries read from `m`. -/
theorem exists_address {records : List GuestAddress} {raw : RawImport}
    (h : raw ∈ records.map (rawAt bounds m)) :
    ∃ a ∈ records, raw = rawAt bounds m a ∧ raw.address = a := by
  obtain ⟨a, ha, rfl⟩ := List.mem_map.1 h
  exact ⟨a, ha, rfl, rfl⟩

theorem originalRewrite_of_mem (hvalid : ∀ a ∈ lib.records, ValidRecord bounds a)
    (hpairs : Pairs (lib.records.map (rawAt bounds m)) (entriesOf bounds m lib)) :
    ∀ p ∈ rewritesOf bounds m lib, OriginalRewrite bounds m p := by
  intro p hp
  obtain ⟨e, he, hp⟩ := List.mem_flatMap.1 hp
  obtain ⟨a, ha, hrecord, -⟩ := exists_address (hpairs.record_mem he)
  have htype := hpairs.record_type he
  rw [hrecord] at htype
  cases e with
  | «variable» record =>
    cases List.mem_singleton.1 hp
    cases hrecord
    exact .record (hvalid a ha) htype
  | function record thunk =>
    rcases List.mem_cons.1 hp with rfl | hp
    · cases hrecord
      exact .record (hvalid a ha) htype
    · cases List.mem_singleton.1 hp
      obtain ⟨b, hb, -, rfl⟩ := exists_address (hpairs.thunk_mem he)
      exact .stub (hvalid _ hb)

/-- After original rewrites that are still held at the end, a record that reads with a type, and
with the type and ordinal of its original word, reads its original word. -/
theorem reads_original_word {a : GuestAddress} (hheld : ∀ p ∈ written, p.HeldBy final)
    (horiginal : ∀ p ∈ written, OriginalRewrite bounds m p) (ha : ValidRecord bounds a)
    (htype : (rawAt bounds (writeAll written m) a).type = 0 ∨
      (rawAt bounds (writeAll written m) a).type = 1)
    (hzero : (rawAt bounds (writeAll written m) a).type = 0 →
      (rawAt bounds m a).ordinal = (rawAt bounds (writeAll written m) a).ordinal)
    (hone : (rawAt bounds (writeAll written m) a).type = 1 → (rawAt bounds m a).type = 1) :
    loadWordAt (writeAll written m) (bounds.offset a) = loadWordAt m (bounds.offset a) := by
  have hbase := ha.holds.1
  have haligned := ha.aligned
  have hoffset : bounds.offset a = a.toNat - bounds.base.toNat := rfl
  have hnow := (held_writeAll_iff written m).2
    (List.pairwise_of_forall_mem_list fun p hp q hq => (hheld p hp).agrees (hheld q hq))
  by_cases hcover : ∃ p ∈ written, ∃ x, p.Covers x ∧ bounds.offset a ≤ x ∧ x < bounds.offset a + 4
  · obtain ⟨p, hp, x, hx, hlow, hhigh⟩ := hcover
    cases horiginal p hp with
    | @record b hb hbtype =>
      -- aligned words that meet are the same word
      have hbo : bounds.offset b = b.toNat - bounds.base.toNat := rfl
      have hx : bounds.offset b ≤ x ∧ x < bounds.offset b + 4 := hx
      have hbb := hb.holds.1
      have hba := hb.aligned
      have hab : a = b := UInt32.toNat_inj.1 (by omega)
      subst hab
      rcases htype with htype | htype
      · exact loadWordAt_eq_of_reversed (recordPatch_heldBy_iff.1 (hnow _ hp)) hbtype htype
          (hzero htype)
      · rw [hone htype] at hbtype
        cases hbtype
    | @stub b hb =>
      have hbo : bounds.offset b = b.toNat - bounds.base.toNat := rfl
      have hx : bounds.offset b ≤ x ∧ x < bounds.offset b + 16 := hx
      have hbb := hb.holds.1
      have hba := hb.aligned
      have hnone := type_of_stub (a := a) (hnow _ hp)
        (show (bounds.offset a - bounds.offset b) / 4 < 4 by omega) (by omega)
      rcases htype with htype | htype
      · exact (hnone.1 htype).elim
      · exact (hnone.2 htype).elim
  · refine loadWordAt_congr fun x hlow hhigh => writeAll_frame fun p hp hx => ?_
    exact hcover ⟨p, hp, x, hx, hlow, hhigh⟩

/-- The rewrites of entries that a normalized result reports stand in it. -/
theorem rewrites_heldBy {library : StringView} {records : List GuestAddress}
    {entries : List ImportEntry} (hpairs : Pairs (records.map (rawAt bounds m)) entries)
    (hnormal : ImportsNormalized bounds all m final reported)
    (hentry : ∀ e ∈ entries, e.toImport library ∈ reported) :
    ∀ p ∈ entries.flatMap (·.rewrites bounds), p.HeldBy final := by
  intro p hp
  obtain ⟨e, he, hp⟩ := List.mem_flatMap.1 hp
  obtain ⟨a, -, hrecord, haddress⟩ := exists_address (hpairs.record_mem he)
  have hword : (recordPatch bounds e.record).HeldBy final := by
    rw [hrecord, recordPatch_heldBy_iff, ← haddress,
      ← ImportEntry.toImport_recordAddress library]
    exact hnormal.records _ (hentry e he)
  cases e with
  | «variable» record =>
    cases List.mem_singleton.1 hp
    exact hword
  | function record thunk =>
    rcases List.mem_cons.1 hp with rfl | hp
    · exact hword
    · cases List.mem_singleton.1 hp
      exact Patch.heldBy_iff_getElem?.2 (hnormal.stubs _ (hentry _ he) rfl)

/-- A walk whose result is normalized read original words, and its original rewrites stand. -/
theorem Normalizes.separate (written : List (Patch UInt8))
    (h : Normalizes bounds names (writeAll written m) libs imports m')
    (hvalid : ∀ lib ∈ libs, ∀ a ∈ lib.records, ValidRecord bounds a)
    (hnormal : ImportsNormalized bounds all m final reported)
    (hreported : ∀ imp ∈ imports, imp ∈ reported)
    (hheld : ∀ p ∈ written, p.HeldBy final)
    (horiginal : ∀ p ∈ written, OriginalRewrite bounds m p) :
    ReadsOriginal bounds m written libs ∧
      ∀ p ∈ libs.flatMap (rewritesOf bounds m), p.HeldBy final := by
  induction libs generalizing written imports with
  | nil => exact ⟨trivial, fun p hp => nomatch hp⟩
  | cons lib libs ih =>
    rw [List.forall_mem_cons] at hvalid
    cases h with
    | @cons _ library _ entries imports _ _ hname hpairs hstubs hrun =>
      have hentry : ∀ e ∈ entries, e.toImport library ∈ reported := fun e he =>
        hreported _ (List.mem_append_left _ (List.mem_map_of_mem he))
      have hwords : ∀ a ∈ lib.records, loadWordAt (writeAll written m) (bounds.offset a) =
          loadWordAt m (bounds.offset a) := by
        intro a ha
        have hmem := List.mem_map_of_mem (f := rawAt bounds (writeAll written m)) ha
        obtain ⟨e, he, hused⟩ := hpairs.exists_entry hmem
        obtain ⟨_, _, -, hordinal, hkind⟩ := hnormal.encoded _ (hentry e he)
        rw [hpairs.toImport_ordinal he, ImportEntry.toImport_recordAddress] at hordinal
        refine reads_original_word hheld horiginal (hvalid.1 a ha) (hpairs.type_of_mem _ hmem)
          (fun hzero => ?_) fun hone => ?_
        · rcases hused with hused | ⟨record, rfl⟩
          · rwa [← hused] at hordinal
          · rw [(hpairs.function_suffix he).2.1] at hzero
            cases hzero
        · rcases hused with hused | ⟨record, rfl⟩
          · rw [hused, hpairs.record_type he] at hone
            cases hone
          · exact hkind.1
      rw [map_rawAt_congr hwords] at hpairs
      have hentries := entriesOf_eq hpairs
      have hrewrites : entries.flatMap (·.rewrites bounds) = rewritesOf bounds m lib := by
        rw [rewritesOf, hentries]
      have hone : ∀ p ∈ rewritesOf bounds m lib, p.HeldBy final := by
        rw [← hrewrites]
        exact rewrites_heldBy hpairs hnormal hentry
      rw [hrewrites, ← writeAll_append] at hrun
      obtain ⟨hrest, hall⟩ := ih _ hrun hvalid.2
        (fun imp himp => hreported imp (List.mem_append_right _ himp))
        (fun p hp => (List.mem_append.1 hp).elim (hheld p) (hone p))
        (fun p hp => (List.mem_append.1 hp).elim (horiginal p)
          (originalRewrite_of_mem hvalid.1 (hentries.symm ▸ hpairs) p))
      refine ⟨⟨hwords, hrest⟩, fun p hp => ?_⟩
      rw [List.flatMap_cons] at hp
      exact (List.mem_append.1 hp).elim (hone p) (hall p)

/-- An import of the original image is that of one of its entries. -/
theorem exists_entry_of_original {imp : XexImport}
    (h : imp ∈ originalImports bounds names m libs) : ∃ lib ∈ libs, ∃ e ∈ entriesOf bounds m lib,
      imp = e.toImport (names.getD lib.nameIndex []) := by
  obtain ⟨lib, hlib, himp⟩ := List.mem_flatMap.1 h
  obtain ⟨e, he, rfl⟩ := List.mem_map.1 himp
  exact ⟨lib, hlib, e, he, rfl⟩

theorem encodedBy_toImport {e : ImportEntry} (he : e ∈ entriesOf bounds m lib)
    (hpairs : Pairs (lib.records.map (rawAt bounds m)) (entriesOf bounds m lib))
    (library : StringView) : EncodedBy bounds m lib (e.toImport library) := by
  obtain ⟨a, -, hrecord, haddress⟩ := exists_address (hpairs.record_mem he)
  have htype := hpairs.record_type he
  unfold EncodedBy
  rw [ImportEntry.toImport_recordAddress, hpairs.toImport_ordinal he, haddress, ← hrecord]
  refine ⟨htype, rfl, ?_⟩
  cases e with
  | «variable» record =>
    obtain ⟨-, after, hsuffix, hnext⟩ := hpairs.variable_suffix he
    have haddresses := hsuffix.map RawImport.address
    rw [map_address_rawAt, List.map_cons] at haddresses
    refine ⟨haddress, after.map RawImport.address, haddress ▸ haddresses, fun next hmem => ?_⟩
    rw [List.head?_map, Option.mem_def, Option.map_eq_some_iff] at hmem
    obtain ⟨raw, hraw, rfl⟩ := hmem
    have hin := hsuffix.subset (List.mem_cons_of_mem _ (List.mem_of_mem_head? hraw))
    obtain ⟨b, -, hb, rfl⟩ := exists_address hin
    rw [← hb]
    exact hnext raw hraw
  | function record thunk =>
    obtain ⟨-, hthunk, hordinal, after, hsuffix⟩ := hpairs.function_suffix he
    have haddresses := hsuffix.map RawImport.address
    rw [map_address_rawAt, List.map_cons, List.map_cons] at haddresses
    obtain ⟨b, -, hb, rfl⟩ := exists_address (hpairs.thunk_mem he)
    refine ⟨?_, ?_, after.map RawImport.address, haddress ▸ haddresses⟩
    · exact (congrArg RawImport.type hb.symm).trans hthunk
    · exact (congrArg RawImport.ordinal hb.symm).trans hordinal

/-- A walk over separate rewrites normalizes the image. -/
theorem SeparateRewrites.normalized (h : SeparateRewrites bounds m libs)
    (hrun : Normalizes bounds names m libs imports m') :
    ImportsNormalized bounds libs m m' imports := by
  obtain ⟨hm, rfl, hpairs⟩ := Normalizes.original [] hrun h.reads
  rw [List.nil_append] at hm
  have hheld := (held_writeAll_iff _ m).2 h.agree
  rw [← hm] at hheld
  have hrewrite : ∀ lib ∈ libs, ∀ e ∈ entriesOf bounds m lib, ∀ p ∈ e.rewrites bounds,
      p.HeldBy m' := fun lib hlib e he p hp =>
    hheld p (List.mem_flatMap.2 ⟨lib, hlib, List.mem_flatMap.2 ⟨e, he, hp⟩⟩)
  refine ⟨?_, ?_, ?_, ?_⟩
  · intro imp himp
    obtain ⟨lib, hlib, e, he, rfl⟩ := exists_entry_of_original himp
    exact ⟨lib, hlib, encodedBy_toImport he (hpairs lib hlib) _⟩
  · intro imp himp
    obtain ⟨lib, hlib, e, he, rfl⟩ := exists_entry_of_original himp
    obtain ⟨a, -, hrecord, haddress⟩ := exists_address ((hpairs lib hlib).record_mem he)
    rw [ImportEntry.toImport_recordAddress, haddress, ← recordPatch_heldBy_iff, ← hrecord]
    refine hrewrite lib hlib e he _ ?_
    cases e with
    | «variable» record => exact List.mem_cons_self
    | function record thunk => exact List.mem_cons_self
  · intro imp himp hkind
    obtain ⟨lib, hlib, e, he, rfl⟩ := exists_entry_of_original himp
    cases e with
    | «variable» record => cases hkind
    | function record thunk =>
      exact Patch.heldBy_iff_getElem?.1
        (hrewrite lib hlib _ he _ (List.mem_cons_of_mem _ List.mem_cons_self))
  · intro x hx
    rw [hm]
    refine writeAll_frame fun p hp hcovers => ?_
    obtain ⟨lib, hlib, hp⟩ := List.mem_flatMap.1 hp
    obtain ⟨e, he, hp⟩ := List.mem_flatMap.1 hp
    refine hx (e.toImport (names.getD lib.nameIndex [])) (List.mem_flatMap.2
      ⟨lib, hlib, List.mem_map_of_mem he⟩) ?_
    cases e with
    | «variable» record =>
      cases List.mem_singleton.1 hp
      exact .inl hcovers
    | function record thunk =>
      rcases List.mem_cons.1 hp with rfl | hp
      · exact .inl hcovers
      · cases List.mem_singleton.1 hp
        exact .inr ⟨rfl, hcovers⟩

/-- **Normalization.** A walk over valid records normalizes the image exactly when the rewrites
of the original image are separate. -/
theorem Normalizes.normalized_iff (hrun : Normalizes bounds names m libs imports m')
    (hvalid : ∀ lib ∈ libs, ∀ a ∈ lib.records, ValidRecord bounds a) :
    ImportsNormalized bounds libs m m' imports ↔ SeparateRewrites bounds m libs := by
  constructor
  · intro hnormal
    obtain ⟨hreads, hheld⟩ := Normalizes.separate [] hrun hvalid hnormal
      (fun imp himp => himp) (fun p hp => nomatch hp) (fun p hp => nomatch hp)
    exact ⟨List.pairwise_of_forall_mem_list fun p hp q hq => (hheld p hp).agrees (hheld q hq),
      hreads⟩
  · exact fun h => h.normalized hrun

/-- Over an image that suits a descriptor the rewrites are separate. -/
theorem ImportDescriptor.SuitedBy.separate {d : ImportDescriptor} (h : d.SuitedBy bounds m) :
    SeparateRewrites bounds m d.importLibraries :=
  ⟨h.apart.imp Patch.agrees_of_disjoint, h.reads⟩

end

/-- **Imports of an accepted file.** When the walk over the descriptor succeeds, the image it
leaves is normalized exactly when the rewrites the loaded image asks for are separate. -/
theorem parseImports_normalizes_iff {xex image : List UInt8} {header : HeaderGeometry}
    {securityOffset : Nat} {base : GuestAddress} {s : ImportParse}
    (haccepted : validateHeader xex = .ok (header, securityOffset))
    (hparse : parseImports (xex.take header.size) image ⟨header, ⟨base, image.length⟩⟩ =
      (s, none)) :
    ImportsNormalized ⟨base, image.length⟩ (importLibraries (xex.take header.size) header)
        (contents image) (contents s.image) s.imports ↔
      SeparateRewrites ⟨base, image.length⟩ (contents image)
        (importLibraries (xex.take header.size) header) := by
  have hended :=
    parseImports_ended ⟨header, ⟨base, image.length⟩⟩ (length_take_header haccepted) rfl
  obtain ⟨table, -, hnormal, -⟩ := hended.of_done hparse
  obtain ⟨imports, himports, hrun⟩ := hnormal.run
  rw [himports]
  exact hrun.normalized_iff hnormal.fit.valid

section Files

/-- Two libraries that list one record. -/
def doubledDescriptor : ImportDescriptor where
  names := [[0x61], [0x62]]
  libraries := [plainLibrary 0 [0x82000000] (by decide), plainLibrary 1 [0x82000000] (by decide)]
  nonempty := by decide
  texts := by simp
  library_each := rfl
  named := by decide
  size_fits := by decide

/-- The record word has ordinal 0x200, and reversed it has ordinal 0x100. -/
def doubledImage : List UInt8 := [0, 1, 2, 0]

theorem doubledFile_accepted :
    validateHeader (fileWithImports doubledDescriptor) = .ok (⟨0x22c, 2⟩, 0x3c) := by
  decide +kernel

theorem parseImports_normalizes_doubled : ¬ ∀ xex image header securityOffset base s,
    validateHeader xex = .ok (header, securityOffset) →
    UInt32.toNat base + image.length ≤ 2 ^ 32 →
    parseImports (xex.take header.size) image ⟨header, ⟨base, image.length⟩⟩ = (s, none) →
    ImportsNormalized ⟨base, image.length⟩ (importLibraries (xex.take header.size) header)
      (contents image) (contents s.image) s.imports := by
  intro h
  have hnormal := h (fileWithImports doubledDescriptor) doubledImage ⟨0x22c, 2⟩ 0x3c 0x82000000 _
    doubledFile_accepted (by decide) (eq_of_snd_eq_none (by decide +kernel))
  have hword := hnormal.records
    ⟨ImportKind.variable, [0x61], 0x200, ordinalName 0x200, 0x82000000, 0x82000000⟩
    (by decide +kernel) 1 (by decide)
  revert hword
  decide +kernel

theorem parseImports_normalizes_pair : ∃ s,
    parseImports ((fileWithImports pairDescriptor).take 0x234) pairImage
        ⟨⟨0x234, 2⟩, ⟨0x82000000, pairImage.length⟩⟩ = (s, none) ∧
      ImportsNormalized pairBounds
        (importLibraries ((fileWithImports pairDescriptor).take 0x234) ⟨0x234, 2⟩)
        (contents pairImage) (contents s.image) s.imports := by
  have hparse := eq_of_snd_eq_none (r := parseImports
    ((fileWithImports pairDescriptor).take 0x234) pairImage
    ⟨⟨0x234, 2⟩, ⟨0x82000000, pairImage.length⟩⟩) (by decide +kernel)
  have hlibraries : importLibraries ((fileWithImports pairDescriptor).take 0x234) ⟨0x234, 2⟩ =
      pairDescriptor.importLibraries := by decide +kernel
  refine ⟨_, hparse, (parseImports_normalizes_iff pairFile_accepted hparse).2 ?_⟩
  rw [hlibraries]
  exact pairDescriptor_suited.separate

end Files

end X360Port
