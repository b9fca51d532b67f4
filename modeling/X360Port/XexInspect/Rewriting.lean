import X360Port.XexInspect.Imports

/-!
# The rewrites of one library

Over an image memory the records of a library are paired into variable and
function imports (`pairImports`, and `Pairs` as a rule). Each import asks for
rewrites: its record word in little-endian order, and for a function the stub
at its thunk.

`normalizeImports_ended` connects this to the code. The walk over the records
of a library makes exactly these rewrites, or it refuses because the records do
not pair or a stub leaves the image, and then the image is the old one with
rewrites that the records vouch for (`VouchedBy`).
-/

namespace X360Port

open Library

/-! ## Pairing -/

/-- One import as its records give it. -/
inductive ImportEntry where
  | «variable» (record : RawImport)
  | function (record thunk : RawImport)
  deriving DecidableEq, Repr

/-- The variable records of a library, each with the thunk behind it if there is one. -/
def pairImports : List RawImport → Option (List ImportEntry)
  | [] => some []
  | record :: rest =>
    if record.type ≠ 0 then none
    else
      match rest with
      | [] => some [ImportEntry.variable record]
      | thunk :: others =>
        if thunk.type = 1 then
          if thunk.ordinal ≠ record.ordinal then none
          else (pairImports others).map (ImportEntry.function record thunk :: ·)
        else (pairImports (thunk :: others)).map (ImportEntry.variable record :: ·)

namespace ImportEntry

def record : ImportEntry → RawImport
  | ImportEntry.variable record => record
  | .function record _ => record

/-- The import that is reported for an entry. -/
def toImport (library : StringView) : ImportEntry → XexImport
  | ImportEntry.variable record => variableImport library record
  | .function record thunk => functionImport library record thunk

@[simp] theorem toImport_recordAddress (library : StringView) (e : ImportEntry) :
    (e.toImport library).recordAddress = e.record.address := by
  cases e <;> rfl

end ImportEntry

/-- The rule of pairing: nothing, a variable, or a record with its thunk, and the rest. -/
inductive Pairs : List RawImport → List ImportEntry → Prop
  | nil : Pairs [] []
  | «variable» {record : RawImport} {rest : List RawImport} {entries : List ImportEntry} :
      record.type = 0 → (∀ next ∈ rest.head?, next.type ≠ 1) → Pairs rest entries →
      Pairs (record :: rest) (ImportEntry.variable record :: entries)
  | function {record thunk : RawImport} {rest : List RawImport} {entries : List ImportEntry} :
      record.type = 0 → thunk.type = 1 → thunk.ordinal = record.ordinal → Pairs rest entries →
      Pairs (record :: thunk :: rest) (.function record thunk :: entries)

theorem pairs_of_pairImports {raws : List RawImport} {entries : List ImportEntry}
    (h : pairImports raws = some entries) : Pairs raws entries := by
  induction raws using pairImports.induct generalizing entries with
  | case1 => cases h; exact .nil
  | case2 record rest hrecord =>
    rw [pairImports.eq_def] at h
    simp only [if_pos hrecord] at h
    cases h
  | case3 record hrecord =>
    rw [pairImports, if_neg hrecord] at h
    cases h
    exact .variable (not_not.1 hrecord) (fun _ h => nomatch h) .nil
  | case4 record hrecord thunk others hthunk hordinal =>
    rw [pairImports, if_neg hrecord] at h
    simp only [if_pos hthunk, if_pos hordinal] at h
    cases h
  | case5 record hrecord thunk others hthunk hordinal ih =>
    rw [pairImports, if_neg hrecord] at h
    simp only [if_pos hthunk, if_neg hordinal, Option.map_eq_some_iff] at h
    obtain ⟨entries, he, rfl⟩ := h
    exact .function (not_not.1 hrecord) hthunk (not_not.1 hordinal) (ih he)
  | case6 record hrecord thunk others hthunk ih =>
    rw [pairImports, if_neg hrecord] at h
    simp only [if_neg hthunk, Option.map_eq_some_iff] at h
    obtain ⟨entries, he, rfl⟩ := h
    exact .variable (not_not.1 hrecord) (fun next hn => by cases hn; exact hthunk) (ih he)

theorem pairImports_of_pairs {raws : List RawImport} {entries : List ImportEntry}
    (h : Pairs raws entries) : pairImports raws = some entries := by
  induction h with
  | nil => rfl
  | @«variable» record rest entries hrecord hnext _ ih =>
    cases rest with
    | nil =>
      cases Option.some.inj ih
      simp [pairImports, hrecord]
    | cons next others =>
      have hnext : next.type ≠ 1 := hnext next rfl
      simp only [pairImports, hrecord, ne_eq, not_true_eq_false, if_false, if_neg hnext, ih,
        Option.map_some]
  | @function record thunk rest entries hrecord hthunk hordinal _ ih =>
    simp only [pairImports, hrecord, hthunk, hordinal, ne_eq, not_true_eq_false, if_false, if_true,
      ih, Option.map_some]

namespace Pairs

variable {raws : List RawImport} {entries : List ImportEntry}

/-- Every record that pairs is of type 0 or 1. -/
theorem type_of_mem (h : Pairs raws entries) : ∀ r ∈ raws, r.type = 0 ∨ r.type = 1 := by
  induction h with
  | nil => exact fun r hr => nomatch hr
  | «variable» hrecord _ _ ih =>
    intro r hr
    rcases List.mem_cons.1 hr with rfl | hr
    · exact .inl hrecord
    · exact ih r hr
  | function hrecord hthunk _ _ ih =>
    intro r hr
    rcases List.mem_cons.1 hr with rfl | hr
    · exact .inl hrecord
    rcases List.mem_cons.1 hr with rfl | hr
    · exact .inr hthunk
    · exact ih r hr

/-- Every record is used, as a record or as a thunk. -/
theorem exists_entry (h : Pairs raws entries) {r : RawImport} (hr : r ∈ raws) :
    ∃ e ∈ entries, r = e.record ∨ ∃ record, e = .function record r := by
  induction h with
  | nil => cases hr
  | «variable» _ _ _ ih =>
    rcases List.mem_cons.1 hr with rfl | hr
    · exact ⟨_, List.mem_cons_self, .inl rfl⟩
    · obtain ⟨e, he, hre⟩ := ih hr
      exact ⟨e, List.mem_cons_of_mem _ he, hre⟩
  | function _ _ _ _ ih =>
    rcases List.mem_cons.1 hr with rfl | hr
    · exact ⟨_, List.mem_cons_self, .inl rfl⟩
    rcases List.mem_cons.1 hr with rfl | hr
    · exact ⟨_, List.mem_cons_self, .inr ⟨_, rfl⟩⟩
    · obtain ⟨e, he, hre⟩ := ih hr
      exact ⟨e, List.mem_cons_of_mem _ he, hre⟩

/-- A variable entry stands in the list, before a record that is no thunk. -/
theorem variable_suffix (h : Pairs raws entries) {record : RawImport}
    (he : ImportEntry.variable record ∈ entries) :
    record.type = 0 ∧ ∃ after, record :: after <:+ raws ∧ ∀ next ∈ after.head?, next.type ≠ 1 := by
  induction h with
  | nil => cases he
  | @«variable» first rest entries hrecord hnext _ ih =>
    rcases List.mem_cons.1 he with he | he
    · cases he
      exact ⟨hrecord, rest, List.suffix_refl _, hnext⟩
    · obtain ⟨htype, after, hsuffix, hhead⟩ := ih he
      exact ⟨htype, after, hsuffix.trans (List.suffix_cons _ _), hhead⟩
  | function _ _ _ _ ih =>
    rcases List.mem_cons.1 he with he | he
    · cases he
    · obtain ⟨htype, after, hsuffix, hhead⟩ := ih he
      exact ⟨htype, after,
        hsuffix.trans ((List.suffix_cons _ _).trans (List.suffix_cons _ _)), hhead⟩

/-- A function entry is two neighbours of the list. -/
theorem function_suffix (h : Pairs raws entries) {record thunk : RawImport}
    (he : .function record thunk ∈ entries) : record.type = 0 ∧ thunk.type = 1 ∧
      thunk.ordinal = record.ordinal ∧ ∃ after, record :: thunk :: after <:+ raws := by
  induction h with
  | nil => cases he
  | «variable» _ _ _ ih =>
    rcases List.mem_cons.1 he with he | he
    · cases he
    · obtain ⟨hr, ht, ho, after, hsuffix⟩ := ih he
      exact ⟨hr, ht, ho, after, hsuffix.trans (List.suffix_cons _ _)⟩
  | @function first second rest entries hrecord hthunk hordinal _ ih =>
    rcases List.mem_cons.1 he with he | he
    · cases he
      exact ⟨hrecord, hthunk, hordinal, rest, List.suffix_refl _⟩
    · obtain ⟨hr, ht, ho, after, hsuffix⟩ := ih he
      exact ⟨hr, ht, ho, after,
        hsuffix.trans ((List.suffix_cons _ _).trans (List.suffix_cons _ _))⟩

theorem record_type (h : Pairs raws entries) {e : ImportEntry} (he : e ∈ entries) :
    e.record.type = 0 := by
  cases e with
  | «variable» record => exact (h.variable_suffix he).1
  | function record thunk => exact (h.function_suffix he).1

theorem record_mem (h : Pairs raws entries) {e : ImportEntry} (he : e ∈ entries) :
    e.record ∈ raws := by
  cases e with
  | «variable» record =>
    obtain ⟨-, after, hsuffix, -⟩ := h.variable_suffix he
    exact hsuffix.subset List.mem_cons_self
  | function record thunk =>
    obtain ⟨-, -, -, after, hsuffix⟩ := h.function_suffix he
    exact hsuffix.subset List.mem_cons_self

theorem thunk_mem (h : Pairs raws entries) {record thunk : RawImport}
    (he : .function record thunk ∈ entries) : thunk ∈ raws := by
  obtain ⟨-, -, -, after, hsuffix⟩ := h.function_suffix he
  exact hsuffix.subset (List.mem_cons_of_mem _ List.mem_cons_self)

/-- An import is reported under the ordinal of its record. -/
theorem toImport_ordinal (h : Pairs raws entries) {e : ImportEntry} (he : e ∈ entries)
    (library : StringView) : (e.toImport library).ordinal = e.record.ordinal := by
  cases e with
  | «variable» record => rfl
  | function record thunk => exact (h.function_suffix he).2.2.1

end Pairs

/-! ## Rewrites -/

/-- The place in the image of a guest address. -/
def ImageBounds.offset (bounds : ImageBounds) (address : GuestAddress) : Nat :=
  address.toNat - bounds.base.toNat

/-- `count` bytes from the address lie in the image. -/
def ImageBounds.Holds (bounds : ImageBounds) (address : GuestAddress) (count : Nat) : Prop :=
  bounds.base.toNat ≤ address.toNat ∧ bounds.offset address + count ≤ bounds.size

instance (bounds : ImageBounds) (address : GuestAddress) (count : Nat) :
    Decidable (bounds.Holds address count) := by
  unfold ImageBounds.Holds; infer_instance

/-- A record address the walk accepts. -/
structure ValidRecord (bounds : ImageBounds) (address : GuestAddress) : Prop where
  nonzero : address ≠ 0
  aligned : address.toNat % 4 = 0
  holds : bounds.Holds address 4

/-- The record word, written back in little-endian order. -/
def recordPatch (bounds : ImageBounds) (record : RawImport) : Patch UInt8 :=
  ⟨bounds.offset record.address, littleWordBytes record.value⟩

/-- The stub, written at a thunk. -/
def stubPatch (bounds : ImageBounds) (address : GuestAddress) : Patch UInt8 :=
  ⟨bounds.offset address, kFunctionStub⟩

/-- What an import asks to have rewritten, in order. -/
def ImportEntry.rewrites (bounds : ImageBounds) : ImportEntry → List (Patch UInt8)
  | ImportEntry.variable record => [recordPatch bounds record]
  | .function record thunk => [recordPatch bounds record, stubPatch bounds thunk.address]

/-- A function's stub lies in the image. -/
def ImportEntry.StubInImage (bounds : ImageBounds) : ImportEntry → Prop
  | ImportEntry.variable _ => True
  | .function _ thunk => bounds.Holds thunk.address 16

instance (bounds : ImageBounds) : (e : ImportEntry) → Decidable (e.StubInImage bounds)
  | ImportEntry.variable _ => .isTrue trivial
  | .function _ thunk => inferInstanceAs (Decidable (bounds.Holds thunk.address 16))

theorem ImageBounds.holds_iff {bounds : ImageBounds} {address : GuestAddress} {count : Nat} :
    bounds.Holds address count ↔ bounds.base.toNat ≤ address.toNat ∧
      address.toNat - bounds.base.toNat + count ≤ bounds.size := Iff.rfl

theorem inImage_eq (address : GuestAddress) (bounds : ImageBounds) (count : Nat) :
    inImage address bounds count = .ok (decide (bounds.Holds address count)) := by
  unfold inImage
  by_cases hbase : address < bounds.base
  · have hlt := UInt32.lt_iff_toNat_lt.1 hbase
    have hnot : ¬ bounds.Holds address count := fun h => by have := h.1; omega
    rw [if_pos hbase, decide_eq_false hnot]
    rfl
  · have hle : bounds.base.toNat ≤ address.toNat := by
      rw [UInt32.lt_iff_toNat_lt] at hbase
      omega
    rw [if_neg hbase, sub_eq hle, ok_bind]
    by_cases hsize : address.toNat - bounds.base.toNat ≤ bounds.size
    · rw [if_pos hsize, sub_eq hsize]
      refine congrArg Except.ok (decide_eq_decide.2 ?_)
      rw [ImageBounds.holds_iff]
      omega
    · have hnot : ¬ bounds.Holds address count := fun h => by
        rw [ImageBounds.holds_iff] at h
        omega
      rw [if_neg hsize, decide_eq_false hnot]
      rfl

/-- A rewritten image holds the patched memory. -/
def RewrittenBy (patches : List (Patch UInt8)) (image image' : List UInt8) : Prop :=
  image'.length = image.length ∧ contents image' = writeAll patches (contents image)

namespace RewrittenBy

variable {patches later : List (Patch UInt8)} {image image' image'' : List UInt8}

theorem refl (image : List UInt8) : RewrittenBy [] image image := ⟨rfl, rfl⟩

theorem trans (h : RewrittenBy patches image image') (h' : RewrittenBy later image' image'') :
    RewrittenBy (patches ++ later) image image'' :=
  ⟨h'.1.trans h.1, by rw [writeAll_append, ← h.2, h'.2]⟩

theorem overwritten {p : Patch UInt8} (h : p.base + p.cells.length ≤ image.length) :
    RewrittenBy [p] image (Library.overwritten image p.base p.cells) :=
  ⟨length_overwritten h, contents_overwritten h⟩

end RewrittenBy

/-- A rewrite the records of a library vouch for: of a record word, or of the stub behind a
record that agrees with its thunk. -/
inductive VouchedBy (bounds : ImageBounds) (raws : List RawImport) : Patch UInt8 → Prop
  | word {record : RawImport} : record ∈ raws → ValidRecord bounds record.address →
      record.type = 0 → VouchedBy bounds raws (recordPatch bounds record)
  | stub {record thunk : RawImport} {after : List RawImport} :
      record :: thunk :: after <:+ raws → record.type = 0 → thunk.type = 1 →
      thunk.ordinal = record.ordinal → bounds.Holds thunk.address 16 →
      VouchedBy bounds raws (stubPatch bounds thunk.address)

theorem VouchedBy.of_suffix {bounds : ImageBounds} {raws rest : List RawImport}
    {p : Patch UInt8} (h : VouchedBy bounds rest p) (hs : rest <:+ raws) :
    VouchedBy bounds raws p := by
  cases h with
  | word hmem hvalid htype => exact .word (hs.subset hmem) hvalid htype
  | stub hneighbours hrecord hthunk hordinal hholds =>
    exact .stub (hneighbours.trans hs) hrecord hthunk hordinal hholds

section Normalize

variable {bounds : ImageBounds} {image : List UInt8} {record thunk : RawImport}

theorem rewriteRecord_eq (hsize : image.length = bounds.size)
    (h : bounds.Holds record.address 4) : rewriteRecord bounds image record =
      .ok (overwritten image (recordPatch bounds record).base (recordPatch bounds record).cells) :=
    by
  have hend := h.2
  unfold rewriteRecord writeU32Le
  rw [sub_eq h.1, ok_bind]
  exact writeCells_eq (by show bounds.offset record.address + 4 ≤ _; omega)

/-- A thunk is rewritten exactly when it agrees with its record and its stub is in the image. -/
theorem rewriteThunk_cases (record thunk : RawImport) (hsize : image.length = bounds.size) :
    (thunk.ordinal = record.ordinal ∧ bounds.Holds thunk.address 16 ∧
      rewriteThunk bounds image record thunk = .ok (overwritten image
        (stubPatch bounds thunk.address).base (stubPatch bounds thunk.address).cells)) ∨
    (¬ (thunk.ordinal = record.ordinal ∧ bounds.Holds thunk.address 16) ∧
      ∃ error, rewriteThunk bounds image record thunk = .error (.refused error)) := by
  unfold rewriteThunk normalizeFunctionStub
  by_cases hordinal : thunk.ordinal = record.ordinal
  · rw [refuseIf_of_not (by simpa using hordinal), ok_bind, inImage_eq, ok_bind]
    by_cases hholds : bounds.Holds thunk.address 16
    · have hend := hholds.2
      refine .inl ⟨hordinal, hholds, ?_⟩
      rw [refuseIf_of_not (by simpa using hholds), ok_bind, sub_eq hholds.1, ok_bind]
      exact writeCells_eq (by show bounds.offset thunk.address + 16 ≤ _; omega)
    · rw [refuseIf, if_pos (by simpa using hholds)]
      exact .inr ⟨fun h => hholds h.2, _, rfl⟩
  · rw [refuseIf, if_pos hordinal]
    exact .inr ⟨fun h => hordinal h.1, _, rfl⟩

theorem rewrittenBy_record (hsize : image.length = bounds.size)
    (h : bounds.Holds record.address 4) : RewrittenBy [recordPatch bounds record] image
      (overwritten image (recordPatch bounds record).base (recordPatch bounds record).cells) := by
  have hend := h.2
  exact RewrittenBy.overwritten (by show bounds.offset record.address + 4 ≤ _; omega)

theorem rewrittenBy_stub (thunk : RawImport) (hsize : image.length = bounds.size)
    (h : bounds.Holds thunk.address 16) : RewrittenBy [stubPatch bounds thunk.address] image
      (overwritten image (stubPatch bounds thunk.address).base
        (stubPatch bounds thunk.address).cells) := by
  have hend := h.2
  exact RewrittenBy.overwritten (by show bounds.offset thunk.address + 16 ≤ _; omega)

/-- What the loop over one library's records leaves when it goes on. -/
structure LibraryNormalized (bounds : ImageBounds) (library : StringView)
    (raws : List RawImport) (s s' : ImportParse) (entries : List ImportEntry) : Prop where
  pairs : Pairs raws entries
  stubs : ∀ e ∈ entries, e.StubInImage bounds
  cursor : s'.cursor = s.cursor
  imports : s'.imports = s.imports ++ entries.map (·.toImport library)
  image : RewrittenBy (entries.flatMap (·.rewrites bounds)) s.image s'.image

/-- What it leaves when it refuses. -/
structure LibraryRefused (bounds : ImageBounds) (raws : List RawImport) (s s' : ImportParse)
    (stop : Stop String) : Prop where
  refusal : stop.IsRefusal
  fault : ∀ entries, Pairs raws entries → ∃ e ∈ entries, ¬ e.StubInImage bounds
  image : ∃ patches, RewrittenBy patches s.image s'.image ∧ ∀ p ∈ patches, VouchedBy bounds raws p

section

variable {library : StringView} {s s1 s' : ImportParse} {others rest : List RawImport}
  {entries : List ImportEntry} {stop : Stop String}

/-- A variable record, and the loop over the rest. -/
theorem LibraryNormalized.of_variable
    (h : LibraryNormalized bounds library (thunk :: others)
      ({ s with image }.push (variableImport library record)) s' entries)
    (hrecord : record.type = 0) (hthunk : thunk.type ≠ 1)
    (hword : RewrittenBy [recordPatch bounds record] s.image image) :
    LibraryNormalized bounds library (record :: thunk :: others) s s'
      (ImportEntry.variable record :: entries) where
  pairs := Pairs.variable hrecord (fun next hn => by cases hn; exact hthunk) h.pairs
  stubs := by
    rw [List.forall_mem_cons]
    exact ⟨trivial, h.stubs⟩
  cursor := h.cursor
  imports := by
    rw [h.imports, List.map_cons, ← List.singleton_append, ← List.append_assoc]
    rfl
  image := hword.trans h.image

/-- A function's record and thunk, and the loop over the rest. -/
theorem LibraryNormalized.of_function
    (h : LibraryNormalized bounds library others
      ({ s with image }.push (functionImport library record thunk)) s' entries)
    (hrecord : record.type = 0) (hthunk : thunk.type = 1)
    (hordinal : thunk.ordinal = record.ordinal) (hholds : bounds.Holds thunk.address 16)
    (hboth : RewrittenBy [recordPatch bounds record, stubPatch bounds thunk.address] s.image
      image) :
    LibraryNormalized bounds library (record :: thunk :: others) s s'
      (.function record thunk :: entries) where
  pairs := .function hrecord hthunk hordinal h.pairs
  stubs := by
    rw [List.forall_mem_cons]
    exact ⟨hholds, h.stubs⟩
  cursor := h.cursor
  imports := by
    rw [h.imports, List.map_cons, ← List.singleton_append, ← List.append_assoc]
    rfl
  image := hboth.trans h.image

/-- The loop refuses when only the record's word has been rewritten. -/
theorem LibraryRefused.of_word (hrec : ValidRecord bounds record.address)
    (hrecord : record.type = 0) (hword : RewrittenBy [recordPatch bounds record] s.image s'.image)
    (hstop : stop.IsRefusal)
    (hfault : ∀ entries, Pairs (record :: rest) entries → ∃ e ∈ entries, ¬ e.StubInImage bounds) :
    LibraryRefused bounds (record :: rest) s s' stop where
  refusal := hstop
  fault := hfault
  image := by
    refine ⟨_, hword, fun p hp => ?_⟩
    cases List.mem_singleton.1 hp
    exact .word List.mem_cons_self hrec hrecord

/-- It refuses behind a variable record. -/
theorem LibraryRefused.of_variable (h : LibraryRefused bounds (thunk :: others) s1 s' stop)
    (hrec : ValidRecord bounds record.address) (hrecord : record.type = 0)
    (hthunk : thunk.type ≠ 1)
    (hword : RewrittenBy [recordPatch bounds record] s.image s1.image) :
    LibraryRefused bounds (record :: thunk :: others) s s' stop := by
  obtain ⟨patches, hrewritten, hvouched⟩ := h.image
  refine ⟨h.refusal, fun entries hpairs => ?_, _, hword.trans hrewritten, fun p hp => ?_⟩
  · cases hpairs with
    | «variable» _ _ hrest =>
      obtain ⟨e, he, hfault⟩ := h.fault _ hrest
      exact ⟨e, List.mem_cons_of_mem _ he, hfault⟩
    | function _ h _ _ => exact (hthunk h).elim
  · rcases List.mem_append.1 hp with hp | hp
    · cases List.mem_singleton.1 hp
      exact .word List.mem_cons_self hrec hrecord
    · exact (hvouched p hp).of_suffix (List.suffix_cons _ _)

/-- It refuses behind a function. -/
theorem LibraryRefused.of_function (h : LibraryRefused bounds others s1 s' stop)
    (hrec : ValidRecord bounds record.address) (hrecord : record.type = 0)
    (hthunk : thunk.type = 1) (hordinal : thunk.ordinal = record.ordinal)
    (hholds : bounds.Holds thunk.address 16)
    (hboth : RewrittenBy [recordPatch bounds record, stubPatch bounds thunk.address] s.image
      s1.image) :
    LibraryRefused bounds (record :: thunk :: others) s s' stop := by
  obtain ⟨patches, hrewritten, hvouched⟩ := h.image
  refine ⟨h.refusal, fun entries hpairs => ?_, _, hboth.trans hrewritten, fun p hp => ?_⟩
  · cases hpairs with
    | «variable» _ hnext _ => exact (hnext thunk rfl hthunk).elim
    | function _ _ _ hrest =>
      obtain ⟨e, he, hfault⟩ := h.fault _ hrest
      exact ⟨e, List.mem_cons_of_mem _ he, hfault⟩
  · rcases List.mem_append.1 hp with hp | hp
    · rcases List.mem_cons.1 hp with rfl | hp
      · exact .word List.mem_cons_self hrec hrecord
      · cases List.mem_singleton.1 hp
        exact .stub (List.suffix_refl _) hrecord hthunk hordinal hholds
    · exact (hvouched p hp).of_suffix ((List.suffix_cons _ _).trans (List.suffix_cons _ _))

end

/-- **One library.** Its records pair and every stub fits, and then exactly their rewrites are
made; or the loop refuses, after rewrites the records vouch for. -/
theorem normalizeImports_ended (library : StringView) (raws : List RawImport) (s : ImportParse)
    (hsize : s.image.length = bounds.size) (hvalid : ∀ r ∈ raws, ValidRecord bounds r.address) :
    Ended (fun s' => ∃ entries, LibraryNormalized bounds library raws s s' entries)
      (LibraryRefused bounds raws s) (normalizeImports bounds library raws s) := by
  induction raws using pairImports.induct generalizing s with
  | case1 =>
    exact ⟨[], .nil, (fun e he => nomatch he), rfl, (List.append_nil _).symm, RewrittenBy.refl _⟩
  | case2 record rest hrecord =>
    rw [normalizeImports.eq_def]
    simp only [if_pos hrecord]
    refine ⟨trivial, fun entries hpairs => ?_, [], RewrittenBy.refl _, fun p hp => nomatch hp⟩
    cases hpairs with
    | «variable» h _ _ => exact (hrecord h).elim
    | function h _ _ _ => exact (hrecord h).elim
  | case3 record hrecord =>
    have hholds := (hvalid record List.mem_cons_self).holds
    rw [normalizeImports.eq_def]
    simp only [if_neg hrecord, rewriteRecord_eq hsize hholds]
    refine ⟨[ImportEntry.variable record],
      Pairs.variable (not_not.1 hrecord) (fun _ h => nomatch h) .nil, ?_, rfl, rfl, ?_⟩
    · rintro e he
      cases List.mem_singleton.1 he
      exact trivial
    · exact rewrittenBy_record hsize hholds
  | case4 record hrecord thunk others hthunk hordinal =>
    have hrec := hvalid record List.mem_cons_self
    have hword := rewrittenBy_record hsize hrec.holds
    rw [normalizeImports.eq_def]
    simp only [if_neg hrecord, rewriteRecord_eq hsize hrec.holds, if_pos hthunk]
    rcases rewriteThunk_cases record thunk (hword.1.trans hsize) with
      ⟨heq, -⟩ | ⟨-, error, hthunk'⟩
    · exact (hordinal heq).elim
    simp only [hthunk']
    refine .of_word hrec (not_not.1 hrecord) hword trivial fun entries hpairs => ?_
    cases hpairs with
    | «variable» _ hnext _ => exact (hnext thunk rfl hthunk).elim
    | function _ _ h _ => exact (hordinal h).elim
  | case5 record hrecord thunk others hthunk hordinal ih =>
    have hrec := hvalid record List.mem_cons_self
    have hword := rewrittenBy_record hsize hrec.holds
    rw [normalizeImports.eq_def]
    simp only [if_neg hrecord, rewriteRecord_eq hsize hrec.holds, if_pos hthunk]
    have hrecord := not_not.1 hrecord
    have hordinal := not_not.1 hordinal
    rcases rewriteThunk_cases record thunk (hword.1.trans hsize) with
      ⟨-, hholds, hthunk'⟩ | ⟨hnot, error, hthunk'⟩
    · simp only [hthunk']
      have hboth := hword.trans (rewrittenBy_stub thunk (hword.1.trans hsize) hholds)
      refine (ih _ (hboth.1.trans hsize) fun r hr =>
        hvalid r (List.mem_cons_of_mem _ (List.mem_cons_of_mem _ hr))).mono ?_ ?_
      · rintro s' ⟨entries, h⟩
        exact ⟨_, h.of_function hrecord hthunk hordinal hholds hboth⟩
      · rintro s' stop h
        exact h.of_function hrec hrecord hthunk hordinal hholds hboth
    · simp only [hthunk']
      refine .of_word hrec hrecord hword trivial fun entries hpairs => ?_
      cases hpairs with
      | «variable» _ hnext _ => exact (hnext thunk rfl hthunk).elim
      | function _ _ _ _ =>
        exact ⟨_, List.mem_cons_self, fun hstub => hnot ⟨hordinal, hstub⟩⟩
  | case6 record hrecord thunk others hthunk ih =>
    have hrec := hvalid record List.mem_cons_self
    have hword := rewrittenBy_record hsize hrec.holds
    rw [normalizeImports.eq_def]
    simp only [if_neg hrecord, rewriteRecord_eq hsize hrec.holds, if_neg hthunk]
    have hrecord := not_not.1 hrecord
    refine (ih _ (hword.1.trans hsize) fun r hr =>
      hvalid r (List.mem_cons_of_mem _ hr)).mono ?_ ?_
    · rintro s' ⟨entries, h⟩
      exact ⟨_, h.of_variable hrecord hthunk hword⟩
    · rintro s' stop h
      exact h.of_variable hrec hrecord hthunk hword

end Normalize

end X360Port
