import X360Port.ExecutableInvalidation.Notified
import X360Port.Library.Memory
import X360Port.Library.Rebuilding

/-!
# Translations of code that changes

The guest thread's side of the watch: the code bytes, and the translations
made of them. A store into the code range is passed to the watch before it
happens, unless an earlier store has set off the watch there and it was not
enabled again since (`fired`). `NotifyExecutableWrite` reports the writes that
the watch does not see. A guest entry drains the watch before it looks for a
translation.

`Tracked` in `CacheInv` says that the pending word covers every changed byte
of a cached translation. An entry that is let through finds no changed byte in
any translation.
-/

namespace X360Port

open Library

/-- A cached translation, and the memory it was made of. -/
structure Translation where
  function : CachedFunction
  source : Memory UInt8

/-- The code bytes, the watch on them and the translations. -/
structure CodeCache where
  invalidation : ExecutableInvalidation
  memory : Memory UInt8
  translations : List Translation := []
  translationInvalidations : UInt64 := 0
  observedExecutableWrites : UInt64 := 0
  /-- The ranges passed to the watch since it was last enabled. -/
  fired : List (UInt32 × UInt32) := []
  /-- Xenia refused when the watch was last to be enabled. -/
  refused : Bool := false

inductive CodeEvent where
  /-- A store, and the range that Xenia passes to the watch before it. -/
  | store (callback : Option (UInt32 × UInt32)) (address : GuestAddress) (bytes : List UInt8)
  /-- The running guest code calls a function that has no translation yet. -/
  | translate (function : CachedFunction)
  /-- The title changes code behind the watch and reports it. -/
  | report (address : GuestAddress) (bytes : List UInt8)
  /-- A guest entry; `resolved` is the translation that Xenia makes if there is none. -/
  | enter (address : GuestAddress) (enabled : Bool) (resolved : Option CachedFunction)
  deriving DecidableEq, Repr

namespace CodeCache

/-- Right after a successful `arm`. -/
def armed (code : CodeRange) (memory : Memory UInt8) : CodeCache where
  invalidation := ⟨true, true, code, kNoPendingWrite⟩
  memory := memory

def recordVirtualWrite (s : CodeCache) (virtualAddress length : UInt32) : CodeCache :=
  if ¬ s.invalidation.memory then s
  else
    match clampWrite s.invalidation.codeRange virtualAddress length with
    | none => s
    | some (first, last) =>
      { s with
        invalidation :=
          { s.invalidation with
            pendingWrite := mergeWrite s.invalidation.pendingWrite first last }
        observedExecutableWrites := s.observedExecutableWrites + 1 }

/-- `Notify`: the translations whose function left the processor's table are gone. -/
def notify (s : CodeCache) (address : GuestAddress) (size : UInt32) :
    CodeCache × RuntimeFailure :=
  let (notified, failure) := X360Port.notify s.invalidation.codeRange address size
    { cache := s.translations.map (·.function)
      translationInvalidations := s.translationInvalidations }
  ({ s with
      translations := s.translations.filter (·.function ∈ notified.cache)
      translationInvalidations := notified.translationInvalidations }, failure)

/-- The exchange of the pending word, then what it covers is notified. -/
def passPending (s : CodeCache) : CodeCache × RuntimeFailure :=
  let packed := s.invalidation.pendingWrite
  let s := { s with invalidation := { s.invalidation with pendingWrite := kNoPendingWrite } }
  match drainRange s.invalidation.codeRange packed with
  | none => (s, {})
  | some (start, length) => s.notify start length

def rearm (s : CodeCache) (enabled : Bool) : CodeCache × RuntimeFailure :=
  if s.invalidation.rearm enabled then ({ s with fired := [], refused := false }, {})
  else ({ s with refused := true }, refusedRearm)

def drainObservedWrites (s : CodeCache) (enabled : Bool) : CodeCache × RuntimeFailure :=
  let (s, failure) := s.passPending
  if ¬ failure.Ok then (s, failure) else s.rearm enabled

def addTranslation (s : CodeCache) (function : CachedFunction) : CodeCache :=
  { s with translations := ⟨function, s.memory⟩ :: s.translations }

def isTranslated (s : CodeCache) (address : GuestAddress) : Bool :=
  s.translations.any (·.function.address = address)

def entryOutsideCode : RuntimeFailure :=
  ⟨.entryOutsideCode, "guest entry is outside the authenticated executable range"⟩

/-- `ExecuteOriginal` up to the translation it goes on with. -/
def enter (s : CodeCache) (address : GuestAddress) (enabled : Bool)
    (resolved : Option CachedFunction) : CodeCache × RuntimeFailure :=
  let (s, failure) := s.drainObservedWrites enabled
  if ¬ failure.Ok then (s, failure)
  else if ¬ s.invalidation.codeRange.Contains address.toNat then (s, entryOutsideCode)
  else if s.isTranslated address then (s, {})
  else
    match resolved with
    | none => (s, {})
    | some function => (s.addTranslation function, {})

def write (s : CodeCache) (address : GuestAddress) (bytes : List UInt8) : CodeCache :=
  { s with memory := (Patch.mk address.toNat bytes).write s.memory }

def fire (s : CodeCache) (callback : Option (UInt32 × UInt32)) : CodeCache :=
  match callback with
  | none => s
  | some (address, length) =>
    { s.recordVirtualWrite address length with fired := (address, length) :: s.fired }

def step (s : CodeCache) : CodeEvent → Option CodeCache
  | .store callback address bytes => some ((s.fire callback).write address bytes)
  | .translate function =>
    if s.isTranslated function.address then none else some (s.addTranslation function)
  | .report address bytes =>
    some ((s.write address bytes).notify address (UInt32.ofNat bytes.length)).1
  | .enter address enabled resolved =>
    if ∀ function ∈ resolved, function.address = address then
      some (s.enter address enabled resolved).1
    else none

end CodeCache

/-! ## What the watch and the translator do -/

/-- The function's instructions, the last one with its four bytes. -/
def CachedFunction.Holds (function : CachedFunction) (a : Nat) : Prop :=
  function.address.toNat ≤ a ∧ a < function.endAddress.toNat + 4

/-- Instructions stand on word boundaries. -/
def CachedFunction.Aligned (function : CachedFunction) : Prop :=
  function.address.toNat % 4 = 0 ∧ function.endAddress.toNat % 4 = 0

instance (function : CachedFunction) : Decidable function.Aligned :=
  inferInstanceAs (Decidable (_ ∧ _))

/-- One of the ranges has the byte. -/
def RangesCover (ranges : List (UInt32 × UInt32)) (a : Nat) : Prop :=
  ∃ range ∈ ranges, WrittenByte range.1 range.2 a

instance (address length : UInt32) (a : Nat) : Decidable (WrittenByte address length a) :=
  inferInstanceAs (Decidable (_ ∧ _))

instance (ranges : List (UInt32 × UInt32)) (a : Nat) : Decidable (RangesCover ranges a) :=
  List.decidableBEx (fun range : UInt32 × UInt32 => WrittenByte range.1 range.2 a) ranges

/-- A store into the code was passed to the watch, now or since it was last enabled, in a range
that starts below the last address. A reported write is accepted. Functions are aligned, and
running code gets no translation while the watch could not be enabled. -/
def CodeCache.Watched (s : CodeCache) : CodeEvent → Prop
  | .store callback address bytes =>
    (∀ range ∈ callback, range.1 ≠ 0xFFFFFFFF) ∧
      ∀ i < bytes.length, s.invalidation.codeRange.Contains (address.toNat + i) →
        RangesCover (callback.toList ++ s.fired) (address.toNat + i)
  | .translate function => function.Aligned ∧ s.refused = false
  | .report address bytes =>
    bytes.length < 2 ^ 32 ∧ (s.notify address (UInt32.ofNat bytes.length)).2.Ok
  | .enter _ _ resolved => ∀ function ∈ resolved, function.Aligned

instance CodeCache.Watched.decidable (s : CodeCache) :
    (event : CodeEvent) → Decidable (s.Watched event)
  | .store callback _ _ =>
    have : Decidable (∀ range ∈ callback, range.1 ≠ 0xFFFFFFFF) :=
      Option.decidableForallMem callback
    inferInstanceAs (Decidable (_ ∧ _))
  | .translate _ => inferInstanceAs (Decidable (_ ∧ _))
  | .report _ _ => inferInstanceAs (Decidable (_ ∧ _))
  | .enter _ _ resolved => Option.decidableForallMem resolved

/-! ## The invariant -/

/-- The bytes of a translation that the watch is on. -/
def Translation.Watches (code : CodeRange) (translation : Translation) (a : Nat) : Prop :=
  translation.function.Holds a ∧ code.Contains a

/-- The translations are of the code as it is. -/
def CodeCache.Coherent (code : CodeRange) (s : CodeCache) : Prop :=
  Current (Translation.Watches code) Translation.source (· ∈ s.translations) s.memory

/-- What every step of a watch on `code` keeps, and a drain before it enables the watch. -/
structure CacheKept (code : CodeRange) (s : CodeCache) : Prop where
  watch : s.invalidation = ⟨true, true, code, s.invalidation.pendingWrite⟩
  first : s.invalidation.pendingWrite = kNoPendingWrite ∨
    firstOf s.invalidation.pendingWrite ≠ 0xFFFFFFFF
  distinct : (s.translations.map (·.function.address)).Nodup
  aligned : ∀ t ∈ s.translations, t.function.Aligned
  tracked : Tracked (Translation.Watches code) Translation.source (· ∈ s.translations) s.memory
    (PendingCovers s.invalidation.pendingWrite)
  /-- Under a translation the watch is off only where a write is pending. -/
  fired : ∀ t ∈ s.translations, ∀ a, t.Watches code a → RangesCover s.fired a →
    PendingCovers s.invalidation.pendingWrite a

structure CacheInv (code : CodeRange) (s : CodeCache) : Prop extends CacheKept code s where
  recorded : s.refused = false → ∀ a, code.Contains a → RangesCover s.fired a →
    PendingCovers s.invalidation.pendingWrite a

theorem not_pendingCovers_none (a : Nat) : ¬ PendingCovers kNoPendingWrite a := by
  unfold PendingCovers
  rw [firstOf_kNoPendingWrite, lastOf_kNoPendingWrite]
  have hfirst : (0xFFFFFFFF : UInt32).toNat = 0xFFFFFFFF := rfl
  have hlast : (0 : UInt32).toNat = 0 := rfl
  omega

/-- Merging keeps what is covered. -/
theorem PendingCovers.merge {packed : UInt64} {a : Nat} (h : PendingCovers packed a)
    (first last : UInt32) : PendingCovers (mergeWrite packed first last) a := by
  unfold PendingCovers at h ⊢
  rw [toNat_firstOf_mergeWrite, toNat_lastOf_mergeWrite]
  omega

/-- A written byte of an aligned function is in one of its instructions' words. -/
theorem CachedFunction.touched_of_holds {function : CachedFunction} (h : function.Aligned)
    {address : GuestAddress} {size : UInt32} {a : Nat} (hheld : function.Holds a)
    (hwritten : WrittenByte address size a) : function.Touched address size := by
  obtain ⟨hstart, hlast⟩ := h
  unfold CachedFunction.Holds at hheld
  have hword : TouchedWord address size (a / 4 * 4) :=
    ⟨by omega, a, hwritten, by omega, by omega⟩
  refine ⟨a / 4 * 4, hword, ?_⟩
  unfold CachedFunction.Covers
  omega

/-! ## Recording -/

section

variable {code : CodeRange} {s : CodeCache}

/-- A callback's range is pending afterwards, and what was pending stays. -/
theorem CacheInv.record (hcode : AdmittedCodeRange code) (h : CacheInv code s)
    {virtualAddress : UInt32} (hbelow : virtualAddress ≠ 0xFFFFFFFF) (length : UInt32) :
    let s' := s.recordVirtualWrite virtualAddress length
    CacheInv code s' ∧ s'.memory = s.memory ∧ s'.fired = s.fired ∧
      s'.translations = s.translations ∧ s'.refused = s.refused ∧
      ∀ a, code.Contains a → WrittenByte virtualAddress length a →
        PendingCovers s'.invalidation.pendingWrite a := by
  have hend := hcode.codeEnd_le
  have hwatch := h.watch
  unfold CodeCache.recordVirtualWrite
  rw [hwatch]
  simp only [not_true_eq_false, if_false]
  cases hclamp : clampWrite code virtualAddress length with
  | none =>
    refine ⟨h, rfl, rfl, rfl, rfl, fun a hc hw => ?_⟩
    have hw' : (RecordedWrite.mk virtualAddress length 0).Contains a := hw
    exact (clampWrite_eq_none hclamp hw' hc).elim
  | some range =>
    obtain ⟨first, last⟩ := range
    have hhull := clampWrite_eq_some hend hclamp
    have hfirst : first.toNat < 0xFFFFFFFF := by
      have hbase := hcode.aligned.1
      have hlt := code.base.toNat_lt
      have hne : virtualAddress.toNat ≠ 0xFFFFFFFF := fun he => hbelow (UInt32.toNat_inj.1 he)
      have haddress := virtualAddress.toNat_lt
      omega
    refine ⟨?_, rfl, rfl, rfl, rfl, fun a hc hw => ?_⟩
    · refine { h with
        watch := rfl
        first := .inr fun he => ?_
        tracked := h.tracked.mono fun a ha => ha.merge first last
        fired := fun t ht a ha hf => (h.fired t ht a ha hf).merge first last
        recorded := fun hr a hc hf => (h.recorded hr a hc hf).merge first last }
      have hmerged := toNat_firstOf_mergeWrite s.invalidation.pendingWrite first last
      have hsentinel : (0xFFFFFFFF : UInt32).toNat = 0xFFFFFFFF := rfl
      rw [he] at hmerged
      omega
    · unfold WrittenByte at hw
      unfold CodeRange.Contains at hc
      unfold PendingCovers
      rw [toNat_firstOf_mergeWrite, toNat_lastOf_mergeWrite]
      omega

/-- The bytes where the watch has gone off, now or before, are pending under a translation. -/
theorem CacheInv.fire (hcode : AdmittedCodeRange code) (h : CacheInv code s)
    {callback : Option (UInt32 × UInt32)} (hbelow : ∀ range ∈ callback, range.1 ≠ 0xFFFFFFFF) :
    let s' := s.fire callback
    CacheInv code s' ∧ s'.fired = callback.toList ++ s.fired := by
  cases callback with
  | none => exact ⟨h, rfl⟩
  | some range =>
    obtain ⟨address, length⟩ := range
    obtain ⟨hrecorded, hmemory, hfired, htranslations, hrefused, hcovers⟩ :=
      h.record hcode (hbelow (address, length) rfl) length
    have hpending : ∀ a, code.Contains a → RangesCover ((address, length) :: s.fired) a →
        RangesCover s.fired a ∨ PendingCovers
          (s.recordVirtualWrite address length).invalidation.pendingWrite a := by
      rintro a hc ⟨range, hrange, hw⟩
      rcases List.mem_cons.1 hrange with rfl | hrange
      · exact .inr (hcovers a hc hw)
      · exact .inl ⟨range, hrange, hw⟩
    refine ⟨{ hrecorded with
      fired := fun t ht a ha hf => ?_
      recorded := fun hr a hc hf => ?_ }, rfl⟩
    · rcases hpending a ha.2 hf with hold | hnew
      · exact hrecorded.fired t ht a ha (hfired ▸ hold)
      · exact hnew
    · rcases hpending a hc hf with hold | hnew
      · exact hrecorded.recorded hr a hc (hfired ▸ hold)
      · exact hnew

/-- **A store** changes translated code only where the watch has seen it. -/
theorem CacheInv.store (hcode : AdmittedCodeRange code) (h : CacheInv code s)
    {callback : Option (UInt32 × UInt32)} {address : GuestAddress} {bytes : List UInt8}
    (hw : s.Watched (.store callback address bytes)) :
    CacheInv code ((s.fire callback).write address bytes) := by
  obtain ⟨hbelow, hseen⟩ := hw
  obtain ⟨hfire, hfired⟩ := h.fire hcode hbelow
  have hcodeRange : s.invalidation.codeRange = code := by rw [h.watch]
  refine { hfire with
    tracked := hfire.tracked.store (fun _ ha => ha) fun t ht a ha => ?_ }
  by_cases hcovers : (Patch.mk address.toNat bytes).Covers a
  · right
    obtain ⟨hle, hlt⟩ := hcovers
    obtain ⟨i, rfl⟩ := Nat.exists_eq_add_of_le hle
    have hrange := hseen i (Nat.lt_of_add_lt_add_left hlt) (hcodeRange.symm ▸ ha.2)
    exact hfire.fired t ht _ ha (hfired ▸ hrange)
  · left
    exact Patch.write_of_not_covers hcovers

/-! ## Dropping -/

theorem CodeCache.notify_dropsTouched
    (hdistinct : (s.translations.map (·.function.address)).Nodup) {address : GuestAddress}
    {size : UInt32} (hok : (s.notify address size).2.Ok) :
    let functions := s.translations.map (·.function)
    DropsTouched address size functions s.translationInvalidations
      (X360Port.notify s.invalidation.codeRange address size
        ⟨functions, [], s.translationInvalidations⟩).1 := by
  intro functions
  obtain ⟨hsize, -, -, hwalk⟩ := notify_of_accepts hok
  have hnodup : (functions.map (·.address)).Nodup := by rwa [List.map_map]
  have hrun := (NotifiedUpTo.start functions s.translationInvalidations).run hnodup
    (writtenWords address size)
  rw [List.nil_append, ← hwalk] at hrun
  exact hrun.dropsTouched hsize hnodup

/-- An accepted notification keeps the translations that it does not touch. -/
theorem CodeCache.mem_notify (hdistinct : (s.translations.map (·.function.address)).Nodup)
    {address : GuestAddress} {size : UInt32} (hok : (s.notify address size).2.Ok)
    (t : Translation) :
    t ∈ (s.notify address size).1.translations ↔
      t ∈ s.translations ∧ ¬ t.function.Touched address size := by
  have hkept := (CodeCache.notify_dropsTouched hdistinct hok).kept
  simp only [CodeCache.notify, List.mem_filter, decide_eq_true_eq]
  rw [hkept]
  refine and_congr_right fun ht => ?_
  simp only [List.mem_filter, decide_eq_true_eq]
  exact and_iff_right (List.mem_map_of_mem ht)

theorem CodeCache.notify_sublist (s : CodeCache) (address : GuestAddress) (size : UInt32) :
    (s.notify address size).1.translations.Sublist s.translations :=
  List.filter_sublist

/-- **A report** drops the translations of what it changed. -/
theorem CacheInv.report (h : CacheInv code s) {address : GuestAddress} {bytes : List UInt8}
    (hw : s.Watched (.report address bytes)) :
    CacheInv code ((s.write address bytes).notify address (UInt32.ofNat bytes.length)).1 := by
  obtain ⟨hlength, hok⟩ := hw
  have hmem := (s.write address bytes).mem_notify h.distinct hok
  have hsub := (s.write address bytes).notify_sublist address (UInt32.ofNat bytes.length)
  refine { h with
    distinct := (hsub.map _).nodup h.distinct
    aligned := fun t ht => h.aligned t (hsub.mem ht)
    fired := fun t ht => h.fired t (hsub.mem ht)
    tracked := ?_ }
  refine Tracked.store (fun t ht => h.tracked t (hsub.mem ht)) (fun _ ha => ha) fun t ht a ha => ?_
  left
  refine Patch.write_of_not_covers fun hcovers => ((hmem t).1 ht).2 ?_
  refine CachedFunction.touched_of_holds (h.aligned t (hsub.mem ht)) ha.1 ?_
  have hsize : (UInt32.ofNat bytes.length).toNat = bytes.length := Word.toNat_ofNat hlength
  unfold WrittenByte
  rw [hsize]
  exact hcovers

/-- Passing the pending word on drops every translation with a byte under it. -/
theorem CodeCache.passPending_spec (hcode : AdmittedCodeRange code) (h : CacheKept code s) :
    let s' := s.passPending.1
    s.passPending.2.Ok ∧
      s'.invalidation = { s.invalidation with pendingWrite := kNoPendingWrite } ∧
      s'.memory = s.memory ∧ s'.fired = s.fired ∧ s'.translations.Sublist s.translations ∧
      ∀ t ∈ s'.translations, ∀ a, t.Watches code a →
        ¬ PendingCovers s.invalidation.pendingWrite a := by
  have hend := hcode.codeEnd_le
  have hcodeRange : s.invalidation.codeRange = code := by rw [h.watch]
  have hsentinel : ∀ a, PendingCovers s.invalidation.pendingWrite a →
      firstOf s.invalidation.pendingWrite ≠ 0xFFFFFFFF := fun a hp =>
    h.first.resolve_left fun hnone => not_pendingCovers_none a (hnone ▸ hp)
  let taken : CodeCache :=
    { s with invalidation := { s.invalidation with pendingWrite := kNoPendingWrite } }
  cases hdrain : drainRange code s.invalidation.pendingWrite with
  | none =>
    have hpass : s.passPending = (taken, {}) := by
      simp only [CodeCache.passPending, hcodeRange, hdrain, taken]
    rw [hpass]
    refine ⟨RuntimeFailure.ok_empty, rfl, rfl, rfl, List.Sublist.refl _, fun t ht a ha hp => ?_⟩
    obtain ⟨start, length, hsome, -⟩ := drainRange_covers hend 0 (hsentinel a hp) hp ha.2
    rw [hdrain] at hsome
    cases hsome
  | some range =>
    obtain ⟨start, length⟩ := range
    obtain ⟨hpos, hbase, hinside⟩ := drainRange_inside hend hdrain
    have hpass : s.passPending = taken.notify start length := by
      simp only [CodeCache.passPending, hcodeRange, hdrain, taken]
    have hok : (taken.notify start length).2.Ok := by
      have haccepts := notify_accepts hpos hbase hinside
        { cache := s.translations.map (·.function)
          translationInvalidations := s.translationInvalidations }
      change (X360Port.notify s.invalidation.codeRange start length _).2.Ok
      rw [hcodeRange, haccepts]
      exact RuntimeFailure.ok_empty
    rw [hpass]
    refine ⟨hok, rfl, rfl, rfl, taken.notify_sublist start length, fun t ht a ha hp => ?_⟩
    obtain ⟨hold, hclear⟩ := (taken.mem_notify h.distinct hok t).1 ht
    obtain ⟨start', length', hsome, hbyte⟩ := drainRange_covers hend 0 (hsentinel a hp) hp ha.2
    rw [hdrain] at hsome
    cases hsome
    exact hclear (CachedFunction.touched_of_holds (h.aligned t hold) ha.1 hbyte)

/-- **A drain** leaves translations of the code as it is. -/
theorem CacheInv.passPending (hcode : AdmittedCodeRange code) (h : CacheInv code s) :
    s.passPending.2.Ok ∧ CacheKept code s.passPending.1 ∧ s.passPending.1.Coherent code ∧
      ∀ t ∈ s.passPending.1.translations, ∀ a, t.Watches code a →
        ¬ RangesCover s.passPending.1.fired a := by
  obtain ⟨hok, hinvalidation, hmemory, hfired, hsub, hclear⟩ :=
    CodeCache.passPending_spec hcode h.toCacheKept
  have hcurrent : s.passPending.1.Coherent code := by
    unfold CodeCache.Coherent
    rw [hmemory]
    exact h.tracked.drop fun t ht => ⟨hsub.mem ht, hclear t ht⟩
  have hunfired : ∀ t ∈ s.passPending.1.translations, ∀ a, t.Watches code a →
      ¬ RangesCover s.passPending.1.fired a := by
    intro t ht a ha hf
    rw [hfired] at hf
    exact hclear t ht a ha (h.fired t (hsub.mem ht) a ha hf)
  refine ⟨hok, ?_, hcurrent, hunfired⟩
  exact {
    watch := by rw [hinvalidation, h.watch]
    first := .inl (by rw [hinvalidation])
    distinct := (hsub.map _).nodup h.distinct
    aligned := fun t ht => h.aligned t (hsub.mem ht)
    tracked := hcurrent.tracked _
    fired := fun t ht a ha hf => absurd hf (hunfired t ht a ha) }

/-- The watch is enabled everywhere, or a refusal is noted. -/
theorem CacheKept.rearm (h : CacheKept code s) (enabled : Bool)
    (hunfired : ∀ t ∈ s.translations, ∀ a, t.Watches code a → ¬ RangesCover s.fired a) :
    CacheInv code (s.rearm enabled).1 ∧
      ((s.rearm enabled).2.Ok → (s.rearm enabled).1.refused = false) ∧
      (s.rearm enabled).1.translations = s.translations ∧
      (s.rearm enabled).1.memory = s.memory := by
  have hnothing : ∀ a, ¬ RangesCover [] a := by
    rintro a ⟨range, hrange, -⟩
    cases hrange
  unfold CodeCache.rearm
  split
  · refine ⟨{ h with
      fired := fun t ht a ha hf => absurd hf (hnothing a)
      recorded := fun _ a _ hf => absurd hf (hnothing a) }, fun _ => rfl, rfl, rfl⟩
  · refine ⟨{ h with
      fired := fun t ht a ha hf => absurd hf (hunfired t ht a ha)
      recorded := nofun }, fun hok => ?_, rfl, rfl⟩
    exact absurd hok RuntimeError.noConfusion

theorem CacheInv.drainObservedWrites (hcode : AdmittedCodeRange code) (h : CacheInv code s)
    (enabled : Bool) :
    CacheInv code (s.drainObservedWrites enabled).1 ∧
      (s.drainObservedWrites enabled).1.Coherent code ∧
      ((s.drainObservedWrites enabled).2.Ok →
        (s.drainObservedWrites enabled).1.refused = false) := by
  obtain ⟨hok, hkept, hcurrent, hunfired⟩ := h.passPending hcode
  obtain ⟨hinv, hrefused, htranslations, hmemory⟩ := hkept.rearm enabled hunfired
  unfold CodeCache.drainObservedWrites
  dsimp only
  rw [if_neg (not_not.2 hok)]
  refine ⟨hinv, ?_, hrefused⟩
  unfold CodeCache.Coherent
  rw [htranslations, hmemory]
  exact hcurrent

/-! ## Translating -/

theorem CodeCache.mem_of_isTranslated {address : GuestAddress} :
    s.isTranslated address = true ↔ address ∈ s.translations.map (·.function.address) := by
  simp only [CodeCache.isTranslated, List.any_eq_true, decide_eq_true_eq, List.mem_map]

/-- **A new translation** is made of the code as it is, where the watch is on. -/
theorem CacheInv.addTranslation (h : CacheInv code s) {function : CachedFunction}
    (hnew : ¬ s.isTranslated function.address = true) (haligned : function.Aligned)
    (hwatched : s.refused = false) : CacheInv code (s.addTranslation function) := by
  refine { h with
    distinct := ?_
    aligned := fun t ht => ?_
    tracked := h.tracked.build fun t ht => ?_
    fired := fun t ht a ha hf => h.recorded hwatched a ha.2 hf }
  · exact List.nodup_cons.2 ⟨fun hmem => hnew (CodeCache.mem_of_isTranslated.2 hmem), h.distinct⟩
  · rcases List.mem_cons.1 ht with rfl | ht
    · exact haligned
    · exact h.aligned t ht
  · rcases List.mem_cons.1 ht with rfl | ht
    · exact .inr rfl
    · exact .inl ht

/-- A translation of the memory keeps all others current. -/
theorem CodeCache.Coherent.addTranslation (h : s.Coherent code) (function : CachedFunction) :
    (s.addTranslation function).Coherent code := by
  intro t ht a ha
  rcases List.mem_cons.1 ht with rfl | ht
  · rfl
  · exact h t ht a ha

/-- **A guest entry** keeps the invariant, and finds no changed byte when it is let through. -/
theorem CacheInv.enter (hcode : AdmittedCodeRange code) (h : CacheInv code s)
    (address : GuestAddress) (enabled : Bool) {resolved : Option CachedFunction}
    (hresolved : ∀ function ∈ resolved, function.address = address)
    (haligned : ∀ function ∈ resolved, function.Aligned) :
    CacheInv code (s.enter address enabled resolved).1 ∧
      (s.enter address enabled resolved).1.Coherent code := by
  obtain ⟨hinv, hcurrent, hrefused⟩ := h.drainObservedWrites hcode enabled
  unfold CodeCache.enter
  dsimp only
  split
  · exact ⟨hinv, hcurrent⟩
  · next hok =>
    split
    · exact ⟨hinv, hcurrent⟩
    · split
      · exact ⟨hinv, hcurrent⟩
      · next hnew =>
        cases resolved with
        | none => exact ⟨hinv, hcurrent⟩
        | some function =>
          have haddress := hresolved function rfl
          exact ⟨hinv.addTranslation (haddress ▸ hnew) (haligned function rfl)
            (hrefused (not_not.1 hok)), hcurrent.addTranslation function⟩

/-! ## Against the interleaved calls -/

/-- The watch between two calls. -/
def CodeCache.quiet (s : CodeCache) : WatchState where
  invalidation := s.invalidation
  cache := s.translations.map (·.function)
  translationInvalidations := s.translationInvalidations

/-- A recording call that nothing disturbs. -/
def CodeCache.recordCall (s : CodeCache) (virtualAddress length : UInt32) : List WatchEvent :=
  match clampWrite s.invalidation.codeRange virtualAddress length with
  | none => [.record 0 virtualAddress length]
  | some _ => [.record 0 virtualAddress length, .load 0 s.invalidation.pendingWrite,
      .compareExchange 0 none]

/-- A draining call that nothing disturbs. -/
def drainCall (enabled : Bool) : List WatchEvent :=
  [.drain 0, .exchange 0, .notify 0, .rearm 0 enabled]

theorem play_recordCall (h : CacheKept code s) (virtualAddress length : UInt32) :
    ∃ w, play WatchState.step s.quiet (s.recordCall virtualAddress length) = some w ∧
      w.invalidation = (s.recordVirtualWrite virtualAddress length).invalidation ∧
      w.recorded = [⟨virtualAddress, length, 0⟩] := by
  have hmemory : s.invalidation.memory = true := by rw [h.watch]
  unfold CodeCache.recordCall CodeCache.recordVirtualWrite
  rw [if_neg (not_not.2 hmemory)]
  cases hclamp : clampWrite s.invalidation.codeRange virtualAddress length with
  | none =>
    refine ⟨s.quiet.addRecorded virtualAddress length, play_cons_iff.2 ⟨_, ?_, rfl⟩, rfl, rfl⟩
    simp only [WatchState.step, CodeCache.quiet, hmemory, hclamp, ne_eq, not_true_eq_false,
      if_false]
  | some range =>
    obtain ⟨first, last⟩ := range
    have hrecord : s.quiet.step (.record 0 virtualAddress length) =
        some (s.quiet.setRecord 0 (some ⟨virtualAddress, length, first, last, none⟩)) := by
      simp only [WatchState.step, CodeCache.quiet, hmemory, hclamp, ne_eq, not_true_eq_false,
        if_false]
    exact ⟨_, play_cons_iff.2 ⟨_, hrecord, play_cons_iff.2 ⟨_, rfl, play_cons_iff.2
      ⟨_, if_pos rfl, rfl⟩⟩⟩, rfl, rfl⟩

/-- The table that an accepted notification leaves holds the translations' functions. -/
theorem CodeCache.notify_functions (hdistinct : (s.translations.map (·.function.address)).Nodup)
    {address : GuestAddress} {size : UInt32} (hok : (s.notify address size).2.Ok) :
    (X360Port.notify s.invalidation.codeRange address size
      ⟨s.translations.map (·.function), [], s.translationInvalidations⟩).1.cache =
      (s.notify address size).1.translations.map (·.function) := by
  have hkept := (CodeCache.notify_dropsTouched hdistinct hok).kept
  simp only [CodeCache.notify]
  rw [hkept, ← Function.comp_def (fun f => decide (f ∈ _)), ← List.filter_map]
  refine List.filter_congr fun function hfunction => decide_eq_decide.2 ?_
  rw [List.mem_filter, decide_eq_true_eq]
  exact (and_iff_right hfunction).symm

/-- The watch's state during a draining call is the cache's. -/
structure DrainsAs (s : CodeCache) (drain : DrainCall) (w : WatchState) : Prop where
  drain : w.drains 0 = some drain
  invalidation : w.invalidation = s.invalidation
  cache : w.cache = s.translations.map (·.function)
  count : w.translationInvalidations = s.translationInvalidations
  results : w.results = []

theorem DrainsAs.notify (hcode : AdmittedCodeRange code) (h : CacheKept code s) {w : WatchState}
    (hw : DrainsAs
      { s with invalidation := { s.invalidation with pendingWrite := kNoPendingWrite } }
      (.exchanged 0 s.invalidation.pendingWrite) w) :
    ∃ w', w.step (.notify 0) = some w' ∧ DrainsAs s.passPending.1 .notified w' := by
  obtain ⟨hok, -⟩ := CodeCache.passPending_spec hcode h
  let taken : CodeCache :=
    { s with invalidation := { s.invalidation with pendingWrite := kNoPendingWrite } }
  cases hdrain : drainRange s.invalidation.codeRange s.invalidation.pendingWrite with
  | none =>
    have hpass : s.passPending = (taken, {}) := by
      simp only [CodeCache.passPending, hdrain, taken]
    refine ⟨w.setDrain 0 (some .notified), ?_, ?_⟩
    · simp only [WatchState.step, hw.drain, hw.invalidation, hdrain]
    · rw [hpass]
      exact ⟨rfl, hw.invalidation, hw.cache, hw.count, hw.results⟩
  | some range =>
    obtain ⟨start, length⟩ := range
    have hpass : s.passPending = taken.notify start length := by
      simp only [CodeCache.passPending, hdrain, taken]
    rw [hpass] at hok ⊢
    have hcache := CodeCache.notify_functions (s := taken) h.distinct hok
    have haccepted : (X360Port.notify s.invalidation.codeRange start length
        ⟨s.translations.map (·.function), [], s.translationInvalidations⟩).2.Ok := hok
    let notified := (X360Port.notify s.invalidation.codeRange start length
      ⟨s.translations.map (·.function), [], s.translationInvalidations⟩).1
    let passed : WatchState :=
      { w with
        cache := notified.cache
        translationInvalidations := notified.translationInvalidations
        notified := ⟨0, start, length⟩ :: w.notified }
    refine ⟨passed.setDrain 0 (some .notified), ?_, rfl, hw.invalidation, hcache, rfl, hw.results⟩
    simp only [WatchState.step, hw.drain, hw.invalidation, hw.cache, hw.count, hdrain]
    rw [if_pos haccepted]
    simp only [passed, notified, hw.invalidation]

theorem DrainsAs.rearm {w : WatchState} (hw : DrainsAs s .notified w) (enabled : Bool) :
    ∃ w', w.step (.rearm 0 enabled) = some w' ∧ w'.invalidation = s.invalidation ∧
      w'.cache = s.translations.map (·.function) ∧
      w'.translationInvalidations = s.translationInvalidations ∧
      w'.results = [(s.rearm enabled).2] := by
  refine ⟨_, if_pos hw.drain, hw.invalidation, hw.cache, hw.count, ?_⟩
  simp only [WatchState.finishDrain, WatchState.setDrain, hw.results, hw.invalidation,
    CodeCache.rearm]
  split
  · rfl
  · rfl

/-- **A drain that nothing disturbs** is the interleaved call's four steps. -/
theorem play_drainCall (hcode : AdmittedCodeRange code) (h : CacheKept code s) (enabled : Bool) :
    let drained := s.drainObservedWrites enabled
    ∃ w, play WatchState.step s.quiet (drainCall enabled) = some w ∧
      w.invalidation = drained.1.invalidation ∧
      w.cache = drained.1.translations.map (·.function) ∧
      w.translationInvalidations = drained.1.translationInvalidations ∧
      w.results = [drained.2] := by
  obtain ⟨hok, -⟩ := CodeCache.passPending_spec hcode h
  have hdrained : s.drainObservedWrites enabled = s.passPending.1.rearm enabled :=
    if_neg (not_not.2 hok)
  have hrearm : (s.passPending.1.rearm enabled).1.invalidation = s.passPending.1.invalidation ∧
      (s.passPending.1.rearm enabled).1.translations = s.passPending.1.translations ∧
      (s.passPending.1.rearm enabled).1.translationInvalidations =
        s.passPending.1.translationInvalidations := by
    unfold CodeCache.rearm
    split
    · exact ⟨rfl, rfl, rfl⟩
    · exact ⟨rfl, rfl, rfl⟩
  have hexchange : ∃ w, play WatchState.step s.quiet [.drain 0, .exchange 0] = some w ∧
      DrainsAs { s with invalidation := { s.invalidation with pendingWrite := kNoPendingWrite } }
        (.exchanged 0 s.invalidation.pendingWrite) w :=
    ⟨_, play_cons_iff.2 ⟨_, rfl, play_cons_iff.2 ⟨_, rfl, rfl⟩⟩, rfl, rfl, rfl, rfl, rfl⟩
  obtain ⟨w1, hplay, hw1⟩ := hexchange
  obtain ⟨w2, hnotify, hw2⟩ := hw1.notify hcode h
  obtain ⟨w3, hlast, hinvalidation, hcache, hcount, hresults⟩ := hw2.rearm enabled
  intro drained
  simp only [drained, hdrained, hrearm.1, hrearm.2.1, hrearm.2.2]
  refine ⟨w3, ?_, hinvalidation, hcache, hcount, hresults⟩
  have hcall : drainCall enabled = [.drain 0, .exchange 0] ++ [.notify 0, .rearm 0 enabled] := rfl
  rw [hcall, play_append, hplay]
  exact play_cons_iff.2 ⟨w2, hnotify, play_cons_iff.2 ⟨w3, hlast, rfl⟩⟩

/-! ## Runs -/

theorem CacheInv.step (hcode : AdmittedCodeRange code) (h : CacheInv code s) {event : CodeEvent}
    (hw : s.Watched event) {s' : CodeCache} (hs : s.step event = some s') : CacheInv code s' := by
  cases event with
  | store callback address bytes =>
    cases hs
    exact h.store hcode hw
  | translate function =>
    obtain ⟨hnew, ⟨⟩⟩ := Option.ite_none_left_eq_some.1 hs
    exact h.addTranslation hnew hw.1 hw.2
  | report address bytes =>
    cases hs
    exact h.report hw
  | enter address enabled resolved =>
    obtain ⟨hresolved, ⟨⟩⟩ := Option.ite_none_right_eq_some.1 hs
    exact (h.enter hcode address enabled hresolved hw).1

end

end X360Port
