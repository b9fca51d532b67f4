import Mathlib.Data.List.Pairwise
import X360Port.ExecutableInvalidation
import X360Port.Library.Machine
import X360Port.Library.WordArithmetic
import X360Port.Validation.WellFormed

/-!
# Recording and draining, interleaved

Any number of `RecordVirtualWrite` and `DrainObservedWrites` calls run at
once. Between two atomic operations a call only computes on its own values, so
a step of the machine is one atomic operation of one call. A relaxed load, and
the load of a failed compare-exchange, may see any word: only a successful
compare-exchange says what the word is.

The state keeps a history: the writes whose calls have returned, with the
number of exchanges before that, and the ranges passed to `notify`, with the
number of the drain. `NothingLost` says that every recorded byte of the code
range is pending or has been handed to a later drain.
-/

namespace X360Port

open Library

/-- The validator's clauses on a code range and the image around it. -/
structure AdmittedCodeRange (code : CodeRange) : Prop where
  nonempty : code.size ≠ 0
  aligned : code.base.toNat % 4 = 0 ∧ code.size.toNat % 4 = 0
  inside_image : ∃ image : ImageIdentity, image.base.toNat % 65536 = 0 ∧
    image.imageEnd ≤ 2 ^ 32 ∧ image.base.toNat ≤ code.base.toNat ∧ code.codeEnd ≤ image.imageEnd

theorem admittedCodeRange_of_ok {module : GuestModule} (h : (validateModule module).Ok) :
    AdmittedCodeRange module.descriptor.code := by
  have hw := wellFormed_of_ok h
  refine ⟨fun hz => ?_, hw.code_aligned, module.descriptor.image, hw.base_aligned, hw.image_end,
    hw.code_inside⟩
  have := hw.code_nonempty
  rw [hz] at this
  exact Nat.lt_irrefl _ this

theorem AdmittedCodeRange.codeEnd_le {code : CodeRange} (h : AdmittedCodeRange code) :
    code.codeEnd ≤ 2 ^ 32 := by
  obtain ⟨image, -, h1, -, h2⟩ := h.inside_image
  omega

/-! ## The machine -/

/-- A recording call between its clamp and its return. -/
structure RecordCall where
  address : UInt32
  length : UInt32
  first : UInt32
  last : UInt32
  /-- The word the call last saw. -/
  current : Option UInt64 := none
  deriving DecidableEq, Repr

/-- A draining call. -/
inductive DrainCall where
  | entered
  | exchanged (number : Nat) (packed : UInt64)
  | notified
  deriving DecidableEq, Repr

/-- A write whose recording call has returned, after `epoch` exchanges. -/
structure RecordedWrite where
  address : UInt32
  length : UInt32
  epoch : Nat
  deriving DecidableEq, Repr

/-- A range that drain `number` passed to `notify`. -/
structure NotifiedRange where
  number : Nat
  address : GuestAddress
  size : UInt32
  deriving DecidableEq, Repr

structure WatchState where
  invalidation : ExecutableInvalidation
  cache : List CachedFunction := []
  translationInvalidations : UInt64 := 0
  records : Nat → Option RecordCall := fun _ => none
  drains : Nat → Option DrainCall := fun _ => none
  exchanges : Nat := 0
  recorded : List RecordedWrite := []
  notified : List NotifiedRange := []
  results : List RuntimeFailure := []

inductive WatchEvent where
  | record (call : Nat) (address length : UInt32)
  | load (call : Nat) (seen : UInt64)
  | compareExchange (call : Nat) (seen : Option UInt64)
  | drain (call : Nat)
  | exchange (call : Nat)
  | notify (call : Nat)
  | rearm (call : Nat) (enabled : Bool)
  deriving DecidableEq, Repr

namespace WatchState

/-- The watch right after a successful `arm`. -/
def armed (code : CodeRange) : WatchState where
  invalidation := ⟨true, true, code, kNoPendingWrite⟩

def setRecord (s : WatchState) (call : Nat) (record : Option RecordCall) : WatchState :=
  { s with records := fun c => if c = call then record else s.records c }

def setDrain (s : WatchState) (call : Nat) (drain : Option DrainCall) : WatchState :=
  { s with drains := fun c => if c = call then drain else s.drains c }

/-- The call has returned: the write is recorded. -/
def addRecorded (s : WatchState) (address length : UInt32) : WatchState :=
  { s with recorded := ⟨address, length, s.exchanges⟩ :: s.recorded }

/-- The call has returned with a result. -/
def finishDrain (s : WatchState) (call : Nat) (result : RuntimeFailure) : WatchState :=
  { s.setDrain call none with results := result :: s.results }

def step (s : WatchState) : WatchEvent → Option WatchState
  | .record call address length =>
    if s.records call ≠ none then none
    else if ¬ s.invalidation.memory then some (s.addRecorded address length)
    else
      match clampWrite s.invalidation.codeRange address length with
      | none => some (s.addRecorded address length)
      | some (first, last) => some (s.setRecord call (some ⟨address, length, first, last, none⟩))
  | .load call seen =>
    match s.records call with
    | some ⟨address, length, first, last, none⟩ =>
      some (s.setRecord call (some ⟨address, length, first, last, some seen⟩))
    | _ => none
  | .compareExchange call seen =>
    match s.records call, seen with
    | some ⟨address, length, first, last, some current⟩, none =>
      if s.invalidation.pendingWrite = current then
        let s := { s with invalidation :=
          { s.invalidation with pendingWrite := mergeWrite current first last } }
        some ((s.setRecord call none).addRecorded address length)
      else none
    | some ⟨address, length, first, last, some _⟩, some seen =>
      some (s.setRecord call (some ⟨address, length, first, last, some seen⟩))
    | _, _ => none
  | .drain call => if s.drains call = none then some (s.setDrain call (some .entered)) else none
  | .exchange call =>
    if s.drains call = some .entered then
      let packed := s.invalidation.pendingWrite
      let s := { s with
        invalidation := { s.invalidation with pendingWrite := kNoPendingWrite }
        exchanges := s.exchanges + 1 }
      some (s.setDrain call (some (.exchanged (s.exchanges - 1) packed)))
    else none
  | .notify call =>
    match s.drains call with
    | some (.exchanged number packed) =>
      match drainRange s.invalidation.codeRange packed with
      | none => some (s.setDrain call (some .notified))
      | some (start, length) =>
        let (cached, failure) := notify s.invalidation.codeRange start length
          { cache := s.cache, translationInvalidations := s.translationInvalidations }
        if failure.Ok then
          let s := { s with
            cache := cached.cache
            translationInvalidations := cached.translationInvalidations
            notified := ⟨number, start, length⟩ :: s.notified }
          some (s.setDrain call (some .notified))
        else some (s.finishDrain call failure)
    | _ => none
  | .rearm call enabled =>
    if s.drains call = some .notified then
      some (s.finishDrain call (if s.invalidation.rearm enabled then {} else refusedRearm))
    else none

end WatchState

/-! ## Nothing is lost -/

/-- The bytes of a write. -/
def RecordedWrite.Contains (w : RecordedWrite) (a : Nat) : Prop :=
  w.address.toNat ≤ a ∧ a < w.address.toNat + w.length.toNat

instance (w : RecordedWrite) (a : Nat) : Decidable (w.Contains a) := by
  unfold RecordedWrite.Contains; infer_instance

def NotifiedRange.Contains (range : NotifiedRange) (a : Nat) : Prop :=
  range.address.toNat ≤ a ∧ a < range.address.toNat + range.size.toNat

/-- The pending word covers the byte. -/
def PendingCovers (packed : UInt64) (a : Nat) : Prop :=
  (firstOf packed).toNat ≤ a ∧ a ≤ (lastOf packed).toNat

instance (packed : UInt64) (a : Nat) : Decidable (PendingCovers packed a) := by
  unfold PendingCovers; infer_instance

/-- Every recorded byte of the code range is pending, or about to be passed or already
passed to `notify` by a drain whose exchange came after the recording. -/
structure NothingLost (code : CodeRange) (s : WatchState) : Prop where
  covered : ∀ w ∈ s.recorded, ∀ a, w.Contains a → code.Contains a →
    PendingCovers s.invalidation.pendingWrite a ∨
      (∃ call number packed start length, s.drains call = some (.exchanged number packed) ∧
        w.epoch ≤ number ∧ drainRange code packed = some (start, length) ∧
        (NotifiedRange.mk number start length).Contains a) ∨
      ∃ range ∈ s.notified, w.epoch ≤ range.number ∧ range.Contains a
  inside : ∀ range ∈ s.notified, ∀ a, range.Contains a → code.Contains a
  accepted : ∀ result ∈ s.results, result.error ≠ .executableRangeInvalid

/-- The write has bytes in the code range. -/
def RecordedWrite.Touches (w : RecordedWrite) (code : CodeRange) : Prop :=
  max w.address.toNat code.base.toNat < min (w.address.toNat + w.length.toNat) code.codeEnd

instance (w : RecordedWrite) (code : CodeRange) : Decidable (w.Touches code) := by
  unfold RecordedWrite.Touches; infer_instance

/-- An exchange finds, among the writes to the code range recorded since the last one, a
write that does not start at the top address. -/
def ExchangeMeets (code : CodeRange) (s : WatchState) : WatchEvent → Prop
  | .exchange _ => (∃ w ∈ s.recorded, w.epoch = s.exchanges ∧ w.Touches code) →
      ∃ w ∈ s.recorded, w.epoch = s.exchanges ∧ w.Touches code ∧ w.address ≠ 0xFFFFFFFF
  | _ => True

/-! ## The pieces of a call -/

section

variable {code : CodeRange}

theorem clampWrite_eq_some (hend : code.codeEnd ≤ 2 ^ 32) {address length first last : UInt32}
    (h : clampWrite code address length = some (first, last)) :
    first.toNat = max address.toNat code.base.toNat ∧
      last.toNat + 1 = min (address.toNat + length.toNat) code.codeEnd := by
  simp only [clampWrite] at h
  split at h
  · cases h
  · split at h
    · cases h
    · next hlt =>
      simp only [Option.some.injEq, Prod.mk.injEq] at h
      obtain ⟨rfl, rfl⟩ := h
      rw [Word.toNat_ofNat (by omega), Word.toNat_ofNat (by omega)]
      omega

theorem clampWrite_eq_none {address length : UInt32} (h : clampWrite code address length = none)
    {epoch a : Nat} (hw : (RecordedWrite.mk address length epoch).Contains a) :
    ¬ code.Contains a := by
  intro hc
  have hlen : length ≠ 0 := by
    rintro rfl
    exact absurd hw.2 (Nat.not_lt.2 hw.1)
  have hw' : address.toNat ≤ a ∧ a < address.toNat + length.toNat := hw
  unfold CodeRange.Contains at hc
  simp only [clampWrite, if_neg hlen] at h
  split at h
  · omega
  · cases h

theorem RecordedWrite.touches_of_contains {w : RecordedWrite} {a : Nat} (hw : w.Contains a)
    (hc : code.Contains a) : w.Touches code := by
  unfold RecordedWrite.Contains at hw
  unfold CodeRange.Contains at hc
  unfold RecordedWrite.Touches
  omega

/-- A drain passes on every byte of the code range that its word covers. -/
theorem drainRange_covers (hend : code.codeEnd ≤ 2 ^ 32) (number : Nat) {packed : UInt64} {a : Nat}
    (hfirst : firstOf packed ≠ 0xFFFFFFFF) (hp : PendingCovers packed a) (hc : code.Contains a) :
    ∃ start length, drainRange code packed = some (start, length) ∧
      (NotifiedRange.mk number start length).Contains a := by
  have hb := code.base.toNat_lt
  have hs := code.size.toNat_lt
  have he : code.codeEnd = code.base.toNat + code.size.toNat := rfl
  unfold PendingCovers at hp
  unfold CodeRange.Contains at hc
  have hle : firstOf packed ≤ lastOf packed := UInt32.le_iff_toNat_le.2 (by omega)
  refine ⟨UInt32.ofNat (max (firstOf packed).toNat code.base.toNat),
    UInt32.ofNat (min ((lastOf packed).toNat + 1) code.codeEnd -
      max (firstOf packed).toNat code.base.toNat), ?_, ?_⟩
  · simp only [drainRange]
    rw [if_pos ⟨hfirst, hle⟩, if_pos (by omega)]
  · simp only [NotifiedRange.Contains]
    rw [Word.toNat_ofNat (by omega), Word.toNat_ofNat (by omega)]
    omega

/-- The range a drain passes on lies inside the code range, so `notify` accepts it. -/
theorem drainRange_inside (hend : code.codeEnd ≤ 2 ^ 32) {packed : UInt64} {start length : UInt32}
    (h : drainRange code packed = some (start, length)) :
    0 < length.toNat ∧ code.base.toNat ≤ start.toNat ∧
      start.toNat + length.toNat ≤ code.codeEnd := by
  have hb := code.base.toNat_lt
  have hs := code.size.toNat_lt
  simp only [drainRange] at h
  split at h
  · split at h
    · next hlt =>
      simp only [Option.some.injEq, Prod.mk.injEq] at h
      obtain ⟨rfl, rfl⟩ := h
      have he : code.codeEnd = code.base.toNat + code.size.toNat := rfl
      rw [Word.toNat_ofNat (by omega), Word.toNat_ofNat (by omega)]
      omega
    · cases h
  · cases h

theorem notify_accepts {start length : UInt32} (hl : 0 < length.toNat)
    (hb : code.base.toNat ≤ start.toNat) (he : start.toNat + length.toNat ≤ code.codeEnd)
    (s : NotifyState) : (notify code start length s).2 = {} := by
  unfold notify
  rw [if_neg]
  rintro (h | h | h)
  · rw [h] at hl
    exact Nat.lt_irrefl _ hl
  · rw [UInt32.lt_iff_toNat_lt] at h
    omega
  · omega

end

/-! ## The invariant -/

/-- What every step of a watch on `code` keeps. -/
structure WatchInv (code : CodeRange) (s : WatchState) : Prop where
  watch : s.invalidation.memory = true ∧ s.invalidation.codeRange = code
  records : ∀ call r, s.records call = some r →
    clampWrite code r.address r.length = some (r.first, r.last)
  epochs : ∀ w ∈ s.recorded, w.epoch ≤ s.exchanges
  pending : ∀ w ∈ s.recorded, w.epoch = s.exchanges → ∀ a, w.Contains a → code.Contains a →
    PendingCovers s.invalidation.pendingWrite a
  carried : ∀ w ∈ s.recorded, w.epoch < s.exchanges → ∀ a, w.Contains a → code.Contains a →
    (∃ call number packed start length, s.drains call = some (.exchanged number packed) ∧
      w.epoch ≤ number ∧ drainRange code packed = some (start, length) ∧
      (NotifiedRange.mk number start length).Contains a) ∨
    ∃ range ∈ s.notified, w.epoch ≤ range.number ∧ range.Contains a
  inside : ∀ range ∈ s.notified, ∀ a, range.Contains a → code.Contains a
  accepted : ∀ result ∈ s.results, result.error ≠ .executableRangeInvalid

theorem WatchInv.nothingLost {code : CodeRange} {s : WatchState} (h : WatchInv code s) :
    NothingLost code s where
  covered w hw a ha hc := by
    rcases Nat.lt_or_eq_of_le (h.epochs w hw) with he | he
    · exact .inr (h.carried w hw he a ha hc)
    · exact .inl (h.pending w hw he a ha hc)
  inside := h.inside
  accepted := h.accepted

theorem watchInv_armed (code : CodeRange) : WatchInv code (.armed code) where
  watch := ⟨rfl, rfl⟩
  records := nofun
  epochs := nofun
  pending := nofun
  carried := nofun
  inside := nofun
  accepted := nofun

namespace WatchInv

variable {code : CodeRange} {s : WatchState}

/-- Storing a call's own values keeps the invariant when its clamp is the stored one. -/
theorem setRecord (h : WatchInv code s) (call : Nat) {record : Option RecordCall}
    (hr : ∀ r, record = some r → clampWrite code r.address r.length = some (r.first, r.last)) :
    WatchInv code (s.setRecord call record) :=
  { h with
    records := fun c r hc => by
      simp only [WatchState.setRecord] at hc
      split at hc
      · exact hr r hc
      · exact h.records c r hc }

/-- Recording a write whose bytes of the code range are pending. -/
theorem addRecorded (h : WatchInv code s) {address length : UInt32}
    (hp : ∀ a, (RecordedWrite.mk address length s.exchanges).Contains a → code.Contains a →
      PendingCovers s.invalidation.pendingWrite a) : WatchInv code (s.addRecorded address length) :=
  { h with
    epochs := fun w hw => by
      rcases List.mem_cons.1 hw with rfl | hw
      · exact Nat.le_refl _
      · exact h.epochs w hw
    pending := fun w hw he => by
      rcases List.mem_cons.1 hw with rfl | hw
      · exact hp
      · exact h.pending w hw he
    carried := fun w hw he => by
      rcases List.mem_cons.1 hw with rfl | hw
      · exact (Nat.lt_irrefl _ he).elim
      · exact h.carried w hw he }

/-- A call's word grows the hull. -/
theorem merge (h : WatchInv code s) (first last : UInt32) :
    WatchInv code { s with invalidation := { s.invalidation with
      pendingWrite := mergeWrite s.invalidation.pendingWrite first last } } :=
  { h with
    pending := fun w hw he a ha hc => by
      have hp := h.pending w hw he a ha hc
      unfold PendingCovers at hp ⊢
      simp only [toNat_firstOf_mergeWrite, toNat_lastOf_mergeWrite]
      omega }

/-- A drain that holds no word moves on. -/
theorem setDrain (h : WatchInv code s) {call : Nat} (drain : Option DrainCall)
    (hd : ∀ number packed, s.drains call = some (.exchanged number packed) →
      drainRange code packed = none) : WatchInv code (s.setDrain call drain) :=
  { h with
    carried := fun w hw he a ha hc => by
      rcases h.carried w hw he a ha hc with ⟨c, number, packed, start, length, hdc, hn, hr, hb⟩ | hn
      · refine .inl ⟨c, number, packed, start, length, ?_, hn, hr, hb⟩
        simp only [WatchState.setDrain]
        split
        · next hcc =>
          rw [hd number packed (hcc ▸ hdc)] at hr
          cases hr
        · exact hdc
      · exact .inr hn }

theorem finishDrain (h : WatchInv code s) {call : Nat} {result : RuntimeFailure}
    (hd : ∀ number packed, s.drains call = some (.exchanged number packed) →
      drainRange code packed = none) (hr : result.error ≠ .executableRangeInvalid) :
    WatchInv code (s.finishDrain call result) :=
  { h.setDrain none hd with
    accepted := fun r hm => by
      rcases List.mem_cons.1 hm with rfl | hm
      · exact hr
      · exact h.accepted r hm }

/-- The exchange hands the pending writes to a drain that will pass them on. -/
theorem exchange (hend : code.codeEnd ≤ 2 ^ 32) (haligned : code.base.toNat % 4 = 0)
    (h : WatchInv code s) {call : Nat} (hd : s.drains call = some .entered)
    (hm : ExchangeMeets code s (.exchange call)) :
    WatchInv code (({ s with
      invalidation := { s.invalidation with pendingWrite := kNoPendingWrite }
      exchanges := s.exchanges + 1 } : WatchState).setDrain call
        (some (.exchanged s.exchanges s.invalidation.pendingWrite))) :=
  { h with
    epochs := fun w hw => Nat.le_succ_of_le (h.epochs w hw)
    pending := fun w hw he => by
      have := h.epochs w hw
      simp only [WatchState.setDrain] at he
      omega
    carried := fun w hw he a ha hc => by
      rcases Nat.lt_or_eq_of_le (h.epochs w hw) with hlt | heq
      · rcases h.carried w hw hlt a ha hc with ⟨c, number, packed, start, length, hdc, hrest⟩ | hn
        · refine .inl ⟨c, number, packed, start, length, ?_, hrest⟩
          simp only [WatchState.setDrain]
          split
          · next hcc =>
            rw [hcc, hd] at hdc
            cases hdc
          · exact hdc
        · exact .inr hn
      · -- some write of the batch pulls the word's first address below the sentinel's
        obtain ⟨w', hw', he', ht', hne⟩ := hm ⟨w, hw, heq, w.touches_of_contains ha hc⟩
        unfold RecordedWrite.Touches at ht'
        have hbyte := h.pending w' hw' he' (max w'.address.toNat code.base.toNat)
          ⟨by omega, by omega⟩ ⟨by omega, by omega⟩
        have hfirst : firstOf s.invalidation.pendingWrite ≠ 0xFFFFFFFF := by
          intro hf
          have h1 := hbyte.1
          rw [hf] at h1
          have h2 := w'.address.toNat_lt
          have h3 : w'.address.toNat ≠ 0xFFFFFFFF := fun he =>
            hne (UInt32.toNat_inj.1 he)
          have h4 := code.base.toNat_lt
          have h5 : (0xFFFFFFFF : UInt32).toNat = 0xFFFFFFFF := rfl
          omega
        obtain ⟨start, length, hr, hb⟩ := drainRange_covers hend s.exchanges hfirst
          (h.pending w hw heq a ha hc) hc
        refine .inl ⟨call, s.exchanges, _, start, length, ?_, Nat.le_of_eq heq, hr, hb⟩
        simp only [WatchState.setDrain, if_true] }

/-- A drain passes its range to `notify`. -/
theorem notify (hend : code.codeEnd ≤ 2 ^ 32) (h : WatchInv code s) {call number : Nat}
    {packed : UInt64} {start length : UInt32}
    (hd : s.drains call = some (.exchanged number packed))
    (hr : drainRange code packed = some (start, length)) (cache : List CachedFunction)
    (invalidations : UInt64) :
    WatchInv code (({ s with
      cache := cache
      translationInvalidations := invalidations
      notified := ⟨number, start, length⟩ :: s.notified } : WatchState).setDrain call
        (some .notified)) :=
  { h with
    carried := fun w hw he a ha hc => by
      rcases h.carried w hw he a ha hc with
        ⟨c, n, p, st, len, hdc, hn, hpr, hb⟩ | ⟨range, hm, hn, hb⟩
      · by_cases hcc : c = call
        · rw [hcc, hd] at hdc
          cases hdc
          rw [hr] at hpr
          cases hpr
          exact .inr ⟨_, List.mem_cons_self, hn, hb⟩
        · refine .inl ⟨c, n, p, st, len, ?_, hn, hpr, hb⟩
          simp only [WatchState.setDrain, if_neg hcc]
          exact hdc
      · exact .inr ⟨range, List.mem_cons_of_mem _ hm, hn, hb⟩
    inside := fun range hm a ha => by
      rcases List.mem_cons.1 hm with rfl | hm
      · obtain ⟨-, hb, he⟩ := drainRange_inside hend hr
        simp only [NotifiedRange.Contains] at ha
        exact ⟨by omega, by omega⟩
      · exact h.inside range hm a ha }

/-- **One atomic operation.** -/
theorem step (hcode : AdmittedCodeRange code) (h : WatchInv code s) {e : WatchEvent}
    (hm : ExchangeMeets code s e) {s' : WatchState} (hs : s.step e = some s') :
    WatchInv code s' := by
  have hend := hcode.codeEnd_le
  cases e with
  | record call address length =>
    simp only [WatchState.step, h.watch.1, h.watch.2, not_true_eq_false, if_false] at hs
    split at hs
    · cases hs
    · split at hs
      · next hclamp =>
        cases hs
        exact h.addRecorded fun a ha hc => (clampWrite_eq_none hclamp ha hc).elim
      · next first last hclamp =>
        cases hs
        exact h.setRecord call fun r hr => by cases hr; exact hclamp
  | load call seen =>
    simp only [WatchState.step] at hs
    split at hs
    · next address length first last hr =>
      cases hs
      have hclamp := h.records call _ hr
      exact h.setRecord call fun r he => by cases he; exact hclamp
    · cases hs
  | compareExchange call seen =>
    simp only [WatchState.step] at hs
    split at hs
    · next address length first last current hr =>
      split at hs
      · next heq =>
        cases hs
        have hclamp : clampWrite code address length = some (first, last) := h.records call _ hr
        have hhull := clampWrite_eq_some hend hclamp
        refine ((heq ▸ h.merge first last).setRecord call fun r he => by cases he).addRecorded
          fun a ha hc => ?_
        have ha' : address.toNat ≤ a ∧ a < address.toNat + length.toNat := ha
        unfold CodeRange.Contains at hc
        simp only [WatchState.setRecord, PendingCovers, toNat_firstOf_mergeWrite,
          toNat_lastOf_mergeWrite]
        omega
      · cases hs
    · next address length first last current seen hr =>
      cases hs
      have hclamp := h.records call _ hr
      exact h.setRecord call fun r he => by cases he; exact hclamp
    · cases hs
  | drain call =>
    simp only [WatchState.step] at hs
    split at hs
    · next hnone =>
      cases hs
      exact h.setDrain _ fun number packed hd => by rw [hnone] at hd; cases hd
    · cases hs
  | exchange call =>
    simp only [WatchState.step] at hs
    split at hs
    · next hentered =>
      cases hs
      exact h.exchange hend hcode.aligned.1 hentered hm
    · cases hs
  | notify call =>
    simp only [WatchState.step, h.watch.2] at hs
    split at hs
    · next number packed hd =>
      split at hs
      · next hnone =>
        cases hs
        exact h.setDrain _ fun n p he => by rw [hd] at he; cases he; exact hnone
      · next start length hr =>
        obtain ⟨hl, hb, he⟩ := drainRange_inside hend hr
        rw [notify_accepts hl hb he, if_pos RuntimeFailure.ok_empty] at hs
        cases hs
        exact h.notify hend hd hr _ _
    · cases hs
  | rearm call enabled =>
    simp only [WatchState.step] at hs
    split at hs
    · next hnotified =>
      cases hs
      refine h.finishDrain (fun number packed hd => ?_) ?_
      · rw [hnotified] at hd
        cases hd
      · split
        · exact RuntimeError.noConfusion
        · exact RuntimeError.noConfusion
    · cases hs

end WatchInv

/-- **No observed write is lost**, in every run whose exchanges each find, unless nothing was
recorded in the code range since the last one, a write that starts below the top address. -/
theorem play_nothingLost (code : CodeRange) (hcode : AdmittedCodeRange code)
    (events : List WatchEvent)
    (hm : EveryStep WatchState.step (ExchangeMeets code) (.armed code) events) (s : WatchState)
    (hs : play WatchState.step (.armed code) events = some s) : NothingLost code s :=
  (play_invariant_where (fun _ _ _ h hm hs => h.step hcode hm hs) (watchInv_armed code) hm
    hs).nothingLost

/-! ## The top address -/

instance (code : CodeRange) (s : WatchState) (e : WatchEvent) :
    Decidable (ExchangeMeets code s e) := by
  unfold ExchangeMeets; cases e <;> infer_instance

theorem syntheticCode_admitted : AdmittedCodeRange syntheticCode :=
  admittedCodeRange_of_ok syntheticImports_accepted

/-- One call records a write, one drain takes and passes it. -/
def recordAndDrain (address length : UInt32) : List WatchEvent :=
  [.record 0 address length, .load 0 kNoPendingWrite, .compareExchange 0 none, .drain 1,
   .exchange 1, .notify 1, .rearm 1 true]

theorem play_nothingLost_synthetic :
    ∃ s, play WatchState.step (.armed syntheticCode) (recordAndDrain 0x82000004 4) = some s ∧
      NothingLost syntheticCode s :=
  ⟨_, rfl, play_nothingLost syntheticCode syntheticCode_admitted (recordAndDrain 0x82000004 4)
    (by decide) _ rfl⟩

/-- A code range that ends with the address space. -/
def topCode : CodeRange := ⟨0xFFFF0000, 0x10000⟩

theorem topCode_admitted : AdmittedCodeRange topCode :=
  ⟨by decide, by decide, { base := 0xFFFF0000, size := 0x10000 }, by decide, by decide,
    by decide, by decide⟩

/-- A write of the very last byte is packed as a word that the drain takes for none. -/
theorem not_play_nothingLost :
    ¬ ∀ code, AdmittedCodeRange code → ∀ events s,
      play WatchState.step (.armed code) events = some s → NothingLost code s := by
  intro h
  obtain ⟨s, hs⟩ : ∃ s, play WatchState.step (.armed topCode) (recordAndDrain 0xFFFFFFFF 1) =
    some s := ⟨_, rfl⟩
  have hlost := h topCode topCode_admitted _ s hs
  have hwrite : (⟨0xFFFFFFFF, 1, 0⟩ : RecordedWrite) ∈ s.recorded := by
    cases hs
    exact List.mem_cons_self
  have hpending : s.invalidation.pendingWrite = kNoPendingWrite := by
    cases hs
    rfl
  have hnotified : s.notified = [] := by
    cases hs
    rfl
  have hdrains : ∀ call, s.drains call = none := by
    intro call
    cases hs
    by_cases hc : call = 1 <;>
      simp only [WatchState.finishDrain, WatchState.setDrain, hc, if_true, if_false]
    rfl
  rcases hlost.covered _ hwrite 0xFFFFFFFF (by decide) (by decide) with
    hp | ⟨call, number, packed, start, length, hd, -⟩ | ⟨range, hr, -⟩
  · rw [hpending] at hp
    exact absurd hp (by decide)
  · rw [hdrains call] at hd
    cases hd
  · rw [hnotified] at hr
    cases hr

end X360Port
