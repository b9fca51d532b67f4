import Mathlib.Data.List.Nodup
import Mathlib.Data.List.Perm.Basic
import X360Port.ExecutableInvalidation.Interleaving
import X360Port.Library.WordMasks

/-!
# What a notification drops

`notify` walks the aligned words of a write and asks the processor for the
functions at each, while it removes them from the same table. Whatever the
walk has passed, the table holds the cached functions with no instruction in a
passed word, and the removals are the others, one each. `notifyLoop` is the
walk on the 64-bit counter; it stops, also at the top of the address space.
-/

namespace X360Port

open Library

/-! ## Touched functions -/

/-- The bytes of a write. -/
def WrittenByte (address : GuestAddress) (size : UInt32) (a : Nat) : Prop :=
  address.toNat ≤ a ∧ a < address.toNat + size.toNat

/-- An aligned word with a written byte. -/
def TouchedWord (address : GuestAddress) (size : UInt32) (word : Nat) : Prop :=
  word % 4 = 0 ∧ ∃ a, WrittenByte address size a ∧ word ≤ a ∧ a < word + 4

namespace CachedFunction

/-- The word is an address of the function's instruction range. -/
def Covers (function : CachedFunction) (word : Nat) : Prop :=
  function.address.toNat ≤ word ∧ word ≤ function.endAddress.toNat

instance (function : CachedFunction) (word : Nat) : Decidable (function.Covers word) :=
  inferInstanceAs (Decidable (_ ∧ _))

def CoversAny (function : CachedFunction) (words : List Nat) : Prop :=
  ∃ word ∈ words, function.Covers word

instance (function : CachedFunction) (words : List Nat) : Decidable (function.CoversAny words) :=
  inferInstanceAs (Decidable (∃ word ∈ words, function.Covers word))

theorem not_coversAny_nil (function : CachedFunction) : ¬ function.CoversAny [] := by
  rintro ⟨word, hmem, -⟩
  exact absurd hmem List.not_mem_nil

theorem coversAny_append_singleton (function : CachedFunction) (words : List Nat)
    (instruction : Nat) : function.CoversAny (words ++ [instruction]) ↔
      function.CoversAny words ∨ function.Covers instruction := by
  constructor
  · rintro ⟨word, hmem, hcovers⟩
    rcases List.mem_append.1 hmem with hmem | hmem
    · exact .inl ⟨word, hmem, hcovers⟩
    · exact .inr (List.mem_singleton.1 hmem ▸ hcovers)
  · rintro (⟨word, hmem, hcovers⟩ | hcovers)
    · exact ⟨word, List.mem_append_left _ hmem, hcovers⟩
    · exact ⟨instruction, List.mem_append_right _ List.mem_cons_self, hcovers⟩

def Touched (function : CachedFunction) (address : GuestAddress) (size : UInt32) : Prop :=
  ∃ word, TouchedWord address size word ∧ function.Covers word

end CachedFunction

/-- The words that `notify` walks. -/
def writtenWords (address : GuestAddress) (size : UInt32) : List Nat :=
  let firstInstruction := (address &&& ~~~3).toNat
  List.range' firstInstruction ((address.toNat + size.toNat - firstInstruction + 3) / 4) 4

theorem toNat_firstInstruction (address : GuestAddress) :
    (address &&& ~~~3).toNat = address.toNat / 4 * 4 := by
  have hlow : (3#32).toNat = 2 ^ 2 - 1 := rfl
  exact toNat_and_not_low hlow address.toBitVec

theorem mem_writtenWords {address : GuestAddress} {size : UInt32} {word : Nat}
    (hsize : 0 < size.toNat) :
    word ∈ writtenWords address size ↔ TouchedWord address size word := by
  simp only [writtenWords, List.mem_range', toNat_firstInstruction, TouchedWord, WrittenByte]
  constructor
  · rintro ⟨i, hi, rfl⟩
    refine ⟨by omega, max address.toNat (address.toNat / 4 * 4 + 4 * i), ?_⟩
    omega
  · rintro ⟨hword, a, ha, hle, hlt⟩
    refine ⟨(word - address.toNat / 4 * 4) / 4, ?_, ?_⟩
    · omega
    · omega

theorem CachedFunction.touched_iff (function : CachedFunction) (address : GuestAddress)
    (size : UInt32) :
    0 < size.toNat ∧ function.CoversAny (writtenWords address size) ↔
      function.Touched address size := by
  constructor
  · rintro ⟨hsize, word, hmem, hcovers⟩
    exact ⟨word, (mem_writtenWords hsize).1 hmem, hcovers⟩
  · rintro ⟨word, htouched, hcovers⟩
    obtain ⟨a, ha, -⟩ := htouched.2
    have hsize : 0 < size.toNat := by
      unfold WrittenByte at ha
      omega
    exact ⟨hsize, word, (mem_writtenWords hsize).2 htouched, hcovers⟩

instance (function : CachedFunction) (address : GuestAddress) (size : UInt32) :
    Decidable (function.Touched address size) :=
  decidable_of_iff _ (function.touched_iff address size)

/-- The table and the removals after the write of `[address, address + size)`. -/
structure DropsTouched (address : GuestAddress) (size : UInt32) (cache : List CachedFunction)
    (count : UInt64) (s : NotifyState) : Prop where
  kept : s.cache = cache.filter fun function => ¬ function.Touched address size
  removed : s.invalidated.Perm
    ((cache.filter fun function => function.Touched address size).map (·.address))
  once : s.invalidated.Nodup
  counted : s.translationInvalidations = count + UInt64.ofNat
    (cache.filter fun function => function.Touched address size).length

/-! ## One word -/

/-- Removing functions with addresses of their own, none removed before. -/
theorem foldl_removeFunction (found : List CachedFunction) (s : NotifyState)
    (hfound : (found.map (·.address)).Nodup)
    (hnew : ∀ function ∈ found, function.address ∉ s.invalidated) :
    found.foldl removeFunction s =
      { cache := s.cache.filter fun function => function.address ∉ found.map (·.address)
        invalidated := (found.map (·.address)).reverse ++ s.invalidated
        translationInvalidations := s.translationInvalidations + UInt64.ofNat found.length } := by
  induction found generalizing s with
  | nil =>
    have hzero : s.translationInvalidations + UInt64.ofNat 0 = s.translationInvalidations :=
      UInt64.add_zero _
    simp only [List.foldl_nil, List.map_nil, List.not_mem_nil, not_false_eq_true, decide_true,
      List.filter_true, List.reverse_nil, List.nil_append, List.length_nil, hzero]
  | cons function found ih =>
    rw [List.map_cons, List.nodup_cons] at hfound
    have hfirst : function.address ∉ s.invalidated := hnew _ List.mem_cons_self
    have hrest : ∀ f ∈ found, f.address ∉ function.address :: s.invalidated := by
      intro f hf hmem
      rcases List.mem_cons.1 hmem with heq | hmem
      · exact hfound.1 (heq ▸ List.mem_map_of_mem hf)
      · exact hnew f (List.mem_cons_of_mem _ hf) hmem
    rw [List.foldl_cons, removeFunction, if_neg hfirst, ih _ hfound.2 hrest]
    have hcount : s.translationInvalidations + 1 + UInt64.ofNat found.length =
        s.translationInvalidations + UInt64.ofNat (function :: found).length := by
      rw [List.length_cons, Nat.add_comm found.length, UInt64.ofNat_add, UInt64.add_assoc]
      rfl
    simp only [hcount, List.filter_filter, List.map_cons, List.mem_cons, not_or,
      List.reverse_cons, List.append_assoc, List.singleton_append, Bool.decide_and, ne_eq,
      Bool.and_comm]

/-- The elements with one of two properties, those with the first one last. -/
theorem filter_or_perm {α : Type} (p q : α → Bool) (l : List α) :
    (l.filter (fun x => !p x && q x) ++ l.filter p).Perm (l.filter fun x => p x || q x) := by
  have hfirst : (l.filter fun x => p x || q x).filter p = l.filter p := by
    rw [List.filter_filter]
    refine List.filter_congr fun x _ => ?_
    cases p x <;> rfl
  have hsecond : (l.filter fun x => p x || q x).filter (fun x => !p x) =
      l.filter fun x => !p x && q x := by
    rw [List.filter_filter]
    refine List.filter_congr fun x _ => ?_
    cases p x <;> rfl
  refine List.perm_append_comm.trans ?_
  rw [← hfirst, ← hsecond]
  exact List.filter_append_perm p _

/-- A word drops the functions that it is in, when none of those in the table was removed
before. -/
theorem notifyWord_eq (s : NotifyState) (hdistinct : (s.cache.map (·.address)).Nodup)
    (hnew : ∀ function ∈ s.cache, function.address ∉ s.invalidated) (instruction : Nat) :
    let found := s.cache.filter fun function => function.Covers instruction
    notifyWord s instruction =
      { cache := s.cache.filter fun function => ¬ function.Covers instruction
        invalidated := (found.map (·.address)).reverse ++ s.invalidated
        translationInvalidations := s.translationInvalidations + UInt64.ofNat found.length } := by
  intro found
  have hfound : (found.map (·.address)).Nodup := (List.filter_sublist.map _).nodup hdistinct
  have hrun : notifyWord s instruction = _ := foldl_removeFunction found s hfound
    fun function hmem => hnew function (List.mem_of_mem_filter hmem)
  rw [hrun]
  congr 1
  refine List.filter_congr fun function hmem => decide_eq_decide.2 (not_congr ⟨?_, ?_⟩)
  · intro hin
    obtain ⟨other, hother, heq⟩ := List.mem_map.1 hin
    obtain ⟨hcached, hcovers⟩ := List.mem_filter.1 hother
    exact List.inj_on_of_nodup_map hdistinct hcached hmem heq ▸ of_decide_eq_true hcovers
  · intro hcovers
    exact List.mem_map_of_mem (List.mem_filter.2 ⟨hmem, decide_eq_true hcovers⟩)

/-- What the words passed so far have done to the table. -/
structure NotifiedUpTo (cache : List CachedFunction) (count : UInt64) (words : List Nat)
    (s : NotifyState) : Prop where
  kept : s.cache = cache.filter fun function => ¬ function.CoversAny words
  removed : s.invalidated.Perm
    ((cache.filter fun function => function.CoversAny words).map (·.address))
  counted : s.translationInvalidations = count + UInt64.ofNat s.invalidated.length

namespace NotifiedUpTo

variable {cache : List CachedFunction} {count : UInt64} {words : List Nat} {s : NotifyState}

theorem start (cache : List CachedFunction) (count : UInt64) :
    NotifiedUpTo cache count [] ⟨cache, [], count⟩ where
  kept := by
    simp only [CachedFunction.not_coversAny_nil, not_false_eq_true, decide_true, List.filter_true]
  removed := by
    simp only [CachedFunction.not_coversAny_nil, decide_false, List.filter_false, List.map_nil,
      List.Perm.refl]
  counted := (UInt64.add_zero _).symm

/-- A function still in the table was not removed: addresses are distinct. -/
theorem not_removed (h : NotifiedUpTo cache count words s)
    (hdistinct : (cache.map (·.address)).Nodup) :
    ∀ function ∈ s.cache, function.address ∉ s.invalidated := by
  intro function hmem hremoved
  rw [h.kept] at hmem
  obtain ⟨hcached, hkept⟩ := List.mem_filter.1 hmem
  obtain ⟨other, hother, heq⟩ := List.mem_map.1 (h.removed.mem_iff.1 hremoved)
  obtain ⟨hother, hcovers⟩ := List.mem_filter.1 hother
  have hsame := List.inj_on_of_nodup_map hdistinct hother hcached heq
  exact of_decide_eq_true hkept (hsame ▸ of_decide_eq_true hcovers)

/-- One more word. -/
theorem word (h : NotifiedUpTo cache count words s) (hdistinct : (cache.map (·.address)).Nodup)
    (instruction : Nat) :
    NotifiedUpTo cache count (words ++ [instruction]) (notifyWord s instruction) := by
  have hsub : s.cache.Sublist cache := h.kept ▸ List.filter_sublist
  have hfound : (s.cache.filter fun function => function.Covers instruction) =
      cache.filter fun function =>
        !decide (function.CoversAny words) && decide (function.Covers instruction) := by
    rw [h.kept, List.filter_filter]
    refine List.filter_congr fun function _ => ?_
    rw [decide_not, Bool.and_comm]
  rw [notifyWord_eq s ((hsub.map _).nodup hdistinct) (h.not_removed hdistinct) instruction]
  refine ⟨?_, ?_, ?_⟩
  · dsimp only
    rw [h.kept, List.filter_filter]
    refine List.filter_congr fun function _ => ?_
    rw [← Bool.decide_and, decide_eq_decide, function.coversAny_append_singleton, not_or, and_comm]
  · refine ((List.reverse_perm _).append h.removed).trans ?_
    rw [← List.map_append, hfound]
    simp only [CachedFunction.coversAny_append_singleton, Bool.decide_or]
    exact (filter_or_perm _ _ cache).map _
  · dsimp only
    rw [h.counted, List.length_append, List.length_reverse, List.length_map,
      Nat.add_comm (List.length _), UInt64.ofNat_add, UInt64.add_assoc]

/-- The words one after another. -/
theorem run (h : NotifiedUpTo cache count words s) (hdistinct : (cache.map (·.address)).Nodup)
    (more : List Nat) : NotifiedUpTo cache count (words ++ more) (more.foldl notifyWord s) := by
  induction more generalizing words s with
  | nil => rwa [List.append_nil]
  | cons instruction more ih =>
    have hstep := ih (h.word hdistinct instruction)
    rwa [List.append_assoc, List.singleton_append] at hstep

/-- All words of a write. -/
theorem dropsTouched {address : GuestAddress} {size : UInt32} (hsize : 0 < size.toNat)
    (hdistinct : (cache.map (·.address)).Nodup)
    (h : NotifiedUpTo cache count (writtenWords address size) s) :
    DropsTouched address size cache count s := by
  have htouched : ∀ function : CachedFunction,
      function.CoversAny (writtenWords address size) ↔ function.Touched address size := by
    intro function
    rw [← function.touched_iff, and_iff_right hsize]
  have hkept := h.kept
  have hremoved := h.removed
  simp only [htouched] at hkept hremoved
  refine ⟨hkept, hremoved, ?_, ?_⟩
  · rw [hremoved.nodup_iff]
    exact (List.filter_sublist.map _).nodup hdistinct
  · rw [h.counted, hremoved.length_eq, List.length_map]

end NotifiedUpTo

/-! ## The walk -/

/-- The walk on the 64-bit counter, given a bound on the turns. -/
def notifyLoop (writeEnd : UInt64) : Nat → UInt64 → NotifyState → Option NotifyState
  | 0, _, _ => none
  | turns + 1, instruction, s =>
    if instruction < writeEnd then
      notifyLoop writeEnd turns (instruction + 4) (notifyWord s instruction.toUInt32.toNat)
    else some s

/-- The walk ends after its last word. -/
theorem notifyLoop_eq {writeEnd : UInt64} (hend : writeEnd.toNat ≤ 2 ^ 32) (words : Nat) :
    ∀ (instruction : UInt64) (s : NotifyState),
      (writeEnd.toNat - instruction.toNat + 3) / 4 = words →
      notifyLoop writeEnd (words + 1) instruction s =
        some ((List.range' instruction.toNat words 4).foldl notifyWord s) := by
  induction words with
  | zero =>
    intro instruction s hwords
    have hstop : ¬ instruction < writeEnd := by
      rw [UInt64.lt_iff_toNat_lt]
      omega
    rw [notifyLoop, if_neg hstop]
    rfl
  | succ words ih =>
    intro instruction s hwords
    have hgoes : instruction < writeEnd := by
      rw [UInt64.lt_iff_toNat_lt]
      omega
    have hlt := UInt64.lt_iff_toNat_lt.1 hgoes
    -- below 2 ^ 32 the cast to a guest address is exact and the counter does not wrap
    have hcast : instruction.toUInt32.toNat = instruction.toNat := by
      rw [UInt64.toNat_toUInt32, Nat.mod_eq_of_lt (by omega)]
    have hnext : (instruction + 4).toNat = instruction.toNat + 4 := by
      have hfour : (4 : UInt64).toNat = 4 := rfl
      rw [UInt64.toNat_add, hfour]
      exact Nat.mod_eq_of_lt (by omega)
    rw [notifyLoop, if_pos hgoes, hcast, ih (instruction + 4) _ (by omega), hnext,
      List.range'_succ, List.foldl_cons]

/-! ## The notification -/

/-- A notification is refused and does nothing, or its range is inside and it walks the words. -/
theorem notify_cases (code : CodeRange) (address : GuestAddress) (size : UInt32)
    (s : NotifyState) :
    notify code address size s = (s, notInsideCode) ∨
    (0 < size.toNat ∧ code.base.toNat ≤ address.toNat ∧
      address.toNat + size.toNat ≤ code.codeEnd ∧
      notify code address size s = ((writtenWords address size).foldl notifyWord s, {})) := by
  by_cases houtside : size = 0 ∨ address < code.base ∨
      address.toNat + size.toNat > code.codeEnd
  · exact .inl (if_pos houtside)
  · obtain ⟨hsize, hrange⟩ := not_or.1 houtside
    obtain ⟨hbase, hend⟩ := not_or.1 hrange
    rw [UInt32.lt_iff_toNat_lt] at hbase
    have hpos := Word.toNat_pos hsize
    exact .inr ⟨by omega, by omega, by omega, if_neg houtside⟩

theorem notify_of_accepts {code : CodeRange} {address : GuestAddress} {size : UInt32}
    {s : NotifyState} (h : (notify code address size s).2.Ok) :
    0 < size.toNat ∧ code.base.toNat ≤ address.toNat ∧
      address.toNat + size.toNat ≤ code.codeEnd ∧
      (notify code address size s).1 = (writtenWords address size).foldl notifyWord s := by
  rcases notify_cases code address size s with heq | ⟨hsize, hbase, hend, heq⟩
  · rw [heq] at h
    exact absurd h RuntimeError.noConfusion
  · exact ⟨hsize, hbase, hend, by rw [heq]⟩

theorem notify_of_refused {code : CodeRange} {address : GuestAddress} {size : UInt32}
    {s : NotifyState} (h : ¬ (notify code address size s).2.Ok) :
    notify code address size s = (s, notInsideCode) := by
  rcases notify_cases code address size s with heq | ⟨-, -, -, heq⟩
  · exact heq
  · rw [heq] at h
    exact absurd rfl h

theorem notify_refuses_iff (code : CodeRange) (address : GuestAddress) (size : UInt32)
    (s : NotifyState) : ¬ (notify code address size s).2.Ok ↔
      size = 0 ∨ ∃ a, WrittenByte address size a ∧ ¬ code.Contains a := by
  unfold WrittenByte CodeRange.Contains
  constructor
  · intro hrefused
    by_contra hinside
    obtain ⟨hsize, houtside⟩ := not_or.1 hinside
    have hbytes : ∀ a, address.toNat ≤ a ∧ a < address.toNat + size.toNat →
        code.base.toNat ≤ a ∧ a < code.codeEnd :=
      fun a ha => Classical.byContradiction fun hnot => houtside ⟨a, ha, hnot⟩
    have hpos := Word.toNat_pos hsize
    have hfirst := hbytes address.toNat (by omega)
    have hlast := hbytes (address.toNat + size.toNat - 1) (by omega)
    apply hrefused
    rw [notify_accepts (by omega) hfirst.1 (by omega)]
    rfl
  · intro houtside haccepted
    obtain ⟨hsize, hbase, hend, -⟩ := notify_of_accepts haccepted
    rcases houtside with rfl | ⟨a, ha, hnot⟩
    · exact Nat.lt_irrefl _ hsize
    · apply hnot
      omega

/-- A notification on a validated module's code range is refused just when the write is empty
or leaves the range, and then does nothing. One that is accepted drops the functions with an
instruction in a touched word, one removal each, and its walk ends. -/
theorem notify_drops_touched {module : GuestModule} (hmodule : (validateModule module).Ok)
    (address : GuestAddress) (size : UInt32) (cache : List CachedFunction)
    (hdistinct : (cache.map (·.address)).Nodup) (count : UInt64) :
    let code := module.descriptor.code
    let s : NotifyState := ⟨cache, [], count⟩
    let result := notify code address size s
    (¬ result.2.Ok ↔ size = 0 ∨ ∃ a, WrittenByte address size a ∧ ¬ code.Contains a) ∧
      (¬ result.2.Ok → result = (s, notInsideCode)) ∧
      (result.2.Ok → DropsTouched address size cache count result.1 ∧
        ∃ turns, notifyLoop (address.toUInt64 + size.toUInt64) turns (address &&& ~~~3).toUInt64 s =
          some result.1) := by
  intro code s result
  refine ⟨notify_refuses_iff code address size s, notify_of_refused, fun haccepted => ?_⟩
  obtain ⟨hsize, -, hend, hwalk⟩ := notify_of_accepts haccepted
  have htop : code.codeEnd ≤ 2 ^ 32 := (admittedCodeRange_of_ok hmodule).codeEnd_le
  have hwriteEnd : (address.toUInt64 + size.toUInt64).toNat = address.toNat + size.toNat := by
    have ha := address.toNat_lt
    have hs := size.toNat_lt
    rw [UInt64.toNat_add, UInt32.toNat_toUInt64, UInt32.toNat_toUInt64,
      Nat.mod_eq_of_lt (by omega)]
  have hrun := (NotifiedUpTo.start cache count).run hdistinct (writtenWords address size)
  rw [List.nil_append, ← hwalk] at hrun
  refine ⟨hrun.dropsTouched hsize hdistinct, (writtenWords address size).length + 1, ?_⟩
  have hwords : (writtenWords address size).length = ((address.toUInt64 + size.toUInt64).toNat -
      (address &&& ~~~3).toUInt64.toNat + 3) / 4 := by
    rw [hwriteEnd, UInt32.toNat_toUInt64, writtenWords, List.length_range']
  rw [notifyLoop_eq (hwriteEnd ▸ hend.trans htop) _ _ s hwords.symm, hwords,
    UInt32.toNat_toUInt64, hwriteEnd]
  exact congrArg some hwalk.symm

/-- A write across two words of one function, in a table that holds another. -/
theorem notify_drops_touched_synthetic :
    DropsTouched 0x82000006 4 [⟨0x82000000, 0x8200000C⟩, ⟨0x82000010, 0x8200001C⟩] 7
      (notify syntheticCode 0x82000006 4
        ⟨[⟨0x82000000, 0x8200000C⟩, ⟨0x82000010, 0x8200001C⟩], [], 7⟩).1 := by
  have hmodule : (validateModule (syntheticModule [])).Ok := syntheticModule_accepted (by decide)
  exact ((notify_drops_touched hmodule 0x82000006 4
    [⟨0x82000000, 0x8200000C⟩, ⟨0x82000010, 0x8200001C⟩] (by decide) 7).2.2 (by decide)).1

end X360Port
