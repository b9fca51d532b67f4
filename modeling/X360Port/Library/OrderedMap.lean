import Mathlib.Data.List.Nodup

/-!
# Ordered maps

A map is the list of its entries in strict key order. `lastUpTo` is the entry
before the first one with a larger key: the way to ask an ordered map which of
its entries starts last, no later than a given key.

The last part is about maps whose entries are ranges, the key the start. When
no two of them meet, only the last one that starts no later than a span can
hold it (`exists_lastUpTo_iff`).
-/

namespace X360Port.Library

set_option linter.unusedSectionVars false

/-- A map as its entries, in strict key order. -/
structure OrderedMap (κ α : Type) [LT κ] where
  entries : List (κ × α)
  sorted : entries.Pairwise fun a b => a.1 < b.1

namespace OrderedMap

section

variable {κ α : Type} [LT κ] [LE κ] [Std.IsLinearOrder κ] [Std.LawfulOrderLT κ] [DecidableLT κ]
  [DecidableEq κ] {m : OrderedMap κ α} {k : κ} {a : α} {e : κ × α}

def empty : OrderedMap κ α := ⟨[], .nil⟩

/-- The value at a key. -/
def find (m : OrderedMap κ α) (k : κ) : Option α :=
  (m.entries.find? fun e => e.1 = k).map (·.2)

/-- The entries with one more, unless its key is there. -/
def emplaceEntry (k : κ) (a : α) : List (κ × α) → List (κ × α)
  | [] => [(k, a)]
  | e :: es =>
    if k < e.1 then (k, a) :: e :: es
    else if e.1 < k then e :: emplaceEntry k a es
    else e :: es

/-- The entries before the first one with a larger key. -/
def upTo (m : OrderedMap κ α) (k : κ) : List (κ × α) := m.entries.takeWhile fun e => ¬ k < e.1

/-- The last entry with a key up to `k`. -/
def lastUpTo (m : OrderedMap κ α) (k : κ) : Option (κ × α) := (m.upTo k).getLast?

theorem mem_of_mem_emplaceEntry {es : List (κ × α)} (h : e ∈ emplaceEntry k a es) :
    e = (k, a) ∨ e ∈ es := by
  induction es with
  | nil => exact .inl (List.mem_singleton.1 h)
  | cons head es ih =>
    rw [emplaceEntry] at h
    split at h
    · exact List.mem_cons.1 h
    · split at h
      · rcases List.mem_cons.1 h with h | h
        · exact .inr (List.mem_cons.2 (.inl h))
        · exact (ih h).imp_right (List.mem_cons_of_mem _)
      · exact .inr h

theorem pairwise_emplaceEntry {es : List (κ × α)} (h : es.Pairwise fun a b => a.1 < b.1) :
    (emplaceEntry k a es).Pairwise fun a b => a.1 < b.1 := by
  induction es with
  | nil => exact List.pairwise_singleton _ _
  | cons head es ih =>
    rw [List.pairwise_cons] at h
    rw [emplaceEntry]
    split
    · next hk =>
      refine List.pairwise_cons.2 ⟨fun e he => ?_, List.pairwise_cons.2 h⟩
      rcases List.mem_cons.1 he with rfl | he
      · exact hk
      · exact Std.lt_trans hk (h.1 e he)
    · split
      · next hk =>
        refine List.pairwise_cons.2 ⟨fun e he => ?_, ih h.2⟩
        rcases mem_of_mem_emplaceEntry he with rfl | he
        · exact hk
        · exact h.1 e he
      · exact List.pairwise_cons.2 h

/-- A new entry, unless its key is there. -/
def emplace (m : OrderedMap κ α) (k : κ) (a : α) : OrderedMap κ α where
  entries := emplaceEntry k a m.entries
  sorted := pairwise_emplaceEntry m.sorted

/-- The map without a key. -/
def erase (m : OrderedMap κ α) (k : κ) : OrderedMap κ α where
  entries := m.entries.filter fun e => e.1 ≠ k
  sorted := m.sorted.filter _

/-- Entries with one key are one entry. -/
theorem entry_unique {e e' : κ × α} (h : e ∈ m.entries) (h' : e' ∈ m.entries)
    (hkey : e.1 = e'.1) : e = e' := by
  have hkeys : (m.entries.map (·.1)).Nodup := by
    refine List.pairwise_map.2 (m.sorted.imp fun {a b} hlt heq => ?_)
    rw [heq] at hlt
    exact Std.lt_irrefl hlt
  exact List.inj_on_of_nodup_map hkeys h h' hkey

theorem find_eq_some_iff : m.find k = some a ↔ (k, a) ∈ m.entries := by
  rw [find, Option.map_eq_some_iff]
  constructor
  · rintro ⟨e, he, rfl⟩
    have hkey : e.1 = k := by simpa using List.find?_some he
    rw [← hkey]
    exact List.mem_of_find?_eq_some he
  · intro h
    cases hf : m.entries.find? fun e => e.1 = k with
    | none =>
      have hne := List.find?_eq_none.1 hf _ h
      rw [decide_eq_true_iff] at hne
      exact absurd rfl hne
    | some e =>
      have hkey : e.1 = k := by simpa using List.find?_some hf
      exact ⟨e, rfl, by rw [entry_unique (List.mem_of_find?_eq_some hf) h hkey]⟩

theorem find_eq_none_iff : m.find k = none ↔ ∀ e ∈ m.entries, e.1 ≠ k := by
  rw [find, Option.map_eq_none_iff, List.find?_eq_none]
  simp

/-- A new key is added. -/
theorem mem_emplace_iff (h : m.find k = none) :
    e ∈ (m.emplace k a).entries ↔ e = (k, a) ∨ e ∈ m.entries := by
  refine ⟨mem_of_mem_emplaceEntry, ?_⟩
  have hkey := find_eq_none_iff.1 h
  show e = (k, a) ∨ e ∈ m.entries → e ∈ emplaceEntry k a m.entries
  generalize m.entries = es at hkey
  induction es with
  | nil => exact fun he => he.elim (fun he => List.mem_singleton.2 he) fun he => nomatch he
  | cons head es ih =>
    rw [List.forall_mem_cons] at hkey
    rw [emplaceEntry]
    split
    · exact List.mem_cons.2
    · next hle =>
      rw [if_pos (Std.lt_of_le_of_ne (Std.not_lt.1 hle) hkey.1), List.mem_cons, List.mem_cons]
      rintro (he | he | he)
      · exact .inr (ih hkey.2 (.inl he))
      · exact .inl he
      · exact .inr (ih hkey.2 (.inr he))

@[simp] theorem mem_erase_iff : e ∈ (m.erase k).entries ↔ e ∈ m.entries ∧ e.1 ≠ k := by
  rw [erase, List.mem_filter, decide_eq_true_iff]

theorem mem_upTo_iff : e ∈ m.upTo k ↔ e ∈ m.entries ∧ e.1 ≤ k := by
  rw [upTo]
  have hsorted := m.sorted
  generalize m.entries = es at hsorted ⊢
  induction es with
  | nil => simp
  | cons head es ih =>
    rw [List.pairwise_cons] at hsorted
    rw [List.takeWhile_cons]
    split
    · next hle =>
      rw [decide_eq_true_iff, Std.not_lt] at hle
      have ih : (e ∈ es.takeWhile fun e => ¬ k < e.1) ↔ e ∈ es ∧ e.1 ≤ k := ih hsorted.2
      rw [List.mem_cons, List.mem_cons, ih]
      constructor
      · rintro (rfl | he)
        · exact ⟨.inl rfl, hle⟩
        · exact ⟨.inr he.1, he.2⟩
      · rintro ⟨rfl | he, hk⟩
        · exact .inl rfl
        · exact .inr ⟨he, hk⟩
    · next hgt =>
      rw [decide_eq_true_iff, not_not] at hgt
      constructor
      · exact fun he => nomatch he
      · rintro ⟨he, hk⟩
        rcases List.mem_cons.1 he with rfl | he
        · exact absurd hgt (Std.not_lt.2 hk)
        · exact absurd (Std.lt_trans hgt (hsorted.1 e he)) (Std.not_lt.2 hk)

/-- The last entry up to a key. -/
theorem lastUpTo_spec (h : m.lastUpTo k = some e) :
    e ∈ m.entries ∧ e.1 ≤ k ∧ ∀ e' ∈ m.entries, e'.1 ≤ k → e'.1 ≤ e.1 := by
  have hmem := mem_upTo_iff.1 (List.mem_of_getLast? h)
  refine ⟨hmem.1, hmem.2, fun e' he' hk => ?_⟩
  have hin := mem_upTo_iff.2 ⟨he', hk⟩
  have hsorted : (m.upTo k).Pairwise fun a b => a.1 < b.1 :=
    m.sorted.sublist (List.takeWhile_sublist _)
  obtain ⟨front, hfront⟩ := List.getLast?_eq_some_iff.1 h
  rw [hfront] at hin hsorted
  rcases List.mem_append.1 hin with hin | hin
  · exact Std.le_of_lt ((List.pairwise_append.1 hsorted).2.2 e' hin e List.mem_cons_self)
  · rw [List.mem_singleton.1 hin]
    exact Std.le_refl _

theorem lastUpTo_isSome (h : e ∈ m.entries) (hk : e.1 ≤ k) : ∃ last, m.lastUpTo k = some last := by
  cases hlast : m.lastUpTo k with
  | some last => exact ⟨last, rfl⟩
  | none =>
    have hempty := List.getLast?_eq_none_iff.1 hlast
    have hin := mem_upTo_iff.2 ⟨h, hk⟩
    rw [hempty] at hin
    cases hin

/-! ## Ranges -/

/-- No two of the map's ranges meet. -/
def RangesApart (start : κ → Nat) (extent : α → Nat) (m : OrderedMap κ α) : Prop :=
  ∀ e ∈ m.entries, ∀ e' ∈ m.entries, e.1 ≠ e'.1 →
    start e.1 + extent e.2 ≤ start e'.1 ∨ start e'.1 + extent e'.2 ≤ start e.1

/-- **Finding the range of a span.** The last range that starts no later than a span holds
it, if any range does. -/
theorem exists_lastUpTo_iff {start : κ → Nat} {extent : α → Nat}
    (hstart : ∀ a b, a ≤ b ↔ start a ≤ start b) (hapart : m.RangesApart start extent) {n : Nat}
    (hn : 0 < n) :
    (∃ e, m.lastUpTo k = some e ∧ start k + n ≤ start e.1 + extent e.2) ↔
      ∃ e ∈ m.entries, start e.1 ≤ start k ∧ start k + n ≤ start e.1 + extent e.2 := by
  constructor
  · rintro ⟨e, he, hend⟩
    obtain ⟨hmem, hle, -⟩ := lastUpTo_spec he
    exact ⟨e, hmem, (hstart _ _).1 hle, hend⟩
  · rintro ⟨e, hmem, hbegin, hend⟩
    obtain ⟨last, hlast⟩ := lastUpTo_isSome hmem ((hstart _ _).2 hbegin)
    obtain ⟨hlastMem, hlastLe, hgreatest⟩ := lastUpTo_spec hlast
    have hle := hgreatest e hmem ((hstart _ _).2 hbegin)
    suffices heq : e.1 = last.1 by
      rw [entry_unique hmem hlastMem heq] at hend
      exact ⟨last, hlast, hend⟩
    by_contra hne
    rw [hstart] at hlastLe
    rcases hapart e hmem last hlastMem hne with h | h
    · omega
    · exact hne (Std.le_antisymm hle ((hstart _ _).2 (by omega)))

end

end OrderedMap

end X360Port.Library
