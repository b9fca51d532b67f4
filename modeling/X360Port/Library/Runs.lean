import Mathlib.Data.List.Nodup
import Mathlib.Data.List.Induction

/-!
# Grouping a key-ordered list into runs

A builder keeps one accumulator for each run of equal keys: an item whose key
is the last run's is added to it, any other item opens a new run. When the
list is ordered by key, a key never comes back after another, so there is one
run for each key and it holds exactly the items of that key, in order.
-/

namespace X360Port.Library

section

variable {κ α σ : Type} [DecidableEq κ] (key : σ → κ) (init : κ → σ) (add : σ → α → σ)

/-- Put one item into the runs. -/
def extendRuns (runs : List σ) (k : κ) (a : α) : List σ :=
  match runs.getLast? with
  | some last => if key last = k then runs.dropLast ++ [add last a] else runs ++ [add (init k) a]
  | none => [add (init k) a]

/-- The runs of a list of keyed items. -/
def runsOf (xs : List (κ × α)) : List σ :=
  xs.foldl (fun runs x => extendRuns key init add runs x.1 x.2) []

/-- The items of one key, in order. -/
def itemsOf (xs : List (κ × α)) (k : κ) : List α := (xs.filter fun x => x.1 = k).map (·.2)

theorem mem_itemsOf {xs : List (κ × α)} {k : κ} {a : α} : a ∈ itemsOf xs k ↔ (k, a) ∈ xs := by
  simp [itemsOf]

/-- The accumulator of all items of one key. -/
def runOf (xs : List (κ × α)) (k : κ) : σ := (itemsOf xs k).foldl add (init k)

variable {key init add}

@[simp] theorem runsOf_nil : runsOf key init add [] = [] := rfl

theorem runsOf_concat (xs : List (κ × α)) (x : κ × α) :
    runsOf key init add (xs ++ [x]) =
      extendRuns key init add (runsOf key init add xs) x.1 x.2 := by
  unfold runsOf; rw [List.foldl_append]; rfl

theorem itemsOf_concat (xs : List (κ × α)) (x : κ × α) (k : κ) :
    itemsOf (xs ++ [x]) k = if x.1 = k then itemsOf xs k ++ [x.2] else itemsOf xs k := by
  unfold itemsOf
  rw [List.filter_append]
  by_cases h : x.1 = k <;> simp [h]

theorem runOf_concat_self (xs : List (κ × α)) (x : κ × α) :
    runOf init add (xs ++ [x]) x.1 = add (runOf init add xs x.1) x.2 := by
  unfold runOf; rw [itemsOf_concat, if_pos rfl, List.foldl_append]; rfl

theorem runOf_concat_ne (xs : List (κ × α)) (x : κ × α) {k : κ} (h : x.1 ≠ k) :
    runOf init add (xs ++ [x]) k = runOf init add xs k := by
  unfold runOf; rw [itemsOf_concat, if_neg h]

/-- A key without items has the empty accumulator. -/
theorem runOf_of_not_mem {xs : List (κ × α)} {k : κ} (h : k ∉ xs.map (·.1)) :
    runOf init add xs k = init k := by
  unfold runOf itemsOf
  rw [List.filter_eq_nil_iff.2]
  · rfl
  · intro x hx he
    exact h (List.mem_map.2 ⟨x, hx, by simpa using he⟩)

/-- The runs of a list: one for each key, holding the items of that key. -/
structure RunsOk (key : σ → κ) (init : κ → σ) (add : σ → α → σ) (xs : List (κ × α))
    (runs : List σ) : Prop where
  nodup : (runs.map key).Nodup
  keys : ∀ k, k ∈ runs.map key ↔ k ∈ xs.map (·.1)
  run : ∀ r ∈ runs, r = runOf init add xs (key r)
  last : runs.getLast?.map key = xs.getLast?.map (·.1)

variable {R : κ → κ → Prop} [Std.Asymm R]

omit [DecidableEq κ] in
/-- In an ordered list a key other than the last one's is new. -/
theorem key_fresh {xs : List (κ × α)} {x last : κ × α}
    (h : (xs ++ [x]).Pairwise fun a b => R a.1 b.1 ∨ a.1 = b.1) (hl : xs.getLast? = some last)
    (hne : last.1 ≠ x.1) : x.1 ∉ xs.map (·.1) := by
  intro hm
  obtain ⟨p, hp, hpx⟩ := List.mem_map.1 hm
  obtain ⟨front, rfl⟩ := List.getLast?_eq_some_iff.1 hl
  rw [List.pairwise_append, List.pairwise_append] at h
  have hlx := (h.2.2 last (by simp) x (by simp)).resolve_right hne
  rcases List.mem_append.1 hp with hp | hp
  · rcases h.1.2.2 p hp last (by simp) with hpl | hpl
    · rw [hpx] at hpl
      exact Std.Asymm.asymm _ _ hlx hpl
    · exact hne (hpl.symm.trans hpx)
  · rw [List.mem_singleton] at hp
    exact hne (hp ▸ hpx)

/-- Opening a run for a new key. -/
theorem RunsOk.open {xs : List (κ × α)} {runs : List σ} (h : RunsOk key init add xs runs)
    (hkey : ∀ k, key (init k) = k) (hadd : ∀ s a, key (add s a) = key s)
    {x : κ × α} (hx : x.1 ∉ xs.map (·.1)) :
    RunsOk key init add (xs ++ [x]) (runs ++ [add (init x.1) x.2]) where
  nodup := by
    rw [List.map_append, List.map_singleton, hadd, hkey]
    refine h.nodup.append (List.nodup_singleton _) fun k hk hk' => ?_
    rw [List.mem_singleton] at hk'
    exact hx ((h.keys _).1 (hk' ▸ hk))
  keys k := by
    simp only [List.map_append, List.mem_append, h.keys, List.map_singleton, hadd, hkey]
  run r hr := by
    rcases List.mem_append.1 hr with hr | hr
    · have hne : x.1 ≠ key r := fun he =>
        hx (he ▸ (h.keys _).1 (List.mem_map_of_mem hr))
      rw [runOf_concat_ne _ _ hne]
      exact h.run r hr
    · rw [List.mem_singleton] at hr
      rw [hr, hadd, hkey, runOf_concat_self, runOf_of_not_mem hx]
  last := by simp [hadd, hkey]

/-- Adding to the last run. -/
theorem RunsOk.extend {xs : List (κ × α)} {front : List σ} {last : σ}
    (h : RunsOk key init add xs (front ++ [last])) (hadd : ∀ s a, key (add s a) = key s) {a : α} :
    RunsOk key init add (xs ++ [(key last, a)]) (front ++ [add last a]) where
  nodup := by
    have := h.nodup
    rw [List.map_append, List.map_singleton] at this ⊢
    rwa [hadd]
  keys k := by
    have := h.keys k
    have hl := (h.keys (key last)).1 (by simp)
    simp only [List.map_append, List.mem_append, List.map_singleton, List.mem_singleton, hadd]
      at this ⊢
    rw [this]
    constructor
    · exact .inl
    · rintro (hk | rfl)
      · exact hk
      · exact hl
  run r hr := by
    rcases List.mem_append.1 hr with hr | hr
    · have hnd := h.nodup
      rw [List.map_append, List.nodup_append] at hnd
      have hne : key last ≠ key r := fun he =>
        hnd.2.2 (key r) (List.mem_map_of_mem hr) (key last) (by simp) he.symm
      rw [runOf_concat_ne _ _ hne]
      exact h.run r (List.mem_append_left _ hr)
    · rw [List.mem_singleton] at hr
      rw [hr, hadd, runOf_concat_self]
      exact congrArg (add · a) (h.run last (by simp))
  last := by simp [hadd]

/-- **Runs of an ordered list.** -/
theorem runsOf_ok {xs : List (κ × α)}
    (hkey : ∀ k, key (init k) = k) (hadd : ∀ s a, key (add s a) = key s)
    (h : xs.Pairwise fun a b => R a.1 b.1 ∨ a.1 = b.1) :
    RunsOk key init add xs (runsOf key init add xs) := by
  induction xs using List.reverseRecOn with
  | nil => exact ⟨by simp, by simp, by simp, rfl⟩
  | append_singleton xs x ih =>
    have hok := ih (List.pairwise_append.1 h).1
    rw [runsOf_concat]
    unfold extendRuns
    have hlast := hok.last
    cases hr : (runsOf key init add xs).getLast? with
    | none =>
      rw [hr] at hlast
      have hxs : xs = [] := by simpa using hlast.symm
      subst hxs
      exact hok.open hkey hadd (by simp)
    | some last =>
      rw [hr] at hlast
      simp only
      split
      · next he =>
        obtain ⟨front, hf⟩ := List.getLast?_eq_some_iff.1 hr
        rw [hf] at hok ⊢
        rw [List.dropLast_concat]
        obtain ⟨k, a⟩ := x
        cases he
        exact hok.extend hadd
      · next hne =>
        obtain ⟨y, hy, hyk⟩ := Option.map_eq_some_iff.1 hlast.symm
        exact hok.open hkey hadd (key_fresh h hy (hyk ▸ hne))

end

/-- The runs hold the items of the whole list, in order. -/
theorem flatMap_runsOf {κ α β σ : Type} [DecidableEq κ] {key : σ → κ} {init : κ → σ}
    {add : σ → α → σ} {items : σ → List β} {item : α → β} (hinit : ∀ k, items (init k) = [])
    (hitems : ∀ s a, items (add s a) = items s ++ [item a]) (xs : List (κ × α)) :
    (runsOf key init add xs).flatMap items = xs.map fun x => item x.2 := by
  induction xs using List.reverseRecOn with
  | nil => rfl
  | append_singleton xs x ih =>
    rw [runsOf_concat, List.map_append, ← ih, extendRuns]
    cases hr : (runsOf key init add xs).getLast? with
    | none =>
      rw [List.getLast?_eq_none_iff.1 hr]
      simp [hitems, hinit]
    | some last =>
      obtain ⟨front, hf⟩ := List.getLast?_eq_some_iff.1 hr
      simp only
      split
      · rw [hf, List.dropLast_concat]
        simp [hitems]
      · simp [hitems, hinit]

end X360Port.Library
