import Mathlib.Logic.Basic

/-!
# Caches over a memory that changes

The entries of a cache were each built from some cells of a memory. Where the
memory has changed under an entry, the entry is stale until it is dropped.
`Tracked` says that a cache knows where it may be stale: an entry's cell
either holds what the entry was built from, or is pending.

* `Tracked.store`: a store whose cells go on the pending ones.
* `Tracked.build`: an entry built from the memory as it is.
* `Tracked.drop`: without the entries on pending cells nothing is stale,
  whatever is pending then.
-/

namespace X360Port.Library

section

variable {α β ι : Type} {cells : ι → α → Prop} {source : ι → α → β} {entries entries' : ι → Prop}
  {memory memory' : α → β} {pending pending' : α → Prop}

/-- No entry has a cell that has changed since it was built. -/
def Current (cells : ι → α → Prop) (source : ι → α → β) (entries : ι → Prop) (memory : α → β) :
    Prop :=
  ∀ e, entries e → ∀ a, cells e a → source e a = memory a

/-- Every cell of an entry that has changed since it was built is pending. -/
def Tracked (cells : ι → α → Prop) (source : ι → α → β) (entries : ι → Prop) (memory : α → β)
    (pending : α → Prop) : Prop :=
  ∀ e, entries e → ∀ a, cells e a → source e a = memory a ∨ pending a

theorem Current.tracked (h : Current cells source entries memory) (pending : α → Prop) :
    Tracked cells source entries memory pending :=
  fun e he a ha => .inl (h e he a ha)

/-- More may be pending. -/
theorem Tracked.mono (h : Tracked cells source entries memory pending)
    (hp : ∀ a, pending a → pending' a) : Tracked cells source entries memory pending' :=
  fun e he a ha => (h e he a ha).imp_right (hp a)

/-- What a store changes under an entry is pending afterwards. -/
theorem Tracked.store (h : Tracked cells source entries memory pending)
    (hp : ∀ a, pending a → pending' a)
    (hs : ∀ e, entries e → ∀ a, cells e a → memory' a = memory a ∨ pending' a) :
    Tracked cells source entries memory' pending' := by
  intro e he a ha
  rcases hs e he a ha with heq | hpending
  · rw [heq]
    exact (h e he a ha).imp_right (hp a)
  · exact .inr hpending

/-- A new entry is built from the memory. -/
theorem Tracked.build (h : Tracked cells source entries memory pending)
    (hb : ∀ e, entries' e → entries e ∨ source e = memory) :
    Tracked cells source entries' memory pending := by
  intro e he a ha
  rcases hb e he with hold | hnew
  · exact h e hold a ha
  · exact .inl (congrFun hnew a)

/-- **Dropping what is pending.** The entries that stay have no pending cell. -/
theorem Tracked.drop (h : Tracked cells source entries memory pending)
    (hd : ∀ e, entries' e → entries e ∧ ∀ a, cells e a → ¬ pending a) :
    Current cells source entries' memory := by
  intro e he a ha
  obtain ⟨hold, hcells⟩ := hd e he
  exact (h e hold a ha).resolve_right (hcells a ha)

end

end X360Port.Library
