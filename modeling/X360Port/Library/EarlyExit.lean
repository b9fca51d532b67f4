/-!
# Loops that may leave early

`forEach turn xs s` runs `turn` once for each item, in order. A turn answers
the new state and either `none`, to go on, or `some exit`, to leave the loop.
`forEach_ended` is its rule: an invariant of the items done so far, and what
holds at an exit.
-/

namespace X360Port.Library

section

variable {α ρ σ : Type}

def forEach (turn : σ → α → σ × Option ρ) : List α → σ → σ × Option ρ
  | [], s => (s, none)
  | a :: rest, s =>
    match turn s a with
    | (s', some exit) => (s', some exit)
    | (s', none) => forEach turn rest s'

/-- A loop went on with `P`, or left with `E`. -/
def Ended (P : σ → Prop) (E : σ → ρ → Prop) : σ × Option ρ → Prop
  | (s, none) => P s
  | (s, some exit) => E s exit

/-- How a turn ended does not matter for a property of the state. -/
theorem Ended.of_state {P : σ → Prop} {r : σ × Option ρ} (h : P r.1) :
    Ended P (fun s _ => P s) r := by
  obtain ⟨s, _ | exit⟩ := r
  · exact h
  · exact h

theorem Ended.mono {P P' : σ → Prop} {E E' : σ → ρ → Prop} {r : σ × Option ρ} (h : Ended P E r)
    (hP : ∀ s, P s → P' s) (hE : ∀ s exit, E s exit → E' s exit) : Ended P' E' r := by
  obtain ⟨s, _ | exit⟩ := r
  · exact hP s h
  · exact hE s exit h

/-- What holds of a loop that went on. -/
theorem Ended.of_done {P : σ → Prop} {E : σ → ρ → Prop} {r : σ × Option ρ} {s : σ}
    (h : Ended P E r) (hr : r = (s, none)) : P s := by
  rw [hr] at h
  exact h

/-- What holds of a loop that left. -/
theorem Ended.of_exit {P : σ → Prop} {E : σ → ρ → Prop} {r : σ × Option ρ} {s : σ} {exit : ρ}
    (h : Ended P E r) (hr : r = (s, some exit)) : E s exit := by
  rw [hr] at h
  exact h

theorem eq_of_snd_eq_none {r : σ × Option ρ} (h : r.2 = none) : r = (r.1, none) := by
  obtain ⟨s, exit⟩ := r
  exact congrArg (Prod.mk s) h

/-- The first turn, and the others from where it goes on. -/
theorem ended_forEach_cons {turn : σ → α → σ × Option ρ} {a : α} {rest : List α} {s : σ}
    {P : σ → Prop} {E : σ → ρ → Prop}
    (h : Ended (fun s' => Ended P E (forEach turn rest s')) E (turn s a)) :
    Ended P E (forEach turn (a :: rest) s) := by
  rw [forEach]
  rcases ht : turn s a with ⟨s', _ | exit⟩
  · exact h.of_done ht
  · exact h.of_exit ht

/-- **The loop rule.** -/
theorem forEach_ended (turn : σ → α → σ × Option ρ) (xs : List α) (s : σ)
    (I : List α → σ → Prop) (E : σ → ρ → Prop) (h0 : I [] s)
    (hturn : ∀ done a rest s, xs = done ++ a :: rest → I done s →
      Ended (I (done ++ [a])) E (turn s a)) :
    Ended (I xs) E (forEach turn xs s) := by
  suffices h : ∀ rest done s, xs = done ++ rest → I done s → Ended (I xs) E (forEach turn rest s)
    from h xs [] s rfl h0
  intro rest
  induction rest with
  | nil =>
    intro done s hx hI
    rw [List.append_nil] at hx
    exact hx ▸ hI
  | cons a rest ih =>
    intro done s hx hI
    have hone := hturn done a rest s hx hI
    rw [forEach]
    rcases ht : turn s a with ⟨s', _ | exit⟩
    · exact ih (done ++ [a]) s' (by rw [hx, List.append_assoc]; rfl) (hone.of_done ht)
    · exact hone.of_exit ht

/-- The turn at a place of an indexed loop. -/
theorem turn_of_zipIdx {xs : List α} {done rest : List (α × Nat)} {turn : α × Nat}
    (h : xs.zipIdx = done ++ turn :: rest) :
    ∃ hi : done.length < xs.length, turn = (xs[done.length], done.length) := by
  have hturn : xs.zipIdx[done.length]? = some turn := by
    rw [h, List.getElem?_append_right (Nat.le_refl _), Nat.sub_self]; rfl
  rw [List.getElem?_zipIdx, Option.map_eq_some_iff] at hturn
  obtain ⟨a, ha, rfl⟩ := hturn
  obtain ⟨hi, rfl⟩ := List.getElem?_eq_some_iff.1 ha
  exact ⟨hi, by rw [Nat.zero_add]⟩

end

end X360Port.Library
