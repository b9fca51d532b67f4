import Mathlib.Data.List.Pairwise
import Mathlib.Data.List.Perm.Basic

/-!
# Accepting a list of items, all or none

`acceptAll accept xs` accepts the items one after the other. Each is accepted in
view of the values accepted before it, and the first that is refused ends the
loop with its refusal. Where an item is accepted exactly for its own value,
unless that clashes with an accepted one (`Accepts`), the verdict is a property
of the items as a collection: every item has a value and no two values clash
(`acceptAll_ok_iff`), in whatever order they come (`acceptAll_ok_perm`).
-/

namespace X360Port.Library

section

variable {α β ε : Type}

def acceptAll (accept : List β → α → Except ε β) : List α → List β → Except ε (List β)
  | [], accepted => .ok accepted
  | a :: rest, accepted =>
    match accept accepted a with
    | .error refusal => .error refusal
    | .ok b => acceptAll accept rest (accepted ++ [b])

/-- An item is accepted for its value exactly when no accepted value clashes with it. -/
def Accepts (accept : List β → α → Except ε β) (value : α → Option β) (clash : β → β → Prop) :
    Prop :=
  ∀ accepted a b, accept accepted a = .ok b ↔ value a = some b ∧ ∀ c ∈ accepted, ¬ clash c b

/-- Two items whose values clash. -/
def Clashing (value : α → Option β) (clash : β → β → Prop) (a b : α) : Prop :=
  ∃ va vb, value a = some va ∧ value b = some vb ∧ clash va vb

variable {accept : List β → α → Except ε β} {value : α → Option β} {clash : β → β → Prop}

theorem clashing_symm (hsymm : ∀ x y, clash x y → clash y x) {a b : α}
    (h : Clashing value clash a b) : Clashing value clash b a := by
  obtain ⟨va, vb, ha, hb, hc⟩ := h
  exact ⟨vb, va, hb, ha, hsymm va vb hc⟩

/-- **The loop rule.** What the loop accepts, and when. -/
theorem acceptAll_eq_ok_iff (h : Accepts accept value clash) (xs : List α) (accepted bs : List β) :
    acceptAll accept xs accepted = .ok bs ↔
      (∀ a ∈ xs, (value a).isSome) ∧ bs = accepted ++ xs.filterMap value ∧
        (∀ c ∈ accepted, ∀ b ∈ xs.filterMap value, ¬ clash c b) ∧
        (xs.filterMap value).Pairwise fun c b => ¬ clash c b := by
  induction xs generalizing accepted with
  | nil =>
    have hok : acceptAll accept [] accepted = .ok bs ↔ bs = accepted := by
      rw [acceptAll, Except.ok.injEq]
      exact eq_comm
    simp [hok]
  | cons a rest ih =>
    cases hturn : accept accepted a with
    | error refusal =>
      -- the item is refused: it has no value, or its value clashes with an accepted one
      have hno : ∀ b, value a = some b → ∃ c ∈ accepted, clash c b := by
        intro b hb
        by_contra hclash
        push Not at hclash
        have := (h accepted a b).2 ⟨hb, hclash⟩
        rw [hturn] at this
        simp at this
      simp only [acceptAll, hturn, reduceCtorEq, false_iff]
      rintro ⟨hsome, -, hfree, -⟩
      obtain ⟨b, hb⟩ := Option.isSome_iff_exists.1 (hsome a List.mem_cons_self)
      obtain ⟨c, hc, hclash⟩ := hno b hb
      exact hfree c hc b (List.mem_filterMap.2 ⟨a, List.mem_cons_self, hb⟩) hclash
    | ok b =>
      obtain ⟨hb, hfree⟩ := (h accepted a b).1 hturn
      simp only [acceptAll, hturn, ih, List.filterMap_cons_some hb, List.pairwise_cons,
        List.forall_mem_cons, List.append_assoc, List.singleton_append, hb, Option.isSome_some,
        true_and, List.mem_append, List.mem_singleton]
      constructor
      · rintro ⟨hsome, rfl, hrest, hpair⟩
        exact ⟨hsome, rfl, fun c hc => ⟨hfree c hc, hrest c (.inl hc)⟩, hrest b (.inr rfl), hpair⟩
      · rintro ⟨hsome, rfl, hrest, hfirst, hpair⟩
        refine ⟨hsome, rfl, ?_, hpair⟩
        rintro c (hc | rfl)
        · exact (hrest c hc).2
        · exact hfirst

/-- The refusal of a loop is the refusal of one of its items. -/
theorem acceptAll_eq_error {xs : List α} {accepted : List β} {refusal : ε}
    (h : acceptAll accept xs accepted = .error refusal) :
    ∃ a ∈ xs, ∃ accepted, accept accepted a = .error refusal := by
  induction xs generalizing accepted with
  | nil => simp [acceptAll] at h
  | cons a rest ih =>
    cases hturn : accept accepted a with
    | error r =>
      simp only [acceptAll, hturn, Except.error.injEq] at h
      exact ⟨a, List.mem_cons_self, accepted, h ▸ hturn⟩
    | ok b =>
      simp only [acceptAll, hturn] at h
      obtain ⟨c, hc, hrefused⟩ := ih h
      exact ⟨c, List.mem_cons_of_mem a hc, hrefused⟩

/-- The values a loop from nothing accepted. -/
theorem accepted_of_ok (h : Accepts accept value clash) {xs : List α} {bs : List β}
    (hok : acceptAll accept xs [] = .ok bs) :
    (∀ a ∈ xs, (value a).isSome) ∧ bs = xs.filterMap value ∧
      bs.Pairwise fun c b => ¬ clash c b := by
  obtain ⟨hsome, rfl, -, hpair⟩ := (acceptAll_eq_ok_iff h xs [] bs).1 hok
  exact ⟨hsome, rfl, hpair⟩

/-- **The verdict.** -/
theorem acceptAll_ok_iff (h : Accepts accept value clash) (xs : List α) :
    (∃ bs, acceptAll accept xs [] = .ok bs) ↔
      (∀ a ∈ xs, (value a).isSome) ∧ xs.Pairwise fun a b => ¬ Clashing value clash a b := by
  simp only [acceptAll_eq_ok_iff h, List.not_mem_nil, false_implies, implies_true, true_and,
    List.nil_append, List.pairwise_filterMap, Clashing]
  constructor
  · rintro ⟨-, hsome, -, hpair⟩
    refine ⟨hsome, hpair.imp ?_⟩
    rintro a b hab ⟨va, vb, ha, hb, hc⟩
    exact hab va ha vb hb hc
  · rintro ⟨hsome, hpair⟩
    refine ⟨_, hsome, rfl, hpair.imp ?_⟩
    intro a b hab va ha vb hb hc
    exact hab ⟨va, vb, ha, hb, hc⟩

/-- The order of the items does not change the verdict. -/
theorem acceptAll_ok_perm (h : Accepts accept value clash) (hsymm : ∀ x y, clash x y → clash y x)
    {xs ys : List α} (hperm : xs.Perm ys) :
    (∃ bs, acceptAll accept xs [] = .ok bs) ↔ ∃ bs, acceptAll accept ys [] = .ok bs := by
  rw [acceptAll_ok_iff h, acceptAll_ok_iff h]
  have hsym : ∀ {a b : α}, ¬ Clashing value clash a b → ¬ Clashing value clash b a :=
    fun hab hba => hab (clashing_symm hsymm hba)
  rw [hperm.pairwise_iff hsym]
  simp only [hperm.mem_iff]

end

end X360Port.Library
