import Mathlib.Algebra.Ring.Nat
import X360Port.Library.Changes
import X360Port.PadMerge

/-!
# Packet numbers

A merger's packet number counts the changes of all it has published. Two
reports to one user are numbered alike exactly when nothing changed in all the
reports between them, those to other users included (`packets_iff`).
-/

namespace X360Port

open Library

namespace PadMerger

/-- The gamepad that the merger compares with. -/
def memory (m : PadMerger) : Option XamGamepad := if m.published then some m.last else none

theorem publish_eq (m : PadMerger) (combined : XamGamepad) :
    (m.publish combined).packetNumber = m.packetNumber + .ofNat (changes m.memory [combined]) ∧
      (m.publish combined).memory = some combined := by
  by_cases hsame : m.memory = some combined
  · have hkept : m.publish combined = m := by
      unfold memory at hsame
      split at hsame
      · next hpublished =>
        have hlast := Option.some.inj hsame
        simp [publish, hpublished, hlast, sameGamepad_iff]
      · cases hsame
    rw [hkept, changes_cons, if_pos hsame]
    exact ⟨(UInt32.add_zero _).symm, hsame⟩
  · have hnew : ¬ m.published ∨ ¬ SameGamepad combined m.last := by
      by_contra hnot
      simp only [not_or, not_not, sameGamepad_iff] at hnot
      exact hsame (by simp [memory, hnot.1, hnot.2])
    rw [publish, if_pos hnew, changes_cons, if_neg hsame]
    exact ⟨rfl, rfl⟩

/-- The merger has published these gamepads. -/
structure Published (m : PadMerger) (gamepads : List XamGamepad) : Prop where
  packetNumber : m.packetNumber = .ofNat (changes none gamepads)
  memory : m.memory = latest none gamepads

theorem published_fresh : Published {} [] := ⟨rfl, rfl⟩

/-- One more gamepad. -/
theorem Published.publish {m : PadMerger} {gamepads : List XamGamepad} (h : m.Published gamepads)
    (combined : XamGamepad) : (m.publish combined).Published (gamepads ++ [combined]) where
  packetNumber := by
    rw [(m.publish_eq combined).1, h.packetNumber, h.memory, changes_append, UInt32.ofNat_add]
  memory := by rw [(m.publish_eq combined).2, latest_concat]

end PadMerger

namespace SystemInputDriver

/-- A poll without a pad reports nothing and leaves the merger alone; any other one publishes
the combined state. -/
theorem getState_eq (d : SystemInputDriver) (poll : Poll) :
    d.getState poll =
      match poll.combined with
      | none => (none, d)
      | some combined =>
        (some ⟨(d.merger.publish combined).packetNumber, storeGamepad combined⟩,
          ⟨d.merger.publish combined⟩) := by
  unfold getState PadMerger.merge Poll.combined
  cases combinedGamepad poll.readings.title poll.readings.hostState <;> rfl

theorem published_getState {d : SystemInputDriver} {gamepads : List XamGamepad}
    (h : d.merger.Published gamepads) (poll : Poll) :
    (d.getState poll).2.merger.Published (gamepads ++ poll.combined.toList) := by
  rw [getState_eq]
  cases poll.combined with
  | none => simpa using h
  | some combined => exact h.publish combined

theorem published_foldl {d : SystemInputDriver} {gamepads : List XamGamepad}
    (h : d.merger.Published gamepads) (polls : List Poll) :
    (polls.foldl (fun d poll => (d.getState poll).2) d).merger.Published
      (gamepads ++ polls.filterMap Poll.combined) := by
  induction polls generalizing d gamepads with
  | nil => simpa using h
  | cons poll polls ih =>
    have hnext := ih (published_getState h poll)
    rw [List.append_assoc] at hnext
    rw [List.foldl_cons, List.filterMap_cons]
    cases hc : poll.combined <;> simpa [hc] using hnext

theorem published_after (polls : List Poll) :
    (after polls).merger.Published (polls.filterMap Poll.combined) :=
  published_foldl PadMerger.published_fresh polls

/-- A successful poll reports the number of changes so far. -/
theorem getState_after {polls : List Poll} {poll : Poll} {state : XInputState}
    (h : ((after polls).getState poll).1 = some state) :
    ∃ combined, poll.combined = some combined ∧ state.gamepad = storeGamepad combined ∧
      state.packetNumber =
        .ofNat (changes none (polls.filterMap Poll.combined ++ [combined])) := by
  rw [getState_eq] at h
  cases hc : poll.combined with
  | none =>
    rw [hc] at h
    cases h
  | some combined =>
    rw [hc] at h
    cases h
    exact ⟨combined, rfl, rfl, ((published_after polls).publish combined).packetNumber⟩

/-- Two numbers less than a whole turn apart. -/
theorem ofNat_add_eq_iff {n k : Nat} (h : k < 2 ^ 32) :
    UInt32.ofNat (n + k) = .ofNat n ↔ k = 0 := by
  rw [← UInt32.toNat_inj]
  simp only [UInt32.toNat_ofNat']
  omega

/-- **Main result.** At two successive successful polls of one user, the packet numbers tell
whether the user's state is the same exactly when, if it is, every other user reported that very
state in between. -/
theorem packets_iff (user : UInt32) (readings readings' : PadReadings) (before between : List Poll)
    (state state' : XInputState)
    (hfirst : ((after before).getState ⟨user, readings⟩).1 = some state)
    (hsecond : ((after (before ++ ⟨user, readings⟩ :: between)).getState ⟨user, readings'⟩).1 =
      some state')
    (hsuccessive : ∀ poll ∈ between, poll.userIndex = user → poll.combined = none)
    (hwrap : changes (Poll.combined ⟨user, readings⟩)
      ((between ++ [Poll.mk user readings']).filterMap Poll.combined) < 2 ^ 32) :
    (state'.packetNumber = state.packetNumber ↔
        Poll.combined ⟨user, readings'⟩ = Poll.combined ⟨user, readings⟩) ↔
      (Poll.combined ⟨user, readings'⟩ = Poll.combined ⟨user, readings⟩ →
        ∀ poll ∈ between, poll.userIndex ≠ user → ∀ other, poll.combined = some other →
          some other = Poll.combined ⟨user, readings⟩) := by
  obtain ⟨first, hc, -, hnumber⟩ := getState_after hfirst
  obtain ⟨second, hc', -, hnumber'⟩ := getState_after hsecond
  have hbetween : between.filterMap Poll.combined ++ [second] =
      (between ++ [Poll.mk user readings']).filterMap Poll.combined := by
    simp [List.filterMap_append, hc']
  have hsplit : (before ++ ⟨user, readings⟩ :: between).filterMap Poll.combined ++ [second] =
      (before.filterMap Poll.combined ++ [first]) ++
        (between.filterMap Poll.combined ++ [second]) := by
    simp [List.filterMap_append, hc]
  rw [hc, ← hbetween] at hwrap
  rw [hsplit, changes_append, latest_concat] at hnumber'
  -- the numbers agree when nothing was published in between but the first state
  have hequal : state'.packetNumber = state.packetNumber ↔
      ∀ combined ∈ between.filterMap Poll.combined ++ [second], combined = first := by
    rw [hnumber, hnumber', ofNat_add_eq_iff hwrap, changes_eq_zero_iff]
  rw [hequal, hc, hc', Option.some.injEq]
  simp only [List.forall_mem_append, List.forall_mem_singleton, Option.some.injEq]
  constructor
  · intro h hsame poll hpoll _ other hother
    exact (h.2 hsame).1 other (List.mem_filterMap.2 ⟨poll, hpoll, hother⟩)
  · intro h
    refine ⟨And.right, fun hsame => ⟨fun combined hmem => ?_, hsame⟩⟩
    obtain ⟨poll, hpoll, hother⟩ := List.mem_filterMap.1 hmem
    by_cases huser : poll.userIndex = user
    · rw [hsuccessive poll hpoll huser] at hother
      cases hother
    · exact h hsame poll hpoll huser combined hother

/-- The title's pad alone. -/
def titlePad (user : UInt32) (buttons : UInt16) : Poll :=
  ⟨user, ⟨{ connected := true, gamepad := { buttons := buttons } }, none⟩⟩

/-- Another user's idle pad between two polls of an idle pad. -/
theorem packets_iff_idle : ∃ state state',
    ((after []).getState (titlePad 0 0)).1 = some state ∧
      ((after [titlePad 0 0, titlePad 1 0]).getState (titlePad 0 0)).1 = some state' ∧
      state'.packetNumber = state.packetNumber := by
  refine ⟨_, _, rfl, rfl, ?_⟩
  have hiff := packets_iff 0 (titlePad 0 0).readings (titlePad 0 0).readings [] [titlePad 1 0] _ _
    rfl rfl (by decide) (by decide)
  refine (hiff.2 fun _ poll hpoll _ other hother => ?_).2 rfl
  rw [List.mem_singleton.1 hpoll] at hother
  exact hother.symm

/-- A button of another user's pad: the idle pad's packet number advances. -/
theorem not_packets_other_user : ¬ ∀ (user : UInt32) (readings readings' : PadReadings)
    (before between : List Poll) (state state' : XInputState),
    ((after before).getState ⟨user, readings⟩).1 = some state →
    ((after (before ++ ⟨user, readings⟩ :: between)).getState ⟨user, readings'⟩).1 = some state' →
    (∀ poll ∈ between, poll.userIndex = user → poll.combined = none) →
    changes (Poll.combined ⟨user, readings⟩)
      ((between ++ [Poll.mk user readings']).filterMap Poll.combined) < 2 ^ 32 →
    (state'.packetNumber = state.packetNumber ↔
      Poll.combined ⟨user, readings'⟩ = Poll.combined ⟨user, readings⟩) := by
  intro hall
  have h := hall 0 (titlePad 0 0).readings (titlePad 0 0).readings [] [titlePad 1 0x2000] _ _
    rfl rfl (by decide) (by decide)
  exact absurd (h.2 rfl) (by decide)

end SystemInputDriver

end X360Port
