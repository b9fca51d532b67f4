import X360Port.Library.Machine
import X360Port.PadMerge.Packets

/-!
# Merging on many threads

Any number of `Merge` calls run at once. A call combines its two snapshots on
its own and then takes the lock; what it does under the lock is one step. The
results are kept in the order in which they were made. In every run a packet
number counts the changes of the results up to it (`Numbered`), so it names a
state of the pad (`play_numbersStates`).
-/

namespace X360Port

open Library

structure MergeThreads where
  merger : PadMerger := {}
  /-- The combined state of a call that waits for the lock. -/
  waiting : Nat → Option XamGamepad := fun _ => none
  results : List XamPadSnapshot := []

inductive MergeEvent where
  | enter (thread : Nat) (title host : XamPadSnapshot)
  | locked (thread : Nat)
  deriving DecidableEq, Repr

namespace MergeThreads

def fresh : MergeThreads := {}

def setWaiting (s : MergeThreads) (thread : Nat) (combined : Option XamGamepad) : MergeThreads :=
  { s with waiting := fun t => if t = thread then combined else s.waiting t }

/-- A call without a device returns at once. -/
def enter (s : MergeThreads) (thread : Nat) (title host : XamPadSnapshot) : MergeThreads :=
  match combinedGamepad title host with
  | none => { s with results := s.results ++ [{}] }
  | some combined => s.setWaiting thread (some combined)

/-- The part under the lock, and the result. -/
def locked (s : MergeThreads) (thread : Nat) (combined : XamGamepad) : MergeThreads :=
  let merger := s.merger.publish combined
  { s.setWaiting thread none with
    merger := merger
    results := s.results ++ [⟨true, merger.packetNumber, combined⟩] }

def step (s : MergeThreads) : MergeEvent → Option MergeThreads
  | .enter thread title host =>
    if s.waiting thread = none then some (s.enter thread title host) else none
  | .locked thread => (s.waiting thread).map (s.locked thread)

/-- The results of the calls with a device. -/
def connected (s : MergeThreads) : List XamPadSnapshot := s.results.filter (·.connected)

/-- The states that the first results carry. -/
def gamepads (results : List XamPadSnapshot) (n : Nat) : List XamGamepad :=
  (results.take n).map (·.gamepad)

/-- The steps of a call on its own give what `Merge` gives. -/
theorem play_merge (s : MergeThreads) (thread : Nat) (title host : XamPadSnapshot)
    (hidle : s.waiting thread = none) :
    ∃ events s', play step s events = some s' ∧
      s'.results = s.results ++ [(s.merger.merge title host).1] ∧
      s'.merger = (s.merger.merge title host).2 := by
  have henter : s.step (.enter thread title host) = some (s.enter thread title host) :=
    if_pos hidle
  cases hc : combinedGamepad title host with
  | none =>
    refine ⟨[.enter thread title host], _, play_cons_iff.2 ⟨_, henter, rfl⟩, ?_, ?_⟩
    · rw [enter, PadMerger.merge, hc]
    · rw [enter, PadMerger.merge, hc]
  | some combined =>
    have hwaits : s.enter thread title host = s.setWaiting thread (some combined) := by
      rw [enter, hc]
    have hlocked : (s.setWaiting thread (some combined)).step (.locked thread) =
        some ((s.setWaiting thread (some combined)).locked thread combined) := by
      have hcall : (s.setWaiting thread (some combined)).waiting thread = some combined :=
        if_pos rfl
      rw [step, hcall, Option.map_some]
    rw [hwaits] at henter
    refine ⟨[.enter thread title host, .locked thread], _,
      play_cons_iff.2 ⟨_, henter, play_cons_iff.2 ⟨_, hlocked, rfl⟩⟩, ?_, ?_⟩
    · rw [PadMerger.merge, hc]
      rfl
    · rw [PadMerger.merge, hc]
      rfl

/-! ## Numbering -/

/-- Every connected result is numbered by the changes up to it, and the merger by all of them. -/
structure Numbered (s : MergeThreads) : Prop where
  published : s.merger.Published (s.connected.map (·.gamepad))
  numbers : ∀ (i : Nat) (h : i < s.connected.length),
    s.connected[i].packetNumber = .ofNat (changes none (gamepads s.connected (i + 1)))
  disconnected : ∀ r ∈ s.results, ¬ r.connected → r = {}

theorem numbered_fresh : Numbered fresh where
  published := PadMerger.published_fresh
  numbers := fun i h => absurd h (Nat.not_lt_zero i)
  disconnected := fun _ hr => absurd hr List.not_mem_nil

namespace Numbered

variable {s s' : MergeThreads}

/-- A result without a device. -/
theorem disconnect (h : Numbered s) : Numbered { s with results := s.results ++ [{}] } := by
  have hsame : connected { s with results := s.results ++ [{}] } = s.connected := by
    unfold connected
    rw [List.filter_append]
    exact List.append_nil _
  refine ⟨?_, ?_, ?_⟩
  · rw [hsame]
    exact h.published
  · rw [hsame]
    exact h.numbers
  · intro r hr hnot
    rcases List.mem_append.1 hr with hr | hr
    · exact h.disconnected r hr hnot
    · exact List.mem_singleton.1 hr

/-- A call under the lock. -/
theorem locked (h : Numbered s) (thread : Nat) (combined : XamGamepad) :
    Numbered (s.locked thread combined) := by
  let result : XamPadSnapshot := ⟨true, (s.merger.publish combined).packetNumber, combined⟩
  have hpublished := h.published.publish combined
  have hconnected : (s.locked thread combined).connected = s.connected ++ [result] := by
    unfold connected
    exact List.filter_append _ _
  refine ⟨?_, ?_, ?_⟩
  · rw [hconnected, List.map_append]
    exact hpublished
  · rw [hconnected]
    intro i hi
    rcases Nat.lt_or_ge i s.connected.length with hold | hnew
    · have hold_take : (s.connected ++ [result]).take (i + 1) = s.connected.take (i + 1) :=
        List.take_append_of_le_length hold
      rw [List.getElem_append_left hold, h.numbers i hold]
      unfold gamepads
      rw [hold_take]
    · have hlast : i = s.connected.length := by
        rw [List.length_append, List.length_singleton] at hi
        omega
      subst hlast
      have hall : (s.connected ++ [result]).take (s.connected.length + 1) =
          s.connected ++ [result] := List.take_of_length_le (by simp)
      rw [List.getElem_concat_length rfl]
      unfold gamepads
      rw [hall, List.map_append]
      exact hpublished.packetNumber
  · intro r hr hnot
    rcases List.mem_append.1 hr with hr | hr
    · exact h.disconnected r hr hnot
    · cases List.mem_singleton.1 hr
      exact absurd rfl hnot

theorem enter (h : Numbered s) (thread : Nat) (title host : XamPadSnapshot) :
    Numbered (s.enter thread title host) := by
  unfold MergeThreads.enter
  split
  · exact h.disconnect
  · exact ⟨h.published, h.numbers, h.disconnected⟩

theorem step (h : Numbered s) {e : MergeEvent} (hs : s.step e = some s') : Numbered s' := by
  cases e with
  | enter thread title host =>
    obtain ⟨-, hs⟩ := Option.ite_none_right_eq_some.1 hs
    cases hs
    exact h.enter thread title host
  | locked thread =>
    obtain ⟨combined, -, rfl⟩ := Option.map_eq_some_iff.1 hs
    exact h.locked thread combined

end Numbered

theorem play_numbered {events : List MergeEvent} {s : MergeThreads}
    (h : play step fresh events = some s) : Numbered s :=
  play_invariant (fun _ _ _ hn hs => hn.step hs) numbered_fresh h

/-! ## Numbers and states -/

/-- The changes from result `i` to result `j`. -/
def changesBetween (results : List XamPadSnapshot) (i j : Nat) : Nat :=
  changes (latest none (gamepads results (i + 1))) ((gamepads results (j + 1)).drop (i + 1))

/-- A packet number identifies a state of the pad. -/
structure NumbersStates (s : MergeThreads) : Prop where
  identifies : ∀ (i j : Nat) (hi : i < s.connected.length) (hj : j < s.connected.length), i ≤ j →
    changesBetween s.connected i j < 2 ^ 32 →
    s.connected[i].packetNumber = s.connected[j].packetNumber →
    s.connected[i].gamepad = s.connected[j].gamepad
  successive : ∀ (i : Nat) (h : i + 1 < s.connected.length),
    s.connected[i].packetNumber ≠ s.connected[i + 1].packetNumber ↔
      s.connected[i].gamepad ≠ s.connected[i + 1].gamepad
  /-- The numbers used up are the changes of the connected results alone. -/
  consumed : s.merger.packetNumber = .ofNat (changes none (s.connected.map (·.gamepad)))
  disconnected : ∀ r ∈ s.results, ¬ r.connected → r = {}
  unconsumed : ∀ (thread : Nat) (title host : XamPadSnapshot), ¬ title.connected →
    ¬ host.connected → (s.enter thread title host).merger = s.merger

section

variable {results : List XamPadSnapshot} {i j : Nat}

theorem gamepads_succ (h : i < results.length) :
    gamepads results (i + 1) = gamepads results i ++ [results[i].gamepad] := by
  unfold gamepads
  rw [List.take_succ_eq_append_getElem h, List.map_append]
  rfl

theorem latest_gamepads (h : i < results.length) :
    latest none (gamepads results (i + 1)) = some results[i].gamepad := by
  rw [gamepads_succ h, latest_concat]

theorem gamepads_split (results : List XamPadSnapshot) (h : i ≤ j) :
    gamepads results j = gamepads results i ++ (gamepads results j).drop i := by
  have htake : (gamepads results j).take i = gamepads results i := by
    unfold gamepads
    rw [← List.map_take, List.take_take, Nat.min_eq_left h]
  rw [← htake, List.take_append_drop]

theorem drop_gamepads_succ (hij : i ≤ j) (hj : j < results.length) :
    (gamepads results (j + 1)).drop i = (gamepads results j).drop i ++ [results[j].gamepad] := by
  rw [gamepads_succ hj]
  apply List.drop_append_of_le_length
  unfold gamepads
  rw [List.length_map, List.length_take]
  omega

/-- From one result to the next there is one change or none. -/
theorem changesBetween_succ (h : i + 1 < results.length) :
    changesBetween results i (i + 1) =
      if results[i].gamepad = results[i + 1].gamepad then 0 else 1 := by
  have hnone : (gamepads results (i + 1)).drop (i + 1) = [] := by
    rw [List.drop_eq_nil_iff]
    unfold gamepads
    rw [List.length_map]
    exact List.length_take_le _ _
  unfold changesBetween
  rw [latest_gamepads (by omega), drop_gamepads_succ (Nat.le_refl _) h, hnone, List.nil_append,
    changes_cons, changes_nil, Nat.add_zero]
  simp only [Option.some.injEq]

end

namespace Numbered

variable {s : MergeThreads} {i j : Nat}

theorem packetNumber_eq_iff (h : Numbered s) (hi : i < s.connected.length)
    (hj : j < s.connected.length) (hij : i ≤ j)
    (hwrap : changesBetween s.connected i j < 2 ^ 32) :
    s.connected[i].packetNumber = s.connected[j].packetNumber ↔
      changesBetween s.connected i j = 0 := by
  have hsplit := gamepads_split s.connected (Nat.succ_le_succ hij)
  rw [h.numbers i hi, h.numbers j hj, hsplit, changes_append, eq_comm]
  exact SystemInputDriver.ofNat_add_eq_iff hwrap

theorem identifies (h : Numbered s) (hi : i < s.connected.length) (hj : j < s.connected.length)
    (hij : i ≤ j) (hwrap : changesBetween s.connected i j < 2 ^ 32)
    (heq : s.connected[i].packetNumber = s.connected[j].packetNumber) :
    s.connected[i].gamepad = s.connected[j].gamepad := by
  have hnone := (h.packetNumber_eq_iff hi hj hij hwrap).1 heq
  rcases Nat.lt_or_eq_of_le hij with hlt | rfl
  · unfold changesBetween at hnone
    rw [latest_gamepads hi, changes_eq_zero_iff, drop_gamepads_succ hlt hj] at hnone
    exact (hnone _ (List.mem_append_right _ (List.mem_singleton_self _))).symm
  · rfl

theorem successive (h : Numbered s) (hi : i + 1 < s.connected.length) :
    s.connected[i].packetNumber ≠ s.connected[i + 1].packetNumber ↔
      s.connected[i].gamepad ≠ s.connected[i + 1].gamepad := by
  have hbetween := changesBetween_succ hi
  have hwrap : changesBetween s.connected i (i + 1) < 2 ^ 32 := by
    rw [hbetween]
    split <;> decide
  rw [ne_eq, h.packetNumber_eq_iff (by omega) hi (Nat.le_succ i) hwrap, hbetween]
  split <;> simp [*]

end Numbered

/-- **Packet numbers.** In every run of any number of threads a packet number identifies a state:
connected results that are numbered alike, less than a turn of the counter apart, carry the same
gamepad, two successive ones are numbered apart exactly when their gamepads differ, and results
without a device use up no number. -/
theorem play_numbersStates {events : List MergeEvent} {s : MergeThreads}
    (h : play step fresh events = some s) : NumbersStates s := by
  have hnumbered := play_numbered h
  refine ⟨fun i j hi hj => hnumbered.identifies hi hj, fun i hi => hnumbered.successive hi,
    hnumbered.published.packetNumber, hnumbered.disconnected, ?_⟩
  intro thread title host htitle hhost
  have hnone : combinedGamepad title host = none := if_pos ⟨htitle, hhost⟩
  rw [enter, hnone]

/-- A title's pad with these buttons. -/
def pressed (buttons : UInt16) : XamPadSnapshot :=
  { connected := true, gamepad := { buttons := buttons } }

/-- Two threads cross: the second one to combine takes the lock first. -/
def crossing : List MergeEvent :=
  [.enter 0 (pressed 0x2000) {}, .enter 1 {} (pressed 0), .locked 1, .enter 2 {} {}, .locked 0]

theorem play_numbersStates_crossing : ∃ s, play step fresh crossing = some s ∧
    s.results.map (·.packetNumber) = [1, 0, 2] ∧ NumbersStates s :=
  ⟨_, rfl, rfl, play_numbersStates (show play step fresh crossing = some _ from rfl)⟩

end MergeThreads

end X360Port
