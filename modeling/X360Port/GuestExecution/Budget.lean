import X360Port.GuestExecution.Moves

/-!
# The block budget of a run

A scope's budget bounds the blocks of its own body and of the translated calls
in it. A handler's call gets a scope and a budget of its own, so what a run may
enter in all is what its calls ask for: the blocks entered and the blocks left
in the live budgets together grow by no more than the limit of each call.
-/

namespace X360Port

open Library

/-- The blocks left in the budgets of the live scopes. -/
def remainingBlocks (frames : List Frame) : Nat :=
  ((scopesOf frames).map (·.budget.remainingBlocks.toNat)).sum

/-- A call whose caller names the limits. -/
def GuestEvent.namesLimits : GuestEvent → Bool
  | .execute _ _ _ _ => true
  | .callOriginal _ _ _ => true
  | _ => false

def GuestEvent.callsOriginalBody : GuestEvent → Bool
  | .callOriginalBody _ _ => true
  | _ => false

theorem remainingBlocks_deliver (s : GuestThread) (result : ExecutionResult) :
    remainingBlocks (s.deliver result).frames = remainingBlocks s.frames := by
  rw [remainingBlocks, remainingBlocks, scopesOf_deliver]

theorem remainingBlocks_scope (scope : Scope) (rest : List Frame) :
    remainingBlocks (.scope scope :: rest) =
      scope.budget.remainingBlocks.toNat + remainingBlocks rest := rfl

theorem remainingBlocks_mark (event : ExitEvent) (frames : List Frame) :
    remainingBlocks (modifyInnermost (Scope.mark event) frames) = remainingBlocks frames := by
  rw [remainingBlocks, remainingBlocks, scopesOf_modifyInnermost]
  cases scopesOf frames with
  | nil => rfl
  | cons scope outer =>
    rw [List.modifyHead_cons, List.map_cons, List.map_cons, Scope.mark_remainingBlocks]

theorem toNat_countBlock {scope : Scope} (h : scope.budget.remainingBlocks ≠ 0) :
    scope.countBlock.budget.remainingBlocks.toNat + 1 = scope.budget.remainingBlocks.toNat := by
  have hne : scope.budget.remainingBlocks.toNat ≠ 0 := fun h0 => h (UInt64.toNat_inj.1 h0)
  have hle : (1 : UInt64) ≤ scope.budget.remainingBlocks :=
    UInt64.le_iff_toNat_le.2 (Nat.one_le_iff_ne_zero.2 hne)
  show (scope.budget.remainingBlocks - 1).toNat + 1 = _
  rw [UInt64.toNat_sub_of_le _ _ hle]
  exact Nat.sub_add_cancel (Nat.one_le_iff_ne_zero.2 hne)

/-- **Blocks are paid from a budget.** Only a call adds to what is entered and left. -/
theorem Move.blockEntries_le {s s' : GuestThread} {event : GuestEvent} (hm : Move s event s') :
    s'.blockEntries + remainingBlocks s'.frames ≤
      s.blockEntries + remainingBlocks s.frames + event.blockLimit.toNat := by
  induction hm with
  | still => exact Nat.le_add_right _ _
  | aside registers statistics _ ih => exact ih
  | answered event result =>
    rw [remainingBlocks_deliver]
    exact Nat.le_add_right _ _
  | entered event =>
    show s.blockEntries + (event.blockLimit.toNat + remainingBlocks s.frames) ≤ _
    omega
  | pushed event frame hf =>
    have hs : scopesOf (frame :: s.frames) = scopesOf s.frames := List.filterMap_cons_none hf
    show s.blockEntries + remainingBlocks (frame :: s.frames) ≤ _
    rw [remainingBlocks, hs]
    exact Nat.le_add_right _ _
  | marked event exit =>
    show s.blockEntries + remainingBlocks (modifyInnermost (Scope.mark exit) s.frames) ≤ _
    rw [remainingBlocks_mark]
    exact Nat.le_add_right _ _
  | counted scope rest hf hne =>
    have := toNat_countBlock hne
    show s.blockEntries + 1 + remainingBlocks (.scope scope.countBlock :: rest) ≤ _
    rw [hf, remainingBlocks_scope, remainingBlocks_scope]
    omega
  | left scope rest executed hf =>
    rw [remainingBlocks_deliver, hf, remainingBlocks_scope]
    show s.blockEntries + remainingBlocks rest ≤ _
    omega
  | interpreted event rest result hf =>
    rw [remainingBlocks_deliver, hf]
    exact Nat.le_add_right _ _
  | handled result received rest hf =>
    rw [remainingBlocks_deliver, hf]
    exact Nat.le_add_right _ _
  | resumed event entry received rest hf =>
    rw [hf]
    exact Nat.le_add_right _ _
  | failed event entry received rest exit hf =>
    show s.blockEntries + remainingBlocks (modifyInnermost (Scope.mark exit) rest) ≤ _
    rw [remainingBlocks_mark, hf]
    exact Nat.le_add_right _ _

/-- Over a run, what is entered and left grows by no more than the calls' limits. -/
theorem play_blockEntries_add_le {s s' : GuestThread} {events : List GuestEvent}
    (h0 : ThreadInv s) (h : play GuestThread.step s events = some s') :
    s'.blockEntries + remainingBlocks s'.frames ≤
      s.blockEntries + remainingBlocks s.frames +
        (events.map fun event => event.blockLimit.toNat).sum :=
  play_cost (P := ThreadInv) (fun s => s.blockEntries + remainingBlocks s.frames)
    (fun event => event.blockLimit.toNat)
    (fun _ _ _ hi hs =>
      have hm := GuestThread.step_move hi hs
      ⟨hm.inv hi, hm.blockEntries_le⟩) h0 h

/-- Calls that name no limits ask for the default ones. -/
theorem sum_blockLimit_of_default {events : List GuestEvent}
    (h : ∀ event ∈ events, event.namesLimits = false) :
    (events.map fun event => event.blockLimit.toNat).sum =
      1000000 * events.countP (·.callsOriginalBody) := by
  induction events with
  | nil => rfl
  | cons event events ih =>
    obtain ⟨hn, h⟩ := List.forall_mem_cons.1 h
    rw [List.map_cons, List.sum_cons, ih h, List.countP_cons]
    cases event with
    | execute => cases hn
    | callOriginal => cases hn
    | callOriginalBody arguments answers =>
      show 1000000 + _ = 1000000 * (_ + 1)
      omega
    | _ => exact Nat.zero_add _

/-! ## A zero limit -/

theorem enterGuestFunction_zero (s : GuestThread) {arguments : List UInt64}
    {limits : ExecutionLimits} (hl : limits.maxGuestBlocks = 0)
    (ha : arguments.length ≤ kRegisterArgumentCount) :
    s.enterGuestFunction arguments limits =
      { s with registers := s.registers.setArguments arguments }.finishOriginal
        ⟨invalidBudget, 0⟩ := by
  rw [GuestThread.enterGuestFunction, prepareGuestArguments, if_neg (Nat.not_lt.2 ha)]
  exact if_pos hl

/-- A body that would run under no blocks is not entered. -/
theorem executeOriginal_zero (s : GuestThread) {arguments : List UInt64} {limits : ExecutionLimits}
    {answers : EntryAnswers} (hl : limits.maxGuestBlocks = 0) (hd : answers.drained.Ok)
    (hi : answers.insideCode = true) (ht : answers.translation.isSome = true)
    (ha : arguments.length ≤ kRegisterArgumentCount) :
    ∃ registers statistics, s.executeOriginal arguments limits answers =
      (s.aside registers statistics).deliver ⟨invalidBudget, 0⟩ := by
  rw [GuestThread.executeOriginal, if_neg (not_not_intro hd), if_neg (by rw [hi]; decide)]
  obtain ⟨emitted, he⟩ := Option.isSome_iff_exists.1 ht
  simp only [he]
  cases emitted with
  | none =>
    rw [enterGuestFunction_zero s hl ha]
    exact ⟨_, _, rfl⟩
  | some size =>
    simp only
    rw [enterGuestFunction_zero _ hl ha]
    exact ⟨_, _, rfl⟩

/-! ## Runs -/

/-- **Main result.** From a host call on, a run enters no more blocks than the call's limit
and a default limit for each `CallOriginalBody`; and a translated body with no blocks to run
is refused. -/
theorem execute_blockEntries_le (before rest : List GuestEvent) (arguments : List UInt64)
    (limits : ExecutionLimits) (overridden : Bool) (answers : EntryAnswers) (s s' : GuestThread)
    (hs : play GuestThread.step .idle before = some s) (hhost : s.frames = [])
    (hrest : ∀ event ∈ rest, event.namesLimits = false)
    (h : play GuestThread.step s (.execute arguments limits overridden answers :: rest) = some s') :
    s'.blockEntries ≤ s.blockEntries + limits.maxGuestBlocks.toNat +
        1000000 * rest.countP (·.callsOriginalBody) ∧
      (limits.maxGuestBlocks = 0 → overridden = false → answers.drained.Ok →
        answers.insideCode = true → answers.translation.isSome = true → arguments.length ≤ 8 →
        ∃ s1, s.step (.execute arguments limits overridden answers) = some s1 ∧
          s1.frames = [] ∧ s1.hostResults = ⟨invalidBudget, 0⟩ :: s.hostResults) := by
  have hinv := play_threadInv hs
  refine ⟨?_, fun hl ho hd hi ht ha => ?_⟩
  · have hle := play_blockEntries_add_le hinv h
    rw [List.map_cons, List.sum_cons, sum_blockLimit_of_default hrest, hhost] at hle
    have hzero : remainingBlocks [] = 0 := rfl
    rw [hzero] at hle
    have hlimit : (GuestEvent.execute arguments limits overridden answers).blockLimit =
        limits.maxGuestBlocks := rfl
    rw [hlimit] at hle
    omega
  · obtain ⟨registers, statistics, he⟩ := executeOriginal_zero s hl hd hi ht ha
    have hrunning : ¬ s.terminated = true := by rw [hinv.running]; exact Bool.false_ne_true
    refine ⟨s.executeOriginal arguments limits answers, ?_, ?_, ?_⟩
    · rw [GuestThread.step, if_neg hrunning]
      simp only [hhost, nativeRuns, ho, not_true_eq_false, if_false, Bool.false_eq_true]
    · rw [he]
      show receive _ s.frames = []
      rw [hhost]
      rfl
    · rw [he]
      show (if s.frames.isEmpty then _ else _) = _
      rw [hhost]
      rfl

/-- One block for the host's call, to an overridden entry; its handler calls the original. -/
def oneBlock : ExecutionLimits := { maxGuestBlocks := 1 }

def overriddenEntry : List GuestEvent := [.callOriginalBody [] {}, .enterBlock, .enterBlock]

theorem execute_blockEntries_le_overridden :
    ∃ s', play GuestThread.step .idle (.execute [] oneBlock true {} :: overriddenEntry) = some s' ∧
      s'.blockEntries ≤ 0 + 1 + 1000000 * 1 ∧
      (oneBlock.maxGuestBlocks = 0 → true = false → ({} : EntryAnswers).drained.Ok →
        ({} : EntryAnswers).insideCode = true → ({} : EntryAnswers).translation.isSome = true →
        ([] : List UInt64).length ≤ 8 →
        ∃ s1, GuestThread.idle.step (.execute [] oneBlock true {}) = some s1 ∧
          s1.frames = [] ∧ s1.hostResults = ⟨invalidBudget, 0⟩ :: GuestThread.idle.hostResults) :=
  ⟨_, rfl, execute_blockEntries_le [] overriddenEntry [] oneBlock true {} .idle _ rfl rfl
    (by decide) rfl⟩

/-- The call's own limit does not bound the run. -/
theorem not_execute_blockEntries_le :
    ¬ ∀ (rest : List GuestEvent) (arguments : List UInt64) (limits : ExecutionLimits)
      (overridden : Bool) (answers : EntryAnswers) (s' : GuestThread),
      (∀ event ∈ rest, event.namesLimits = false) →
      play GuestThread.step .idle (.execute arguments limits overridden answers :: rest) =
        some s' →
      s'.blockEntries ≤ limits.maxGuestBlocks.toNat := by
  intro hall
  have h := hall overriddenEntry [] oneBlock true {} _ (by decide) rfl
  exact absurd h (by decide)

end X360Port
