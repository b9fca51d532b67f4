import X360Port.SystemWindow

/-!
# One step of the windowed system

`StepOf` lists what a step can be. `Phase` says what the emulator thread has
left behind wherever it is, and `Quits` what has told the UI loop to quit.
-/

namespace X360Port

open Library

/-- The session's own outcome: what `Initialize` and, after it, `Launch` leave and answer. -/
def outcome (platform : Platform) (path : LaunchPath) (config : SystemSessionConfig) :
    SystemSession × RuntimeFailure :=
  let (session, failure) := SystemSession.initializeSession platform config
  if failure.Ok then session.launch platform path else (session, failure)

namespace WindowedSystem

section

variable {platform : Platform} {path : LaunchPath} {config : SystemSessionConfig}
  {s s' : WindowedSystem} {event : WindowEvent}

variable (platform path) in
/-- What a step can be, while the process is there. -/
inductive StepOf (s : WindowedSystem) : WindowEvent → WindowedSystem → Prop where
  | initializeSession {session : SystemSession} {failure : RuntimeFailure}
      (he : s.emulator = .initializing)
      (hs : SystemSession.initializeSession platform s.session.config = (session, failure)) :
      StepOf s .initializeSession { s with
        session := session
        failure := failure
        emulator := if failure.Ok then .handingOver else .quitting }
  | setPresenter (he : s.emulator = .handingOver) (hui : s.ui = .looping) :
      StepOf s .setPresenter { s with presenter := true, emulator := .launching }
  | refusePresenter (he : s.emulator = .handingOver) (hq : s.quit = true) :
      StepOf s .refusePresenter { s with emulator := .launching }
  | launch {session : SystemSession} {failure : RuntimeFailure} (he : s.emulator = .launching)
      (hs : s.session.launch platform path = (session, failure)) :
      StepOf s .launch { s with
        session := session
        failure := failure
        titleRuns := failure.Ok
        emulator := if failure.Ok then .storing else .quitting }
  | storeLaunched (he : s.emulator = .storing) :
      StepOf s .storeLaunched { s with launched := true, emulator := .announcing }
  | onLaunched (he : s.emulator = .announcing) :
      StepOf s .onLaunched { s with emulator := .waiting }
  | titleExits (ht : s.titleRuns = true) : StepOf s .titleExits { s with titleRuns := false }
  | waitUntilExit (he : s.emulator = .waiting) (ht : s.titleRuns = false) :
      StepOf s .waitUntilExit { s with emulator := .quitting }
  | postQuit (he : s.emulator = .quitting) :
      StepOf s .postQuit { s with posted := true, emulator := .finished }
  | runQuit (hui : s.ui = .looping) (hp : s.posted = true) :
      StepOf s .runQuit { s with posted := false, quit := true }
  | close (hui : s.ui = .looping) : StepOf s .close { s with quit := true }
  | leaveLoop (hui : s.ui = .looping) (hq : s.quit = true) :
      StepOf s .leaveLoop { s with ui := .ended }
  | ends (hui : s.ui = .ended) (hl : s.launched = true) :
      StepOf s .loadLaunched { s with exited := some exitSuccess }
  | joins (hui : s.ui = .ended) (hl : s.launched = false) :
      StepOf s .loadLaunched { s with ui := .joining }
  | join (hui : s.ui = .joining) (he : s.emulator = .finished) :
      StepOf s .join { s with ui := .returning, presenter := false }
  | destroyed {status : Nat} (hui : s.ui = .returning) (hd : s.session.destroy = some status) :
      StepOf s .returnFailure { s with exited := some status }
  | returns (hui : s.ui = .returning) (hd : s.session.destroy = none) :
      StepOf s .returnFailure { s with ui := .returned s.failure }

theorem step_cases (h : s.step platform path event = some s') :
    s.exited = none ∧ StepOf platform path s event s' := by
  unfold step at h
  split at h
  · cases h
  next hexited =>
  refine ⟨not_not.1 hexited, ?_⟩
  cases event <;> simp only [Option.ite_none_right_eq_some] at h
  case initializeSession =>
    obtain ⟨he, ⟨⟩⟩ := h
    exact .initializeSession he rfl
  case setPresenter =>
    obtain ⟨⟨he, hui⟩, ⟨⟩⟩ := h
    exact .setPresenter he hui
  case refusePresenter =>
    obtain ⟨⟨he, hq⟩, ⟨⟩⟩ := h
    exact .refusePresenter he hq
  case launch =>
    obtain ⟨he, ⟨⟩⟩ := h
    exact .launch he rfl
  case storeLaunched =>
    obtain ⟨he, ⟨⟩⟩ := h
    exact .storeLaunched he
  case onLaunched =>
    obtain ⟨he, ⟨⟩⟩ := h
    exact .onLaunched he
  case titleExits =>
    obtain ⟨ht, ⟨⟩⟩ := h
    exact .titleExits ht
  case waitUntilExit =>
    obtain ⟨⟨he, ht⟩, ⟨⟩⟩ := h
    exact .waitUntilExit he (Bool.eq_false_iff.2 ht)
  case postQuit =>
    obtain ⟨he, ⟨⟩⟩ := h
    exact .postQuit he
  case runQuit =>
    obtain ⟨⟨hui, hp⟩, ⟨⟩⟩ := h
    exact .runQuit hui hp
  case close =>
    obtain ⟨hui, ⟨⟩⟩ := h
    exact .close hui
  case leaveLoop =>
    obtain ⟨⟨hui, hq⟩, ⟨⟩⟩ := h
    exact .leaveLoop hui hq
  case loadLaunched =>
    obtain ⟨hui, h⟩ := h
    by_cases hl : s.launched = true
    · rw [if_pos hl] at h
      cases h
      exact .ends hui hl
    · rw [if_neg hl] at h
      cases h
      exact .joins hui (Bool.eq_false_iff.2 hl)
  case join =>
    obtain ⟨⟨hui, he⟩, ⟨⟩⟩ := h
    exact .join hui he
  case returnFailure =>
    obtain ⟨hui, h⟩ := h
    cases hd : s.session.destroy with
    | some status =>
      rw [hd] at h
      cases h
      exact .destroyed hui hd
    | none =>
      rw [hd] at h
      cases h
      exact .returns hui hd

/-! ## The emulator thread -/

variable (platform path config) in
/-- What the emulator thread has left behind before its next step. -/
def Phase (s : WindowedSystem) : Prop :=
  match s.emulator with
  | .initializing => s.session = { config } ∧ s.launched = false ∧ s.titleRuns = false
  | .handingOver | .launching =>
    (s.session, s.failure) = SystemSession.initializeSession platform config ∧ s.failure.Ok ∧
      s.launched = false ∧ s.titleRuns = false
  | .storing => (s.session, s.failure) = outcome platform path config ∧ s.failure.Ok ∧
      s.launched = false
  | .announcing | .waiting => (s.session, s.failure) = outcome platform path config ∧
      s.failure.Ok ∧ s.launched = true
  | .quitting | .finished => (s.session, s.failure) = outcome platform path config ∧
      (s.launched = true ↔ s.failure.Ok) ∧ s.titleRuns = false

theorem phase_start : Phase platform path config (start config) := ⟨rfl, rfl, rfl⟩

theorem outcome_of_not_ok (h : ¬ (SystemSession.initializeSession platform config).2.Ok) :
    outcome platform path config = SystemSession.initializeSession platform config := by
  rw [outcome]
  exact if_neg h

theorem outcome_of_ok (h : (SystemSession.initializeSession platform config).2.Ok) :
    outcome platform path config =
      (SystemSession.initializeSession platform config).1.launch platform path := by
  rw [outcome]
  exact if_pos h

theorem Phase.step (h : Phase platform path config s) (hs : StepOf platform path s event s') :
    Phase platform path config s' := by
  cases hs with
  | @initializeSession session failure he hs =>
    simp only [Phase, he] at h
    obtain ⟨hsession, hlaunched, hruns⟩ := h
    rw [hsession] at hs
    by_cases hok : failure.Ok
    · simp only [Phase, if_pos hok]
      exact ⟨hs.symm, hok, hlaunched, hruns⟩
    · simp only [Phase, if_neg hok]
      refine ⟨?_, by rw [hlaunched]; exact iff_of_false Bool.false_ne_true hok, hruns⟩
      rw [outcome_of_not_ok (by rw [hs]; exact hok), hs]
  | setPresenter he hui =>
    simp only [Phase, he] at h
    exact h
  | refusePresenter he hq =>
    simp only [Phase, he] at h
    exact h
  | @launch session failure he hs =>
    simp only [Phase, he] at h
    obtain ⟨hinit, hok, hlaunched, hruns⟩ := h
    have houtcome : (session, failure) = outcome platform path config := by
      rw [outcome_of_ok (by rw [← hinit]; exact hok), ← hinit]
      exact hs.symm
    by_cases hok : failure.Ok
    · simp only [Phase, if_pos hok]
      exact ⟨houtcome, hok, hlaunched⟩
    · simp only [Phase, if_neg hok]
      exact ⟨houtcome, by rw [hlaunched]; exact iff_of_false Bool.false_ne_true hok,
        decide_eq_false hok⟩
  | storeLaunched he =>
    simp only [Phase, he] at h
    exact ⟨h.1, h.2.1, rfl⟩
  | onLaunched he =>
    simp only [Phase, he] at h
    exact h
  | titleExits ht =>
    simp only [Phase] at h ⊢
    cases he : s.emulator <;> simp only [he, ht] at h ⊢
    case storing | announcing | waiting => exact h
    all_goals simp at h
  | waitUntilExit he ht =>
    simp only [Phase, he] at h
    exact ⟨h.1, iff_of_true h.2.2 h.2.1, ht⟩
  | postQuit he =>
    simp only [Phase, he] at h
    exact h
  | _ => exact h

/-! ## The UI loop -/

/-- What has told the loop to quit, and where the UI thread is for it. -/
structure Quits (s : WindowedSystem) : Prop where
  posted : s.posted = true → s.emulator = .finished
  quit : s.quit = true → s.launched = true ∨ s.emulator = .finished
  left : s.ui ≠ .looping → s.quit = true
  joining : s.ui = .joining → s.launched = false ∧ s.emulator = .finished

/-- The window is closed only when the title has been launched, or the emulator thread is done. -/
def ClosesLate (s : WindowedSystem) (event : WindowEvent) : Prop :=
  event = .close → s.launched = true ∨ s.emulator = .finished

instance ClosesLate.decidable (s : WindowedSystem) (event : WindowEvent) :
    Decidable (ClosesLate s event) := inferInstanceAs (Decidable (_ → _))

theorem quits_start : Quits (start config) where
  posted h := nomatch h
  quit h := nomatch h
  left h := absurd rfl h
  joining h := nomatch h

/-- A step of the emulator thread, before its end. -/
theorem Quits.advance (h : Quits s) (he : s.emulator ≠ .finished) (hposted : s'.posted = s.posted)
    (hquit : s'.quit = s.quit) (hui : s'.ui = s.ui)
    (hlaunched : s.launched = true → s'.launched = true) :
    Quits s' where
  posted hp := absurd (h.posted (hposted ▸ hp)) he
  quit hq := .inl (hlaunched ((h.quit (hquit ▸ hq)).resolve_right he))
  left hl := hquit ▸ h.left (hui ▸ hl)
  joining hj := absurd (h.joining (hui ▸ hj)).2 he

theorem Quits.step (h : Quits s) (hc : ClosesLate s event)
    (hs : StepOf platform path s event s') : Quits s' := by
  cases hs with
  | initializeSession he | launch he =>
    exact h.advance (by rw [he]; decide) rfl rfl rfl id
  | setPresenter he | refusePresenter he | onLaunched he | waitUntilExit he =>
    exact h.advance (by rw [he]; decide) rfl rfl rfl id
  | storeLaunched he => exact h.advance (by rw [he]; decide) rfl rfl rfl fun _ => rfl
  | postQuit he =>
    exact ⟨fun _ => rfl, fun _ => .inr rfl, h.left, fun hj => ⟨(h.joining hj).1, rfl⟩⟩
  | runQuit hui hp =>
    exact ⟨(nomatch ·), fun _ => .inr (h.posted hp), fun _ => rfl, h.joining⟩
  | close hui => exact ⟨h.posted, fun _ => hc rfl, fun _ => rfl, h.joining⟩
  | leaveLoop hui hq => exact ⟨h.posted, h.quit, fun _ => hq, fun hj => nomatch hj⟩
  | joins hui hl =>
    have hq := h.left (by rw [hui]; decide)
    refine ⟨h.posted, h.quit, fun _ => hq, fun _ => ⟨hl, ?_⟩⟩
    exact (h.quit hq).resolve_left (by rw [hl]; exact Bool.false_ne_true)
  | join hui he =>
    exact ⟨h.posted, h.quit, fun _ => h.left (by rw [hui]; decide), fun hj => nomatch hj⟩
  | returns hui hd =>
    exact ⟨h.posted, h.quit, fun _ => h.left (by rw [hui]; decide), fun hj => nomatch hj⟩
  | _ => exact ⟨h.posted, h.quit, h.left, h.joining⟩

end

end WindowedSystem

end X360Port
