import X360Port.SystemSession.Accepted
import X360Port.SystemWindow.Endings

/-!
# Which failures are delivered

Nobody closes the window. Then the UI loop ends only after the emulator thread,
a run has an end, and at its end the caller has the failure, or the process is
gone. It is gone when the failure came from a launch that Xenia was asked for,
since destroying the session then ends the process.
-/

namespace X360Port

open Library

namespace WindowedSystem

section

variable (platform : Platform) (path : LaunchPath) (config : SystemSessionConfig)

/-- Nothing is left to happen, but for the player. -/
def Final (s : WindowedSystem) : Prop :=
  ∀ event : WindowEvent, event ≠ .close → s.step platform path event = none

/-- A failure of `Initialize` or `Launch` reaches the caller. -/
def Delivers : Prop :=
  ∀ (events : List WindowEvent) (s : WindowedSystem), .close ∉ events →
    play (step platform path) (start config) events = some s → Final platform path s →
    ¬ (outcome platform path config).2.Ok →
      s.exited = none ∧ s.ui = .returned (outcome platform path config).2

/-- Destroying the session ends the process only after a launch that succeeded. -/
def DestroysLaunched : Prop :=
  (outcome platform path config).1.destroy ≠ none →
    (SystemSession.initializeSession platform config).2.Ok ∧ (outcome platform path config).2.Ok

/-- No console is composed, or its launch succeeds: what fails, fails before Xenia is asked to
launch. -/
def FailsBeforeLaunch : Prop := ¬ Composes platform config ∨ path.Succeeds platform config

end

section

variable {platform : Platform} {path : LaunchPath} {config : SystemSessionConfig}
  {s s' : WindowedSystem} {event : WindowEvent}

/-! ## Runs have an end -/

def EmulatorThread.rank : EmulatorThread → Nat
  | .initializing => 9
  | .handingOver => 8
  | .launching => 7
  | .storing => 5
  | .announcing => 4
  | .waiting => 3
  | .quitting => 2
  | .finished => 0

def UiThread.rank : UiThread → Nat
  | .looping => 4
  | .ended => 3
  | .joining => 2
  | .returning => 1
  | .returned _ => 0

/-- How much is left to happen. -/
def rank (s : WindowedSystem) : Nat :=
  EmulatorThread.rank s.emulator + UiThread.rank s.ui + s.titleRuns.toNat + s.posted.toNat +
    if s.exited = none then 1 else 0

theorem rank_step (hevent : event ≠ .close) (hs : s.step platform path event = some s') :
    s'.rank < s.rank := by
  obtain ⟨hx, hs⟩ := step_cases hs
  have hruns := s.titleRuns.toNat_le
  have hposted := s.posted.toNat_le
  cases hs with
  | @initializeSession session failure he hs =>
    by_cases hok : failure.Ok <;> simp [rank, he, hok, EmulatorThread.rank]
  | @launch session failure he hs =>
    by_cases hok : failure.Ok <;> simp [rank, he, hok, EmulatorThread.rank] <;> omega
  | setPresenter he | refusePresenter he | storeLaunched he | onLaunched he | waitUntilExit he =>
    simp [rank, he, EmulatorThread.rank]
  | postQuit he =>
    simp [rank, he, EmulatorThread.rank]
    omega
  | titleExits ht => simp [rank, ht]
  | runQuit hui hp => simp [rank, hp]
  | close hui => exact absurd rfl hevent
  | leaveLoop hui | joins hui | join hui | returns hui => simp [rank, hui, UiThread.rank]
  | ends hui hl | destroyed hui hd => simp [rank, hx]

/-! ## The end of a run -/

/-- What the run has come to, when nobody closes the window. -/
structure Unclosed (s : WindowedSystem) : Prop where
  quit : s.quit = true → s.emulator = .finished
  left : s.ui ≠ .looping → s.quit = true
  posted : s.posted = true → s.emulator = .finished
  told : s.emulator = .finished → s.posted = true ∨ s.quit = true
  exited : s.exited ≠ none → s.ui ≠ .looping ∧ (s.launched = true ∨ s.session.destroy ≠ none)
  returned : ∀ failure, s.ui = .returned failure → failure = s.failure

theorem unclosed_start : Unclosed (start config) where
  quit h := nomatch h
  left h := absurd rfl h
  posted h := nomatch h
  told h := nomatch h
  exited h := absurd rfl h
  returned _ h := nomatch h

/-- Before its end, a step of the emulator thread finds the UI loop running. -/
theorem Unclosed.looping (h : Unclosed s) (he : s.emulator ≠ .finished) : s.ui = .looping := by
  by_contra hui
  exact he (h.quit (h.left hui))

theorem Unclosed.advance (h : Unclosed s) (he : s.emulator ≠ .finished)
    (he' : s'.emulator ≠ .finished) (hx : s.exited = none) (hposted : s'.posted = s.posted)
    (hquit : s'.quit = s.quit) (hui : s'.ui = s.ui) (hexited : s'.exited = s.exited) :
    Unclosed s' where
  quit hq := absurd (h.quit (hquit ▸ hq)) he
  left hl := absurd (hui.trans (h.looping he)) hl
  posted hp := absurd (h.posted (hposted ▸ hp)) he
  told hf := absurd hf he'
  exited hx' := absurd (hexited.trans hx) hx'
  returned failure hr := by
    rw [hui, h.looping he] at hr
    cases hr

theorem Unclosed.step (h : Unclosed s) (hevent : event ≠ .close)
    (hs : s.step platform path event = some s') : Unclosed s' := by
  obtain ⟨hx, hs⟩ := step_cases hs
  cases hs with
  | @initializeSession session failure he hs =>
    refine h.advance (by rw [he]; decide) ?_ hx rfl rfl rfl rfl
    by_cases hok : failure.Ok <;> simp [hok]
  | @launch session failure he hs =>
    refine h.advance (by rw [he]; decide) ?_ hx rfl rfl rfl rfl
    by_cases hok : failure.Ok <;> simp [hok]
  | setPresenter he | refusePresenter he | storeLaunched he | onLaunched he | waitUntilExit he =>
    exact h.advance (by rw [he]; decide) nofun hx rfl rfl rfl rfl
  | postQuit he =>
    have hui := h.looping (by rw [he]; decide)
    refine ⟨fun _ => rfl, h.left, fun _ => rfl, fun _ => .inl rfl, fun hx' => absurd hx hx', ?_⟩
    exact h.returned
  | titleExits ht => exact ⟨h.quit, h.left, h.posted, h.told, h.exited, h.returned⟩
  | runQuit hui hp =>
    refine ⟨fun _ => h.posted hp, fun _ => rfl, (nomatch ·), fun _ => .inr rfl, h.exited, ?_⟩
    exact h.returned
  | close hui => exact absurd rfl hevent
  | leaveLoop hui hq =>
    exact ⟨h.quit, fun _ => hq, h.posted, h.told, fun hx' => absurd hx hx', fun _ hr => nomatch hr⟩
  | ends hui hl =>
    exact ⟨h.quit, h.left, h.posted, h.told, fun _ => ⟨by simp [hui], .inl hl⟩, h.returned⟩
  | joins hui hl =>
    have hq := h.left (by simp [hui])
    exact ⟨h.quit, fun _ => hq, h.posted, h.told, fun hx' => absurd hx hx', fun _ hr => nomatch hr⟩
  | join hui he =>
    have hq := h.left (by simp [hui])
    exact ⟨h.quit, fun _ => hq, h.posted, h.told, fun hx' => absurd hx hx', fun _ hr => nomatch hr⟩
  | destroyed hui hd =>
    refine ⟨h.quit, h.left, h.posted, h.told, fun _ => ⟨by simp [hui], .inr ?_⟩, h.returned⟩
    exact Option.ne_none_iff_exists'.2 ⟨_, hd⟩
  | returns hui hd =>
    have hq := h.left (by simp [hui])
    refine ⟨h.quit, fun _ => hq, h.posted, h.told, fun hx' => absurd hx hx', fun failure hr => ?_⟩
    cases hr
    rfl

/-- Whatever the emulator thread waits for comes. -/
theorem Unclosed.final_emulator (h : Unclosed s) (hx : s.exited = none)
    (hfinal : Final platform path s) : s.emulator = .finished := by
  cases he : s.emulator with
  | finished => rfl
  | initializing =>
    have := hfinal .initializeSession (by decide)
    simp [WindowedSystem.step, hx, he] at this
  | handingOver =>
    have := hfinal .setPresenter (by decide)
    simp [WindowedSystem.step, hx, he, h.looping (by rw [he]; decide)] at this
  | launching =>
    have := hfinal .launch (by decide)
    simp [WindowedSystem.step, hx, he] at this
  | storing =>
    have := hfinal .storeLaunched (by decide)
    simp [WindowedSystem.step, hx, he] at this
  | announcing =>
    have := hfinal .onLaunched (by decide)
    simp [WindowedSystem.step, hx, he] at this
  | waiting =>
    have hwait := hfinal .waitUntilExit (by decide)
    have hexit := hfinal .titleExits (by decide)
    cases hruns : s.titleRuns with
    | false => simp [WindowedSystem.step, hx, he, hruns] at hwait
    | true => simp [WindowedSystem.step, hx, hruns] at hexit
  | quitting =>
    have := hfinal .postQuit (by decide)
    simp [WindowedSystem.step, hx, he] at this

/-- A run that is over has returned to the caller, if the process is still there. -/
theorem Unclosed.final_ui (h : Unclosed s) (hx : s.exited = none)
    (hfinal : Final platform path s) : s.ui = .returned s.failure := by
  have he := h.final_emulator hx hfinal
  cases hui : s.ui with
  | looping =>
    rcases h.told he with hp | hq
    · have := hfinal .runQuit (by decide)
      simp [WindowedSystem.step, hx, hui, hp] at this
    · have := hfinal .leaveLoop (by decide)
      simp [WindowedSystem.step, hx, hui, hq] at this
  | ended =>
    have := hfinal .loadLaunched (by decide)
    simp [WindowedSystem.step, hx, hui] at this
  | joining =>
    have := hfinal .join (by decide)
    simp [WindowedSystem.step, hx, hui, he] at this
  | returning =>
    have := hfinal .returnFailure (by decide)
    simp only [WindowedSystem.step, hx, hui, ne_eq, not_true_eq_false, if_false, if_true] at this
    cases hd : s.session.destroy <;> simp [hd] at this
  | returned failure => rw [h.returned failure hui]

theorem ne_close_of_not_mem {events : List WindowEvent} (h : .close ∉ events) :
    ∀ event ∈ events, event ≠ .close := by
  rintro event hevent rfl
  exact h hevent

theorem play_unclosed {events : List WindowEvent} (hclose : .close ∉ events)
    (h : play (WindowedSystem.step platform path) (start config) events = some s) :
    Phase platform path config s ∧ Unclosed s :=
  play_invariant_where
    (P := fun s => Phase platform path config s ∧ Unclosed s)
    (fun _ _ _ hp hc hs => ⟨hp.1.step (step_cases hs).2, hp.2.step hc hs⟩)
    ⟨phase_start, unclosed_start⟩ (everyStep_of_forall (ne_close_of_not_mem hclose)) h

/-! ## What is delivered -/

theorem failsBeforeLaunch_iff : FailsBeforeLaunch platform path config ↔
    ¬ (SystemSession.initializeSession platform config).2.Ok ∨
      ((SystemSession.initializeSession platform config).1.launch platform path).2.Ok := by
  rw [FailsBeforeLaunch, initializeSession_ok_iff]
  by_cases h : Composes platform config
  · rw [launch_ok_iff h]
  · exact iff_of_true (.inl h) (.inl h)

/-- A session that has not launched is torn down, and `return failure` returns it. -/
theorem delivers_of_failsBeforeLaunch (h : FailsBeforeLaunch platform path config) :
    Delivers platform path config := by
  intro events s hclose hplay hfinal hfailure
  obtain ⟨hphase, hun⟩ := play_unclosed hclose hplay
  have hinit : ¬ (SystemSession.initializeSession platform config).2.Ok := by
    refine (failsBeforeLaunch_iff.1 h).elim id fun hlaunch hok => hfailure ?_
    rw [outcome_of_ok hok]
    exact hlaunch
  have hx : s.exited = none := by
    by_contra hx
    obtain ⟨hui, hends⟩ := hun.exited hx
    simp only [Phase, hun.quit (hun.left hui)] at hphase
    obtain ⟨houtcome, hlaunched, -⟩ := hphase
    rw [← houtcome] at hfailure
    have hdestroy := hends.resolve_left fun hl => hfailure (hlaunched.1 hl)
    rw [outcome_of_not_ok hinit] at houtcome
    refine hdestroy ?_
    rw [show s.session = (SystemSession.initializeSession platform config).1 by rw [← houtcome]]
    exact SystemSession.destroy_initializeSession
  refine ⟨hx, ?_⟩
  have he := hun.final_emulator hx hfinal
  simp only [Phase, he] at hphase
  rw [hun.final_ui hx hfinal, ← hphase.1]

/-- The run in which the launch fails. -/
def refusal : List WindowEvent :=
  [.initializeSession, .setPresenter, .launch, .postQuit, .runQuit, .leaveLoop, .loadLaunched,
    .join, .returnFailure]

theorem play_refusal (hinit : (SystemSession.initializeSession platform config).2.Ok)
    (hlaunch : ¬ (outcome platform path config).2.Ok) :
    ∃ s, play (WindowedSystem.step platform path) (start config) refusal = some s ∧
      s.exited = some 1 := by
  have hdestroy := SystemSession.destroy_launch (SystemSession.initializeSession_emulator hinit)
    platform path
  rw [outcome_of_ok hinit] at hlaunch
  simp [refusal, play, WindowedSystem.step, start, hinit, hlaunch, hdestroy]

/-- After a launch that failed the process is gone when the failure would be returned. -/
theorem not_delivers (h : ¬ FailsBeforeLaunch platform path config) :
    ¬ Delivers platform path config := by
  rw [failsBeforeLaunch_iff, not_or, not_not] at h
  obtain ⟨hinit, hlaunch⟩ := h
  have hfailure : ¬ (outcome platform path config).2.Ok := by
    rw [outcome_of_ok hinit]
    exact hlaunch
  obtain ⟨s, hplay, hx⟩ := play_refusal hinit hfailure
  have hfinal : Final platform path s := fun event _ => by simp [WindowedSystem.step, hx]
  intro hdelivers
  have hnone := (hdelivers refusal s (by decide) hplay hfinal hfailure).1
  rw [hx] at hnone
  cases hnone

theorem destroysLaunched_iff :
    DestroysLaunched platform path config ↔ FailsBeforeLaunch platform path config := by
  rw [failsBeforeLaunch_iff]
  by_cases hinit : (SystemSession.initializeSession platform config).2.Ok
  · have hdestroy := SystemSession.destroy_launch (SystemSession.initializeSession_emulator hinit)
      platform path
    rw [DestroysLaunched, outcome_of_ok hinit, hdestroy]
    simp [hinit]
  · rw [DestroysLaunched, outcome_of_not_ok hinit]
    exact iff_of_true (absurd SystemSession.destroy_initializeSession) (.inl hinit)

end

/-- **Main result.** When nobody closes the window, every run has an end, and at the end the caller
has the failure exactly when Xenia has not been asked to launch; that is also exactly when
destroying the session spares the process unless the title was launched. -/
theorem delivers_iff (platform : Platform) (path : LaunchPath) (config : SystemSessionConfig) :
    (∀ (events : List WindowEvent) (s : WindowedSystem), .close ∉ events →
      play (WindowedSystem.step platform path) (start config) events = some s →
      events.length ≤ 14) ∧
    (Delivers platform path config ↔ FailsBeforeLaunch platform path config) ∧
    (DestroysLaunched platform path config ↔ FailsBeforeLaunch platform path config) := by
  refine ⟨fun events s hclose hplay => ?_, ⟨fun h => ?_, delivers_of_failsBeforeLaunch⟩,
    destroysLaunched_iff⟩
  · have hlength := play_length rank (fun _ _ _ hevent hs => rank_step hevent hs)
      (ne_close_of_not_mem hclose) hplay
    exact Nat.le_trans (Nat.le_add_right events.length s.rank) hlength
  · by_contra hlaunch
    exact not_delivers hlaunch h

/-- A configuration that is refused. -/
theorem delivers_iff_untitled : Delivers readyPlatform (loads 1)
    { titleConfig with expectedTitleId := 0 } :=
  (delivers_iff readyPlatform (loads 1) { titleConfig with expectedTitleId := 0 }).2.1.2
    (.inl fun h => h.valid.titleId rfl)

/-- Another title is loaded: its refusal is recorded and the process ends. -/
theorem not_delivers_otherTitle : ¬ ∀ (platform : Platform) (path : LaunchPath)
    (config : SystemSessionConfig),
    Delivers platform path config ∧ DestroysLaunched platform path config := by
  intro hall
  have hlaunch : ¬ FailsBeforeLaunch readyPlatform (loads 1) titleConfig := by
    rw [failsBeforeLaunch_iff]
    decide +kernel
  exact not_delivers hlaunch (hall readyPlatform (loads 1) titleConfig).1

end WindowedSystem

end X360Port
