import X360Port.SystemWindow.Steps

/-!
# How a windowed system ends

As long as the window is closed late, a UI loop that has ended before the launch
was ended by the emulator thread: the failure is recorded, the thread is done
and the title does not run. A window that is closed before that leaves the UI
thread to join a thread that may wait for the title.

A failure reaches the caller only when Xenia has not been asked to launch: the
locals of `RunWindowedSystem` are destroyed after its `return`, the session
among them.
-/

namespace X360Port

open Library

namespace WindowedSystem

section

variable {platform : Platform} {path : LaunchPath} {config : SystemSessionConfig}
  {s s' : WindowedSystem} {event : WindowEvent}

/-- If the UI loop has ended and the title was not launched, the emulator thread has recorded its
failure and is done, and the title does not run. -/
def EndsWell (s : WindowedSystem) : Prop :=
  (s.ui = .ended ∧ s.launched = false) ∨ s.ui = .joining →
    ¬ s.failure.Ok ∧ s.emulator = .finished ∧ s.titleRuns = false

theorem Quits.endsWell (h : Quits s) (hphase : Phase platform path config s) : EndsWell s := by
  intro hended
  have hdone : s.launched = false ∧ s.emulator = .finished := by
    rcases hended with ⟨hui, hl⟩ | hui
    · have hquit := h.quit (h.left (by rw [hui]; decide))
      exact ⟨hl, hquit.resolve_left (by rw [hl]; exact Bool.false_ne_true)⟩
    · exact h.joining hui
  obtain ⟨hl, he⟩ := hdone
  simp only [Phase, he] at hphase
  refine ⟨fun hok => ?_, he, hphase.2.2⟩
  rw [hphase.2.1.2 hok] at hl
  cases hl

/-- The thread that is joined is done, so the join returns. -/
theorem EndsWell.join_returns (h : EndsWell s) (hx : s.exited = none) (hui : s.ui = .joining) :
    (s.step platform path .join).isSome := by
  obtain ⟨-, he, -⟩ := h (.inr hui)
  simp [WindowedSystem.step, hx, hui, he]

/-- Closed any earlier, the window ends the loop before the thread is done. -/
theorem not_endsWell_of_close (hx : s.exited = none) (hui : s.ui = .looping)
    (hl : s.launched = false) (he : s.emulator ≠ .finished) :
    ∃ s', play (WindowedSystem.step platform path) s [.close, .leaveLoop] = some s' ∧
      ¬ EndsWell s' := by
  refine ⟨{ s with quit := true, ui := .ended }, ?_, fun h => he (h (.inl ⟨rfl, hl⟩)).2.1⟩
  simp [play, WindowedSystem.step, hx, hui]

end

/-- **Main result.** In every run in which the window is closed late, the system ends well in every
state; and after any run, closing a window earlier can lead to a state in which it does not. -/
theorem play_endsWell (platform : Platform) (path : LaunchPath) (config : SystemSessionConfig)
    (events : List WindowEvent) (s : WindowedSystem)
    (h : play (WindowedSystem.step platform path) (start config) events = some s) :
    (EveryStep (WindowedSystem.step platform path) ClosesLate (start config) events →
      EndsWell s ∧ (s.exited = none → s.ui = .joining → (s.step platform path .join).isSome)) ∧
    (s.exited = none → s.ui = .looping → ¬ ClosesLate s .close →
      ∃ s', play (WindowedSystem.step platform path) s [.close, .leaveLoop] = some s' ∧
        ¬ EndsWell s') := by
  refine ⟨fun hlate => ?_, fun hx hui hearly => ?_⟩
  · have hboth := play_invariant_where
      (P := fun s => Phase platform path config s ∧ Quits s)
      (fun _ _ _ hp hc hs => ⟨hp.1.step (step_cases hs).2, hp.2.step hc (step_cases hs).2⟩)
      ⟨phase_start, quits_start⟩ hlate h
    have hwell := hboth.2.endsWell hboth.1
    exact ⟨hwell, hwell.join_returns⟩
  · have hnot : ¬ (s.launched = true ∨ s.emulator = .finished) := fun hor => hearly fun _ => hor
    rw [not_or, Bool.not_eq_true] at hnot
    exact not_endsWell_of_close hx hui hnot.1 hnot.2

/-- Every answer is a yes. -/
def readyPlatform : Platform where
  pathExists _ := true
  isAbsolute _ := true
  isGamertagValid _ := true
  acquired := true
  directoryError := none
  setup := 0
  gamepadSetup := 0
  hasAccounts := true
  createProfile := true
  signedIn := true
  failed status := status &&& 0xC0000000 ≠ 0

def titleConfig : SystemSessionConfig where
  titlePath := "title.iso"
  storageRoot := "/storage"
  expectedTitleId := 0x4D5307D5
  inputState := true
  inputCapabilities := true

/-- A title that reports the identifier. -/
def loads (titleId : UInt32) : LaunchPath where
  loaded := some { titleId, text := some ⟨0x82000000, 0x1000⟩, accepts := fun _ => true }
  status := 0

/-- Another title is refused, and the window is closed before the posted closure runs. -/
def refusedTitle : List WindowEvent :=
  [.initializeSession, .setPresenter, .launch, .postQuit, .close, .runQuit, .leaveLoop,
    .loadLaunched]

theorem play_endsWell_refusedTitle : ∃ s,
    play (WindowedSystem.step readyPlatform (loads 1)) (start titleConfig) refusedTitle = some s ∧
      s.ui = .joining ∧ EndsWell s := by
  have h := play_endsWell readyPlatform (loads 1) titleConfig refusedTitle _ rfl
  exact ⟨_, rfl, rfl, (h.1 (by decide +kernel)).1⟩

/-- The window is closed while the title launches: the UI thread joins a thread that waits for the
running title. -/
theorem not_endsWell_closed : ¬ ∀ (platform : Platform) (path : LaunchPath)
    (config : SystemSessionConfig) (events : List WindowEvent) (s : WindowedSystem),
    play (WindowedSystem.step platform path) (start config) events = some s → EndsWell s := by
  intro hall
  have h := hall readyPlatform (loads 0x4D5307D5) titleConfig [.initializeSession, .setPresenter,
    .close, .leaveLoop, .loadLaunched, .launch, .storeLaunched, .onLaunched] _ rfl
  have hdone : EmulatorThread.waiting = .finished := (h (.inr rfl)).2.1
  cases hdone

end WindowedSystem

end X360Port
