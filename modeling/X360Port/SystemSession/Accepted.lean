import X360Port.OverrideDispatch.Redirects
import X360Port.SystemSession

/-!
# What a session accepts

`SystemSessionConfig.Valid`, `Composes` and `LaunchPath.Succeeds` say in plain
terms when `ValidateConfig`, `Initialize` and `Launch` answer no failure. The
overrides of a title are installed when each is inside its code, has a handler
and an address of its own, and gets its redirect.
-/

namespace X360Port

theorem RuntimeFailure.ok_guard_iff {c : Prop} [Decidable c] {error : RuntimeError}
    {detail : String} {rest : RuntimeFailure} (h : error ≠ .none) :
    (if c then ⟨error, detail⟩ else rest : RuntimeFailure).Ok ↔ ¬ c ∧ rest.Ok := by
  by_cases hc : c
  · simp [hc, RuntimeFailure.Ok, h]
  · simp [hc]

/-! ## The configuration -/

namespace SystemSessionConfig

/-- A configuration that a session may be composed from. -/
structure Valid (platform : Platform) (config : SystemSessionConfig) : Prop where
  titleId : config.expectedTitleId ≠ 0
  titlePath : platform.pathExists config.titlePath = true
  storageRoot : config.storageRoot ≠ "" ∧ platform.isAbsolute config.storageRoot = true
  gamertag : config.playerGamertag = "" ∨ platform.isGamertagValid config.playerGamertag = true
  readers : config.inputState = true ∧ config.inputCapabilities = true
  refresh : kMinDisplayRefreshHz ≤ config.displayRefreshHz ∧
    config.displayRefreshHz ≤ kMaxDisplayRefreshHz
  presents : config.maxPresentsPerSecond ≤ config.displayRefreshHz
  scale : kMinResolutionScale ≤ config.resolutionScale ∧
    config.resolutionScale ≤ kMaxResolutionScale
  handlers : ∀ entry ∈ config.overrides, entry.handler ≠ none

theorem handlerFailure_ok_iff (config : SystemSessionConfig) :
    config.handlerFailure.Ok ↔ ∀ entry ∈ config.overrides, entry.handler ≠ none := by
  unfold handlerFailure
  cases hfind : config.overrides.find? (·.handler = none) with
  | none => simpa using hfind
  | some entry =>
    refine iff_of_false RuntimeError.noConfusion fun hall => ?_
    have hnone : entry.handler = none := by simpa using List.find?_some hfind
    exact hall entry (List.mem_of_find?_eq_some hfind) hnone

theorem validateConfig_ok_iff (platform : Platform) (config : SystemSessionConfig) :
    (config.validateConfig platform).Ok ↔ config.Valid platform := by
  unfold validateConfig
  rw [RuntimeFailure.ok_guard_iff RuntimeError.noConfusion,
    RuntimeFailure.ok_guard_iff RuntimeError.noConfusion,
    RuntimeFailure.ok_guard_iff RuntimeError.noConfusion,
    RuntimeFailure.ok_guard_iff RuntimeError.noConfusion,
    RuntimeFailure.ok_guard_iff RuntimeError.noConfusion,
    RuntimeFailure.ok_guard_iff RuntimeError.noConfusion,
    RuntimeFailure.ok_guard_iff RuntimeError.noConfusion,
    RuntimeFailure.ok_guard_iff RuntimeError.noConfusion, handlerFailure_ok_iff]
  simp only [not_or, not_and, not_not, UInt32.not_lt]
  constructor
  · rintro ⟨h1, h2, h3, h4, h5, h6, h7, h8, h9⟩
    exact ⟨h1, h2, h3, Classical.or_iff_not_imp_left.2 h4, h5, h6, h7, h8, h9⟩
  · rintro ⟨h1, h2, h3, h4, h5, h6, h7, h8, h9⟩
    exact ⟨h1, h2, h3, Classical.or_iff_not_imp_left.1 h4, h5, h6, h7, h8, h9⟩

end SystemSessionConfig

/-- A configuration and a platform that a console is composed from. -/
structure Composes (platform : Platform) (config : SystemSessionConfig) : Prop where
  valid : config.Valid platform
  acquired : platform.acquired = true
  directories : platform.directoryError = none
  setup : platform.failed platform.setup = false
  gamepads : config.hostInput = .gamepads → platform.failed platform.gamepadSetup = false
  player : config.playerGamertag = "" ∨
    (platform.hasAccounts = true ∨ platform.createProfile = true) ∧ platform.signedIn = true

section

variable (platform : Platform) (config : SystemSessionConfig)

theorem inputFailure_ok_iff : (config.inputFailure platform).Ok ↔
    (config.hostInput = .gamepads → platform.failed platform.gamepadSetup = false) := by
  unfold SystemSessionConfig.inputFailure
  rw [RuntimeFailure.ok_guard_iff RuntimeError.noConfusion]
  simp

theorem signInLocalPlayer_ok_iff : (config.signInLocalPlayer platform).Ok ↔
    config.playerGamertag = "" ∨
      (platform.hasAccounts = true ∨ platform.createProfile = true) ∧ platform.signedIn = true := by
  unfold SystemSessionConfig.signInLocalPlayer
  by_cases hnobody : config.playerGamertag = ""
  · simp [hnobody]
  · rw [if_neg hnobody, RuntimeFailure.ok_guard_iff RuntimeError.noConfusion,
      RuntimeFailure.ok_guard_iff RuntimeError.noConfusion]
    simp [hnobody, Classical.or_iff_not_imp_left]

theorem composeConsole_ok_iff {s : SystemSession} : (s.composeConsole platform).2.Ok ↔
    platform.acquired = true ∧ platform.directoryError = none ∧
      platform.failed platform.setup = false ∧ (s.config.inputFailure platform).Ok ∧
      (s.config.signInLocalPlayer platform).Ok := by
  unfold SystemSession.composeConsole
  by_cases hacquired : platform.acquired = true
  · rw [if_neg (not_not_intro hacquired)]
    cases hdirectory : platform.directoryError with
    | some message => exact iff_of_false RuntimeError.noConfusion fun h => nomatch h.2.1
    | none =>
      simp only [hacquired, true_and]
      split
      · next hsetup => exact iff_of_false RuntimeError.noConfusion fun h => by simp [hsetup] at h
      split
      · next hinput => exact iff_of_false hinput fun h => hinput h.2.1
      split
      · next hplayer => exact iff_of_false hplayer fun h => hplayer h.2.2
      · next hsetup hinput hplayer =>
        rw [not_not] at hinput hplayer
        exact iff_of_true RuntimeFailure.ok_empty ⟨Bool.eq_false_iff.2 hsetup, hinput, hplayer⟩
  · rw [if_pos hacquired]
    exact iff_of_false RuntimeError.noConfusion fun h => hacquired h.1

theorem initializeSession_ok_iff :
    (SystemSession.initializeSession platform config).2.Ok ↔ Composes platform config := by
  unfold SystemSession.initializeSession
  by_cases hvalid : (config.validateConfig platform).Ok
  · rw [if_neg (not_not_intro hvalid), composeConsole_ok_iff, inputFailure_ok_iff,
      signInLocalPlayer_ok_iff]
    rw [SystemSessionConfig.validateConfig_ok_iff] at hvalid
    constructor
    · rintro ⟨h1, h2, h3, h4, h5⟩
      exact ⟨hvalid, h1, h2, h3, h4, h5⟩
    · rintro ⟨-, h1, h2, h3, h4, h5⟩
      exact ⟨h1, h2, h3, h4, h5⟩
  · rw [if_pos hvalid]
    refine iff_of_false hvalid fun h => hvalid ?_
    exact (SystemSessionConfig.validateConfig_ok_iff platform config).2 h.valid

end

/-! ## The title -/

/-- The override gets its redirect, in a table that has no other at its address. -/
structure SystemOverride.Installable (title : LoadedTitle) (code : CodeRange)
    (entry : SystemOverride) : Prop where
  handler : entry.handler ≠ none
  inside : isInside entry.address code = true
  accepted : title.accepts entry.address = true

/-- A title that `ActivateTitle` verifies. -/
structure LoadedTitle.Accepted (config : SystemSessionConfig) (title : LoadedTitle) : Prop where
  identity : title.titleId = config.expectedTitleId
  overrides : ∃ code, title.text = some code ∧ code.size ≠ 0 ∧
    (∀ entry ∈ config.overrides, entry.Installable title code) ∧
    (config.overrides.map (·.address)).Nodup

/-- A launch that loads no title but the expected one, and reports success. -/
structure LaunchPath.Succeeds (platform : Platform) (config : SystemSessionConfig)
    (path : LaunchPath) : Prop where
  loaded : ∀ title ∈ path.loaded, title.Accepted config
  status : platform.failed path.status = false

section

variable {platform : Platform} {config : SystemSessionConfig} {title : LoadedTitle}
  {code : CodeRange}

theorem install_ok_iff {s : OverrideDispatch} (hbound : s.bound = true) (entry : SystemOverride) :
    (s.install entry.address entry.handler entry.context code (title.accepts entry.address)).2.Ok ↔
      entry.Installable title code ∧ s.find entry.address = none := by
  unfold OverrideDispatch.install
  rw [if_neg (not_not_intro hbound)]
  cases hhandler : entry.handler with
  | none => exact iff_of_false RuntimeError.noConfusion fun h => h.1.handler hhandler
  | some handler =>
    simp only
    split
    · next hinside => exact iff_of_false RuntimeError.noConfusion fun h => hinside h.1.inside
    split
    · next hfind =>
      refine iff_of_false RuntimeError.noConfusion fun h => ?_
      rw [h.2] at hfind
      cases hfind
    split
    · next haccepted => exact iff_of_false RuntimeError.noConfusion fun h => haccepted h.1.accepted
    · next hinside hfind haccepted =>
      refine iff_of_true RuntimeFailure.ok_empty ⟨⟨?_, ?_, ?_⟩, ?_⟩
      · exact fun h => nomatch hhandler.symm.trans h
      · exact not_not.1 hinside
      · exact not_not.1 haccepted
      · exact Option.not_isSome_iff_eq_none.1 hfind

theorem find_install {s : OverrideDispatch} {address : GuestAddress}
    {target : NativeOverrideHandler} {context : Pointer} (address' : GuestAddress) :
    OverrideDispatch.find { s with
        nextNode := s.nextNode + 1
        entries := ⟨s.nextNode, address, target, context⟩ :: s.entries
        redirects := (address, s.nextNode) :: s.redirects } address' = none ↔
      address ≠ address' ∧ s.find address' = none := by
  rw [OverrideDispatch.find_eq_none_iff, OverrideDispatch.find_eq_none_iff, List.forall_mem_cons]

theorem installOverrides_ok_iff (entries : List SystemOverride) {s : OverrideDispatch}
    (hbound : s.bound = true) :
    (SystemSession.installOverrides title code s entries).2.Ok ↔
      (∀ entry ∈ entries, entry.Installable title code ∧ s.find entry.address = none) ∧
        (entries.map (·.address)).Nodup := by
  induction entries generalizing s with
  | nil => simp [SystemSession.installOverrides]
  | cons entry entries ih =>
    have hinstall : _ ↔ entry.Installable title code ∧ _ := install_ok_iff hbound entry
    simp only [SystemSession.installOverrides]
    by_cases hok : (s.install entry.address entry.handler entry.context code
        (title.accepts entry.address)).2.Ok
    · rw [if_pos hok]
      have hentry := hinstall.1 hok
      obtain ⟨hrefused, -⟩ | ⟨-, target, hinstalled⟩ := s.install_cases entry.address entry.handler
        entry.context code (title.accepts entry.address)
      · exact absurd hok hrefused
      · rw [hinstalled]
        refine (ih ?_).trans ?_
        · exact hbound
        simp only [find_install, List.forall_mem_cons, List.map_cons, List.nodup_cons, List.mem_map,
          not_exists, not_and]
        constructor
        · rintro ⟨hall, hnodup⟩
          refine ⟨⟨hentry, fun e he => ⟨(hall e he).1, (hall e he).2.2⟩⟩, ?_, hnodup⟩
          exact fun e he heq => (hall e he).2.1 heq.symm
        · rintro ⟨⟨-, hall⟩, hnot, hnodup⟩
          refine ⟨fun e he => ⟨(hall e he).1, ?_, (hall e he).2⟩, hnodup⟩
          exact fun heq => hnot e he heq.symm
    · rw [if_neg hok]
      refine iff_of_false hok fun h => hok (hinstall.2 ?_)
      exact (List.forall_mem_cons.1 h.1).1

theorem activateTitle_ok_iff {s : SystemSession} (hbound : s.overrides.bound = true)
    (hempty : s.overrides.entries = []) :
    (s.activateTitle title).2.Ok ↔ title.Accepted s.config := by
  have hfind : ∀ address, s.overrides.find address = none := fun address =>
    OverrideDispatch.find_eq_none_iff.2 fun e he => by
      rw [hempty] at he
      cases he
  unfold SystemSession.activateTitle
  split
  · next hidentity => exact iff_of_false RuntimeError.noConfusion fun h => hidentity h.identity
  next hidentity =>
  rw [not_not] at hidentity
  cases htext : title.text with
  | none =>
    refine iff_of_false RuntimeError.noConfusion fun h => ?_
    obtain ⟨code, hcode, -⟩ := h.overrides
    exact nomatch htext.symm.trans hcode
  | some code =>
    by_cases hsize : code.size = 0
    · rw [Option.filter_some, if_neg (by simpa using hsize)]
      refine iff_of_false RuntimeError.noConfusion fun h => ?_
      obtain ⟨code', hcode, hsize', -⟩ := h.overrides
      cases htext.symm.trans hcode
      exact hsize' hsize
    · rw [Option.filter_some, if_pos (by simpa using hsize)]
      refine (installOverrides_ok_iff s.config.overrides hbound).trans ?_
      simp only [hfind, and_true]
      constructor
      · rintro ⟨hall, hnodup⟩
        exact ⟨hidentity, code, htext, hsize, hall, hnodup⟩
      · rintro ⟨-, code', hcode, -, hall, hnodup⟩
        cases htext.symm.trans hcode
        exact ⟨hall, hnodup⟩

/-- What `Initialize` leaves when it succeeds. -/
theorem initializeSession_eq (h : Composes platform config) :
    (SystemSession.initializeSession platform config).1 =
      { config, emulator := true, overrides := OverrideDispatch.bind {} } := by
  have hvalid := (SystemSessionConfig.validateConfig_ok_iff platform config).2 h.valid
  have hinput := (inputFailure_ok_iff platform config).2 h.gamepads
  have hplayer := (signInLocalPlayer_ok_iff platform config).2 h.player
  simp [SystemSession.initializeSession, SystemSession.composeConsole, hvalid, h.acquired,
    h.directories, h.setup, hinput, hplayer]

/-- A launch answers what the listener recorded, then Xenia's status. -/
theorem launch_ok_iff_recorded {s : SystemSession} (h : s.emulator = true) (path : LaunchPath) :
    (s.launch platform path).2.Ok ↔
      (path.loaded.elim s fun title => s.onLaunch title).activationFailure.Ok ∧
        platform.failed path.status = false := by
  unfold SystemSession.launch
  rw [if_neg (not_not_intro h)]
  cases path.loaded <;> simp only [Option.elim_none, Option.elim_some] <;> split
  case none.isTrue hfailure | some.isTrue hfailure =>
    exact iff_of_false hfailure fun h => hfailure h.1
  case none.isFalse hok | some.isFalse hok =>
    rw [not_not] at hok
    cases hstatus : platform.failed path.status with
    | true => exact iff_of_false RuntimeError.noConfusion nofun
    | false => exact iff_of_true RuntimeFailure.ok_empty ⟨hok, rfl⟩

theorem launch_ok_iff (h : Composes platform config) (path : LaunchPath) :
    ((SystemSession.initializeSession platform config).1.launch platform path).2.Ok ↔
      path.Succeeds platform config := by
  have hactivate : ∀ title : LoadedTitle, _ ↔ title.Accepted config := fun title =>
    activateTitle_ok_iff
      (s := { config, emulator := true, overrides := OverrideDispatch.bind {} }) rfl rfl
  rw [initializeSession_eq h, launch_ok_iff_recorded rfl]
  cases hloaded : path.loaded with
  | none =>
    refine ⟨fun h => ⟨fun title ht => ?_, h.2⟩, fun h => ⟨RuntimeFailure.ok_empty, h.status⟩⟩
    rw [hloaded] at ht
    cases ht
  | some title =>
    refine ⟨fun h => ⟨fun title' ht => ?_, h.2⟩, fun h => ⟨(hactivate title).2 ?_, h.status⟩⟩
    · rw [hloaded] at ht
      cases ht
      exact (hactivate title).1 h.1
    · exact h.loaded title (by rw [hloaded]; rfl)

end

end X360Port
