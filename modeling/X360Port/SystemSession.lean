import X360Port.GuestExecution
import X360Port.OverrideDispatch

/-!
# The system session

A `SystemSession` is one console with one title. Everything it is told by the
file system and by Xenia is in a `Platform`, and what `LaunchPath` does to it in
a `LaunchPath`: the title that `on_launch` reports, if it gets so far, and the
status. Destroying a session ends the process, or does not, by its own
`launched`.
-/

namespace X360Port

structure SystemOverride where
  address : GuestAddress := 0
  handler : Option NativeOverrideHandler := none
  context : Pointer := 0
  deriving DecidableEq, Repr

inductive SystemHostInput where
  | none
  | gamepads
  deriving DecidableEq, Repr

def kConsoleDisplayRefreshHz : UInt32 := 60
def kMinDisplayRefreshHz : UInt32 := 1
def kMaxDisplayRefreshHz : UInt32 := 1000
def kMinResolutionScale : UInt32 := 1
def kMaxResolutionScale : UInt32 := 7

structure SystemSessionConfig where
  titlePath : String
  storageRoot : String
  expectedTitleId : UInt32 := 0
  playerGamertag : String := ""
  /-- The controller readers are there. -/
  inputState : Bool := false
  inputCapabilities : Bool := false
  hostInput : SystemHostInput := .none
  displayRefreshHz : UInt32 := kConsoleDisplayRefreshHz
  maxPresentsPerSecond : UInt32 := 0
  resolutionScale : UInt32 := kMinResolutionScale
  overrides : List SystemOverride := []
  deriving DecidableEq, Repr

/-- The answers that `Initialize` gets. -/
structure Platform where
  pathExists : String → Bool
  isAbsolute : String → Bool
  isGamertagValid : String → Bool
  /-- No other runtime or session is active. -/
  acquired : Bool
  directoryError : Option String
  setup : UInt32
  gamepadSetup : UInt32
  hasAccounts : Bool
  createProfile : Bool
  signedIn : Bool
  /-- `XFAILED`. -/
  failed : UInt32 → Bool

/-- What `ActivateTitle` finds of the title that `on_launch` reports. -/
structure LoadedTitle where
  titleId : UInt32
  /-- The `.text` section of the executable module. -/
  text : Option CodeRange
  /-- Xenia's answer to a redirect. -/
  accepts : GuestAddress → Bool

/-- What `LaunchPath` does. The main thread is resumed last, in a launch that succeeds. -/
structure LaunchPath where
  loaded : Option LoadedTitle
  status : UInt32

structure SystemSession where
  config : SystemSessionConfig
  /-- The emulator is there. -/
  emulator : Bool := false
  overrides : OverrideDispatch := {}
  activationFailure : RuntimeFailure := {}
  launched : Bool := false
  /-- The title's main thread has been suspended once more. -/
  held : Bool := false
  deriving DecidableEq, Repr

def hexWord (value : UInt32) : String := formatGuestAddress value

namespace SystemSessionConfig

/-- The loop over the overrides. -/
def handlerFailure (config : SystemSessionConfig) : RuntimeFailure :=
  match config.overrides.find? (·.handler = none) with
  | some entry =>
    ⟨.overrideInvalid, "native override at 0x" ++ hexWord entry.address ++ " has no handler"⟩
  | none => {}

def validateConfig (platform : Platform) (config : SystemSessionConfig) : RuntimeFailure :=
  if config.expectedTitleId = 0 then
    ⟨.moduleValidationFailed, "a system session must state the title ID it expects to launch"⟩
  else if ¬ platform.pathExists config.titlePath then
    ⟨.moduleValidationFailed, "the title path does not exist: " ++ config.titlePath⟩
  else if config.storageRoot = "" ∨ ¬ platform.isAbsolute config.storageRoot then
    ⟨.moduleValidationFailed, "the storage root must be an absolute per-user directory"⟩
  else if config.playerGamertag ≠ "" ∧ ¬ platform.isGamertagValid config.playerGamertag then
    ⟨.moduleValidationFailed, "the console refuses the gamertag \"" ++ config.playerGamertag ++
      "\": 1-15 letters, digits and single inner spaces, starting with a letter"⟩
  else if ¬ config.inputState ∨ ¬ config.inputCapabilities then
    ⟨.importValidationFailed, "a system session requires both controller readers"⟩
  else if config.displayRefreshHz < kMinDisplayRefreshHz ∨
      kMaxDisplayRefreshHz < config.displayRefreshHz then
    ⟨.backendInitializationFailed, "the display refresh must be between " ++
      toString kMinDisplayRefreshHz ++ " and " ++ toString kMaxDisplayRefreshHz ++ " Hz, not " ++
      toString config.displayRefreshHz⟩
  else if config.displayRefreshHz < config.maxPresentsPerSecond then
    ⟨.backendInitializationFailed, "the present limit must not exceed the display refresh of " ++
      toString config.displayRefreshHz ++ " Hz, not " ++ toString config.maxPresentsPerSecond⟩
  else if config.resolutionScale < kMinResolutionScale ∨
      kMaxResolutionScale < config.resolutionScale then
    ⟨.backendInitializationFailed, "the resolution scale must be between " ++
      toString kMinResolutionScale ++ " and " ++ toString kMaxResolutionScale ++ ", not " ++
      toString config.resolutionScale⟩
  else config.handlerFailure

/-- What `CreateInputDrivers` records while the console is composed. -/
def inputFailure (platform : Platform) (config : SystemSessionConfig) : RuntimeFailure :=
  if config.hostInput = .gamepads ∧ platform.failed platform.gamepadSetup then
    ⟨.backendInitializationFailed, "the host gamepad driver refused to start: status 0x" ++
      hexWord platform.gamepadSetup⟩
  else {}

def signInLocalPlayer (platform : Platform) (config : SystemSessionConfig) : RuntimeFailure :=
  if config.playerGamertag = "" then {}
  else if ¬ platform.hasAccounts ∧ ¬ platform.createProfile then
    ⟨.backendInitializationFailed,
      "the local player's profile could not be created under the storage root"⟩
  else if ¬ platform.signedIn then
    ⟨.backendInitializationFailed,
      "the local player's profile under the storage root could not be signed in"⟩
  else {}

end SystemSessionConfig

namespace SystemSession

/-- What `Initialize` composes once the configuration is valid. -/
def composeConsole (platform : Platform) (s : SystemSession) :
    SystemSession × RuntimeFailure :=
  if ¬ platform.acquired then
    (s, ⟨.instanceAlreadyActive,
      "Xenia guest memory uses a process-wide fixed mapping; only one " ++
        "x360port runtime or system session may be active"⟩)
  else
    match platform.directoryError with
    | some message =>
      (s, ⟨.memoryInitializationFailed, "the storage root could not be created: " ++ message⟩)
    | none =>
      let s := { s with emulator := true }
      if platform.failed platform.setup then
        (s, ⟨.backendInitializationFailed,
          "Xenia refused to compose the console: status 0x" ++ hexWord platform.setup⟩)
      else if ¬ (s.config.inputFailure platform).Ok then
        (s, s.config.inputFailure platform)
      else if ¬ (s.config.signInLocalPlayer platform).Ok then
        (s, s.config.signInLocalPlayer platform)
      else
        ({ s with overrides := s.overrides.bind }, {})

/-- `Initialize` of a new session. -/
def initializeSession (platform : Platform) (config : SystemSessionConfig) :
    SystemSession × RuntimeFailure :=
  if ¬ (config.validateConfig platform).Ok then ({ config }, config.validateConfig platform)
  else composeConsole platform { config }

/-- The overrides, up to the first that is refused. -/
def installOverrides (title : LoadedTitle) (code : CodeRange) :
    OverrideDispatch → List SystemOverride → OverrideDispatch × RuntimeFailure
  | overrides, [] => (overrides, {})
  | overrides, entry :: entries =>
    let (overrides, failure) := overrides.install entry.address entry.handler entry.context code
      (title.accepts entry.address)
    if failure.Ok then installOverrides title code overrides entries
    else
      (overrides, { failure with
        detail := failure.detail ++ " (guest address 0x" ++ hexWord entry.address ++ ")" })

def activateTitle (s : SystemSession) (title : LoadedTitle) : OverrideDispatch × RuntimeFailure :=
  if title.titleId ≠ s.config.expectedTitleId then
    (s.overrides, ⟨.moduleValidationFailed, "the loaded title reports ID 0x" ++
      hexWord title.titleId ++ ", not the expected 0x" ++ hexWord s.config.expectedTitleId⟩)
  else
    match title.text.filter (·.size ≠ 0) with
    | none => (s.overrides, ⟨.moduleValidationFailed,
        "the loaded title has no executable .text section to bind overrides in"⟩)
    | some code => installOverrides title code s.overrides s.config.overrides

/-- The listener on the launching thread; a title that is refused is held. -/
def onLaunch (s : SystemSession) (title : LoadedTitle) : SystemSession :=
  let (overrides, failure) := s.activateTitle title
  { s with overrides := overrides, activationFailure := failure, held := ¬ failure.Ok }

def launch (platform : Platform) (path : LaunchPath) (s : SystemSession) :
    SystemSession × RuntimeFailure :=
  if ¬ s.emulator then
    (s, ⟨.loadStateInvalid, "the session must be initialized before it launches"⟩)
  else
    let s := match path.loaded with
      | none => s
      | some title => s.onLaunch title
    let s := { s with launched := true }
    if ¬ s.activationFailure.Ok then (s, s.activationFailure)
    else if platform.failed path.status then
      (s, ⟨.moduleRegistrationFailed,
        "Xenia could not launch the title: status 0x" ++ hexWord path.status⟩)
    else (s, {})

/-- The process status that destroying the session ends the process with. -/
def destroy (s : SystemSession) : Option Nat := if s.launched then some 1 else none

/-! ## What the calls leave -/

section

variable {platform : Platform} {config : SystemSessionConfig} {s : SystemSession}

theorem composeConsole_launched : (s.composeConsole platform).1.launched = s.launched := by
  unfold composeConsole
  split
  · rfl
  cases platform.directoryError with
  | some message => rfl
  | none =>
    simp only
    split
    · rfl
    split
    · rfl
    split <;> rfl

theorem initializeSession_launched :
    (initializeSession platform config).1.launched = false := by
  unfold initializeSession
  split
  · rfl
  · exact composeConsole_launched

/-- A session that refuses to initialize can be torn down. -/
theorem destroy_initializeSession : (initializeSession platform config).1.destroy = none :=
  if_neg (by rw [initializeSession_launched]; exact Bool.false_ne_true)

theorem composeConsole_emulator (h : (s.composeConsole platform).2.Ok) :
    (s.composeConsole platform).1.emulator = true := by
  unfold composeConsole at h ⊢
  by_cases hacquired : platform.acquired = true
  · rw [if_neg (not_not_intro hacquired)] at h ⊢
    cases hdirectory : platform.directoryError with
    | some message =>
      rw [hdirectory] at h
      cases h
    | none =>
      simp only
      split
      · rfl
      split
      · rfl
      split <;> rfl
  · rw [if_pos hacquired] at h
    cases h

theorem initializeSession_emulator (h : (initializeSession platform config).2.Ok) :
    (initializeSession platform config).1.emulator = true := by
  unfold initializeSession at h ⊢
  by_cases hvalid : (config.validateConfig platform).Ok
  · rw [if_neg (not_not_intro hvalid)] at h ⊢
    exact composeConsole_emulator h
  · rw [if_pos hvalid] at h
    exact absurd h hvalid

/-- Once Xenia has been asked to launch, the session counts as launched, whatever came of it. -/
theorem launch_launched (h : s.emulator = true) (path : LaunchPath) :
    (s.launch platform path).1.launched = true := by
  unfold launch
  rw [if_neg (not_not_intro h)]
  cases path.loaded <;> simp only <;> split <;> first | rfl | (split <;> rfl)

theorem destroy_launch (h : s.emulator = true) (platform : Platform) (path : LaunchPath) :
    (s.launch platform path).1.destroy = some 1 :=
  if_pos (launch_launched h path)

end

end SystemSession

end X360Port
