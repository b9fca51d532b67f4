import X360Port.Library.Machine
import X360Port.Library.Readers
import X360Port.PadMerge
import X360Port.XeniaMemory.Paged

/-!
# The platform's controller calls

`XamInputGetState` and `XamInputGetCapabilities`: a title's reader answers for
the pad, and the answer is laid out in the buffer that the guest names. The
readers are the title's, so they are functions of the host's state `ω`, which
they may change. `PadCalls` is a guest that makes one call after another; a
refusal stops it.

What the guest finds in a buffer is said by `readState` and `readCapabilities`,
which read the console's layout and know nothing of the service.
-/

namespace X360Port

open Library

structure XamPadCapabilities where
  connected : Bool := false
  type : UInt8 := 0
  subType : UInt8 := 0
  flags : UInt16 := 0
  supportedGamepad : XamGamepad := {}
  leftMotorSpeed : UInt16 := 0
  rightMotorSpeed : UInt16 := 0
  deriving DecidableEq, Repr

structure XamInputRequest where
  userIndex : UInt32 := 0
  flags : UInt32 := 0
  deriving DecidableEq, Repr

def kXamInputDeviceNotConnected : UInt64 := 0x48F
def kXamInputBadArguments : UInt64 := 0xA0

/-! ## Laying out an answer -/

def kInputStateBytes : Nat := 16
def kInputCapabilitiesBytes : Nat := 20

def storeBe16 (bytes : List UInt8) (offset : Nat) (value : UInt16) : List UInt8 :=
  (bytes.set offset (value >>> 8).toUInt8).set (offset + 1) value.toUInt8

def storeBe32 (bytes : List UInt8) (offset : Nat) (value : UInt32) : List UInt8 :=
  let bytes := bytes.set offset (value >>> 24).toUInt8
  let bytes := bytes.set (offset + 1) (value >>> 16).toUInt8
  let bytes := bytes.set (offset + 2) (value >>> 8).toUInt8
  bytes.set (offset + 3) value.toUInt8

def XamInput.storeGamepad (bytes : List UInt8) (offset : Nat) (gamepad : XamGamepad) : List UInt8 :=
  let bytes := storeBe16 bytes offset gamepad.buttons
  let bytes := bytes.set (offset + 2) gamepad.leftTrigger
  let bytes := bytes.set (offset + 3) gamepad.rightTrigger
  let bytes := storeBe16 bytes (offset + 4) gamepad.thumbLx.toUInt16
  let bytes := storeBe16 bytes (offset + 6) gamepad.thumbLy.toUInt16
  let bytes := storeBe16 bytes (offset + 8) gamepad.thumbRx.toUInt16
  storeBe16 bytes (offset + 10) gamepad.thumbRy.toUInt16

def encodeState (snapshot : XamPadSnapshot) : List UInt8 :=
  let bytes := List.replicate kInputStateBytes 0
  if ¬ snapshot.connected then bytes
  else
    let bytes := storeBe32 bytes 0 snapshot.packetNumber
    XamInput.storeGamepad bytes 4 snapshot.gamepad

def encodeCapabilities (capabilities : XamPadCapabilities) : List UInt8 :=
  let bytes := List.replicate kInputCapabilitiesBytes 0
  if ¬ capabilities.connected then bytes
  else
    let bytes := bytes.set 0 capabilities.type
    let bytes := bytes.set 1 capabilities.subType
    let bytes := storeBe16 bytes 2 capabilities.flags
    let bytes := XamInput.storeGamepad bytes 4 capabilities.supportedGamepad
    let bytes := storeBe16 bytes 16 capabilities.leftMotorSpeed
    storeBe16 bytes 18 capabilities.rightMotorSpeed

/-! ## The service -/

structure XamInputService (ω : Type) where
  stateReader : Option (XamInputRequest → ω → XamPadSnapshot × ω)
  capabilitiesReader : Option (XamInputRequest → ω → XamPadCapabilities × ω)

/-- What a handler works on: the guest's memory and what the readers know. -/
structure PadHost (η ω : Type) where
  memory : XeniaMemory η
  host : ω

/-- The request in the first two arguments. -/
def padRequest (call : GuestImportContext) : XamInputRequest where
  userIndex := (call.argument 0).toUInt32
  flags := (call.argument 1).toUInt32

namespace XamInputService

variable {η ω : Type} (X : Xenia η) (service : XamInputService ω)

def getState (s : PadHost η ω) (call : GuestImportContext) :
    PadHost η ω × GuestImportContext :=
  match service.stateReader with
  | none => (s, call.refuse .hostUnavailable)
  | some reader =>
    let (snapshot, host) := reader (padRequest call) s.host
    let s := { s with host }
    let stateAddress : GuestAddress := (call.argument 2).toUInt32
    let answer :=
      call.setReturnValue (if snapshot.connected then 0 else kXamInputDeviceNotConnected)
    if stateAddress ≠ 0 then
      match X.writeMemory s.memory stateAddress (encodeState snapshot) with
      | none => (s, call.refuse .invalidGuestMemory)
      | some memory => ({ s with memory }, answer)
    else (s, answer)

def getCapabilities (s : PadHost η ω) (call : GuestImportContext) :
    PadHost η ω × GuestImportContext :=
  match service.capabilitiesReader with
  | none => (s, call.refuse .hostUnavailable)
  | some reader =>
    let capabilitiesAddress : GuestAddress := (call.argument 2).toUInt32
    if capabilitiesAddress = 0 then (s, call.setReturnValue kXamInputBadArguments)
    else
      let (capabilities, host) := reader (padRequest call) s.host
      let s := { s with host }
      match X.writeMemory s.memory capabilitiesAddress (encodeCapabilities capabilities) with
      | none => (s, call.refuse .invalidGuestMemory)
      | some memory =>
        ({ s with memory },
          call.setReturnValue (if capabilities.connected then 0 else kXamInputDeviceNotConnected))

end XamInputService

/-! ## The guest's calls -/

inductive PadExport where
  | getState
  | getCapabilities
  deriving DecidableEq, Repr

/-- A call by the guest, with its register arguments. -/
structure PadCall where
  function : PadExport
  arguments : List UInt64
  deriving DecidableEq, Repr

namespace PadCall

def context (call : PadCall) : GuestImportContext := .make call.arguments

def address (call : PadCall) : GuestAddress := (call.context.argument 2).toUInt32

def size (call : PadCall) : Nat :=
  match call.function with
  | .getState => kInputStateBytes
  | .getCapabilities => kInputCapabilitiesBytes

/-- A byte of the buffer that the guest names. -/
def Covers (call : PadCall) (x : Nat) : Prop :=
  call.address ≠ 0 ∧ call.address.toNat ≤ x ∧ x < call.address.toNat + call.size

end PadCall

namespace XamInputService

variable {η ω : Type} (X : Xenia η) (service : XamInputService ω)

def serve (s : PadHost η ω) (call : PadCall) : PadHost η ω × GuestImportContext :=
  match call.function with
  | .getState => service.getState X s call.context
  | .getCapabilities => service.getCapabilities X s call.context

/-- A refusal stops the guest. -/
def step (s : PadHost η ω) (call : PadCall) : Option (PadHost η ω) :=
  let (s, context) := service.serve X s call
  match context.refusal with
  | none => some s
  | some _ => none

end XamInputService

/-! ## Reading an answer -/

def readByte : Reader UInt8 UInt8
  | [] => none
  | byte :: bytes => some (byte, bytes)

def readBe16 : Reader UInt8 UInt16 := do
  let high ← readByte
  let low ← readByte
  return high.toUInt16 <<< 8 ||| low.toUInt16

def readBe32 : Reader UInt8 UInt32 := do
  let b0 ← readByte
  let b1 ← readByte
  let b2 ← readByte
  let b3 ← readByte
  return loadGuestWord b0 b1 b2 b3

def readThumb : Reader UInt8 Int16 := do
  return (← readBe16).toInt16

def readGamepad : Reader UInt8 XamGamepad := do
  let buttons ← readBe16
  let leftTrigger ← readByte
  let rightTrigger ← readByte
  let thumbLx ← readThumb
  let thumbLy ← readThumb
  let thumbRx ← readThumb
  let thumbRy ← readThumb
  return { buttons, leftTrigger, rightTrigger, thumbLx, thumbLy, thumbRx, thumbRy }

/-- `XINPUT_STATE`, for a call that returned the value. -/
def readState (value : UInt64) : Reader UInt8 XamPadSnapshot := do
  let packetNumber ← readBe32
  let gamepad ← readGamepad
  return { connected := value = 0, packetNumber, gamepad }

/-- `XINPUT_CAPABILITIES`, for a call that returned the value. -/
def readCapabilities (value : UInt64) : Reader UInt8 XamPadCapabilities := do
  let type ← readByte
  let subType ← readByte
  let flags ← readBe16
  let supportedGamepad ← readGamepad
  let leftMotorSpeed ← readBe16
  let rightMotorSpeed ← readBe16
  return {
    connected := value = 0
    type, subType, flags, supportedGamepad, leftMotorSpeed, rightMotorSpeed }

/-! ## The layout -/

def be16Bytes (value : UInt16) : List UInt8 := [(value >>> 8).toUInt8, value.toUInt8]

def gamepadBytes (gamepad : XamGamepad) : List UInt8 :=
  be16Bytes gamepad.buttons ++ ([gamepad.leftTrigger] ++ ([gamepad.rightTrigger] ++
    (be16Bytes gamepad.thumbLx.toUInt16 ++ (be16Bytes gamepad.thumbLy.toUInt16 ++
      (be16Bytes gamepad.thumbRx.toUInt16 ++ be16Bytes gamepad.thumbRy.toUInt16)))))

theorem reads_readByte (byte : UInt8) : Reads readByte [byte] byte := fun _ => rfl

theorem loadBe16_be16Bytes (value : UInt16) :
    (value >>> 8).toUInt8.toUInt16 <<< 8 ||| value.toUInt8.toUInt16 = value := by
  have hvalue := value.toNat_lt
  apply UInt16.toNat_inj.1
  simp only [UInt16.toNat_or, UInt16.toNat_shiftLeft, UInt8.toNat_toUInt16, UInt16.toNat_toUInt8,
    UInt16.toNat_shiftRight, UInt16.reduceToNat, Nat.reduceMod, Nat.shiftRight_eq_div_pow,
    Nat.shiftLeft_eq]
  rw [Nat.mod_eq_of_lt (by omega), Nat.mul_comm, ← Nat.two_pow_add_eq_or_of_lt (by omega)]
  omega

theorem reads_readBe16 (value : UInt16) : Reads readBe16 (be16Bytes value) value := by
  have h : Reads readBe16 ([(value >>> 8).toUInt8] ++ [value.toUInt8])
      ((value >>> 8).toUInt8.toUInt16 <<< 8 ||| value.toUInt8.toUInt16) :=
    reads_bind (reads_readByte _) (reads_map (reads_readByte _))
  rwa [loadBe16_be16Bytes] at h

theorem reads_readBe32 (value : UInt32) : Reads readBe32 (guestWordBytes value) value := by
  have h : Reads readBe32 ([(value >>> 24).toUInt8] ++ ([(value >>> 16).toUInt8] ++
      ([(value >>> 8).toUInt8] ++ [value.toUInt8]))) (loadGuestWord (value >>> 24).toUInt8
        (value >>> 16).toUInt8 (value >>> 8).toUInt8 value.toUInt8) :=
    reads_bind (reads_readByte _) (reads_bind (reads_readByte _)
      (reads_bind (reads_readByte _) (reads_map (reads_readByte _))))
  rwa [(loadGuestWord_eq_iff _ _ _ _ _).2 rfl] at h

theorem reads_readThumb (thumb : Int16) : Reads readThumb (be16Bytes thumb.toUInt16) thumb :=
  reads_map (reads_readBe16 thumb.toUInt16)

theorem reads_readGamepad (gamepad : XamGamepad) :
    Reads readGamepad (gamepadBytes gamepad) gamepad :=
  reads_bind (reads_readBe16 _) (reads_bind (reads_readByte _) (reads_bind (reads_readByte _)
    (reads_bind (reads_readThumb _) (reads_bind (reads_readThumb _)
      (reads_bind (reads_readThumb _) (reads_map (reads_readThumb _)))))))

theorem encodeState_of_connected {snapshot : XamPadSnapshot} (h : snapshot.connected = true) :
    encodeState snapshot =
      guestWordBytes snapshot.packetNumber ++ gamepadBytes snapshot.gamepad := by
  rw [encodeState, if_neg (not_not_intro h)]
  rfl

theorem encodeCapabilities_of_connected {capabilities : XamPadCapabilities}
    (h : capabilities.connected = true) : encodeCapabilities capabilities =
      [capabilities.type] ++ ([capabilities.subType] ++ (be16Bytes capabilities.flags ++
        (gamepadBytes capabilities.supportedGamepad ++
          (be16Bytes capabilities.leftMotorSpeed ++
            be16Bytes capabilities.rightMotorSpeed)))) := by
  simp [encodeCapabilities, h, kInputCapabilitiesBytes, List.replicate, storeBe16,
    XamInput.storeGamepad, be16Bytes, gamepadBytes]

/-- The status that tells a guest whether there is a pad. -/
def connectedValue (connected : Bool) : UInt64 :=
  if connected then 0 else kXamInputDeviceNotConnected

theorem decide_connectedValue (connected : Bool) :
    decide (connectedValue connected = 0) = connected := by
  cases connected <;> decide

/-- **Round trip.** The guest reads back the reader's snapshot, or the empty one where there is
no pad. -/
theorem readState_encodeState (snapshot : XamPadSnapshot) :
    (readState (connectedValue snapshot.connected)).run (encodeState snapshot) =
      some (if snapshot.connected then snapshot else {}, []) := by
  cases h : snapshot.connected with
  | false =>
    rw [encodeState, if_pos (by simp [h])]
    rfl
  | true =>
    have hread : Reads (readState (connectedValue true))
        (guestWordBytes snapshot.packetNumber ++ gamepadBytes snapshot.gamepad)
        { connected := decide (connectedValue true = 0)
          packetNumber := snapshot.packetNumber
          gamepad := snapshot.gamepad } :=
      reads_bind (reads_readBe32 _) (reads_map (reads_readGamepad _))
    rw [decide_connectedValue, ← h] at hread
    rw [encodeState_of_connected h]
    have hall := hread []
    rw [List.append_nil] at hall
    rw [if_pos rfl, ← h]
    exact hall

theorem readCapabilities_encodeCapabilities (capabilities : XamPadCapabilities) :
    (readCapabilities (connectedValue capabilities.connected)).run
        (encodeCapabilities capabilities) =
      some (if capabilities.connected then capabilities else {}, []) := by
  cases h : capabilities.connected with
  | false =>
    rw [encodeCapabilities, if_pos (by simp [h])]
    rfl
  | true =>
    have hread : Reads (readCapabilities (connectedValue true))
        ([capabilities.type] ++ ([capabilities.subType] ++ (be16Bytes capabilities.flags ++
          (gamepadBytes capabilities.supportedGamepad ++
            (be16Bytes capabilities.leftMotorSpeed ++
              be16Bytes capabilities.rightMotorSpeed)))))
        { capabilities with connected := decide (connectedValue true = 0) } :=
      reads_bind (reads_readByte _) (reads_bind (reads_readByte _) (reads_bind (reads_readBe16 _)
        (reads_bind (reads_readGamepad _) (reads_bind (reads_readBe16 _)
          (reads_map (reads_readBe16 _))))))
    rw [decide_connectedValue, ← h] at hread
    rw [encodeCapabilities_of_connected h]
    have hall := hread []
    rw [List.append_nil] at hall
    rw [if_pos rfl, ← h]
    exact hall

theorem length_encodeState (snapshot : XamPadSnapshot) :
    (encodeState snapshot).length = kInputStateBytes := by
  cases h : snapshot.connected with
  | false =>
    rw [encodeState, if_pos (by simp [h])]
    rfl
  | true =>
    rw [encodeState_of_connected h]
    rfl

theorem length_encodeCapabilities (capabilities : XamPadCapabilities) :
    (encodeCapabilities capabilities).length = kInputCapabilitiesBytes := by
  cases h : capabilities.connected with
  | false =>
    rw [encodeCapabilities, if_pos (by simp [h])]
    rfl
  | true =>
    rw [encodeCapabilities_of_connected h]
    rfl

/-! ## Answers -/

/-- What a reader answers, of either export. -/
inductive PadAnswer where
  | state (snapshot : XamPadSnapshot)
  | capabilities (pad : XamPadCapabilities)
  deriving DecidableEq, Repr

namespace PadAnswer

def connected : PadAnswer → Bool
  | .state snapshot => snapshot.connected
  | .capabilities pad => pad.connected

def bytes : PadAnswer → List UInt8
  | .state snapshot => encodeState snapshot
  | .capabilities pad => encodeCapabilities pad

/-- What the guest is to know of it: nothing but the absence of a pad that is not there. -/
def shown : PadAnswer → PadAnswer
  | .state snapshot => .state (if snapshot.connected then snapshot else {})
  | .capabilities pad => .capabilities (if pad.connected then pad else {})

def function : PadAnswer → PadExport
  | .state _ => .getState
  | .capabilities _ => .getCapabilities

end PadAnswer

/-- The buffer of a call of the export that returned the value, as a guest reads it. -/
def PadExport.readAnswer (value : UInt64) : PadExport → Reader UInt8 PadAnswer
  | .getState => do return .state (← readState value)
  | .getCapabilities => do return .capabilities (← readCapabilities value)

theorem readAnswer_bytes (answer : PadAnswer) :
    (answer.function.readAnswer (connectedValue answer.connected)).run answer.bytes =
      some (answer.shown, []) := by
  cases answer with
  | state snapshot =>
    show (do return PadAnswer.state (← readState _) : Reader UInt8 PadAnswer).run _ = _
    rw [StateT.run_bind, PadAnswer.connected, PadAnswer.bytes, readState_encodeState]
    rfl
  | capabilities pad =>
    show (do return PadAnswer.capabilities (← readCapabilities _) : Reader UInt8 PadAnswer).run _
      = _
    rw [StateT.run_bind, PadAnswer.connected, PadAnswer.bytes,
      readCapabilities_encodeCapabilities]
    rfl

/-! ## One call -/

namespace XamInputService

variable {η ω : Type} (X : Xenia η) (service : XamInputService ω)

/-- What the title's reader answers a call with. -/
def told (s : PadHost η ω) (call : PadCall) : Option PadAnswer :=
  match call.function with
  | .getState =>
    service.stateReader.map fun reader => .state (reader (padRequest call.context) s.host).1
  | .getCapabilities =>
    service.capabilitiesReader.map fun reader =>
      .capabilities (reader (padRequest call.context) s.host).1

/-- The title answers the call, and the guest may write the buffer that it names. -/
def Accepts (s : PadHost η ω) (call : PadCall) : Prop :=
  (service.told s call).isSome ∧
    (call.address = 0 ∨ X.isAccessible s.memory call.address call.size true = true)

/-- The memory with an answer in the buffer of the call, if it has one. -/
def delivered (s : PadHost η ω) (call : PadCall) (answer : PadAnswer) : XeniaMemory η :=
  if call.address = 0 then s.memory else s.memory.store call.address answer.bytes

variable {X service} {s s' : PadHost η ω} {call : PadCall}

theorem function_told {answer : PadAnswer} (h : service.told s call = some answer) :
    answer.function = call.function := by
  unfold told at h
  cases hf : call.function with
  | getState =>
    rw [hf] at h
    obtain ⟨reader, -, rfl⟩ := Option.map_eq_some_iff.1 h
    rfl
  | getCapabilities =>
    rw [hf] at h
    obtain ⟨reader, -, rfl⟩ := Option.map_eq_some_iff.1 h
    rfl

theorem length_bytes {answer : PadAnswer} (h : answer.function = call.function) :
    answer.bytes.length = call.size := by
  rw [PadCall.size, ← h]
  cases answer with
  | state snapshot => exact length_encodeState snapshot
  | capabilities pad => exact length_encodeCapabilities pad

/-- An accepted call returns with the reader's answer in the buffer. -/
theorem serve_accepted (h : service.Accepts X s call) : ∃ answer,
    service.told s call = some answer ∧ (service.serve X s call).2.refusal = none ∧
      (service.serve X s call).1.memory = delivered s call answer ∧
      (call.address ≠ 0 →
        (service.serve X s call).2.returnValue = connectedValue answer.connected) := by
  obtain ⟨htold, hbuffer⟩ := h
  obtain ⟨answer, hanswer⟩ := Option.isSome_iff_exists.1 htold
  have hlength := length_bytes (function_told hanswer)
  refine ⟨answer, hanswer, ?_⟩
  have hwrite (haddress : call.address ≠ 0) : X.writeMemory s.memory call.address answer.bytes =
      some (s.memory.store call.address answer.bytes) := by
    rw [Xenia.writeMemory, hlength, if_pos (hbuffer.resolve_left haddress)]
  rw [PadCall.address] at hwrite
  unfold told at hanswer
  unfold serve delivered
  cases hf : call.function with
  | getState =>
    rw [hf] at hanswer
    obtain ⟨reader, hreader, rfl⟩ := Option.map_eq_some_iff.1 hanswer
    by_cases haddress : (call.context.argument 2).toUInt32 = 0
    · simp only [getState, hreader, PadCall.address, haddress]
      exact ⟨rfl, rfl, fun hne => absurd rfl hne⟩
    · have hstore := hwrite haddress
      rw [PadAnswer.bytes] at hstore
      simp only [getState, hreader, PadCall.address, if_pos haddress, hstore]
      exact ⟨rfl, (if_neg haddress).symm, fun _ => rfl⟩
  | getCapabilities =>
    rw [hf] at hanswer
    obtain ⟨reader, hreader, rfl⟩ := Option.map_eq_some_iff.1 hanswer
    by_cases haddress : (call.context.argument 2).toUInt32 = 0
    · simp only [getCapabilities, hreader, PadCall.address, haddress]
      exact ⟨rfl, rfl, fun hne => absurd rfl hne⟩
    · have hstore := hwrite haddress
      rw [PadAnswer.bytes] at hstore
      simp only [getCapabilities, hreader, PadCall.address, if_neg haddress, hstore]
      exact ⟨rfl, (if_neg haddress).symm, fun _ => rfl⟩

/-- Any other call is refused and changes nothing in guest memory. -/
theorem serve_refused (h : ¬ service.Accepts X s call) :
    (service.serve X s call).2.refusal ≠ none ∧
      (service.serve X s call).1.memory = s.memory := by
  rw [Accepts, not_and_or, not_or] at h
  have hwrite (answer : PadAnswer) (hf : answer.function = call.function)
      (hno : ¬ X.isAccessible s.memory call.address call.size true = true) :
      X.writeMemory s.memory call.address answer.bytes = none := by
    rw [Xenia.writeMemory, length_bytes hf, if_neg hno]
  unfold told at h
  unfold serve
  cases hf : call.function with
  | getState =>
    simp only [hf] at h hwrite
    cases hreader : service.stateReader with
    | none =>
      simp only [getState, hreader]
      exact ⟨Option.some_ne_none _, trivial⟩
    | some reader =>
      obtain ⟨haddress, hno⟩ := h.resolve_left (by simp [hreader])
      have hnone := hwrite (.state (reader (padRequest call.context) s.host).1) rfl hno
      rw [PadAnswer.bytes, PadCall.address] at hnone
      rw [PadCall.address] at haddress
      simp only [getState, hreader, ne_eq, haddress, not_false_eq_true, if_true, hnone]
      exact ⟨Option.some_ne_none _, trivial⟩
  | getCapabilities =>
    simp only [hf] at h hwrite
    cases hreader : service.capabilitiesReader with
    | none =>
      simp only [getCapabilities, hreader]
      exact ⟨Option.some_ne_none _, trivial⟩
    | some reader =>
      obtain ⟨haddress, hno⟩ := h.resolve_left (by simp [hreader])
      have hnone := hwrite (.capabilities (reader (padRequest call.context) s.host).1) rfl hno
      rw [PadAnswer.bytes, PadCall.address] at hnone
      rw [PadCall.address] at haddress
      simp only [getCapabilities, hreader, if_neg haddress, hnone]
      exact ⟨Option.some_ne_none _, trivial⟩

/-- A step is an accepted call. -/
theorem step_cases (h : service.step X s call = some s') : service.Accepts X s call ∧
    s' = (service.serve X s call).1 ∧ ∃ answer, service.told s call = some answer ∧
      s'.memory = delivered s call answer ∧ (call.address ≠ 0 →
        (service.serve X s call).2.returnValue = connectedValue answer.connected) := by
  have hstep : (match (service.serve X s call).2.refusal with
    | none => some (service.serve X s call).1
    | some _ => none) = some s' := h
  by_cases haccepts : service.Accepts X s call
  · obtain ⟨answer, htold, hnone, hmemory, hvalue⟩ := serve_accepted haccepts
    rw [hnone] at hstep
    cases hstep
    exact ⟨haccepts, rfl, answer, htold, hmemory, hvalue⟩
  · obtain ⟨reason, hreason⟩ := Option.ne_none_iff_exists'.1 (serve_refused haccepts).1
    rw [hreason] at hstep
    cases hstep

theorem step_eq_none_iff : service.step X s call = none ↔ ¬ service.Accepts X s call := by
  constructor
  · intro hnone haccepts
    obtain ⟨-, -, hrefusal, -⟩ := serve_accepted haccepts
    rw [step] at hnone
    simp only [hrefusal, reduceCtorEq] at hnone
  · intro hno
    cases hstep : service.step X s call with
    | none => rfl
    | some s' => exact absurd (step_cases hstep).1 hno

/-- A call changes no record of a heap, and no byte beside its buffer. -/
theorem bytes_step (h : service.step X s call = some s') :
    s'.memory.heaps = s.memory.heaps ∧
      ∀ x, ¬ call.Covers x → s'.memory.bytes x = s.memory.bytes x := by
  obtain ⟨-, -, answer, htold, hmemory, -⟩ := step_cases h
  have hlength := length_bytes (function_told htold)
  rw [hmemory, delivered]
  split
  · exact ⟨rfl, fun _ _ => rfl⟩
  · next haddress =>
    refine ⟨rfl, fun x hx => XeniaMemory.bytes_store ?_⟩
    rw [PadCall.Covers] at hx
    rw [hlength]
    by_contra hin
    rw [not_or, not_lt, not_le] at hin
    exact hx ⟨haddress, hin⟩

/-! ## The guest's run -/

variable {calls : List PadCall}

theorem bytes_play (h : play (service.step X) s calls = some s') :
    s'.memory.heaps = s.memory.heaps ∧
      ∀ x, (∀ call ∈ calls, ¬ call.Covers x) → s'.memory.bytes x = s.memory.bytes x := by
  induction calls generalizing s with
  | nil =>
    cases h
    exact ⟨rfl, fun _ _ => rfl⟩
  | cons call calls ih =>
    obtain ⟨mid, hstep, h⟩ := play_cons_iff.1 h
    obtain ⟨hheaps, hbytes⟩ := bytes_step hstep
    obtain ⟨hheaps', hbytes'⟩ := ih h
    refine ⟨hheaps'.trans hheaps, fun x hx => ?_⟩
    rw [List.forall_mem_cons] at hx
    rw [hbytes' x hx.2, hbytes x hx.1]

/-- **What the guest finds in its buffers.** However many calls a guest makes, the buffer of a
call that no later one writes over holds what the title's reader answered that call, read by the
value that it returned; nothing else of the memory has changed. The next call is refused exactly
when the title has no reader for it or the guest may not write the buffer, and then it changes
nothing. -/
theorem play_padBuffers (h : play (service.step X) s calls = some s') :
    (∀ front call back, calls = front ++ call :: back → call.address ≠ 0 →
      (∀ later ∈ back, ∀ x, call.Covers x → ¬ later.Covers x) →
      ∃ mid answer, play (service.step X) s front = some mid ∧
        service.told mid call = some answer ∧
        (call.function.readAnswer (service.serve X mid call).2.returnValue).run
          (s'.memory.load call.address call.size) = some (answer.shown, [])) ∧
    (∀ x, (∀ call ∈ calls, ¬ call.Covers x) → s'.memory.bytes x = s.memory.bytes x) ∧
    s'.memory.heaps = s.memory.heaps ∧
    ∀ call, (service.step X s' call = none ↔ ¬ service.Accepts X s' call) ∧
      (¬ service.Accepts X s' call → (service.serve X s' call).1.memory = s'.memory) := by
  refine ⟨?_, (bytes_play h).2, (bytes_play h).1, fun call =>
    ⟨step_eq_none_iff, fun hno => (serve_refused hno).2⟩⟩
  rintro front call back rfl haddress hapart
  rw [play_append, Option.bind_eq_some_iff] at h
  obtain ⟨mid, hfront, h⟩ := h
  obtain ⟨next, hstep, hback⟩ := play_cons_iff.1 h
  obtain ⟨-, -, answer, htold, hmemory, hvalue⟩ := step_cases hstep
  have hfunction := function_told htold
  refine ⟨mid, answer, hfront, htold, ?_⟩
  have hload : s'.memory.load call.address call.size = next.memory.load call.address call.size := by
    refine List.map_congr_left fun i hi => (bytes_play hback).2 _ fun later hlater =>
      hapart later hlater _ ⟨haddress, Nat.le_add_right _ _, ?_⟩
    exact Nat.add_lt_add_left (List.mem_range.1 hi) _
  rw [hload, hmemory, delivered, if_neg haddress, ← length_bytes hfunction,
    XeniaMemory.load_store, hvalue haddress, ← hfunction]
  exact readAnswer_bytes answer

end XamInputService

/-! ## A counting pad -/

/-- Its packet numbers count the polls. -/
def countingPad : XamInputService UInt32 where
  stateReader := some fun _ polls =>
    ({ connected := true, packetNumber := polls, gamepad := { buttons := 0x1000, thumbLx := -5 } },
      polls + 1)
  capabilitiesReader := none

/-- Every page may be read and written. -/
def openMemory : XeniaMemory PageTable where
  heaps _ := { state := 3, currentProtect := 3 }
  bytes _ := 0xFF

def twoPolls : List PadCall :=
  [⟨.getState, [0, 1, 0x10000]⟩, ⟨.getState, [0, 1, 0x10010]⟩]

theorem play_padBuffers_polls : ∃ s' answer,
    play (countingPad.step paged) { memory := openMemory, host := 7 } twoPolls = some s' ∧
    countingPad.told { memory := openMemory, host := 7 } ⟨.getState, [0, 1, 0x10000]⟩ =
      some answer ∧
    (PadExport.getState.readAnswer 0).run (s'.memory.load 0x10000 16) = some (answer.shown, []) :=
    by
  have hrun : (play (countingPad.step paged) { memory := openMemory, host := 7 }
    twoPolls).isSome := by decide
  obtain ⟨s', hs'⟩ := Option.isSome_iff_exists.1 hrun
  obtain ⟨mid, answer, hmid, htold, hread⟩ := (XamInputService.play_padBuffers hs').1 [] _ _ rfl
    (by decide) (by
      rintro later hlater x ⟨-, hfrom, hto⟩ ⟨-, hfrom', -⟩
      rw [List.mem_singleton.1 hlater] at hfrom'
      change 0x10010 ≤ x at hfrom'
      change x < 0x10000 + 16 at hto
      omega)
  cases hmid
  exact ⟨s', answer, hs', htold, hread⟩

end X360Port
