import Mathlib.Data.Int.Basic

/-!
# The console's pad

The title's controller and a host gamepad are merged into the one pad that the
console reports. `PadMerger` remembers the gamepad that it reported last and
raises its packet number when the next one differs. `SystemInputDriver` has one
merger for all the users it is polled for. What its two sources answer to a poll
comes with the poll.
-/

namespace X360Port

structure XamGamepad where
  buttons : UInt16 := 0
  leftTrigger : UInt8 := 0
  rightTrigger : UInt8 := 0
  thumbLx : Int16 := 0
  thumbLy : Int16 := 0
  thumbRx : Int16 := 0
  thumbRy : Int16 := 0
  deriving DecidableEq, Repr

structure XamPadSnapshot where
  connected : Bool := false
  packetNumber : UInt32 := 0
  gamepad : XamGamepad := {}
  deriving DecidableEq, Repr

/-! ## Merging -/

def magnitude (x y : Int16) : Int := x.toInt * x.toInt + y.toInt * y.toInt

/-- The stick that is deflected further, whole. -/
def takeFurtherStick (x y otherX otherY : Int16) : Int16 × Int16 :=
  if magnitude otherX otherY > magnitude x y then (otherX, otherY) else (x, y)

def combine (title host : XamGamepad) : XamGamepad :=
  let left := takeFurtherStick title.thumbLx title.thumbLy host.thumbLx host.thumbLy
  let right := takeFurtherStick title.thumbRx title.thumbRy host.thumbRx host.thumbRy
  { buttons := title.buttons ||| host.buttons
    leftTrigger := max title.leftTrigger host.leftTrigger
    rightTrigger := max title.rightTrigger host.rightTrigger
    thumbLx := left.1
    thumbLy := left.2
    thumbRx := right.1
    thumbRy := right.2 }

def SameGamepad (left right : XamGamepad) : Prop :=
  left.buttons = right.buttons ∧ left.leftTrigger = right.leftTrigger ∧
    left.rightTrigger = right.rightTrigger ∧ left.thumbLx = right.thumbLx ∧
    left.thumbLy = right.thumbLy ∧ left.thumbRx = right.thumbRx ∧ left.thumbRy = right.thumbRy

instance SameGamepad.decidable (left right : XamGamepad) : Decidable (SameGamepad left right) := by
  unfold SameGamepad
  infer_instance

theorem sameGamepad_iff {left right : XamGamepad} : SameGamepad left right ↔ left = right := by
  cases left
  cases right
  simp [SameGamepad]

/-- What `Merge` reports of two devices, if one of them is there. -/
def combinedGamepad (title host : XamPadSnapshot) : Option XamGamepad :=
  if ¬ title.connected ∧ ¬ host.connected then none
  else if title.connected ∧ host.connected then some (combine title.gamepad host.gamepad)
  else some (if title.connected then title.gamepad else host.gamepad)

structure PadMerger where
  published : Bool := false
  last : XamGamepad := {}
  packetNumber : UInt32 := 0
  deriving DecidableEq, Repr

namespace PadMerger

/-- The part of `Merge` under the lock. -/
def publish (m : PadMerger) (combined : XamGamepad) : PadMerger :=
  if ¬ m.published ∨ ¬ SameGamepad combined m.last then
    { published := true, last := combined, packetNumber := m.packetNumber + 1 }
  else m

def merge (m : PadMerger) (title host : XamPadSnapshot) : XamPadSnapshot × PadMerger :=
  match combinedGamepad title host with
  | none => ({}, m)
  | some combined =>
    let m := m.publish combined
    (⟨true, m.packetNumber, combined⟩, m)

end PadMerger

/-! ## The driver -/

/-- `X_INPUT_GAMEPAD`. -/
structure XInputGamepad where
  buttons : UInt16
  leftTrigger : UInt8
  rightTrigger : UInt8
  thumbLx : Int16
  thumbLy : Int16
  thumbRx : Int16
  thumbRy : Int16
  deriving DecidableEq, Repr

/-- `X_INPUT_STATE`. -/
structure XInputState where
  packetNumber : UInt32
  gamepad : XInputGamepad
  deriving DecidableEq, Repr

def loadGamepad (source : XInputGamepad) : XamGamepad :=
  ⟨source.buttons, source.leftTrigger, source.rightTrigger, source.thumbLx, source.thumbLy,
    source.thumbRx, source.thumbRy⟩

def storeGamepad (source : XamGamepad) : XInputGamepad :=
  ⟨source.buttons, source.leftTrigger, source.rightTrigger, source.thumbLx, source.thumbLy,
    source.thumbRx, source.thumbRy⟩

/-- What the title's source and the host driver, where there is one and it succeeds, answer. -/
structure PadReadings where
  title : XamPadSnapshot
  host : Option XInputState
  deriving DecidableEq, Repr

structure Poll where
  userIndex : UInt32
  readings : PadReadings
  deriving DecidableEq, Repr

def PadReadings.hostState (readings : PadReadings) : XamPadSnapshot :=
  match readings.host with
  | none => {}
  | some state => ⟨true, state.packetNumber, loadGamepad state.gamepad⟩

structure SystemInputDriver where
  merger : PadMerger := {}
  deriving DecidableEq, Repr

namespace SystemInputDriver

/-- `none` is `X_ERROR_DEVICE_NOT_CONNECTED`. -/
def getState (d : SystemInputDriver) (poll : Poll) : Option XInputState × SystemInputDriver :=
  let (merged, merger) := d.merger.merge poll.readings.title poll.readings.hostState
  if ¬ merged.connected then (none, ⟨merger⟩)
  else (some ⟨merged.packetNumber, storeGamepad merged.gamepad⟩, ⟨merger⟩)

/-- A driver that has answered the polls. -/
def after (polls : List Poll) : SystemInputDriver :=
  polls.foldl (fun d poll => (d.getState poll).2) {}

end SystemInputDriver

/-- The combined state of the user's pad at the poll, if there is a pad. -/
def Poll.combined (poll : Poll) : Option XamGamepad :=
  combinedGamepad poll.readings.title poll.readings.hostState

end X360Port
