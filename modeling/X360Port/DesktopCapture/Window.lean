import X360Port.DesktopCapture
import X360Port.DesktopInput.Travel
import X360Port.Library.Flags

/-!
# The game window's input

The window's listener: every key, click, motion and loss of focus that it gets
becomes calls on the title's `DesktopInputState`. A `GameWindow` is the two
together, on the UI thread, with the snapshots that the title takes between two
events. `play_reported` says what a snapshot reports, by the events alone.
-/

namespace X360Port

open Library

/-! ## Reading a snapshot -/

/-- The key's code is below 256, so it is always one of the bits. -/
def DesktopSnapshot.isKeyDown (snapshot : DesktopSnapshot) (key : UInt8) : Bool :=
  snapshot.keys.getLsbD key.toNat

def DesktopSnapshot.isButtonDown (snapshot : DesktopSnapshot) (button : DesktopMouseButton) :
    Bool :=
  snapshot.mouseButtons &&& buttonBit button != 0

/-! ## Calls with nothing in between -/

/-- One atomic operation, and what the value it loads makes the call go on with. -/
def UiStep.runWhole (s : DesktopInputState) (u : UiStep) : DesktopInputState :=
  (u.more s).foldl UiStep.run (u.run s)

def UiOperation.perform (s : DesktopInputState) (operation : UiOperation) : DesktopInputState :=
  operation.steps.foldl UiStep.runWhole s

/-! ## The listener -/

/-- `xe::ui::MouseEvent::Button`. -/
inductive MouseButton where
  | none
  | left
  | right
  | middle
  | x1
  | x2
  deriving DecidableEq, Repr

def desktopButton : MouseButton → Option DesktopMouseButton
  | .left => some .left
  | .right => some .right
  | .middle => some .middle
  | .x1 => some .back
  | .x2 => some .forward
  | .none => none

def isVirtualKeyCode (key : UInt32) : Bool := key ≤ 0xFF

/-- What an event makes the listener do. -/
structure Reaction where
  capture : DesktopInputCapture
  operations : List UiOperation := []
  handled : Bool := false

namespace DesktopInputCapture

def onKey (c : DesktopInputCapture) (key : UInt32) (down : Bool) : Reaction where
  capture := c
  operations := if isVirtualKeyCode key then [.setKey key.toUInt8 down] else []

/-- `granted` is the desktop's answer to the pointer grab. -/
def beginCapture (c : DesktopInputCapture) (drawingArea granted : Bool) :
    DesktopInputCapture × List UiOperation :=
  if drawingArea ∧ granted then (c.capture, [.setPointerCaptured true]) else (c, [])

def release (c : DesktopInputCapture) : DesktopInputCapture × List UiOperation :=
  if c.captured then
    ({ c with captured := false, haveLast := false }, [.setPointerCaptured false])
  else (c, [])

def onMouseDown (c : DesktopInputCapture) (drawingArea : Bool) (button : MouseButton)
    (granted : Bool) : Reaction :=
  if ¬ c.captured then
    let (capture, operations) := c.beginCapture drawingArea granted
    { capture, operations, handled := true }
  else
    { capture := c
      operations := ((desktopButton button).map (UiOperation.setMouseButton · true)).toList }

def onMouseUp (c : DesktopInputCapture) (button : MouseButton) : Reaction where
  capture := c
  operations := ((desktopButton button).map (UiOperation.setMouseButton · false)).toList

/-- The call of `AddPointerTravel` on 32-bit coordinates. -/
def travelOperation (travel : Int × Int) : UiOperation :=
  .addPointerTravel (Int32.ofInt travel.1) (Int32.ofInt travel.2)

def onMotion (c : DesktopInputCapture) (surface : Surface) (position : Int × Int) : Reaction :=
  let move := c.onMouseMove surface position
  { capture := move.capture, operations := (move.travel.map travelOperation).toList }

def onLostFocus (c : DesktopInputCapture) : Reaction :=
  let (capture, operations) := c.release
  { capture, operations := operations ++ [.releaseAll] }

end DesktopInputCapture

/-! ## The window -/

structure GameWindow where
  capture : DesktopInputCapture := {}
  shared : DesktopInputState := {}
  drawingArea : Bool

inductive WindowInput where
  | keyDown (key : UInt32)
  | keyUp (key : UInt32)
  | mouseDown (button : MouseButton) (granted : Bool)
  | mouseUp (button : MouseButton)
  | mouseMove (surface : Surface) (position : Int × Int)
  | lostFocus
  /-- The title polls. -/
  | takeSnapshot
  deriving DecidableEq, Repr

namespace GameWindow

def react (s : GameWindow) (reaction : Reaction) : GameWindow :=
  { s with
    capture := reaction.capture
    shared := reaction.operations.foldl UiOperation.perform s.shared }

def onInput (s : GameWindow) : WindowInput → GameWindow
  | .keyDown key => s.react (s.capture.onKey key true)
  | .keyUp key => s.react (s.capture.onKey key false)
  | .mouseDown button granted =>
    s.react (s.capture.onMouseDown s.drawingArea button granted)
  | .mouseUp button => s.react (s.capture.onMouseUp button)
  | .mouseMove surface position => s.react (s.capture.onMotion surface position)
  | .lostFocus => s.react s.capture.onLostFocus
  | .takeSnapshot => { s with shared := s.shared.takeSnapshot.2 }

def step (s : GameWindow) (input : WindowInput) : Option GameWindow := some (s.onInput input)

end GameWindow

/-! ## The bits of a snapshot -/

/-- The bit of a key, in its word. -/
def DesktopInputState.keyBit (s : DesktopInputState) (key : Nat) : Bool :=
  (s.keys[key / 64]?.getD 0).toBitVec.getLsbD (key % 64)

def DesktopInputState.buttonDown (s : DesktopInputState) (button : DesktopMouseButton) : Bool :=
  s.mouseButtons.toBitVec.getLsbD button.ctorIdx

theorem word_bit_iff {bits : UInt64} {bit : Nat} (h : bit < 64) :
    bits >>> UInt64.ofNat bit &&& 1 ≠ 0 ↔ bits.toBitVec.getLsbD bit = true := by
  have hbit : (UInt64.ofNat bit).toNat % 64 = bit := by
    rw [UInt64.toNat_ofNat_of_lt' (by simp [UInt64.size]; omega)]
    omega
  have hone : (1 : UInt64).toNat = 1 := rfl
  rw [← BitVec.testBit_toNat, UInt64.toNat_toBitVec, Nat.testBit_eq_decide_div_mod_eq,
    decide_eq_true_iff, ne_eq, ← UInt64.toNat_inj, UInt64.toNat_and, UInt64.toNat_shiftRight,
    hbit, hone, Nat.and_one_is_mod, Nat.shiftRight_eq_div_pow]
  have hzero : (0 : UInt64).toNat = 0 := rfl
  omega

/-- Copying some bits of a word. -/
theorem getLsbD_copyBits (word : Fin 4) (bits : UInt64) (places : List Nat)
    (hplaces : ∀ bit ∈ places, bit < 64) (keys : BitVec 256) {key : Nat} (hkey : key < 256) :
    (places.foldl (fun keys bit =>
      if bits >>> UInt64.ofNat bit &&& 1 ≠ 0 then keys ||| 1#256 <<< (word.val * 64 + bit)
      else keys) keys).getLsbD key =
      (keys.getLsbD key || places.any fun bit =>
        bits.toBitVec.getLsbD bit && decide (key = word.val * 64 + bit)) := by
  induction places generalizing keys with
  | nil => simp
  | cons bit places ih =>
    obtain ⟨hbit, hplaces⟩ := List.forall_mem_cons.1 hplaces
    rw [List.foldl_cons, ih hplaces, List.any_cons, ← Bool.or_assoc]
    congr 1
    by_cases hset : bits.toBitVec.getLsbD bit = true
    · rw [if_pos ((word_bit_iff hbit).2 hset), hset, BitVec.getLsbD_or,
        ← BitVec.twoPow_eq, BitVec.getLsbD_twoPow, Bool.true_and]
      congr 1
      rw [← Bool.decide_and, decide_eq_decide]
      have hword := word.isLt
      omega
    · rw [if_neg (mt (word_bit_iff hbit).1 hset), Bool.eq_false_iff.2 hset]
      simp

theorem getLsbD_copyKeyWord (keys : BitVec 256) (word : Fin 4) (bits : UInt64) {key : Nat}
    (hkey : key < 256) : (copyKeyWord keys word bits).getLsbD key =
      (keys.getLsbD key ||
        decide (key / 64 = word.val) && bits.toBitVec.getLsbD (key % 64)) := by
  rw [copyKeyWord, getLsbD_copyBits word bits _ (fun bit h => List.mem_range.1 h) keys hkey]
  congr 1
  rw [Bool.eq_iff_iff, List.any_eq_true]
  simp only [List.mem_range, Bool.and_eq_true, decide_eq_true_eq]
  constructor
  · rintro ⟨bit, hbit, hset, rfl⟩
    have hplace : (word.val * 64 + bit) % 64 = bit := by omega
    exact ⟨by omega, hplace.symm ▸ hset⟩
  · rintro ⟨hword, hset⟩
    exact ⟨key % 64, by omega, hset, by omega⟩

/-- A snapshot with nothing in between copies every key bit. -/
theorem isKeyDown_takeSnapshot (s : DesktopInputState) (key : UInt8) :
    s.takeSnapshot.1.isKeyDown key = s.keyBit key.toNat := by
  have hkey := key.toNat_lt
  have hkeys : s.takeSnapshot.1.keys = copyKeyWord (copyKeyWord (copyKeyWord
      (copyKeyWord 0 0 s.keys[0]) 1 s.keys[1]) 2 s.keys[2]) 3 s.keys[3] := by
    simp only [DesktopInputState.takeSnapshot, snapshotReads, List.foldl_cons, List.foldl_nil,
      SnapshotRead.report, SnapshotRead.after]
    rfl
  have hcases : key.toNat / 64 = 0 ∨ key.toNat / 64 = 1 ∨ key.toNat / 64 = 2 ∨
      key.toNat / 64 = 3 := by omega
  rw [DesktopSnapshot.isKeyDown, hkeys]
  simp only [getLsbD_copyKeyWord _ _ _ hkey]
  unfold DesktopInputState.keyBit
  have hlast : (3 : Fin 4).val = 3 := rfl
  rcases hcases with h | h | h | h <;> rw [hlast, h] <;> simp

theorem toBitVec_buttonBit (button : DesktopMouseButton) :
    (buttonBit button).toBitVec = BitVec.twoPow 8 button.ctorIdx := by
  cases button <;> decide

theorem isButtonDown_takeSnapshot (s : DesktopInputState) (button : DesktopMouseButton) :
    s.takeSnapshot.1.isButtonDown button = s.buttonDown button := by
  have hbuttons : s.takeSnapshot.1.mouseButtons = s.mouseButtons := rfl
  rw [DesktopSnapshot.isButtonDown, hbuttons, DesktopInputState.buttonDown, Bool.eq_iff_iff,
    bne_iff_ne, ne_eq, ← UInt8.toBitVec_inj, UInt8.toBitVec_and, toBitVec_buttonBit,
    BitVec.and_twoPow]
  have hbit : BitVec.twoPow 8 button.ctorIdx ≠ 0#8 := by cases button <;> decide
  by_cases h : s.mouseButtons.toBitVec.getLsbD button.ctorIdx = true
  · rw [if_pos h]
    exact iff_of_true hbit h
  · rw [if_neg h]
    exact iff_of_false (not_not_intro rfl) h

/-! ## What the calls do to the bits -/

theorem getLsbD_mask {place : Nat} (hplace : place < 64) (bit : Nat) :
    ((1 : UInt64) <<< UInt64.ofNat place).toBitVec.getLsbD bit = decide (bit = place) := by
  have hshift : (UInt64.ofNat place).toBitVec.toNat % 64 = place := by
    have hplace' : (UInt64.ofNat place).toBitVec.toNat = place :=
      UInt64.toNat_ofNat_of_lt' (by simp [UInt64.size]; omega)
    omega
  have hmask : ((1 : UInt64) <<< UInt64.ofNat place).toBitVec = BitVec.twoPow 64 place := by
    rw [UInt64.toBitVec_shiftLeft, BitVec.twoPow_eq, BitVec.shiftLeft_eq', BitVec.toNat_umod]
    exact congrArg (1#64 <<< ·) hshift
  rw [hmask, BitVec.getLsbD_twoPow, decide_eq_true hplace, Bool.true_and, decide_eq_decide]
  exact eq_comm

/-- The word of a key, after a write to one of the words. -/
theorem keyBit_set (s : DesktopInputState) (word : Fin 4) (bits : UInt64) (key : Nat) :
    DesktopInputState.keyBit { s with keys := s.keys.set word bits word.isLt } key =
      if key / 64 = word.val then bits.toBitVec.getLsbD (key % 64) else s.keyBit key := by
  unfold DesktopInputState.keyBit
  rw [Vector.getElem?_set word.isLt]
  by_cases h : word.val = key / 64
  · rw [if_pos h, if_pos h.symm]
    rfl
  · rw [if_neg h, if_neg (Ne.symm h)]

theorem keyBit_of_word (s : DesktopInputState) (word : Fin 4) {key : Nat}
    (h : key / 64 = word.val) :
    s.keyBit key = s.keys[word].toBitVec.getLsbD (key % 64) := by
  unfold DesktopInputState.keyBit
  rw [h]
  simp

theorem keyBit_setKey (s : DesktopInputState) (virtualKey : UInt8) (down : Bool) (key : Nat) :
    (UiOperation.perform s (.setKey virtualKey down)).keyBit key =
      if key = virtualKey.toNat then down else s.keyBit key := by
  have hvirtual := virtualKey.toNat_lt
  let word : Fin 4 := Fin.ofNat 4 (virtualKey.toNat / 64)
  have hword : word.val = virtualKey.toNat / 64 := Nat.mod_eq_of_lt (by omega)
  have hmask := getLsbD_mask (Nat.mod_lt virtualKey.toNat (by omega : 0 < 64)) (key % 64)
  have hplace : key / 64 = word.val → (key % 64 = virtualKey.toNat % 64 ↔
      key = virtualKey.toNat) := by omega
  cases down with
  | true =>
    refine (keyBit_set s word
      (s.keys[word] ||| 1 <<< UInt64.ofNat (virtualKey.toNat % 64)) key).trans ?_
    split
    · next h =>
      rw [UInt64.toBitVec_or, BitVec.getLsbD_or, hmask, ← keyBit_of_word s word h]
      by_cases heq : key = virtualKey.toNat
      · simp [heq]
      · simp [heq, mt (hplace h).1 heq]
    · next h =>
      rw [if_neg (by omega)]
  | false =>
    refine (keyBit_set s word
      (s.keys[word] &&& ~~~ (1 <<< UInt64.ofNat (virtualKey.toNat % 64))) key).trans ?_
    split
    · next h =>
      rw [UInt64.toBitVec_and, UInt64.toBitVec_not, BitVec.getLsbD_and, BitVec.getLsbD_not,
        hmask, ← keyBit_of_word s word h, decide_eq_true (Nat.mod_lt key (by omega : 0 < 64))]
      by_cases heq : key = virtualKey.toNat
      · simp [heq]
      · simp [heq, mt (hplace h).1 heq]
    · next h =>
      rw [if_neg (by omega)]

theorem buttonDown_setMouseButton (s : DesktopInputState) (pressed : DesktopMouseButton)
    (down : Bool) (button : DesktopMouseButton) :
    (UiOperation.perform s (.setMouseButton pressed down)).buttonDown button =
      if button = pressed then down else s.buttonDown button := by
  have hplace : (pressed.ctorIdx = button.ctorIdx) ↔ button = pressed := by
    cases pressed <;> cases button <;> decide
  have hidx : pressed.ctorIdx < 8 ∧ button.ctorIdx < 8 := by
    cases pressed <;> cases button <;> decide
  unfold DesktopInputState.buttonDown
  cases down with
  | true =>
    show (s.mouseButtons ||| buttonBit pressed).toBitVec.getLsbD button.ctorIdx = _
    rw [UInt8.toBitVec_or, BitVec.getLsbD_or, toBitVec_buttonBit, BitVec.getLsbD_twoPow]
    by_cases h : button = pressed <;> simp [h, hplace, hidx]
  | false =>
    show (s.mouseButtons &&& ~~~ buttonBit pressed).toBitVec.getLsbD button.ctorIdx = _
    rw [UInt8.toBitVec_and, UInt8.toBitVec_not, BitVec.getLsbD_and, BitVec.getLsbD_not,
      toBitVec_buttonBit, BitVec.getLsbD_twoPow]
    by_cases h : button = pressed <;> simp [h, hplace, hidx]

/-- What a call leaves of the keys. -/
def UiOperation.keyAfter (key : Nat) (was : Bool) : UiOperation → Bool
  | .setKey virtualKey down => if key = virtualKey.toNat then down else was
  | .releaseAll => false
  | .setMouseButton _ _ | .addPointerTravel _ _ | .setPointerCaptured _ => was

def UiOperation.buttonAfter (button : DesktopMouseButton) (was : Bool) : UiOperation → Bool
  | .setMouseButton pressed down => if button = pressed then down else was
  | .releaseAll => false
  | .setKey _ _ | .addPointerTravel _ _ | .setPointerCaptured _ => was

def UiOperation.capturedAfter (was : Bool) : UiOperation → Bool
  | .setPointerCaptured captured => captured
  | .releaseAll => false
  | .setKey _ _ | .setMouseButton _ _ | .addPointerTravel _ _ => was

theorem perform_addPointerTravel (s : DesktopInputState) (dx dy : Int32) :
    UiOperation.perform s (.addPointerTravel dx dy) =
      if s.pointerCaptured then
        { s with pointerDx := s.pointerDx + dx, pointerDy := s.pointerDy + dy }
      else s := by
  show UiStep.runWhole s (.loadCaptured dx dy) = _
  cases hc : s.pointerCaptured <;> simp [UiStep.runWhole, UiStep.more, UiStep.run, hc]

/-- Everything is as it was before any call. -/
theorem perform_releaseAll (s : DesktopInputState) : UiOperation.perform s .releaseAll = {} := by
  have hkeys : (((s.keys.set 0 0).set 1 0).set 2 0).set 3 0 = Vector.replicate 4 (0 : UInt64) := by
    ext i hi
    simp only [Vector.getElem_set, Vector.getElem_replicate]
    split_ifs <;> first | rfl | omega
  show ({ keys := (((s.keys.set 0 0).set 1 0).set 2 0).set 3 0 } : DesktopInputState) = _
  rw [hkeys]

theorem keyBit_none (key : Nat) : DesktopInputState.keyBit {} key = false := by
  unfold DesktopInputState.keyBit
  rw [Vector.getElem?_replicate]
  split <;> simp

theorem buttonDown_none (button : DesktopMouseButton) :
    DesktopInputState.buttonDown {} button = false := BitVec.getLsbD_zero

theorem keyBit_perform (s : DesktopInputState) (operation : UiOperation) (key : Nat) :
    (operation.perform s).keyBit key = operation.keyAfter key (s.keyBit key) := by
  cases operation with
  | setKey virtualKey down => exact keyBit_setKey s virtualKey down key
  | addPointerTravel dx dy =>
    rw [perform_addPointerTravel]
    split <;> rfl
  | releaseAll =>
    rw [perform_releaseAll, keyBit_none]
    rfl
  | setMouseButton button down => cases down <;> rfl
  | setPointerCaptured captured => cases captured <;> rfl

theorem buttonDown_perform (s : DesktopInputState) (operation : UiOperation)
    (button : DesktopMouseButton) : (operation.perform s).buttonDown button =
      operation.buttonAfter button (s.buttonDown button) := by
  cases operation with
  | setKey virtualKey down => cases down <;> rfl
  | addPointerTravel dx dy =>
    rw [perform_addPointerTravel]
    split <;> rfl
  | releaseAll =>
    rw [perform_releaseAll, buttonDown_none]
    rfl
  | setMouseButton pressed down => exact buttonDown_setMouseButton s pressed down button
  | setPointerCaptured captured => cases captured <;> rfl

theorem pointerCaptured_perform (s : DesktopInputState) (operation : UiOperation) :
    (operation.perform s).pointerCaptured = operation.capturedAfter s.pointerCaptured := by
  cases operation with
  | setKey virtualKey down => cases down <;> rfl
  | addPointerTravel dx dy =>
    rw [perform_addPointerTravel]
    split <;> rfl
  | releaseAll => rfl
  | setMouseButton pressed down => cases down <;> rfl
  | setPointerCaptured captured => cases captured <;> rfl

/-! ## The window's run -/

namespace WindowInput

def presses (key : UInt8) : WindowInput → Prop
  | .keyDown code => code.toNat = key.toNat
  | .keyUp _ | .mouseDown _ _ | .mouseUp _ | .mouseMove _ _ | .lostFocus | .takeSnapshot => False

/-- With the focus the window loses sight of what the player lets go of. -/
def lifts (key : UInt8) : WindowInput → Prop
  | .keyUp code => code.toNat = key.toNat
  | .lostFocus => True
  | .keyDown _ | .mouseDown _ _ | .mouseUp _ | .mouseMove _ _ | .takeSnapshot => False

/-- The click that captures the pointer is no click for the game. -/
def pressesButton (button : DesktopMouseButton) (s : GameWindow) : WindowInput → Prop
  | .mouseDown pressed _ => s.capture.captured = true ∧ desktopButton pressed = some button
  | .keyDown _ | .keyUp _ | .mouseUp _ | .mouseMove _ _ | .lostFocus | .takeSnapshot => False

def liftsButton (button : DesktopMouseButton) : WindowInput → Prop
  | .mouseUp lifted => desktopButton lifted = some button
  | .lostFocus => True
  | .keyDown _ | .keyUp _ | .mouseDown _ _ | .mouseMove _ _ | .takeSnapshot => False

def captures (s : GameWindow) : WindowInput → Prop
  | .mouseDown _ granted => s.drawingArea = true ∧ granted = true
  | .keyDown _ | .keyUp _ | .mouseUp _ | .mouseMove _ _ | .lostFocus | .takeSnapshot => False

def uncaptures : WindowInput → Prop
  | .lostFocus => True
  | .keyDown _ | .keyUp _ | .mouseDown _ _ | .mouseUp _ | .mouseMove _ _ | .takeSnapshot => False

end WindowInput

section

variable (s : GameWindow) (input : WindowInput)

theorem keyBit_react (reaction : Reaction) (key : Nat) :
    (s.react reaction).shared.keyBit key =
      reaction.operations.foldl (UiOperation.keyAfter key) (s.shared.keyBit key) :=
  (List.foldl_hom (DesktopInputState.keyBit · key) fun shared operation =>
    (keyBit_perform shared operation key).symm).symm

theorem buttonDown_react (reaction : Reaction) (button : DesktopMouseButton) :
    (s.react reaction).shared.buttonDown button =
      reaction.operations.foldl (UiOperation.buttonAfter button) (s.shared.buttonDown button) :=
  (List.foldl_hom (DesktopInputState.buttonDown · button) fun shared operation =>
    (buttonDown_perform shared operation button).symm).symm

theorem pointerCaptured_react (reaction : Reaction) :
    (s.react reaction).shared.pointerCaptured =
      reaction.operations.foldl UiOperation.capturedAfter s.shared.pointerCaptured :=
  (List.foldl_hom DesktopInputState.pointerCaptured fun shared operation =>
    (pointerCaptured_perform shared operation).symm).symm

theorem toNat_toUInt8 {code : UInt32} (h : isVirtualKeyCode code = true) :
    code.toUInt8.toNat = code.toNat := by
  have hle : code.toNat ≤ 255 := UInt32.le_iff_toNat_le.1 (of_decide_eq_true h)
  rw [UInt32.toNat_toUInt8]
  omega

/-- Only the code's own key goes down or up, and only if the code is that of a key. -/
theorem keyBit_onKey (code : UInt32) (down : Bool) (key : UInt8) :
    (s.react (s.capture.onKey code down)).shared.keyBit key.toNat =
      if code.toNat = key.toNat then down else s.shared.keyBit key.toNat := by
  have hkey := key.toNat_lt
  rw [keyBit_react, DesktopInputCapture.onKey]
  by_cases hcode : isVirtualKeyCode code = true
  · rw [if_pos hcode]
    show (if key.toNat = code.toUInt8.toNat then down else _) = _
    rw [toNat_toUInt8 hcode]
    simp only [eq_comm]
  · rw [if_neg hcode, if_neg fun heq => hcode (decide_eq_true (UInt32.le_iff_toNat_le.2 ?_))]
    · rfl
    · have hff : (0xFF : UInt32).toNat = 255 := rfl
      omega

/-- The click captures the pointer, asks for it in vain, or is the game's. -/
theorem onMouseDown_cases (c : DesktopInputCapture) (drawingArea granted : Bool)
    (button : MouseButton) :
    (c.captured = false ∧ drawingArea = true ∧ granted = true ∧
      c.onMouseDown drawingArea button granted =
        { capture := c.capture, operations := [.setPointerCaptured true], handled := true }) ∨
    (c.captured = false ∧ ¬ (drawingArea = true ∧ granted = true) ∧
      c.onMouseDown drawingArea button granted = { capture := c, handled := true }) ∨
    (c.captured = true ∧ c.onMouseDown drawingArea button granted =
      { capture := c
        operations :=
          ((desktopButton button).map (UiOperation.setMouseButton · true)).toList }) := by
  unfold DesktopInputCapture.onMouseDown DesktopInputCapture.beginCapture
  cases hcaptured : c.captured with
  | false =>
    by_cases hgrab : drawingArea = true ∧ granted = true
    · exact .inl ⟨rfl, hgrab.1, hgrab.2, by simp [hgrab]⟩
    · exact .inr (.inl ⟨rfl, hgrab, by simp [hgrab]⟩)
  | true => exact .inr (.inr ⟨rfl, by simp⟩)

/-- Without the focus nothing is held, and nothing has been since. -/
theorem shared_lostFocus : (s.onInput .lostFocus).shared = {} := by
  rw [GameWindow.onInput, GameWindow.react, DesktopInputCapture.onLostFocus]
  simp only [List.foldl_append, List.foldl_cons, List.foldl_nil, perform_releaseAll]

theorem keyBit_onInput (key : UInt8) : (s.onInput input).shared.keyBit key.toNat = true ↔
    input.presses key ∨ s.shared.keyBit key.toNat = true ∧ ¬ input.lifts key := by
  cases input with
  | keyDown code =>
    show (s.react (s.capture.onKey code true)).shared.keyBit key.toNat = true ↔ _
    rw [keyBit_onKey]
    by_cases h : code.toNat = key.toNat <;> simp [WindowInput.presses, WindowInput.lifts, h]
  | keyUp code =>
    show (s.react (s.capture.onKey code false)).shared.keyBit key.toNat = true ↔ _
    rw [keyBit_onKey]
    by_cases h : code.toNat = key.toNat <;> simp [WindowInput.presses, WindowInput.lifts, h]
  | mouseDown button granted =>
    rw [GameWindow.onInput, keyBit_react]
    rcases onMouseDown_cases s.capture s.drawingArea granted button with
      ⟨-, -, -, h⟩ | ⟨-, -, h⟩ | ⟨-, h⟩ <;> rw [h] <;> cases desktopButton button <;>
      simp [WindowInput.presses, WindowInput.lifts, UiOperation.keyAfter]
  | mouseUp button =>
    rw [GameWindow.onInput, keyBit_react, DesktopInputCapture.onMouseUp]
    cases desktopButton button <;>
      simp [WindowInput.presses, WindowInput.lifts, UiOperation.keyAfter]
  | mouseMove surface position =>
    rw [GameWindow.onInput, keyBit_react, DesktopInputCapture.onMotion]
    cases (s.capture.onMouseMove surface position).travel <;>
      simp [WindowInput.presses, WindowInput.lifts, UiOperation.keyAfter,
        DesktopInputCapture.travelOperation]
  | lostFocus =>
    rw [shared_lostFocus, keyBit_none]
    simp [WindowInput.presses, WindowInput.lifts]
  | takeSnapshot =>
    show s.shared.keyBit key.toNat = true ↔ _
    simp [WindowInput.presses, WindowInput.lifts]

theorem buttonDown_onInput (button : DesktopMouseButton) :
    (s.onInput input).shared.buttonDown button = true ↔ input.pressesButton button s ∨
      s.shared.buttonDown button = true ∧ ¬ input.liftsButton button := by
  cases input with
  | keyDown code =>
    rw [GameWindow.onInput, buttonDown_react, DesktopInputCapture.onKey]
    cases isVirtualKeyCode code <;>
      simp [WindowInput.pressesButton, WindowInput.liftsButton, UiOperation.buttonAfter]
  | keyUp code =>
    rw [GameWindow.onInput, buttonDown_react, DesktopInputCapture.onKey]
    cases isVirtualKeyCode code <;>
      simp [WindowInput.pressesButton, WindowInput.liftsButton, UiOperation.buttonAfter]
  | mouseDown pressed granted =>
    rw [GameWindow.onInput, buttonDown_react]
    rcases onMouseDown_cases s.capture s.drawingArea granted pressed with
      ⟨hno, -, -, h⟩ | ⟨hno, -, h⟩ | ⟨hyes, h⟩
    · simp [h, hno, WindowInput.pressesButton, WindowInput.liftsButton, UiOperation.buttonAfter]
    · simp [h, hno, WindowInput.pressesButton, WindowInput.liftsButton]
    · rw [h]
      cases hbutton : desktopButton pressed with
      | none => simp [hbutton, WindowInput.pressesButton, WindowInput.liftsButton]
      | some b =>
        rcases eq_or_ne button b with rfl | hne
        · simp [hyes, hbutton, WindowInput.pressesButton, UiOperation.buttonAfter]
        · simp [hbutton, WindowInput.pressesButton, WindowInput.liftsButton,
            UiOperation.buttonAfter, hne, hne.symm]
  | mouseUp lifted =>
    rw [GameWindow.onInput, buttonDown_react, DesktopInputCapture.onMouseUp]
    cases hbutton : desktopButton lifted with
    | none => simp [hbutton, WindowInput.pressesButton, WindowInput.liftsButton]
    | some b =>
      rcases eq_or_ne button b with rfl | hne
      · simp [hbutton, WindowInput.pressesButton, WindowInput.liftsButton,
          UiOperation.buttonAfter]
      · simp [hbutton, WindowInput.pressesButton, WindowInput.liftsButton,
          UiOperation.buttonAfter, hne, hne.symm]
  | mouseMove surface position =>
    rw [GameWindow.onInput, buttonDown_react, DesktopInputCapture.onMotion]
    cases (s.capture.onMouseMove surface position).travel <;>
      simp [WindowInput.pressesButton, WindowInput.liftsButton, UiOperation.buttonAfter,
        DesktopInputCapture.travelOperation]
  | lostFocus =>
    rw [shared_lostFocus, buttonDown_none]
    simp [WindowInput.pressesButton, WindowInput.liftsButton]
  | takeSnapshot =>
    show s.shared.buttonDown button = true ↔ _
    simp [WindowInput.pressesButton, WindowInput.liftsButton]

theorem captured_onMouseMove (surface : Surface) (c : DesktopInputCapture)
    (position : Int × Int) : (c.onMouseMove surface position).capture.captured = c.captured := by
  unfold DesktopInputCapture.onMouseMove DesktopInputCapture.recentre
  split
  · rfl
  · dsimp only
    split <;> rfl

theorem captured_onInput : (s.onInput input).capture.captured = true ↔
    input.captures s ∨ s.capture.captured = true ∧ ¬ input.uncaptures := by
  cases input with
  | mouseDown pressed granted =>
    rw [GameWindow.onInput, GameWindow.react]
    rcases onMouseDown_cases s.capture s.drawingArea granted pressed with
      ⟨-, harea, hgranted, h⟩ | ⟨hno, hrefused, h⟩ | ⟨hyes, h⟩
    · simp only [h, WindowInput.captures]
      exact iff_of_true rfl (.inl ⟨harea, hgranted⟩)
    · simp only [h, WindowInput.captures]
      exact iff_of_false (by simp [hno]) (by simp [hno, hrefused])
    · simp only [h, WindowInput.uncaptures]
      exact iff_of_true hyes (.inr ⟨hyes, not_false⟩)
  | lostFocus =>
    rw [GameWindow.onInput, GameWindow.react, DesktopInputCapture.onLostFocus,
      DesktopInputCapture.release]
    by_cases h : s.capture.captured = true <;>
      simp [h, WindowInput.captures, WindowInput.uncaptures]
  | mouseMove surface position =>
    have hkept := captured_onMouseMove surface s.capture position
    simp [GameWindow.onInput, GameWindow.react, DesktopInputCapture.onMotion, hkept,
      WindowInput.captures, WindowInput.uncaptures]
  | _ => simp [GameWindow.onInput, GameWindow.react, DesktopInputCapture.onKey,
      DesktopInputCapture.onMouseUp, WindowInput.captures, WindowInput.uncaptures]

/-- Only a captured pointer travels. -/
def DesktopInputState.Still (s : DesktopInputState) : Prop :=
  s.pointerCaptured = false → s.pointerDx = 0 ∧ s.pointerDy = 0

theorem still_perform {shared : DesktopInputState} (h : shared.Still)
    (operation : UiOperation) : (operation.perform shared).Still := by
  cases operation with
  | setKey virtualKey down => cases down <;> exact h
  | setMouseButton button down => cases down <;> exact h
  | addPointerTravel dx dy =>
    rw [perform_addPointerTravel]
    split
    · next hcaptured => exact fun hno => absurd (hcaptured.symm.trans hno) (by decide)
    · exact h
  | setPointerCaptured captured =>
    cases captured with
    | false => exact fun _ => ⟨rfl, rfl⟩
    | true => exact fun hno => absurd hno Bool.noConfusion
  | releaseAll =>
    rw [perform_releaseAll]
    exact fun _ => ⟨rfl, rfl⟩

/-- The title is told what the listener knows. -/
structure GameWindow.Settled (s : GameWindow) : Prop where
  captured : s.shared.pointerCaptured = s.capture.captured
  still : s.shared.Still

theorem still_react {s : GameWindow} (h : s.shared.Still) (reaction : Reaction) :
    (s.react reaction).shared.Still :=
  List.foldlRecOn reaction.operations UiOperation.perform h
    fun _ hstill operation _ => still_perform hstill operation

theorem settled_onInput {s : GameWindow} (h : s.Settled) : (s.onInput input).Settled where
  still := by
    cases input with
    | takeSnapshot => exact fun _ => ⟨rfl, rfl⟩
    | _ => exact still_react h.still _
  captured := by
    cases input with
    | mouseDown pressed granted =>
      rw [GameWindow.onInput, pointerCaptured_react, GameWindow.react]
      rcases onMouseDown_cases s.capture s.drawingArea granted pressed with
        ⟨-, -, -, hd⟩ | ⟨-, -, hd⟩ | ⟨-, hd⟩
      · rw [hd]
        rfl
      · rw [hd]
        exact h.captured
      · rw [hd]
        cases desktopButton pressed <;> exact h.captured
    | lostFocus =>
      rw [shared_lostFocus]
      refine (Bool.eq_false_iff.2 fun htrue => ?_).symm
      have := (captured_onInput s .lostFocus).1 htrue
      simp [WindowInput.captures, WindowInput.uncaptures] at this
    | mouseMove surface position =>
      rw [GameWindow.onInput, pointerCaptured_react]
      refine Eq.trans ?_ (h.captured.trans (captured_onMouseMove surface s.capture position).symm)
      rw [DesktopInputCapture.onMotion]
      cases (s.capture.onMouseMove surface position).travel <;> rfl
    | keyDown code =>
      rw [GameWindow.onInput, pointerCaptured_react, DesktopInputCapture.onKey]
      cases isVirtualKeyCode code <;> exact h.captured
    | keyUp code =>
      rw [GameWindow.onInput, pointerCaptured_react, DesktopInputCapture.onKey]
      cases isVirtualKeyCode code <;> exact h.captured
    | mouseUp lifted =>
      rw [GameWindow.onInput, pointerCaptured_react, DesktopInputCapture.onMouseUp]
      cases desktopButton lifted <;> exact h.captured
    | takeSnapshot => exact h.captured

end

/-! ## What the title is told -/

section

variable {drawingArea : Bool} {s : GameWindow} {inputs : List WindowInput}

theorem settled_fresh (drawingArea : Bool) : GameWindow.Settled { drawingArea } where
  captured := rfl
  still _ := ⟨rfl, rfl⟩

theorem play_settled (h : play GameWindow.step { drawingArea } inputs = some s) : s.Settled :=
  play_invariant (fun s input s' hs hstep => by
    cases hstep
    exact settled_onInput input hs) (settled_fresh drawingArea) h

/-- **What a snapshot reports** that falls between whole events of the window, whatever the window
has been through. A key is down when it went down and has neither come up nor been lost with the
focus since; a button likewise, but a click counts only while the pointer is captured, so never
the one that captures it. -/
theorem play_reported (h : play GameWindow.step { drawingArea } inputs = some s) :
    (∀ key, s.shared.takeSnapshot.1.isKeyDown key = true ↔
      Raised GameWindow.step (fun _ input => input.presses key) (·.lifts key) { drawingArea }
        inputs) ∧
    (∀ button, s.shared.takeSnapshot.1.isButtonDown button = true ↔
      Raised GameWindow.step (fun s input => input.pressesButton button s)
        (·.liftsButton button) { drawingArea } inputs) ∧
    (s.shared.takeSnapshot.1.pointerCaptured = true ↔
      Raised GameWindow.step (fun s input => input.captures s) (·.uncaptures) { drawingArea }
        inputs) ∧
    (s.shared.takeSnapshot.1.pointerCaptured = false →
      s.shared.takeSnapshot.1.pointerDx = 0 ∧ s.shared.takeSnapshot.1.pointerDy = 0) := by
  have hsettled := play_settled h
  refine ⟨fun key => ?_, fun button => ?_, ?_, hsettled.still⟩
  · rw [isKeyDown_takeSnapshot]
    refine play_flag_iff (fun s => s.shared.keyBit key.toNat = true) ?_ ?_ h
    · rintro s input _ ⟨⟩
      exact keyBit_onInput s input key
    · simp [keyBit_none]
  · rw [isButtonDown_takeSnapshot]
    refine play_flag_iff (fun s => s.shared.buttonDown button = true) ?_ ?_ h
    · rintro s input _ ⟨⟩
      exact buttonDown_onInput s input button
    · simp [buttonDown_none]
  · show s.shared.pointerCaptured = true ↔ _
    rw [hsettled.captured]
    refine play_flag_iff (fun s => s.capture.captured = true) ?_ ?_ h
    · rintro s input _ ⟨⟩
      exact captured_onInput s input
    · exact Bool.false_ne_true

/-- The first click captures the pointer and is not the game's, the second one is; the key that
was held when the focus went is not held any more. -/
theorem play_reported_clicks : ∃ s : GameWindow,
    play GameWindow.step { drawingArea := true }
      [.keyDown 0x41, .lostFocus, .mouseDown .left true, .mouseUp .left, .keyDown 0x42,
        .mouseDown .right true] = some s ∧
    s.shared.takeSnapshot.1.isKeyDown 0x41 = false ∧
    s.shared.takeSnapshot.1.isKeyDown 0x42 = true ∧
    s.shared.takeSnapshot.1.isButtonDown .left = false ∧
    s.shared.takeSnapshot.1.isButtonDown .right = true ∧
    (s.shared.takeSnapshot.1.isKeyDown 0x42 = true ↔
      Raised GameWindow.step (fun _ input => input.presses 0x42) (·.lifts 0x42)
        { drawingArea := true }
        [.keyDown 0x41, .lostFocus, .mouseDown .left true, .mouseUp .left, .keyDown 0x42,
          .mouseDown .right true]) :=
  ⟨_, rfl, by decide, by decide, by decide, by decide, (play_reported rfl).1 0x42⟩

end

end X360Port
