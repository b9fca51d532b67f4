import Mathlib.Data.List.Pairwise
import X360Port.Library.Machine

/-!
# Desktop input

The window's UI thread writes the keys, the buttons and the pointer's travel,
any number of threads take snapshots. Every member of `DesktopInputState` is an
atomic of its own, so `DesktopInput` takes one atomic operation at a time: `ui`
is what is left of the UI thread's call, and each snapshot under way has the
reads that are left of it. A snapshot is known by its place in `taking`.

History: `number`, `done`, `points` and `overtaken` of a snapshot. Its points are the
states between two calls of the UI thread that it has lived through, and it is
overtaken when a word that it has read has changed since.
-/

namespace X360Port

open Library

structure DesktopSnapshot where
  keys : BitVec 256 := 0
  mouseButtons : UInt8 := 0
  pointerDx : Int32 := 0
  pointerDy : Int32 := 0
  pointerCaptured : Bool := false
  deriving DecidableEq, Repr

inductive DesktopMouseButton where
  | left
  | right
  | middle
  | back
  | forward
  deriving DecidableEq, Repr

structure DesktopInputState where
  keys : Vector UInt64 4 := Vector.replicate 4 0
  mouseButtons : UInt8 := 0
  pointerDx : Int32 := 0
  pointerDy : Int32 := 0
  pointerCaptured : Bool := false
  deriving DecidableEq, Repr

def buttonBit (button : DesktopMouseButton) : UInt8 := 1 <<< UInt8.ofNat button.ctorIdx

/-- The bits of one key word, put at its place in the snapshot. -/
def copyKeyWord (keys : BitVec 256) (word : Fin 4) (bits : UInt64) : BitVec 256 :=
  (List.range 64).foldl (fun keys bit =>
    if bits >>> UInt64.ofNat bit &&& 1 ≠ 0 then keys ||| 1#256 <<< (word.val * 64 + bit)
    else keys) keys

/-! ## A snapshot's atomic operations -/

/-- The atomics, in the order in which `TakeSnapshot` reads them. -/
inductive SnapshotRead where
  | keyWord (word : Fin 4)
  | mouseButtons
  | pointerDx
  | pointerDy
  | pointerCaptured
  deriving DecidableEq, Repr

def snapshotReads : List SnapshotRead :=
  [.keyWord 0, .keyWord 1, .keyWord 2, .keyWord 3, .mouseButtons, .pointerDx, .pointerDy,
    .pointerCaptured]

namespace SnapshotRead

/-- What the read puts into the snapshot. -/
def report (s : DesktopInputState) (snapshot : DesktopSnapshot) : SnapshotRead → DesktopSnapshot
  | .keyWord word => { snapshot with keys := copyKeyWord snapshot.keys word s.keys[word] }
  | .mouseButtons => { snapshot with mouseButtons := s.mouseButtons }
  | .pointerDx => { snapshot with pointerDx := s.pointerDx }
  | .pointerDy => { snapshot with pointerDy := s.pointerDy }
  | .pointerCaptured => { snapshot with pointerCaptured := s.pointerCaptured }

/-- The pointer's travel is exchanged for zero. -/
def after (s : DesktopInputState) : SnapshotRead → DesktopInputState
  | .pointerDx => { s with pointerDx := 0 }
  | .pointerDy => { s with pointerDy := 0 }
  | _ => s

/-- The atomic has the same value in both states. -/
def Same (s s' : DesktopInputState) : SnapshotRead → Prop
  | .keyWord word => s'.keys[word] = s.keys[word]
  | .mouseButtons => s'.mouseButtons = s.mouseButtons
  | .pointerDx => s'.pointerDx = s.pointerDx
  | .pointerDy => s'.pointerDy = s.pointerDy
  | .pointerCaptured => s'.pointerCaptured = s.pointerCaptured

instance Same.decidable (s s' : DesktopInputState) (r : SnapshotRead) :
    Decidable (Same s s' r) := by
  cases r <;> exact inferInstanceAs (Decidable (_ = _))

end SnapshotRead

/-- `TakeSnapshot` with nothing in between. -/
def DesktopInputState.takeSnapshot (s : DesktopInputState) : DesktopSnapshot × DesktopInputState :=
  snapshotReads.foldl (fun (snapshot, s) r => (r.report s snapshot, r.after s)) ({}, s)

/-! ## The UI thread's atomic operations -/

/-- The clearing ones are stores of zero. -/
inductive UiStep where
  | fetchOrKey (word : Fin 4) (mask : UInt64)
  | fetchAndKey (word : Fin 4) (mask : UInt64)
  | clearKey (word : Fin 4)
  | fetchOrButtons (mask : UInt8)
  | fetchAndButtons (mask : UInt8)
  | clearButtons
  | loadCaptured (dx dy : Int32)
  | fetchAddDx (dx : Int32)
  | fetchAddDy (dy : Int32)
  | storeCaptured (captured : Bool)
  | clearDx
  | clearDy
  deriving DecidableEq, Repr

inductive UiOperation where
  | setKey (virtualKey : UInt8) (down : Bool)
  | setMouseButton (button : DesktopMouseButton) (down : Bool)
  | addPointerTravel (dx dy : Int32)
  | setPointerCaptured (captured : Bool)
  | releaseAll
  deriving DecidableEq, Repr

namespace UiStep

def run (s : DesktopInputState) : UiStep → DesktopInputState
  | .fetchOrKey word mask => { s with keys := s.keys.set word (s.keys[word] ||| mask) }
  | .fetchAndKey word mask => { s with keys := s.keys.set word (s.keys[word] &&& mask) }
  | .clearKey word => { s with keys := s.keys.set word 0 }
  | .fetchOrButtons mask => { s with mouseButtons := s.mouseButtons ||| mask }
  | .fetchAndButtons mask => { s with mouseButtons := s.mouseButtons &&& mask }
  | .clearButtons => { s with mouseButtons := 0 }
  | .loadCaptured _ _ => s
  | .fetchAddDx dx => { s with pointerDx := s.pointerDx + dx }
  | .fetchAddDy dy => { s with pointerDy := s.pointerDy + dy }
  | .storeCaptured captured => { s with pointerCaptured := captured }
  | .clearDx => { s with pointerDx := 0 }
  | .clearDy => { s with pointerDy := 0 }

/-- What the value that was loaded makes the call go on with. -/
def more (s : DesktopInputState) : UiStep → List UiStep
  | .loadCaptured dx dy => if s.pointerCaptured then [.fetchAddDx dx, .fetchAddDy dy] else []
  | _ => []

end UiStep

namespace UiOperation

def setPointerCapturedSteps (captured : Bool) : List UiStep :=
  .storeCaptured captured :: if captured then [] else [.clearDx, .clearDy]

def steps : UiOperation → List UiStep
  | .setKey virtualKey down =>
    let mask : UInt64 := 1 <<< UInt64.ofNat (virtualKey.toNat % 64)
    let word : Fin 4 := .ofNat 4 (virtualKey.toNat / 64)
    [if down then .fetchOrKey word mask else .fetchAndKey word (~~~ mask)]
  | .setMouseButton button down =>
    [if down then .fetchOrButtons (buttonBit button) else .fetchAndButtons (~~~ buttonBit button)]
  | .addPointerTravel dx dy => [.loadCaptured dx dy]
  | .setPointerCaptured captured => setPointerCapturedSteps captured
  | .releaseAll =>
    [.clearKey 0, .clearKey 1, .clearKey 2, .clearKey 3, .clearButtons] ++
      setPointerCapturedSteps false

end UiOperation

/-! ## The threads -/

structure TakingSnapshot where
  /-- How many snapshots had begun before it. -/
  number : Nat
  done : List SnapshotRead := []
  reads : List SnapshotRead := snapshotReads
  snapshot : DesktopSnapshot := {}
  points : List DesktopInputState
  overtaken : Bool := false
  deriving DecidableEq, Repr

structure DesktopInput where
  shared : DesktopInputState := {}
  ui : List UiStep := []
  taking : List TakingSnapshot := []
  completed : List TakingSnapshot := []
  deriving DecidableEq, Repr

inductive DesktopEvent where
  /-- The UI thread calls, and does the call's first atomic operation. -/
  | start (operation : UiOperation)
  | resume
  | beginSnapshot
  /-- The next atomic operation of a snapshot. -/
  | read (index : Nat)
  deriving DecidableEq, Repr

/-- What a snapshot has seen of a step of any thread. -/
def TakingSnapshot.observe (ui : List UiStep) (s s' : DesktopInputState) (t : TakingSnapshot) :
    TakingSnapshot :=
  { t with
    points := if ui = [] then s' :: t.points else t.points
    overtaken := t.overtaken || t.done.any fun r => ¬ r.Same s s' }

/-- The snapshot after its next read. -/
def TakingSnapshot.next (s : DesktopInputState) (t : TakingSnapshot) (r : SnapshotRead)
    (reads : List SnapshotRead) : TakingSnapshot :=
  { t with done := t.done ++ [r], reads := reads, snapshot := r.report s t.snapshot }

namespace DesktopInput

/-- The step's new state; snapshots with nothing left to read return. -/
def advance (s : DesktopInput) (taking : List TakingSnapshot) (shared : DesktopInputState)
    (ui : List UiStep) : DesktopInput :=
  let observed := taking.map (TakingSnapshot.observe ui s.shared shared)
  { shared := shared
    ui := ui
    taking := observed.filter (·.reads ≠ [])
    completed := observed.filter (·.reads = []) ++ s.completed }

def runUi (s : DesktopInput) (u : UiStep) (rest : List UiStep) : DesktopInput :=
  s.advance s.taking (u.run s.shared) (u.more s.shared ++ rest)

def step (s : DesktopInput) (event : DesktopEvent) : Option DesktopInput :=
  match event with
  | .start operation =>
    match s.ui, operation.steps with
    | [], u :: rest => some (s.runUi u rest)
    | _, _ => none
  | .resume =>
    match s.ui with
    | u :: rest => some (s.runUi u rest)
    | [] => none
  | .beginSnapshot =>
    some { s with taking := s.taking ++ [{
      number := s.taking.length + s.completed.length
      points := if s.ui = [] then [s.shared] else [] }] }
  | .read index =>
    match s.taking[index]? with
    | none => none
    | some t =>
      match t.reads with
      | [] => none
      | r :: reads =>
        some (s.advance (s.taking.set index (t.next s.shared r reads)) (r.after s.shared) s.ui)

end DesktopInput

end X360Port
