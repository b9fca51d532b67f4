import Mathlib.Algebra.Group.Prod
import Mathlib.Tactic.Abel
import X360Port.Library.Machine

/-!
# The captured pointer

`DesktopInputCapture` turns the positions of motion events into travel, and asks
the display to warp the pointer back to the centre once it is far from it. A
`CapturedPointer` is the capture together with the display: the pointer's
position, the events that are on their way and the warps that the display has
yet to carry out, in order. Positions are in the frame of the surface.

The frame that an event was made in is the display's at that time, the frame of
the last position the capture's. `Accounted` says by how much they differ.
-/

namespace X360Port

open Library

structure Surface where
  width : Int
  height : Int
  deriving DecidableEq, Repr

def kRecentreDivisor : Int := 4

namespace Surface

def centre (surface : Surface) : Int × Int := (surface.width.tdiv 2, surface.height.tdiv 2)

/-- No need to recentre the pointer. -/
def Near (surface : Surface) (last : Int × Int) : Prop :=
  ((last.1 - surface.centre.1).natAbs : Int) < surface.width.tdiv kRecentreDivisor ∧
    ((last.2 - surface.centre.2).natAbs : Int) < surface.height.tdiv kRecentreDivisor

instance Near.decidable (surface : Surface) (last : Int × Int) : Decidable (surface.Near last) :=
  inferInstanceAs (Decidable (_ ∧ _))

end Surface

structure DesktopInputCapture where
  captured : Bool := false
  haveLast : Bool := false
  last : Int × Int := (0, 0)
  deriving DecidableEq, Repr

/-- What a motion event makes the capture do. -/
structure MouseMove where
  capture : DesktopInputCapture
  /-- The call of `AddPointerTravel`. -/
  travel : Option (Int × Int) := none
  warp : Option (Int × Int) := none
  deriving DecidableEq, Repr

namespace DesktopInputCapture

/-- `Capture`, once the desktop has granted the grab. -/
def capture (c : DesktopInputCapture) : DesktopInputCapture :=
  { c with captured := true, haveLast := false }

/-- The capture, and where the pointer is to be warped to. -/
def recentre (surface : Surface) (c : DesktopInputCapture) :
    DesktopInputCapture × Option (Int × Int) :=
  if surface.Near c.last then (c, none)
  else ({ c with last := surface.centre }, some surface.centre)

def onMouseMove (surface : Surface) (c : DesktopInputCapture) (event : Int × Int) : MouseMove :=
  if ¬ c.captured then { capture := c }
  else
    let travel := if c.haveLast then some (event - c.last) else none
    let (capture, warp) := recentre surface { c with last := event, haveLast := true }
    { capture, travel, warp }

end DesktopInputCapture

/-! ## The display -/

structure Warp where
  target : Int × Int
  /-- History: the position in the event that asked for the warp. -/
  trigger : Int × Int
  deriving DecidableEq, Repr

/-- History: all motions of this capture, latest first, and how far warps have found the pointer
from where their events had. -/
structure CapturedPointer where
  capture : DesktopInputCapture
  position : Int × Int
  events : List (Int × Int) := []
  warps : List Warp := []
  travels : List (Int × Int) := []
  motions : List (Int × Int) := []
  displaced : Int × Int := 0
  deriving DecidableEq, Repr

inductive PointerEvent where
  | move (motion : Int × Int)
  /-- The display carries out the next warp. -/
  | warp
  /-- The next event reaches the window. -/
  | deliver
  deriving DecidableEq, Repr

namespace CapturedPointer

/-- The motions since the one in the first event. -/
def moved (p : CapturedPointer) : Int × Int := p.motions.dropLast.sum

def Delivered (p : CapturedPointer) : Prop := p.events = [] ∧ p.warps = []

def step (surface : Surface) (p : CapturedPointer) (event : PointerEvent) :
    Option CapturedPointer :=
  match event with
  | .move motion =>
    some { p with
      position := p.position + motion
      events := p.events ++ [p.position + motion]
      motions := motion :: p.motions }
  | .warp =>
    match p.warps with
    | [] => none
    | w :: warps =>
      some { p with
        position := w.target
        events := p.events ++ [w.target]
        warps := warps
        displaced := p.displaced + (p.position - w.trigger) }
  | .deliver =>
    match p.events with
    | [] => none
    | e :: events =>
      let m := p.capture.onMouseMove surface e
      some { p with
        capture := m.capture
        events := events
        warps := p.warps ++ (m.warp.map fun target => { target, trigger := e }).toList
        travels := p.travels ++ m.travel.toList }

/-- A warp catches the pointer where the event that asked for it had found it. -/
def Caught (p : CapturedPointer) : PointerEvent → Prop
  | .warp => ∀ w ∈ p.warps.head?, p.position = w.trigger
  | _ => True

instance Caught.decidable (p : CapturedPointer) (event : PointerEvent) :
    Decidable (p.Caught event) := by
  cases event with
  | warp => exact inferInstanceAs (Decidable (∀ w ∈ p.warps.head?, p.position = w.trigger))
  | _ => exact .isTrue trivial

end CapturedPointer

/-! ## One step -/

/-- What the warps on their way will move the pointer back by, from where their events had found
it. -/
def shift (warps : List Warp) : Int × Int := (warps.map fun w => w.trigger - w.target).sum

/-- The books of a captured pointer. -/
structure Accounted (p : CapturedPointer) : Prop where
  captured : p.capture.captured = true
  inFlight : ∀ e ∈ p.events.getLast?, e = p.position
  caughtUp : p.capture.haveLast = true → p.Delivered → p.capture.last = p.position
  /-- Before the first event. -/
  unseen : p.capture.haveLast = false →
    p.warps = [] ∧ p.travels = [] ∧ p.displaced = 0 ∧
      (∀ e ∈ p.events.head?, p.motions ≠ [] ∧ p.moved = p.position - e) ∧
      (p.events = [] → p.motions = [])
  seen : p.capture.haveLast = true → p.motions ≠ [] ∧
    p.moved + shift p.warps = p.travels.sum + (p.position - p.capture.last) + p.displaced

section

variable {surface : Surface} {p p' : CapturedPointer} {event : PointerEvent}

theorem accounted_captured (c : DesktopInputCapture) (position : Int × Int) :
    Accounted { capture := c.capture, position } where
  captured := rfl
  inFlight _ he := nomatch he
  caughtUp h := nomatch h
  unseen _ := ⟨rfl, rfl, rfl, fun _ he => absurd he (by simp), fun _ => rfl⟩
  seen h := nomatch h

theorem moved_cons {motion : Int × Int} {motions : List (Int × Int)} (h : motions ≠ []) :
    (motion :: motions).dropLast.sum = motion + motions.dropLast.sum := by
  rw [List.dropLast_cons_of_ne_nil h, List.sum_cons]

theorem Accounted.move (h : Accounted p) (motion : Int × Int) :
    Accounted { p with
      position := p.position + motion
      events := p.events ++ [p.position + motion]
      motions := motion :: p.motions } where
  captured := h.captured
  inFlight e he := by
    rw [List.getLast?_concat] at he
    exact (Option.some.inj he).symm
  caughtUp _ hd := absurd hd.1 (by simp)
  unseen hnot := by
    obtain ⟨hwarps, htravels, hdisplaced, hhead, hnone⟩ := h.unseen hnot
    refine ⟨hwarps, htravels, hdisplaced, fun e he => ⟨List.cons_ne_nil _ _, ?_⟩, by simp⟩
    show (motion :: p.motions).dropLast.sum = _
    cases hevents : p.events with
    | nil =>
      rw [hevents, List.nil_append] at he
      rw [hnone hevents, ← Option.some.inj he]
      simp
    | cons e' events =>
      rw [hevents] at he hhead
      obtain ⟨hmotions, hmoved⟩ := hhead e he
      rw [CapturedPointer.moved] at hmoved
      show _ = p.position + motion - e
      rw [moved_cons hmotions, hmoved]
      abel
  seen hlast := by
    obtain ⟨hmotions, hsum⟩ := h.seen hlast
    refine ⟨List.cons_ne_nil _ _, ?_⟩
    rw [CapturedPointer.moved] at hsum
    show (motion :: p.motions).dropLast.sum + shift p.warps =
      p.travels.sum + (p.position + motion - p.capture.last) + p.displaced
    rw [moved_cons hmotions, add_assoc, hsum]
    abel

theorem shift_cons (w : Warp) (warps : List Warp) :
    shift (w :: warps) = w.trigger - w.target + shift warps := by
  rw [shift, List.map_cons, List.sum_cons, shift]

theorem Accounted.warp {w : Warp} {warps : List Warp} (h : Accounted p)
    (hw : p.warps = w :: warps) :
    Accounted { p with
      position := w.target
      events := p.events ++ [w.target]
      warps := warps
      displaced := p.displaced + (p.position - w.trigger) } where
  captured := h.captured
  inFlight e he := by
    rw [List.getLast?_concat] at he
    exact (Option.some.inj he).symm
  caughtUp _ hd := absurd hd.1 (by simp)
  unseen hnot := by
    have hnone := (h.unseen hnot).1
    rw [hw] at hnone
    cases hnone
  seen hlast := by
    obtain ⟨hmotions, hsum⟩ := h.seen hlast
    refine ⟨hmotions, ?_⟩
    rw [hw, shift_cons] at hsum
    have hmoved : p.moved + shift warps = p.travels.sum + (p.position - p.capture.last) +
        p.displaced - (w.trigger - w.target) := by
      rw [← hsum]
      abel
    show p.moved + shift warps =
      p.travels.sum + (w.target - p.capture.last) + (p.displaced + (p.position - w.trigger))
    rw [hmoved]
    abel

/-- What a delivered event does to a captured pointer: the last position becomes the event's or,
with a warp, the one that the warp goes to. -/
theorem deliver_cases {e : Int × Int} {events : List (Int × Int)}
    (hc : p.capture.captured = true) (he : p.events = e :: events)
    (hs : p.step surface .deliver = some p') :
    ∃ last warps, p' = { p with
        capture := { p.capture with last := last, haveLast := true }
        events := events
        warps := p.warps ++ warps
        travels := p.travels ++ if p.capture.haveLast then [e - p.capture.last] else [] } ∧
      shift warps = e - last ∧ (warps = [] → last = e) := by
  simp only [CapturedPointer.step, he, DesktopInputCapture.onMouseMove, hc, not_true_eq_false,
    if_false, DesktopInputCapture.recentre, Option.some.injEq] at hs
  subst hs
  by_cases hnear : surface.Near e
  · refine ⟨e, [], ?_, by simp [shift], fun _ => rfl⟩
    rw [if_pos hnear]
    cases p.capture.haveLast <;> simp [hc]
  · refine ⟨surface.centre, [{ target := surface.centre, trigger := e }], ?_, by simp [shift],
      nofun⟩
    rw [if_neg hnear]
    cases p.capture.haveLast <;> simp [hc]

theorem shift_append (warps warps' : List Warp) :
    shift (warps ++ warps') = shift warps + shift warps' := by
  rw [shift, List.map_append, List.sum_append, shift, shift]

theorem Accounted.deliver {e : Int × Int} {events : List (Int × Int)} (h : Accounted p)
    (he : p.events = e :: events) (hs : p.step surface .deliver = some p') : Accounted p' := by
  obtain ⟨last, warps, rfl, hshift, hnone⟩ := deliver_cases h.captured he hs
  have hinFlight := h.inFlight
  rw [he] at hinFlight
  refine ⟨h.captured, fun e' he' => ?_, fun _ hd => ?_, (nomatch ·), fun _ => ?_⟩
  · refine hinFlight e' ?_
    rw [List.getLast?_cons, he']
    rfl
  · obtain ⟨hevents, hwarps⟩ := hd
    rw [show events = [] from hevents] at hinFlight
    exact (hnone (List.append_eq_nil_iff.1 hwarps).2).trans (hinFlight e rfl)
  · cases hlast : p.capture.haveLast with
    | false =>
      obtain ⟨hwarps, htravels, hdisplaced, hhead, -⟩ := h.unseen hlast
      obtain ⟨hmotions, hmoved⟩ := hhead e (by rw [he]; rfl)
      refine ⟨hmotions, ?_⟩
      show p.moved + shift (p.warps ++ warps) =
        (p.travels ++ []).sum + (p.position - last) + p.displaced
      rw [hmoved, hwarps, htravels, hdisplaced, List.nil_append, hshift]
      simp
    | true =>
      obtain ⟨hmotions, hsum⟩ := h.seen hlast
      refine ⟨hmotions, ?_⟩
      show p.moved + shift (p.warps ++ warps) =
        (p.travels ++ [e - p.capture.last]).sum + (p.position - last) + p.displaced
      rw [shift_append, ← add_assoc, hsum, hshift, List.sum_append, List.sum_singleton]
      abel

/-- **What one step keeps.** -/
theorem Accounted.step (h : Accounted p) (hs : p.step surface event = some p') : Accounted p' := by
  cases event with
  | move motion =>
    cases hs
    exact h.move motion
  | warp =>
    cases hw : p.warps with
    | nil => simp [CapturedPointer.step, hw] at hs
    | cons w warps =>
      simp only [CapturedPointer.step, hw, Option.some.injEq] at hs
      subst hs
      exact h.warp hw
  | deliver =>
    cases he : p.events with
    | nil => simp [CapturedPointer.step, he] at hs
    | cons e events => exact h.deliver he hs

/-- Once everything is delivered, the travel differs from the motions by what the warps
displaced. -/
theorem Accounted.moved_eq (h : Accounted p) (hd : p.Delivered) :
    p.moved = p.travels.sum + p.displaced := by
  cases hlast : p.capture.haveLast with
  | false =>
    obtain ⟨-, htravels, hdisplaced, -, hmotions⟩ := h.unseen hlast
    rw [CapturedPointer.moved, hmotions hd.1, htravels, hdisplaced]
    rfl
  | true =>
    have hsum := (h.seen hlast).2
    rw [hd.2, h.caughtUp hlast hd, sub_self, add_zero] at hsum
    exact (add_zero p.moved).symm.trans hsum

/-- Warps that catch the pointer where it was displace nothing. -/
theorem displaced_step (h : p.displaced = 0) (hc : p.Caught event)
    (hs : p.step surface event = some p') : p'.displaced = 0 := by
  cases event with
  | move motion =>
    cases hs
    exact h
  | warp =>
    cases hw : p.warps with
    | nil => simp [CapturedPointer.step, hw] at hs
    | cons w warps =>
      have hcaught : p.position = w.trigger := hc w (by rw [hw]; rfl)
      simp only [CapturedPointer.step, hw, Option.some.injEq] at hs
      subst hs
      show p.displaced + (p.position - w.trigger) = 0
      rw [h, hcaught, sub_self, add_zero]
  | deliver =>
    cases he : p.events with
    | nil => simp [CapturedPointer.step, he] at hs
    | cons e events =>
      simp only [CapturedPointer.step, he, Option.some.injEq] at hs
      subst hs
      exact h

end

/-! ## Runs -/

section

variable (surface : Surface) (c : DesktopInputCapture) (position : Int × Int)

/-- **Main result.** Once all events of a capture are delivered, the travel that was passed on is
the pointer's, on both axes, exactly when the warps' displacements cancel out; and so it is where
every warp catches the pointer where its event had found it. -/
theorem play_travel_eq_iff (events : List PointerEvent) (p : CapturedPointer)
    (h : play (CapturedPointer.step surface) { capture := c.capture, position } events = some p)
    (hd : p.Delivered) :
    (p.travels.sum = p.moved ↔ p.displaced = 0) ∧
      (EveryStep (CapturedPointer.step surface) CapturedPointer.Caught
        { capture := c.capture, position } events → p.travels.sum = p.moved) := by
  have haccounted := play_invariant (P := Accounted) (fun _ _ _ h hs => h.step hs)
    (accounted_captured c position) h
  have hiff : p.travels.sum = p.moved ↔ p.displaced = 0 := by
    rw [haccounted.moved_eq hd, left_eq_add]
  refine ⟨hiff, fun hcaught => hiff.2 ?_⟩
  exact play_invariant_where (P := fun p : CapturedPointer => p.displaced = 0)
    (fun _ _ _ h hc hs => displaced_step h hc hs) rfl hcaught h

end

/-- A slow flick: the warp comes before the next motion. -/
def slowFlick : List PointerEvent :=
  [.move (5, 0), .deliver, .move (30, -2), .deliver, .warp, .deliver]

theorem play_travel_eq_iff_slowFlick : ∃ p,
    play (CapturedPointer.step { width := 100, height := 80 })
        { capture := DesktopInputCapture.capture {}, position := (50, 40) } slowFlick = some p ∧
      p.capture.last = (50, 40) ∧ p.travels.sum = p.moved := by
  have h := play_travel_eq_iff { width := 100, height := 80 } {} (50, 40) slowFlick _ rfl ⟨rfl, rfl⟩
  exact ⟨_, rfl, rfl, h.2 (by decide)⟩

/-- The pointer moves on by one pixel before it is warped: 31 pixels are passed on as 61. -/
theorem not_travel_eq_fastFlick : ¬ ∀ (surface : Surface) (c : DesktopInputCapture)
    (position : Int × Int) (events : List PointerEvent) (p : CapturedPointer),
    play (CapturedPointer.step surface) { capture := c.capture, position } events = some p →
    p.Delivered → p.travels.sum = p.moved := by
  intro hall
  have h := hall { width := 100, height := 100 } {} (45, 50) [.move (5, 0), .deliver, .move (30, 0),
    .move (1, 0), .deliver, .deliver, .warp, .warp, .deliver, .deliver] _ rfl ⟨rfl, rfl⟩
  exact absurd h (by decide)

end X360Port
