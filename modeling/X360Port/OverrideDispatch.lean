import X360Port.GuestCall
import X360Port.Validation

/-!
# Override dispatch

The table of native overrides. An entry lives in a map node, and Xenia's
redirect at its address keeps a pointer to that node as its callback data.
`accepted` is Xenia's answer to a redirect operation; a refused one changes
nothing on its side.
-/

namespace X360Port

/-- A title's override, known by its entry. -/
structure NativeOverrideHandler where
  entry : Nat
  deriving DecidableEq, Repr

structure OverrideEntry where
  node : Nat
  address : GuestAddress
  handler : NativeOverrideHandler
  context : Pointer
  deriving DecidableEq, Repr

structure OverrideDispatch where
  /-- The processor, the owner and the counters are there. -/
  bound : Bool := false
  entries : List OverrideEntry := []
  nextNode : Nat := 0
  redirects : List (GuestAddress × Nat) := []
  deriving DecidableEq, Repr

namespace OverrideDispatch

def bind (s : OverrideDispatch) : OverrideDispatch := { s with bound := true }

def find (s : OverrideDispatch) (address : GuestAddress) : Option OverrideEntry :=
  s.entries.find? (·.address = address)

def install (s : OverrideDispatch) (address : GuestAddress) (handler : Option NativeOverrideHandler)
    (context : Pointer) (code : CodeRange) (accepted : Bool) : OverrideDispatch × RuntimeFailure :=
  if ¬ s.bound then
    (s, ⟨.loadStateInvalid, "native override dispatch requires an initialized runtime"⟩)
  else
    match handler with
    | none => (s, ⟨.overrideInvalid, "native override handler must not be null"⟩)
    | some handler =>
      if ¬ isInside address code then
        (s, ⟨.entryOutsideCode, "native override address is outside the authenticated code range"⟩)
      else if (s.find address).isSome then
        (s, ⟨.overrideAlreadyInstalled,
          "a native override is already installed at this guest address"⟩)
      else
        let node := s.nextNode
        let s := { s with nextNode := node + 1 }
        if ¬ accepted then
          (s, ⟨.overrideDispatchFailed,
            "Xenia could not install the native guest-call redirect"⟩)
        else
          ({ s with
              entries := ⟨node, address, handler, context⟩ :: s.entries
              redirects := (address, node) :: s.redirects }, {})

def remove (s : OverrideDispatch) (address : GuestAddress) (accepted : Bool) :
    OverrideDispatch × RuntimeFailure :=
  if (s.find address).isNone then
    (s, ⟨.overrideNotInstalled, "no native override is installed at this guest address"⟩)
  else if ¬ accepted then
    (s, ⟨.overrideDispatchFailed, "Xenia could not remove the native guest-call redirect"⟩)
  else
    ({ s with
        entries := s.entries.filter (·.address ≠ address)
        redirects := s.redirects.filter (·.1 ≠ address) }, {})

/-- A bound table never answers that there is nothing to install into. -/
theorem install_bound {s : OverrideDispatch} (h : s.bound = true) (address : GuestAddress)
    (handler : Option NativeOverrideHandler) (context : Pointer) (code : CodeRange)
    (accepted : Bool) :
    (s.install address handler context code accepted).2.error ≠ .loadStateInvalid := by
  unfold install
  rw [if_neg (not_not_intro h)]
  cases handler with
  | none => exact RuntimeError.noConfusion
  | some handler =>
    simp only
    split
    · exact RuntimeError.noConfusion
    split
    · exact RuntimeError.noConfusion
    split
    · exact RuntimeError.noConfusion
    · exact RuntimeError.noConfusion

end OverrideDispatch

end X360Port
