import X360Port.SystemSession.Accepted

/-!
# The overrides that a session serves

A title is activated once its overrides are installed, but a refused title
leaves those that came before the refusal. `Stocked` is what holds of the
dispatch in between: it serves overrides of the configuration and no others, and
once it serves all of them (`Serves`) no later title changes it.
-/

namespace X360Port

open Library

/-- What the override of an address is called with. -/
def overrideCall (overrides : List SystemOverride) (address : GuestAddress)
    (arguments : List UInt64) : Option HandlerCall :=
  (overrides.find? (·.address = address)).bind fun entry => entry.handler.map fun handler =>
    ⟨handler, address, arguments, entry.context⟩

theorem overrideCall_cons (entry : SystemOverride) (overrides : List SystemOverride)
    (address : GuestAddress) (arguments : List UInt64) :
    overrideCall (entry :: overrides) address arguments =
      if entry.address = address then
        entry.handler.map fun handler => ⟨handler, address, arguments, entry.context⟩
      else overrideCall overrides address arguments := by
  unfold overrideCall
  rw [List.find?_cons]
  by_cases h : entry.address = address <;> simp [h]

/-- A call is with the address and the arguments that it was made at and with. -/
theorem overrideCall_eq_some {overrides : List SystemOverride} {address : GuestAddress}
    {arguments : List UInt64} {call : HandlerCall}
    (h : overrideCall overrides address arguments = some call) :
    call.address = address ∧ call.arguments = arguments := by
  obtain ⟨entry, -, hentry⟩ := Option.bind_eq_some_iff.1 h
  obtain ⟨handler, -, rfl⟩ := Option.map_eq_some_iff.1 hentry
  exact ⟨rfl, rfl⟩

theorem overrideCall_eq_none {overrides : List SystemOverride} {address : GuestAddress}
    (h : ∀ entry ∈ overrides, entry.address ≠ address) (arguments : List UInt64) :
    overrideCall overrides address arguments = none := by
  have hfind : overrides.find? (·.address = address) = none := by simpa using h
  rw [overrideCall, hfind]
  rfl

namespace OverrideDispatch

/-- A guest call at an address gets the override that the list has there. -/
def Serves (overrides : List SystemOverride) (s : OverrideDispatch) : Prop :=
  ∀ address arguments, s.dispatchGuest address arguments = overrideCall overrides address arguments

/-- The tables of a session, whatever titles it has refused. -/
structure Stocked (overrides : List SystemOverride) (s : OverrideDispatch) : Prop where
  bound : s.bound = true
  linked : s.Linked
  listed : ∀ e ∈ s.entries, ∃ entry ∈ overrides, entry.address = e.address

section

variable {s : OverrideDispatch} {overrides entries : List SystemOverride} {title : LoadedTitle}
  {code : CodeRange}

theorem dispatchGuest_congr {s' : OverrideDispatch} (hentries : s'.entries = s.entries)
    (hredirects : s'.redirects = s.redirects) (address : GuestAddress) (arguments : List UInt64) :
    s'.dispatchGuest address arguments = s.dispatchGuest address arguments := by
  unfold dispatchGuest entryAt
  rw [hentries, hredirects]

theorem dispatchHost_eq_none_iff {address : GuestAddress} {arguments : List UInt64} :
    s.dispatchHost address arguments = none ↔ s.find address = none := Option.map_eq_none_iff

/-- A table without an entry serves nothing. -/
theorem dispatchHost_of_entries_nil (h : s.entries = []) (address : GuestAddress)
    (arguments : List UInt64) : s.dispatchHost address arguments = none := by
  rw [dispatchHost_eq_none_iff, find, h]
  rfl

/-- An installed override answers at its own address; the others stay as they are. -/
theorem dispatchHost_install {address : GuestAddress} {handler : Option NativeOverrideHandler}
    {context : Pointer} {accepted : Bool}
    (h : (s.install address handler context code accepted).2.Ok) (address' : GuestAddress)
    (arguments : List UInt64) :
    (s.install address handler context code accepted).1.dispatchHost address' arguments =
      if address = address' then
        handler.map fun target => ⟨target, address', arguments, context⟩
      else s.dispatchHost address' arguments := by
  unfold install at h ⊢
  split at h
  · cases h
  next hbound =>
  rw [if_neg hbound]
  cases handler with
  | none => cases h
  | some target =>
    simp only at h ⊢
    split at h
    · cases h
    next hinside =>
    rw [if_neg hinside]
    split at h
    · cases h
    next hfind =>
    rw [if_neg hfind]
    split at h
    · cases h
    next haccepted =>
    rw [if_neg haccepted]
    unfold dispatchHost find
    rw [List.find?_cons]
    by_cases heq : address = address'
    · simp [heq]
    · simp [heq]

/-! ## Activation -/

theorem Stocked.install (h : s.Stocked overrides) {entry : SystemOverride}
    (hentry : entry ∈ overrides) (accepted : Bool) :
    (s.install entry.address entry.handler entry.context code accepted).1.Stocked overrides := by
  have hlinked := h.linked.install entry.address entry.handler entry.context code accepted
  rcases s.install_cases entry.address entry.handler entry.context code accepted with
    ⟨-, nextNode, -, hkept⟩ | ⟨-, target, hadded⟩
  · rw [hkept] at hlinked ⊢
    exact ⟨h.bound, hlinked, h.listed⟩
  · rw [hadded] at hlinked ⊢
    refine ⟨h.bound, hlinked, fun e he => ?_⟩
    rcases List.mem_cons.1 he with rfl | he
    · exact ⟨entry, hentry, rfl⟩
    · exact h.listed e he

theorem Stocked.installOverrides (h : s.Stocked overrides) (hentries : entries ⊆ overrides) :
    (SystemSession.installOverrides title code s entries).1.Stocked overrides := by
  induction entries generalizing s with
  | nil => exact h
  | cons entry entries ih =>
    obtain ⟨hentry, hrest⟩ := List.cons_subset.1 hentries
    have hone : (s.install entry.address entry.handler entry.context code
        (title.accepts entry.address)).1.Stocked overrides := h.install hentry _
    simp only [SystemSession.installOverrides]
    split
    · exact ih hone hrest
    · exact hone

/-- Overrides that were all installed answer, in front of what was there. -/
theorem dispatchHost_installOverrides
    (h : (SystemSession.installOverrides title code s entries).2.Ok)
    (hnodup : (entries.map (·.address)).Nodup) (address : GuestAddress) (arguments : List UInt64) :
    (SystemSession.installOverrides title code s entries).1.dispatchHost address arguments =
      (overrideCall entries address arguments).or (s.dispatchHost address arguments) := by
  induction entries generalizing s with
  | nil => rfl
  | cons entry entries ih =>
    rw [List.map_cons, List.nodup_cons] at hnodup
    obtain ⟨hnew, hnodup⟩ := hnodup
    simp only [SystemSession.installOverrides] at h ⊢
    split at h
    · next hone =>
      rw [if_pos hone, ih h hnodup, dispatchHost_install hone, overrideCall_cons]
      by_cases heq : entry.address = address
      · have hrest : overrideCall entries address arguments = none := by
          refine overrideCall_eq_none (fun other hother hsame => hnew ?_) arguments
          exact List.mem_map.2 ⟨other, hother, hsame.trans heq.symm⟩
        have hhandler : entry.handler ≠ none := by
          intro hnone
          unfold install at hone
          rw [hnone] at hone
          split at hone
          · cases hone
          · cases hone
        obtain ⟨target, htarget⟩ := Option.ne_none_iff_exists'.1 hhandler
        rw [if_pos heq, if_pos heq, hrest, htarget]
        rfl
      · rw [if_neg heq, if_neg heq]
    · exact absurd h (by assumption)

/-- A session that serves every override takes no other title's. -/
theorem Serves.installOverrides (h : s.Serves overrides) (hs : s.Stocked overrides) :
    (SystemSession.installOverrides title code s overrides).1.Serves overrides := by
  cases overrides with
  | nil => exact h
  | cons entry entries =>
    have hrefused : ¬ (s.install entry.address entry.handler entry.context code
        (title.accepts entry.address)).2.Ok := by
      intro hok
      obtain ⟨hinstallable, hfree⟩ := (install_ok_iff hs.bound entry).1 hok
      have hserved := h entry.address []
      rw [hs.linked.dispatchGuest_eq, dispatchHost_eq_none_iff.2 hfree, overrideCall_cons,
        if_pos rfl] at hserved
      exact hinstallable.handler (Option.map_eq_none_iff.1 hserved.symm)
    obtain ⟨hentries, hredirects⟩ := call_refused
      (.install entry.address entry.handler entry.context code (title.accepts entry.address))
      hrefused
    simp only [SystemSession.installOverrides, if_neg hrefused]
    exact fun address arguments =>
      (dispatchGuest_congr hentries hredirects address arguments).trans (h address arguments)

/-- The session serves the overrides of the title that it has just installed all of. -/
theorem Stocked.serves (h : s.Stocked overrides)
    (hok : (SystemSession.installOverrides title code s overrides).2.Ok) :
    (SystemSession.installOverrides title code s overrides).1.Serves overrides := by
  obtain ⟨hall, hnodup⟩ := (installOverrides_ok_iff overrides h.bound).1 hok
  have hempty : s.entries = [] := by
    -- what an earlier title left would have been in the way
    apply List.eq_nil_iff_forall_not_mem.2
    intro e he
    obtain ⟨entry, hentry, haddress⟩ := h.listed e he
    exact find_eq_none_iff.1 (hall entry hentry).2 e he haddress.symm
  intro address arguments
  have hlinked : (SystemSession.installOverrides title code s overrides).1.Linked :=
    (h.installOverrides (List.Subset.refl overrides)).linked
  rw [hlinked.dispatchGuest_eq, dispatchHost_installOverrides hok hnodup,
    dispatchHost_of_entries_nil hempty, Option.or_none]

end

end OverrideDispatch

namespace SystemSession

section

variable {s : SystemSession} {title : LoadedTitle}

/-- `ActivateTitle` installs in the title's own code, or not at all. -/
theorem activateTitle_cases (s : SystemSession) (title : LoadedTitle) :
    (¬ (s.activateTitle title).2.Ok ∧ (s.activateTitle title).1 = s.overrides) ∨
    ∃ code, title.titleId = s.config.expectedTitleId ∧ title.text = some code ∧ code.size ≠ 0 ∧
      s.activateTitle title = installOverrides title code s.overrides s.config.overrides := by
  unfold activateTitle
  split
  · exact .inl ⟨RuntimeError.noConfusion, rfl⟩
  next hidentity =>
  rw [not_not] at hidentity
  cases htext : title.text with
  | none => exact .inl ⟨RuntimeError.noConfusion, rfl⟩
  | some code =>
    by_cases hsize : code.size = 0
    · rw [Option.filter_some, if_neg (by simpa using hsize)]
      exact .inl ⟨RuntimeError.noConfusion, rfl⟩
    · rw [Option.filter_some, if_pos (by simpa using hsize)]
      exact .inr ⟨code, hidentity, rfl, hsize, rfl⟩

theorem activateTitle_stocked (h : s.overrides.Stocked s.config.overrides) :
    (s.activateTitle title).1.Stocked s.config.overrides := by
  rcases s.activateTitle_cases title with ⟨-, hkept⟩ | ⟨code, -, -, -, hinstalls⟩
  · rwa [hkept]
  · rw [hinstalls]
    exact h.installOverrides (List.Subset.refl _)

/-- Whatever a later title is, a session that serves its overrides goes on doing so. -/
theorem activateTitle_keeps (h : s.overrides.Stocked s.config.overrides)
    (hserves : s.overrides.Serves s.config.overrides) :
    (s.activateTitle title).1.Serves s.config.overrides := by
  rcases s.activateTitle_cases title with ⟨-, hkept⟩ | ⟨code, -, -, -, hinstalls⟩
  · rwa [hkept]
  · rw [hinstalls]
    exact hserves.installOverrides h

/-- **Activation.** A title that is not refused is the expected one, with all its overrides in its
code, and the session serves them. -/
theorem activateTitle_accepted (h : s.overrides.Stocked s.config.overrides)
    (hok : (s.activateTitle title).2.Ok) :
    title.Accepted s.config ∧ (s.activateTitle title).1.Serves s.config.overrides := by
  rcases s.activateTitle_cases title with ⟨hrefused, -⟩ | ⟨code, hidentity, htext, hsize, hinstalls⟩
  · exact absurd hok hrefused
  · rw [hinstalls] at hok ⊢
    obtain ⟨hall, hnodup⟩ := (installOverrides_ok_iff s.config.overrides h.bound).1 hok
    exact ⟨⟨hidentity, code, htext, hsize, fun entry hentry => (hall entry hentry).1, hnodup⟩,
      h.serves hok⟩

end

end SystemSession

end X360Port
