import X360Port.GuestExecution.Moves

/-!
# Bodies that a write made stale

An observed write marks the innermost scope only. The bodies outside it learn
of it through the handlers in between: `PassesOn` says that a handler does not
answer with a value after a call of its own has failed. Under it a failure
travels outwards over the stack, and `Tainted` follows it: above every stale
body lies a frame that knows of the failure.
-/

namespace X360Port

open Library

instance GuestEvent.decidableReturnsValue (event : GuestEvent) : Decidable event.ReturnsValue := by
  cases event <;> unfold GuestEvent.ReturnsValue <;> infer_instance

/-- What the running native code has received from its calls. -/
def receivedResults : List Frame → List ExecutionResult
  | .native _ received :: _ => received
  | _ => []

/-- Native code that answers with a value has received no failure. -/
def GuestThread.PassesOn (s : GuestThread) (event : GuestEvent) : Prop :=
  event.ReturnsValue → ∀ result ∈ receivedResults s.frames, result.Ok

instance GuestThread.decidablePassesOn (s : GuestThread) (event : GuestEvent) :
    Decidable (s.PassesOn event) := by
  unfold GuestThread.PassesOn; infer_instance

/-! ## What a move does to scopes -/

/-- A frame's scope is none of these. -/
def Frame.Outside (ids : List Nat) (frame : Frame) : Prop :=
  ∀ scope, frame.scope? = some scope → scope.id ∉ ids

/-- A frame that knows of a failure. -/
def Frame.Failing : Frame → Prop
  | .scope sc => sc.marks ≠ []
  | .native _ received => ∃ result ∈ received, ¬ result.Ok
  | .interpreter => False

/-- Above each of these scopes, or on it, lies a frame that knows of a failure. -/
def Tainted (ids : List Nat) : List Frame → Prop
  | [] => True
  | frame :: rest => frame.Failing ∨ frame.Outside ids ∧ Tainted ids rest

/-- Each of these scopes that is live has an exit event. -/
def Stopped (ids : List Nat) (frames : List Frame) : Prop :=
  ∀ scope ∈ scopesOf frames, scope.id ∈ ids → scope.marks ≠ []

theorem outside_of_scope? {ids : List Nat} {frame : Frame} (h : frame.scope? = none) :
    frame.Outside ids := by
  intro scope hs
  rw [h] at hs
  cases hs

section Tainted

variable {ids : List Nat} {frames rest : List Frame}

theorem Tainted.receive (h : Tainted ids frames) (result : ExecutionResult) :
    Tainted ids (X360Port.receive result frames) := by
  rcases frames with _ | ⟨_ | ⟨entry, received⟩ | _, rest⟩
  · exact h
  · exact h
  · rcases h with ⟨r, hm, hr⟩ | ⟨-, h⟩
    · exact .inl ⟨r, List.mem_cons_of_mem _ hm, hr⟩
    · exact .inr ⟨outside_of_scope? rfl, h⟩
  · exact h

/-- Native code that receives a failure knows of it. -/
theorem tainted_receive (hn : nativeRuns frames = true) {result : ExecutionResult}
    (hr : ¬ result.Ok) : Tainted ids (receive result frames) := by
  rcases frames with _ | ⟨_ | ⟨entry, received⟩ | _, rest⟩
  · trivial
  · cases hn
  · exact .inl ⟨result, List.mem_cons_self, hr⟩
  · cases hn

/-- A marked scope knows of it, and there is no scope above the innermost one. -/
theorem tainted_mark (event : ExitEvent) (frames : List Frame) :
    Tainted ids (modifyInnermost (Scope.mark event) frames) := by
  induction frames with
  | nil => trivial
  | cons frame rest ih =>
    cases frame with
    | scope scope =>
      left
      exact scope.mark_marks_ne_nil event
    | native entry received => exact .inr ⟨outside_of_scope? rfl, ih⟩
    | interpreter => exact .inr ⟨outside_of_scope? rfl, ih⟩

/-- A failure is passed on to the code that receives the answer. -/
theorem Tainted.pop {frame : Frame} (h : Tainted ids (frame :: rest))
    (hn : nativeRuns rest = true) {result : ExecutionResult}
    (hr : frame.Failing → ¬ result.Ok) : Tainted ids (X360Port.receive result rest) := by
  rcases h with hf | ⟨-, h⟩
  · exact tainted_receive hn (hr hf)
  · exact h.receive result

end Tainted

section Stopped

variable {ids : List Nat} {frames : List Frame}

theorem Stopped.of_scopesOf {frames' : List Frame} (h : Stopped ids frames)
    (hs : scopesOf frames' = scopesOf frames) : Stopped ids frames' := by
  unfold Stopped
  rw [hs]
  exact h

theorem Stopped.mark (h : Stopped ids frames) (event : ExitEvent) :
    Stopped ids (modifyInnermost (Scope.mark event) frames) := by
  intro scope hm hid
  rw [scopesOf_modifyInnermost] at hm
  cases hs : scopesOf frames with
  | nil =>
    rw [hs] at hm
    cases hm
  | cons sc outer =>
    rw [hs, List.modifyHead_cons] at hm
    rcases List.mem_cons.1 hm with rfl | hm
    · exact sc.mark_marks_ne_nil event
    · exact h scope (by rw [hs]; exact List.mem_cons_of_mem _ hm) hid

end Stopped

/-! ## Steps -/

/-- The scopes of these ids are older than the thread's next one, and those that have ended
had an exit event. -/
structure EndedStopped (ids : List Nat) (s : GuestThread) : Prop where
  old : ∀ id ∈ ids, id < s.nextScope
  stopped : ∀ e ∈ s.ended, e.id ∈ ids → e.marks ≠ []

section

variable {ids : List Nat} {s s' : GuestThread} {event : GuestEvent}

/-- A scope that ends on top of the stack must have an exit event, if it is one of these. -/
theorem Move.endedStopped (hm : Move s event s') (h : EndedStopped ids s)
    (htop : ∀ scope rest, s.frames = .scope scope :: rest → scope.id ∈ ids → scope.marks ≠ []) :
    EndedStopped ids s' := by
  induction hm with
  | aside registers statistics _ ih => exact ⟨ih.old, ih.stopped⟩
  | entered => exact ⟨fun id hid => Nat.lt_succ_of_lt (h.old id hid), h.stopped⟩
  | left scope rest executed hf =>
    refine ⟨h.old, fun e he hid => ?_⟩
    rcases List.mem_cons.1 he with rfl | he
    · exact htop scope rest hf hid
    · exact h.stopped e he hid
  | _ => exact ⟨h.old, h.stopped⟩

/-- An exit event stays. -/
theorem Move.stopped (hm : Move s event s') (he : EndedStopped ids s)
    (h : Stopped ids s.frames) : Stopped ids s'.frames := by
  induction hm with
  | still => exact h
  | aside registers statistics _ ih => exact ih
  | answered event result =>
    exact h.of_scopesOf (scopesOf_deliver s result)
  | entered =>
    intro scope hm hid
    rcases List.mem_cons.1 hm with rfl | hm
    · exact absurd (he.old _ hid) (Nat.lt_irrefl _)
    · exact h scope hm hid
  | pushed event frame hf =>
    exact h.of_scopesOf (List.filterMap_cons_none hf)
  | marked event exit => exact h.mark exit
  | counted scope rest hf =>
    rw [hf] at h
    intro sc hm hid
    rcases List.mem_cons.1 hm with rfl | hm
    · exact h scope List.mem_cons_self hid
    · exact h sc (List.mem_cons_of_mem _ hm) hid
  | left scope rest executed hf =>
    rw [hf] at h
    have hrest : Stopped ids rest := fun sc hm => h sc (List.mem_cons_of_mem _ hm)
    exact hrest.of_scopesOf (scopesOf_receive _ rest)
  | interpreted event rest result hf =>
    rw [hf] at h
    exact Stopped.of_scopesOf h (scopesOf_receive result rest)
  | handled result received rest hf =>
    rw [hf] at h
    exact Stopped.of_scopesOf h (scopesOf_receive result rest)
  | resumed event entry received rest hf =>
    rw [hf] at h
    exact h
  | failed event entry received rest exit hf =>
    rw [hf] at h
    exact Stopped.mark h exit

/-- **A failure travels outwards** when the handlers pass it on. -/
theorem Move.tainted (hi : ThreadInv s) (hm : Move s event s') (he : EndedStopped ids s)
    (hp : s.PassesOn event) (h : Tainted ids s.frames) : Tainted ids s'.frames := by
  have hstack := hi.stack
  induction hm with
  | still => exact h
  | aside registers statistics _ ih => exact ih hp
  | answered event result => exact h.receive result
  | entered =>
    refine .inr ⟨fun scope hs hid => ?_, h⟩
    cases hs
    exact absurd (he.old _ hid) (Nat.lt_irrefl _)
  | pushed event frame hf => exact .inr ⟨outside_of_scope? hf, h⟩
  | marked event exit => exact tainted_mark exit s.frames
  | counted scope rest hf =>
    rw [hf] at h
    rcases h with hf | ⟨ho, h⟩
    · exact .inl hf
    · exact .inr ⟨fun sc hs => by cases hs; exact ho scope rfl, h⟩
  | left scope rest executed hf =>
    rw [hf] at h hstack
    refine h.pop hstack.1 fun hfail => ?_
    have hreported := hi.scopes.reported scope (by rw [hf]; exact List.mem_cons_self)
    rw [Scope.guestResult_eq_report hreported]
    exact report_not_ok hreported.failing hfail executed _
  | interpreted event rest result hf =>
    rw [hf] at h hstack
    exact h.pop hstack.1 fun hfail => hfail.elim
  | handled result received rest hf =>
    rw [hf] at h hstack
    refine h.pop hstack.1 fun ⟨r, hmem, hr⟩ hok => hr ?_
    exact hp hok r (by rw [hf]; exact hmem)
  | resumed event entry received rest hf hv =>
    rw [hf] at h
    rcases h with ⟨r, hmem, hr⟩ | ⟨-, h⟩
    · exact absurd (hp hv r (by rw [hf]; exact hmem)) hr
    · exact h
  | failed event entry received rest exit hf => exact tainted_mark exit rest

/-- The scope on top of a tainted stack is marked, if it is one of these. -/
theorem Tainted.top (h : Tainted ids s.frames) (scope : Scope) (rest : List Frame)
    (hf : s.frames = .scope scope :: rest) (hid : scope.id ∈ ids) : scope.marks ≠ [] := by
  rw [hf] at h
  rcases h with h | ⟨ho, -⟩
  · exact h
  · exact absurd hid (ho scope rfl)

theorem Stopped.top (h : Stopped ids s.frames) (scope : Scope) (rest : List Frame)
    (hf : s.frames = .scope scope :: rest) (hid : scope.id ∈ ids) : scope.marks ≠ [] :=
  h scope (by rw [hf]; exact List.mem_cons_self) hid

end

/-! ## Runs -/

theorem EndedStopped.not_ok {ids : List Nat} {s : GuestThread} (he : EndedStopped ids s)
    (h : ThreadInv s) : ∀ e ∈ s.ended, e.id ∈ ids → ¬ e.result.Ok := by
  intro e hm hid
  obtain ⟨hr, hf⟩ := h.ended e hm
  rw [hr]
  exact report_not_ok hf (he.stopped e hm hid) e.executed e.r3

/-- No scope that is live has ended yet. -/
theorem ThreadInv.endedStopped {s : GuestThread} (h : ThreadInv s) :
    EndedStopped ((scopesOf s.frames).map (·.id)) s where
  old id hid := by
    obtain ⟨scope, hm, rfl⟩ := List.mem_map.1 hid
    exact h.scopes.lt scope hm
  stopped e he hid := by
    obtain ⟨scope, hm, hid⟩ := List.mem_map.1 hid
    exact absurd hid.symm ((h.fresh e he).2 scope hm)

/-- What holds after the write of the scope that was innermost at it. -/
structure InnermostStopped (id : Nat) (s : GuestThread) : Prop where
  thread : ThreadInv s
  ended : EndedStopped [id] s
  live : Stopped [id] s.frames

/-- What holds after the write of all scopes that were live at it, when failures are passed
on. -/
structure LiveTainted (ids : List Nat) (s : GuestThread) : Prop where
  thread : ThreadInv s
  ended : EndedStopped ids s
  live : Tainted ids s.frames

theorem InnermostStopped.step {id : Nat} {s s' : GuestThread} {event : GuestEvent}
    (h : InnermostStopped id s) (hs : s.step event = some s') : InnermostStopped id s' := by
  have hm := GuestThread.step_move h.thread hs
  exact ⟨hm.inv h.thread, hm.endedStopped h.ended h.live.top, hm.stopped h.ended h.live⟩

theorem LiveTainted.step {ids : List Nat} {s s' : GuestThread} {event : GuestEvent}
    (h : LiveTainted ids s) (hp : s.PassesOn event) (hs : s.step event = some s') :
    LiveTainted ids s' := by
  have hm := GuestThread.step_move h.thread hs
  exact ⟨hm.inv h.thread, hm.endedStopped h.ended h.live.top,
    hm.tainted h.thread h.ended hp h.live⟩

theorem EndedStopped.mono {ids ids' : List Nat} {s : GuestThread} (h : EndedStopped ids s)
    (hs : ∀ id ∈ ids', id ∈ ids) : EndedStopped ids' s :=
  ⟨fun id hid => h.old id (hs id hid), fun e he hid => h.stopped e he (hs e.id hid)⟩

theorem stopped_innermost {next : Nat} {frames : List Frame} (h : ScopesOk next (scopesOf frames))
    (event : ExitEvent) {scope : Scope} (hs : (scopesOf frames).head? = some scope) :
    Stopped [scope.id] (modifyInnermost (Scope.mark event) frames) := by
  obtain ⟨outer, hs⟩ := List.head?_eq_some_iff.1 hs
  intro sc hm hid
  rw [hs] at h
  rw [scopesOf_modifyInnermost, hs, List.modifyHead_cons] at hm
  rcases List.mem_cons.1 hm with rfl | hm
  · exact scope.mark_marks_ne_nil event
  · exact absurd (List.mem_singleton.1 hid) (h.outer_ne sc hm)

/-- **Main result.** The body that is innermost when a write to code is observed never
answers with a value; and where the handlers pass on the failures they receive, none of the
bodies live at the write does. -/
theorem write_stopsLiveBodies (before after : List GuestEvent) (s w s' : GuestThread)
    (hs : play GuestThread.step .idle before = some s) (hw : s.step .writeExecutable = some w)
    (h : play GuestThread.step w after = some s') :
    (∀ scope, (scopesOf s.frames).head? = some scope →
        ∀ e ∈ s'.ended, e.id = scope.id → ¬ e.result.Ok) ∧
      (EveryStep GuestThread.step GuestThread.PassesOn w after →
        ∀ scope ∈ scopesOf s.frames, ∀ e ∈ s'.ended, e.id = scope.id → ¬ e.result.Ok) := by
  have hi := play_threadInv hs
  have hwi : ThreadInv w := (GuestThread.step_move hi hw).inv hi
  have hframes : w.frames = modifyInnermost (Scope.mark .executableWrite) s.frames ∧
      w.ended = s.ended ∧ w.nextScope = s.nextScope := by
    have hrunning : ¬ s.terminated = true := by rw [hi.running]; exact Bool.false_ne_true
    rw [GuestThread.step, if_neg hrunning] at hw
    cases hw
    rw [GuestThread.writeExecutable, GuestThread.markGuestExecutableWriteObserved_eq hi]
    exact ⟨rfl, rfl, rfl⟩
  obtain ⟨hf, hended, hnext⟩ := hframes
  have hold : EndedStopped ((scopesOf s.frames).map (·.id)) w :=
    ⟨by rw [hnext]; exact hi.endedStopped.old, by rw [hended]; exact hi.endedStopped.stopped⟩
  refine ⟨fun scope hscope e he hid => ?_, fun hpass scope hscope e he hid => ?_⟩
  · -- the mark stays on the innermost scope, whatever the handlers do
    have hmem : scope.id ∈ (scopesOf s.frames).map (·.id) :=
      List.mem_map_of_mem (List.mem_of_head? hscope)
    have hinit : InnermostStopped scope.id w :=
      ⟨hwi, hold.mono (by intro id hid; rwa [List.mem_singleton.1 hid]),
        hf ▸ stopped_innermost hi.scopes .executableWrite hscope⟩
    have hrun := play_invariant (fun _ _ _ ht hstep => ht.step hstep) hinit h
    exact hrun.ended.not_ok hrun.thread e he (List.mem_singleton.2 hid)
  · have hinit : LiveTainted ((scopesOf s.frames).map (·.id)) w :=
      ⟨hwi, hold, hf ▸ tainted_mark .executableWrite s.frames⟩
    have hrun := play_invariant_where (fun _ _ _ ht hp hstep => ht.step hp hstep) hinit hpass h
    exact hrun.ended.not_ok hrun.thread e he (hid ▸ List.mem_map_of_mem hscope)

/-- A body enters a handler, whose original call runs when the write is observed. -/
def nestedBodies : List GuestEvent :=
  [.execute [] {} false {}, .callOverride, .callOriginalBody [] {}]

/-- The inner call ends, the handler answers, the outer body ends. -/
def handlerAnswers (result : ExecutionResult) : List GuestEvent :=
  [.functionReturn true, .handlerReturn result, .functionReturn true]

theorem write_stopsLiveBodies_nested :
    ∃ s w s', play GuestThread.step .idle nestedBodies = some s ∧
      s.step .writeExecutable = some w ∧
      play GuestThread.step w (handlerAnswers ⟨invalidated, 0⟩) = some s' ∧
      s'.ended.map (·.id) = [0, 1] ∧
      ∀ scope ∈ scopesOf s.frames, ∀ e ∈ s'.ended, e.id = scope.id → ¬ e.result.Ok :=
  ⟨_, _, _, rfl, rfl, rfl, rfl,
    (write_stopsLiveBodies nestedBodies (handlerAnswers ⟨invalidated, 0⟩) _ _ _ rfl rfl rfl).2
      (by decide)⟩

/-- A handler that turns the failure into a value lets the outer body answer with one. -/
theorem not_write_stopsLiveBodies :
    ¬ ∀ (before after : List GuestEvent) (s w s' : GuestThread),
      play GuestThread.step .idle before = some s → s.step .writeExecutable = some w →
      play GuestThread.step w after = some s' →
      ∀ scope ∈ scopesOf s.frames, ∀ e ∈ s'.ended, e.id = scope.id → ¬ e.result.Ok := by
  intro hall
  have h := hall nestedBodies (handlerAnswers ⟨{}, 0⟩) _ _ _ rfl rfl rfl
  exact absurd h (by decide)

end X360Port
