import X360Port.GuestExecution.Moves
import X360Port.Library.Runs

/-!
# Every scope reports its first event

`WatchedThread` keeps a record beside the thread: each exit event, as `exitEvent`
tells it from the step, with the scope that was the innermost one. No marking
function writes to it. For every run of a watched thread: every scope has been
marked with exactly the events on record for it, each ended scope has answered
what `report` says of them, each live scope holds the reason and the details of
the first one, and the thread's pointers are those of the innermost live scope.
What happens in a scope leaves the scopes outside it alone.
-/

namespace X360Port

open Library

/-! ## The scopes outside the innermost one -/

theorem tail_modifyInnermost (f : Scope → Scope) (frames : List Frame) :
    (scopesOf (modifyInnermost f frames)).tail = (scopesOf frames).tail := by
  rw [scopesOf_modifyInnermost]
  cases scopesOf frames <;> rfl

theorem tail_suffix_modifyInnermost (f : Scope → Scope) (frames : List Frame) :
    (scopesOf frames).tail <:+ scopesOf (modifyInnermost f frames) := by
  rw [← tail_modifyInnermost f frames]
  exact List.tail_suffix _

/-- **Frame.** A move changes the innermost scope only. -/
theorem Move.outer_kept {s s' : GuestThread} {event : GuestEvent} (hm : Move s event s') :
    (scopesOf s.frames).tail <:+ scopesOf s'.frames := by
  induction hm with
  | still => exact List.tail_suffix _
  | aside registers statistics _ ih => exact ih
  | answered event result =>
    rw [scopesOf_deliver]
    exact List.tail_suffix _
  | entered => exact (List.tail_suffix _).trans (List.suffix_cons _ _)
  | pushed event frame hf hr ha =>
    have hs : scopesOf (frame :: s.frames) = scopesOf s.frames := List.filterMap_cons_none hf
    show _ <:+ scopesOf (frame :: s.frames)
    rw [hs]
    exact List.tail_suffix _
  | marked event exit => exact tail_suffix_modifyInnermost _ _
  | counted scope rest hf =>
    rw [hf]
    exact List.suffix_cons _ _
  | left scope rest executed hf =>
    rw [scopesOf_deliver, hf]
    exact List.suffix_rfl
  | interpreted event rest result hf =>
    rw [scopesOf_deliver, hf]
    exact List.tail_suffix _
  | handled result received rest hf =>
    rw [scopesOf_deliver, hf]
    exact List.tail_suffix _
  | resumed event entry received rest hf =>
    rw [hf]
    exact List.tail_suffix _
  | failed event entry received rest exit hf =>
    rw [hf]
    exact tail_suffix_modifyInnermost _ _

/-! ## A record beside the thread -/

/-- A guest thread, and its exit events with the scope that each happened in. -/
structure WatchedThread where
  thread : GuestThread := .idle
  exits : List (Nat × ExitEvent) := []
  deriving DecidableEq, Repr

namespace WatchedThread

/-- The exit events of a scope, in order. -/
def exitsOf (w : WatchedThread) (id : Nat) : List ExitEvent := itemsOf w.exits id

/-- The record after an event: an exit event happens in the innermost scope, if there is one. -/
def record (w : WatchedThread) (event : GuestEvent) : List (Nat × ExitEvent) :=
  match innermostId w.thread.frames with
  | none => w.exits
  | some id => w.exits ++ ((exitEvent w.thread.frames (w.exitsOf id) event).map (id, ·)).toList

def step (w : WatchedThread) (event : GuestEvent) : Option WatchedThread :=
  (w.thread.step event).map fun thread => ⟨thread, w.record event⟩

end WatchedThread

/-- The marks of every scope are the events on record for it. -/
structure OnRecord (w : WatchedThread) : Prop where
  live : ∀ scope ∈ scopesOf w.thread.frames, scope.marks = w.exitsOf scope.id
  ended : ∀ e ∈ w.thread.ended, e.marks = w.exitsOf e.id
  known : ∀ exit ∈ w.exits, exit.1 < w.thread.nextScope

section

variable {s : GuestThread} {exits : List (Nat × ExitEvent)} {event : GuestEvent}

theorem innermostId_of_scopes {frames : List Frame} {scope : Scope} {outer : List Scope}
    (hs : scopesOf frames = scope :: outer) : innermostId frames = some scope.id := by
  rw [innermostId, hs]
  rfl

/-- Where the marks are the record, the next exit event can be told from either. -/
theorem OnRecord.record_of_scope (h : OnRecord ⟨s, exits⟩) {scope : Scope} {outer : List Scope}
    (hs : scopesOf s.frames = scope :: outer) :
    WatchedThread.record ⟨s, exits⟩ event =
      exits ++ ((s.nextExit event).map (scope.id, ·)).toList := by
  have hmarks : scope.marks = WatchedThread.exitsOf ⟨s, exits⟩ scope.id := by
    refine h.live scope ?_
    rw [hs]
    exact List.mem_cons_self
  rw [WatchedThread.record, innermostId_of_scopes hs, GuestThread.nextExit]
  rw [innermostMarks_of_scopes hs, hmarks]

theorem record_of_no_scope (hs : scopesOf s.frames = []) :
    WatchedThread.record ⟨s, exits⟩ event = exits := by
  rw [WatchedThread.record, innermostId, hs]
  rfl

theorem OnRecord.record_of_none (h : OnRecord ⟨s, exits⟩) (hx : s.nextExit event = none) :
    WatchedThread.record ⟨s, exits⟩ event = exits := by
  cases hs : scopesOf s.frames with
  | nil => exact record_of_no_scope hs
  | cons scope outer =>
    rw [h.record_of_scope hs, hx]
    exact List.append_nil exits

/-- A change that neither opens, closes nor marks a scope. -/
theorem OnRecord.of_scopes_eq (h : OnRecord ⟨s, exits⟩) {s' : GuestThread}
    (hs : ∀ scope' ∈ scopesOf s'.frames, ∃ scope ∈ scopesOf s.frames,
      scope'.id = scope.id ∧ scope'.marks = scope.marks)
    (he : s'.ended = s.ended) (hn : s'.nextScope = s.nextScope) : OnRecord ⟨s', exits⟩ where
  live scope' hm := by
    obtain ⟨scope, hscope, hid, hmarks⟩ := hs scope' hm
    rw [hmarks, hid]
    exact h.live scope hscope
  ended := he ▸ h.ended
  known := hn ▸ h.known

/-- The same where no scope has changed at all. -/
theorem OnRecord.of_same_scopes (h : OnRecord ⟨s, exits⟩) {s' : GuestThread}
    (hs : scopesOf s'.frames = scopesOf s.frames) (he : s'.ended = s.ended)
    (hn : s'.nextScope = s.nextScope) : OnRecord ⟨s', exits⟩ :=
  h.of_scopes_eq (fun scope hm => ⟨scope, hs ▸ hm, rfl, rfl⟩) he hn

theorem OnRecord.pushScope (h : OnRecord ⟨s, exits⟩) (limit stackPointer linkRegister : UInt64) :
    OnRecord ⟨s.pushScope limit stackPointer linkRegister, exits⟩ where
  live scope hm := by
    rcases List.mem_cons.1 hm with rfl | hm
    · refine (List.eq_nil_iff_forall_not_mem.2 fun exit hexit => ?_).symm
      exact Nat.lt_irrefl _ (h.known _ (mem_itemsOf.1 hexit))
    · exact h.live scope hm
  ended := h.ended
  known exit hm := Nat.lt_succ_of_lt (h.known exit hm)

theorem OnRecord.popScope (h : OnRecord ⟨s, exits⟩) {scope : Scope} {rest : List Frame}
    (executed : Bool) (hf : s.frames = .scope scope :: rest) :
    OnRecord ⟨s.popScope scope rest executed, exits⟩ := by
  have hlive := h.live
  simp only [hf, scopesOf_scope, List.forall_mem_cons] at hlive
  exact ⟨hlive.2, List.forall_mem_cons.2 ⟨hlive.1, h.ended⟩, h.known⟩

/-- An exit event goes on record for the scope that it marks. -/
theorem OnRecord.markInnermost (h : OnRecord ⟨s, exits⟩) (hi : ThreadInv s) {scope : Scope}
    {outer : List Scope} (hs : scopesOf s.frames = scope :: outer) (exit : ExitEvent) :
    OnRecord ⟨s.markInnermost exit, exits ++ [(scope.id, exit)]⟩ := by
  have hscopes := hi.scopes
  rw [hs] at hscopes
  have hlive := h.live
  simp only [hs, List.forall_mem_cons] at hlive
  refine ⟨fun sc hm => ?_, fun e he => ?_, fun x hm => ?_⟩
  · simp only [GuestThread.markInnermost, scopesOf_modifyInnermost, hs, List.modifyHead_cons,
      List.mem_cons] at hm
    rw [WatchedThread.exitsOf, itemsOf_concat]
    rcases hm with rfl | hm
    · rw [if_pos (Scope.mark_id exit scope).symm, Scope.mark_marks, Scope.mark_id, hlive.1]
      rfl
    · rw [if_neg (hscopes.outer_ne sc hm).symm]
      exact hlive.2 sc hm
  · have hne := (hi.fresh e he).2 scope (by rw [hs]; exact List.mem_cons_self)
    rw [WatchedThread.exitsOf, itemsOf_concat, if_neg hne.symm]
    exact h.ended e he
  · rcases List.mem_append.1 hm with hm | hm
    · exact h.known x hm
    · rw [List.mem_singleton] at hm
      rw [hm]
      exact hscopes.1

end

/-- Native code that returns a value stops nothing. -/
theorem exitEvent_of_returnsValue {event : GuestEvent} (h : event.ReturnsValue)
    (frames : List Frame) (earlier : List ExitEvent) : exitEvent frames earlier event = none := by
  cases event with
  | handlerReturn result =>
    rcases frames with _ | ⟨_ | ⟨_ | _ | _, _⟩ | _, rest⟩
    case cons.native.guestOverride => exact if_pos h
    all_goals rfl
  | importReturn context =>
    have hnone : context.refusal = none := h
    rcases frames with _ | ⟨_ | ⟨_ | _ | _, _⟩ | _, rest⟩
    case cons.native.hostImport => rw [exitEvent, hnone, Option.map_none]
    all_goals rfl
  | _ => exact h.elim

/-- **Every move records what it marks.** -/
theorem Move.recorded {s s' : GuestThread} {event : GuestEvent} (hm : Move s event s')
    {exits : List (Nat × ExitEvent)} (hi : ThreadInv s) (h : OnRecord ⟨s, exits⟩) :
    OnRecord ⟨s', WatchedThread.record ⟨s, exits⟩ event⟩ := by
  induction hm with
  | still event hx =>
    rw [h.record_of_none hx]
    exact h
  | aside registers statistics _ ih => exact ⟨ih.live, ih.ended, ih.known⟩
  | answered event result _ hx =>
    rw [h.record_of_none hx]
    exact h.of_same_scopes (scopesOf_deliver s result) rfl rfl
  | entered event stackPointer linkRegister _ hx =>
    rw [h.record_of_none hx]
    exact h.pushScope _ stackPointer linkRegister
  | pushed event frame hf _ _ hx =>
    rw [h.record_of_none hx]
    exact h.of_same_scopes (List.filterMap_cons_none hf) rfl rfl
  | marked event exit _ hx =>
    cases hs : scopesOf s.frames with
    | nil =>
      rw [record_of_no_scope hs, GuestThread.markInnermost, modifyInnermost_of_nil _ hs]
      exact h
    | cons scope outer =>
      rw [h.record_of_scope hs, hx]
      exact h.markInnermost hi hs exit
  | counted scope rest hf =>
    rw [h.record_of_none rfl]
    refine h.of_scopes_eq (fun sc hm => ?_) rfl rfl
    rw [hf]
    rcases List.mem_cons.1 hm with rfl | hm
    · exact ⟨scope, List.mem_cons_self, rfl, rfl⟩
    · exact ⟨sc, List.mem_cons_of_mem _ hm, rfl, rfl⟩
  | left scope rest executed hf =>
    rw [h.record_of_none rfl]
    exact (h.popScope executed hf).of_same_scopes (scopesOf_deliver _ _) rfl rfl
  | interpreted event rest result hf hx =>
    rw [h.record_of_none hx]
    refine h.of_same_scopes ?_ rfl rfl
    rw [scopesOf_deliver, hf]
    rfl
  | handled result received rest hf =>
    rw [h.record_of_none (by rw [GuestThread.nextExit, hf]; rfl)]
    refine h.of_same_scopes ?_ rfl rfl
    rw [scopesOf_deliver, hf]
    rfl
  | resumed event entry received rest hf he =>
    rw [h.record_of_none (exitEvent_of_returnsValue he _ _)]
    refine h.of_same_scopes ?_ rfl rfl
    rw [hf]
    rfl
  | failed event entry received rest exit hf he hb hx =>
    have hstack := hi.stack
    rw [hf] at hstack
    have hscopes : scopesOf rest = scopesOf s.frames := by rw [hf]; rfl
    have hpopped : ThreadInv { s with frames := rest } := hi.setFrames hscopes hstack.2
    obtain ⟨scope, below, hbelow⟩ := exists_scope_of_bodyRuns hb
    have hs : scopesOf rest = scope :: scopesOf below := by rw [hbelow, scopesOf_scope]
    rw [h.record_of_scope (hscopes.symm.trans hs), hx]
    have hrest : OnRecord ⟨{ s with frames := rest }, exits⟩ := h.of_same_scopes hscopes rfl rfl
    exact hrest.markInnermost hpopped hs exit

/-! ## The reports -/

/-- What a watched thread's scopes report: each its own first event. -/
structure ScopesReport (w : WatchedThread) : Prop where
  running : w.thread.terminated = false
  ended : ∀ e ∈ w.thread.ended, e.result = report (w.exitsOf e.id) e.executed e.r3
  failing : ∀ e ∈ w.thread.ended, w.exitsOf e.id ≠ [] → ¬ e.result.Ok
  marked : (∀ e ∈ w.thread.ended, e.marks = w.exitsOf e.id) ∧
    ∀ scope ∈ scopesOf w.thread.frames, scope.marks = w.exitsOf scope.id
  live : ∀ scope ∈ scopesOf w.thread.frames, scope.Reported
  active : w.thread.PointsTo (innermostId w.thread.frames)

/-- The invariant of a watched thread. -/
structure WatchedInv (w : WatchedThread) : Prop where
  thread : ThreadInv w.thread
  recorded : OnRecord w

theorem watchedInv_idle : WatchedInv {} where
  thread := threadInv_idle
  recorded := ⟨fun _ hm => absurd hm List.not_mem_nil, fun _ he => absurd he List.not_mem_nil,
    fun _ hm => absurd hm List.not_mem_nil⟩

theorem WatchedThread.step_move {w w' : WatchedThread} {event : GuestEvent} (h : WatchedInv w)
    (hs : w.step event = some w') :
    Move w.thread event w'.thread ∧ w'.exits = w.record event := by
  obtain ⟨s', hs', rfl⟩ := Option.map_eq_some_iff.1 hs
  exact ⟨GuestThread.step_move h.thread hs', rfl⟩

theorem WatchedInv.step {w w' : WatchedThread} {event : GuestEvent} (h : WatchedInv w)
    (hs : w.step event = some w') : WatchedInv w' := by
  obtain ⟨hm, hexits⟩ := WatchedThread.step_move h hs
  have hrecorded := hm.recorded h.thread h.recorded
  rw [← hexits] at hrecorded
  exact ⟨hm.inv h.thread, hrecorded⟩

theorem WatchedInv.scopesReport {w : WatchedThread} (h : WatchedInv w) : ScopesReport w where
  running := h.thread.running
  ended e he := by
    rw [← h.recorded.ended e he]
    exact (h.thread.ended e he).1
  failing e he hm := by
    rw [← h.recorded.ended e he] at hm
    obtain ⟨hr, hf⟩ := h.thread.ended e he
    rw [hr]
    exact report_not_ok hf hm e.executed e.r3
  marked := ⟨h.recorded.ended, h.recorded.live⟩
  live := h.thread.scopes.reported
  active := h.thread.pointers

/-- **Main result.** In every run each scope reports its own first event with that event's
details, the pointers are the innermost scope's, and no step changes an outer scope. -/
theorem play_scopesReport (events : List GuestEvent) (w : WatchedThread)
    (h : play WatchedThread.step {} events = some w) :
    ScopesReport w ∧ ∀ event w', w.step event = some w' →
      (scopesOf w.thread.frames).tail <:+ scopesOf w'.thread.frames := by
  have hinv : WatchedInv w :=
    play_invariant (fun _ _ _ hi hs => hi.step hs) watchedInv_idle h
  refine ⟨hinv.scopesReport, fun event w' hs => ?_⟩
  exact (WatchedThread.step_move hinv hs).1.outer_kept

/-- A host call enters a body; a handler that the body enters calls another body, which a
refused import stops before a write to code is observed in it. -/
def nestedStops : List GuestEvent :=
  [.execute [] {} false {}, .callOverride, .callOriginalBody [] {},
    .callImport [0x78] 1, .importReturn ((GuestImportContext.make []).refuse .hostUnavailable),
    .writeExecutable, .functionReturn false, .handlerReturn ⟨{}, 7⟩]

theorem play_scopesReport_nestedStops :
    ∃ w, play WatchedThread.step {} nestedStops = some w ∧
      w.exits = [(1, .importRefused ⟨[0x78], 1, .hostUnavailable⟩), (1, .executableWrite)] ∧
      w.thread.ended.map (·.result.failure) = [importRefused ⟨[0x78], 1, .hostUnavailable⟩] ∧
      ScopesReport w ∧ ∀ event w', w.step event = some w' →
        (scopesOf w.thread.frames).tail <:+ scopesOf w'.thread.frames :=
  ⟨_, rfl, rfl, rfl, play_scopesReport nestedStops _ rfl⟩

end X360Port
