import X360Port.SystemSession.Threads

/-!
# What runs in a session

Whatever titles a session is asked to launch, and in whatever order its guest
threads step, none of them resuming the main thread of a refused title: the
threads that run are those of a title that was accepted, the overrides that they
enter are those of the configuration, and every override, and every original
body that it calls, leaves `r1` and `lr` as it found them (`play_titleRuns`). A
thread keeps `Sound`, a title `WellHeld`.
-/

namespace X360Port

open Library

/-! ## One thread -/

namespace TitleThread

/-- Below each call in progress lies what it began with; only guest code may have changed the two
registers since. -/
def Nested : List TitleFrame → Linkage → List Linkage → Prop
  | [], _, pending => pending = []
  | .body :: rest, _, pending => rest = [] ∧ pending = []
  | .original stackPointer linkRegister :: rest, _, before :: pending =>
    before = ⟨stackPointer, linkRegister⟩ ∧ Nested rest before pending
  | .handler _ _ :: rest, now, before :: pending => now = before ∧ Nested rest now pending
  | _, _, [] => False

structure Sound (overrides : List SystemOverride) (t : TitleThread) : Prop where
  nested : Nested t.frames t.registers.linkage t.pending
  restored : ∀ call ∈ t.finished, call.after = call.before
  handlers : ∀ call ∈ t.handlerCalls,
    overrideCall overrides call.address call.arguments = some call

section

variable {overrides : List SystemOverride} {t t' : TitleThread} {rest : List TitleFrame}

theorem Nested.compute {frames : List TitleFrame} {now now' : Linkage} {pending : List Linkage}
    (hruns : t.guestRuns = true) (hf : t.frames = frames) (h : Nested frames now pending) :
    Nested frames now' pending := by
  unfold guestRuns at hruns
  rw [hf] at hruns
  rcases frames with _ | ⟨_ | _ | _, rest⟩
  · cases hruns
  · exact h
  · cases pending with
    | nil => exact h
    | cons before pending => exact h
  · cases hruns

theorem handlerCalls_cons (t : TitleThread) (frame : TitleFrame) (h : t.frames = frame :: rest) :
    ∀ call ∈ ({ t with frames := rest } : TitleThread).handlerCalls, call ∈ t.handlerCalls := by
  intro call hcall
  unfold handlerCalls at hcall ⊢
  rw [h, List.filterMap_cons]
  split
  · exact hcall
  · exact List.mem_cons_of_mem _ hcall

/-- A new thread. -/
theorem sound_new (overrides : List SystemOverride) (main : Bool) (title : LoadedTitle)
    (suspendCount : Nat) (registers : GuestRegisters) (refused : Bool) :
    Sound overrides { main, title, suspendCount, registers, refused } :=
  ⟨⟨rfl, rfl⟩, nofun, nofun⟩

/-- How long a thread is suspended is nothing to its calls. -/
theorem Sound.suspended (h : t.Sound overrides) (suspendCount : Nat) :
    Sound overrides { t with suspendCount } := ⟨h.nested, h.restored, h.handlers⟩

theorem Sound.answer (h : t.Sound overrides) (result : ExecutionResult) :
    (t.answer result).Sound overrides := by
  unfold TitleThread.answer
  split
  · next call received rest hf =>
    obtain ⟨hnested, hrestored, hhandlers⟩ := h
    rw [hf] at hnested
    refine ⟨?_, hrestored, ?_⟩
    · cases hp : t.pending with
      | nil => rw [hp] at hnested; exact hnested.elim
      | cons before pending => rw [hp] at hnested; exact hnested
    · unfold handlerCalls at hhandlers ⊢
      rw [hf] at hhandlers
      exact hhandlers
  · exact h

/-- The call that began with `before` is over, and left it. -/
theorem Sound.returnTo (h : t.Sound overrides) {frame : TitleFrame} (hf : t.frames = frame :: rest)
    {registers : GuestRegisters} {before : Linkage} {pending : List Linkage}
    (hp : t.pending = before :: pending) (hback : registers.linkage = before)
    (hrest : Nested rest before pending) : (t.returnTo rest registers).Sound overrides := by
  refine ⟨?_, ?_, fun call hcall => h.handlers call (t.handlerCalls_cons frame hf call hcall)⟩
  · show Nested rest registers.linkage (t.pending.drop 1)
    rw [hback, hp]
    exact hrest
  · intro call hcall
    have hmem : call ∈ FinishedCall.mk before registers.linkage :: t.finished := by
      rw [TitleThread.returnTo, hp] at hcall
      exact hcall
    rcases List.mem_cons.1 hmem with rfl | hmem
    · exact hback
    · exact h.restored call hmem

theorem Sound.enterHandler (h : t.Sound overrides) {call : HandlerCall}
    (hcall : overrideCall overrides call.address call.arguments = some call) :
    (t.enterHandler call).Sound overrides := by
  refine ⟨⟨rfl, h.nested⟩, h.restored, fun other hother => ?_⟩
  rcases List.mem_cons.1 hother with rfl | hother
  · exact hcall
  · exact h.handlers other hother

theorem Sound.callOriginalBody (h : t.Sound overrides) (arguments : List UInt64)
    (translated : Bool) : (t.callOriginalBody arguments translated).Sound overrides := by
  unfold TitleThread.callOriginalBody
  split
  · exact h.answer _
  · cases hprepare : prepareGuestArguments t.registers arguments with
    | error failure => exact h.answer _
    | ok registers =>
      have hl := GuestRegisters.linkage_prepareGuestArguments hprepare
      refine ⟨⟨hl.symm, h.nested⟩, h.restored, fun other hother => h.handlers other ?_⟩
      exact hother

theorem Sound.leaveHandler (h : t.Sound overrides) {call : HandlerCall}
    {received : List ExecutionResult} (hf : t.frames = .handler call received :: rest)
    (value : UInt64) : (t.leaveHandler rest value).Sound overrides := by
  have hnested := h.nested
  rw [hf] at hnested
  cases hp : t.pending with
  | nil => rw [hp] at hnested; exact hnested.elim
  | cons before pending =>
    rw [hp] at hnested
    obtain ⟨hnow, hrest⟩ := hnested
    rw [hnow] at hrest
    refine h.returnTo hf hp ?_ hrest
    rw [GuestRegisters.linkage_setResult]
    exact hnow

theorem Sound.leaveOriginal (h : t.Sound overrides) {stackPointer linkRegister : UInt64}
    (hf : t.frames = .original stackPointer linkRegister :: rest) (executed : Bool) :
    (t.leaveOriginal rest stackPointer linkRegister executed).Sound overrides := by
  have hnested := h.nested
  rw [hf] at hnested
  cases hp : t.pending with
  | nil => rw [hp] at hnested; exact hnested.elim
  | cons before pending =>
    rw [hp] at hnested
    obtain ⟨hframe, hrest⟩ := hnested
    refine (h.returnTo hf hp ?_ hrest).answer _
    rw [GuestRegisters.linkage_leaveFrame]
    exact hframe.symm

/-- What a thread keeps of itself. -/
def SameThread (t t' : TitleThread) : Prop :=
  t'.main = t.main ∧ t'.title = t.title ∧ t'.suspendCount = t.suspendCount ∧
    t'.refused = t.refused

theorem sameThread_answer (t : TitleThread) (result : ExecutionResult) :
    SameThread t (t.answer result) := by
  unfold answer
  split <;> exact ⟨rfl, rfl, rfl, rfl⟩

theorem sameThread_callOriginalBody (t : TitleThread) (arguments : List UInt64)
    (translated : Bool) : SameThread t (t.callOriginalBody arguments translated) := by
  unfold callOriginalBody
  split
  · exact t.sameThread_answer _
  · split
    · exact t.sameThread_answer _
    · exact ⟨rfl, rfl, rfl, rfl⟩

/-- **One step of a thread**, in a session that serves its overrides. -/
theorem Sound.step (h : t.Sound overrides) {dispatch : OverrideDispatch}
    (hserves : dispatch.Serves overrides) {event : ThreadEvent}
    (hs : t.step dispatch event = some t') : t'.Sound overrides ∧ SameThread t t' := by
  cases event with
  | compute registers =>
    obtain ⟨hruns, hs⟩ := Option.ite_none_right_eq_some.1 hs
    cases hs
    exact ⟨⟨h.nested.compute hruns rfl, h.restored, h.handlers⟩, rfl, rfl, rfl, rfl⟩
  | call address =>
    obtain ⟨-, hs⟩ := Option.ite_none_right_eq_some.1 hs
    obtain ⟨call, hcall, rfl⟩ := Option.map_eq_some_iff.1 hs
    rw [hserves] at hcall
    obtain ⟨haddress, harguments⟩ := overrideCall_eq_some hcall
    rw [← haddress, ← harguments] at hcall
    exact ⟨h.enterHandler hcall, rfl, rfl, rfl, rfl⟩
  | callOriginalBody arguments translated =>
    simp only [TitleThread.step] at hs
    split at hs
    · cases hs
      exact ⟨h.callOriginalBody arguments translated,
        t.sameThread_callOriginalBody arguments translated⟩
    · cases hs
  | originalReturn executed =>
    simp only [TitleThread.step] at hs
    split at hs
    · next stackPointer linkRegister rest hf =>
      cases hs
      exact ⟨h.leaveOriginal hf executed, sameThread_answer _ _⟩
    · cases hs
  | handlerReturn value =>
    simp only [TitleThread.step] at hs
    split at hs
    · next call received rest hf =>
      cases hs
      exact ⟨h.leaveHandler hf value, rfl, rfl, rfl, rfl⟩
    · cases hs
  | exit =>
    simp only [TitleThread.step] at hs
    split at hs
    · next hf =>
      cases hs
      have hnested := h.nested
      rw [hf] at hnested
      exact ⟨⟨hnested.2, h.restored, nofun⟩, rfl, rfl, rfl, rfl⟩
    · cases hs

end

/-- A main thread that nothing has resumed. -/
def Held (t : TitleThread) : Prop :=
  t.main = true ∧ 0 < t.suspendCount ∧ t.frames = [.body]

end TitleThread

/-! ## One step of a title -/

/-- The thread is as its session may have it: it is held, or its title was accepted. -/
structure SystemSession.Admits (session : SystemSession) (t : TitleThread) : Prop where
  sound : t.Sound session.config.overrides
  held : t.refused = true → t.Held
  admitted : t.refused = false →
    t.title.Accepted session.config ∧ session.overrides.Serves session.config.overrides

namespace SystemTitle

structure WellHeld (s : SystemTitle) : Prop where
  stocked : s.session.overrides.Stocked s.session.config.overrides
  threads : ∀ t ∈ s.threads, s.session.Admits t

section

variable {platform : Platform} {s s' : SystemTitle} {thread : Nat} {t : TitleThread}

theorem running_eq_some (h : s.running thread = some t) :
    s.ended = none ∧ s.threads[thread]? = some t ∧ t.suspendCount = 0 := by
  unfold running at h
  cases hended : s.ended with
  | some «end» => rw [hended] at h; cases h
  | none =>
    rw [hended] at h
    obtain ⟨hmem, hcount⟩ := Option.filter_eq_some_iff.1 h
    exact ⟨rfl, hmem, by simpa using hcount⟩

theorem running_of_ended (h : s.ended.isSome) : s.running thread = none := if_pos h

/-- Whatever a thread that runs may have done, its title was accepted. -/
theorem WellHeld.running (h : s.WellHeld) (hr : s.running thread = some t) :
    t.refused = false ∧ t.Sound s.session.config.overrides ∧
      t.title.Accepted s.session.config ∧
      s.session.overrides.Serves s.session.config.overrides := by
  obtain ⟨-, hmem, hcount⟩ := running_eq_some hr
  obtain ⟨hsound, hheld, hadmitted⟩ := h.threads t (List.mem_of_getElem? hmem)
  cases hrefused : t.refused with
  | true =>
    have hpositive := (hheld hrefused).2.1
    omega
  | false => exact ⟨rfl, hsound, hadmitted hrefused⟩

/-- A step that leaves the session alone, and the threads as it may have them. -/
theorem WellHeld.of_threads (h : s.WellHeld) {threads : List TitleThread} {calls : UInt64}
    {ended : Option ProcessEnd} (hthreads : ∀ t ∈ threads, t ∈ s.threads ∨ s.session.Admits t) :
    WellHeld { s with threads, nativeOverrideCalls := calls, ended } :=
  ⟨h.stocked, fun t ht => (hthreads t ht).elim (h.threads t) id⟩

theorem WellHeld.onThread (h : s.WellHeld) {event : ThreadEvent}
    (hs : s.onThread thread event = some s') : s'.WellHeld := by
  obtain ⟨t, ht, hs⟩ := Option.bind_eq_some_iff.1 hs
  obtain ⟨t', ht', hs⟩ := Option.bind_eq_some_iff.1 hs
  cases hs
  obtain ⟨hrefused, hsound, haccepted, hserves⟩ := h.running ht
  obtain ⟨hsound', -, htitle, -, hsame⟩ := hsound.step hserves ht'
  refine h.of_threads fun u hu => ?_
  rcases List.mem_or_eq_of_mem_set hu with hu | rfl
  · exact .inl hu
  · refine .inr ⟨hsound', fun hyes => ?_, fun _ => ⟨?_, hserves⟩⟩
    · rw [hsame, hrefused] at hyes
      cases hyes
    · rw [htitle]
      exact haccepted

theorem WellHeld.overrideReturn (h : s.WellHeld) {result : ExecutionResult}
    (hs : s.overrideReturn thread result = some s') : s'.WellHeld := by
  unfold SystemTitle.overrideReturn at hs
  split at hs
  · exact h.onThread hs
  · obtain ⟨t, -, hs⟩ := Option.bind_eq_some_iff.1 hs
    split at hs
    · cases hs
      exact h.of_threads fun u hu => .inl hu
    · cases hs

theorem WellHeld.spawn (h : s.WellHeld) {registers : GuestRegisters} {suspended : Bool}
    (hs : s.spawn thread registers suspended = some s') : s'.WellHeld := by
  obtain ⟨t, ht, hs⟩ := Option.bind_eq_some_iff.1 hs
  obtain ⟨-, hs⟩ := Option.ite_none_right_eq_some.1 hs
  cases hs
  refine h.of_threads fun u hu => ?_
  rcases List.mem_append.1 hu with hu | hu
  · exact .inl hu
  · cases List.mem_singleton.1 hu
    obtain ⟨hrefused, -, hadmitted⟩ := h.running ht
    refine .inr ⟨TitleThread.sound_new _ _ _ _ _ _, fun hyes => ?_, fun _ => hadmitted⟩
    have hyes : t.refused = true := hyes
    rw [hrefused] at hyes
    cases hyes

/-- One thread is changed. -/
theorem mem_modify {α : Type} {f : α → α} {xs : List α} {i : Nat} {x : α}
    (h : x ∈ xs.modify i f) : x ∈ xs ∨ ∃ y, xs[i]? = some y ∧ x = f y := by
  obtain ⟨j, hj⟩ := List.mem_iff_getElem?.1 h
  rw [List.getElem?_modify] at hj
  obtain ⟨y, hy, rfl⟩ := Option.map_eq_some_iff.1 hj
  split
  · next heq => exact .inr ⟨y, by rw [heq]; exact hy, rfl⟩
  · exact .inl (List.mem_of_getElem? hy)

theorem WellHeld.suspend (h : s.WellHeld) {target : Nat}
    (hs : s.suspend thread target = some s') : s'.WellHeld := by
  obtain ⟨t, -, hs⟩ := Option.bind_eq_some_iff.1 hs
  obtain ⟨-, hs⟩ := Option.ite_none_right_eq_some.1 hs
  cases hs
  refine h.of_threads fun u hu => ?_
  rcases mem_modify hu with hu | ⟨v, hv, rfl⟩
  · exact .inl hu
  · obtain ⟨hsound, hheld, hadmitted⟩ := h.threads v (List.mem_of_getElem? hv)
    refine .inr ⟨hsound.suspended _, fun hrefused => ?_, hadmitted⟩
    have hheld := hheld hrefused
    exact ⟨hheld.1, Nat.succ_pos _, hheld.2.2⟩

/-- A refused title's main thread is not resumed by a guest thread. -/
def ResumesNoRefused (s : SystemTitle) : TitleEvent → Prop
  | .resume _ target => ∀ u ∈ s.threads[target]?, u.refused = false
  | _ => True

instance : ∀ event, Decidable (s.ResumesNoRefused event)
  | .resume _ target =>
    inferInstanceAs (Decidable (∀ u ∈ s.threads[target]?, u.refused = false))
  | .launch _ _ _ | .run _ _ | .overrideReturn _ _ | .spawn _ _ _ | .suspend _ _ | .destroy =>
    .isTrue trivial

theorem WellHeld.resume (h : s.WellHeld) {target : Nat}
    (hresumes : s.ResumesNoRefused (.resume thread target))
    (hs : s.resume thread target = some s') : s'.WellHeld := by
  obtain ⟨t, -, hs⟩ := Option.bind_eq_some_iff.1 hs
  obtain ⟨-, hs⟩ := Option.ite_none_right_eq_some.1 hs
  cases hs
  refine h.of_threads fun u hu => ?_
  rcases mem_modify hu with hu | ⟨v, hv, rfl⟩
  · exact .inl hu
  · obtain ⟨hsound, -, hadmitted⟩ := h.threads v (List.mem_of_getElem? hv)
    refine .inr ⟨hsound.suspended _, fun hyes => ?_, hadmitted⟩
    exact Bool.noConfusion ((hresumes v hv).symm.trans hyes)

/-! ## A launch -/

theorem launch_eq {session : SystemSession} (h : session.emulator = true) (path : LaunchPath) :
    (session.launch platform path).1 =
      { path.loaded.elim session session.onLaunch with launched := true } := by
  unfold SystemSession.launch
  rw [if_neg (not_not_intro h)]
  cases path.loaded <;> simp only <;> split <;> first | rfl | (split <;> rfl)

theorem modify_concat {α : Type} (f : α → α) (xs : List α) (x : α) :
    (xs ++ [x]).modify xs.length f = xs ++ [f x] := by
  induction xs with
  | nil => rfl
  | cons y ys ih => rw [List.cons_append, List.length_cons, List.modify_succ_cons, ih]; rfl

/-- A main thread that is made last, held or not, and resumed or not. -/
theorem hold_resume {main : TitleThread} (hmain : main.main = true) (threads : List TitleThread)
    (held resumed : Bool) :
    (if resumed then
        resumeThread (if held then holdMainThread (threads ++ [main]) else threads ++ [main])
          threads.length
      else if held then holdMainThread (threads ++ [main]) else threads ++ [main]) =
      (if held then holdMainThread threads else threads) ++
        [{ main with suspendCount := main.suspendCount + held.toNat - resumed.toNat }] := by
  have hlength : (holdMainThread threads).length = threads.length := List.length_map _
  have hhold : holdMainThread (threads ++ [main]) =
      holdMainThread threads ++ [{ main with suspendCount := main.suspendCount + 1 }] := by
    rw [holdMainThread, List.map_append, List.map_singleton, if_pos hmain, holdMainThread]
  rw [hhold]
  unfold resumeThread
  cases held with
  | false =>
    cases resumed with
    | false => rfl
    | true => exact modify_concat _ threads main
  | true =>
    cases resumed with
    | false => rfl
    | true =>
      simp only [if_true]
      rw [← hlength]
      exact modify_concat _ _ _

/-- The threads that there were may be held once more; the new one is held if its title is
refused. -/
theorem mem_launch {path : LaunchPath} {title : LoadedTitle} {registers : GuestRegisters}
    {resumed : Bool} (hemulator : s.session.emulator = true) (hloaded : path.loaded = some title)
    (ht : t ∈ (s.launch platform path registers resumed).threads) :
    (∃ u ∈ s.threads, t = u ∨ t = { u with suspendCount := u.suspendCount + 1 }) ∨
    ∃ suspendCount,
      t = { main := true, title, suspendCount, registers,
            refused := decide ¬ (s.session.activateTitle title).2.Ok } ∧
      (¬ (s.session.activateTitle title).2.Ok → 0 < suspendCount) := by
  have hheld : (s.session.launch platform path).1.held =
      decide ¬ (s.session.activateTitle title).2.Ok := by
    rw [launch_eq hemulator, hloaded]
    rfl
  unfold launch at ht
  rw [hemulator, hloaded] at ht
  dsimp only at ht
  rw [hheld, hold_resume rfl] at ht
  rcases List.mem_append.1 ht with ht | ht
  · refine .inl ?_
    split at ht
    · obtain ⟨u, hu, rfl⟩ := List.mem_map.1 ht
      refine ⟨u, hu, ?_⟩
      split
      · exact .inr rfl
      · exact .inl rfl
    · exact ⟨t, ht, .inl rfl⟩
  · refine .inr ⟨_, List.mem_singleton.1 ht, fun hok => ?_⟩
    rw [decide_eq_true hok]
    have hresumed := Bool.toNat_le resumed
    show 0 < 1 + 1 - resumed.toNat
    omega

/-- A launch that loads a title keeps the settings and installs the overrides in it. -/
theorem launch_loaded {path : LaunchPath} {title : LoadedTitle} (registers : GuestRegisters)
    (resumed : Bool) (hemulator : s.session.emulator = true) (hloaded : path.loaded = some title) :
    (s.launch platform path registers resumed).session.config = s.session.config ∧
      (s.launch platform path registers resumed).session.overrides =
        (s.session.activateTitle title).1 := by
  have hsession : (s.launch platform path registers resumed).session =
      { s.session.onLaunch title with launched := true } := by
    unfold SystemTitle.launch
    rw [hemulator, hloaded]
    dsimp only
    rw [launch_eq hemulator, hloaded, Option.elim_some]
  rw [hsession]
  exact ⟨rfl, rfl⟩

/-- What a session with its title's overrides admits, it admits with those of the next title. -/
theorem WellHeld.admits_launched (h : s.WellHeld) {u : TitleThread} (hu : u ∈ s.threads)
    (title : LoadedTitle) : u.Sound s.session.config.overrides ∧
      (u.refused = true → u.Held) ∧ (u.refused = false → u.title.Accepted s.session.config ∧
        (s.session.activateTitle title).1.Serves s.session.config.overrides) := by
  obtain ⟨hsound, hheld, hadmitted⟩ := h.threads u hu
  refine ⟨hsound, hheld, fun hrefused => ?_⟩
  obtain ⟨haccepted, hserves⟩ := hadmitted hrefused
  exact ⟨haccepted, SystemSession.activateTitle_keeps h.stocked hserves⟩

theorem WellHeld.launch (h : s.WellHeld) (path : LaunchPath) (registers : GuestRegisters)
    (resumed : Bool) : (s.launch platform path registers resumed).WellHeld := by
  cases hemulator : s.session.emulator with
  | false =>
    have hsame : s.launch platform path registers resumed = s := by
      unfold SystemTitle.launch SystemSession.launch
      rw [hemulator, if_pos Bool.false_ne_true]
    rwa [hsame]
  | true =>
    cases hloaded : path.loaded with
    | none =>
      unfold SystemTitle.launch
      rw [hemulator, hloaded, launch_eq hemulator, hloaded]
      exact ⟨h.stocked, fun t ht =>
        ⟨(h.threads t ht).sound, (h.threads t ht).held, (h.threads t ht).admitted⟩⟩
    | some title =>
      obtain ⟨hconfig, hoverrides⟩ :
          (s.launch platform path registers resumed).session.config = s.session.config ∧
            (s.launch platform path registers resumed).session.overrides =
              (s.session.activateTitle title).1 :=
        launch_loaded registers resumed hemulator hloaded
      refine ⟨?_, fun t ht => ?_⟩
      · rw [hconfig, hoverrides]
        exact SystemSession.activateTitle_stocked h.stocked
      · have hadmits : t.Sound s.session.config.overrides ∧ (t.refused = true → t.Held) ∧
            (t.refused = false → t.title.Accepted s.session.config ∧
              (s.session.activateTitle title).1.Serves s.session.config.overrides) := by
          rcases mem_launch hemulator hloaded ht with ⟨u, hu, hcase⟩ | ⟨count, rfl, hheld⟩
          · obtain ⟨hsound, hold, hadmitted⟩ := h.admits_launched hu title
            rcases hcase with rfl | rfl
            · exact ⟨hsound, hold, hadmitted⟩
            · refine ⟨hsound.suspended _, fun hrefused => ?_, hadmitted⟩
              have hold := hold hrefused
              exact ⟨hold.1, Nat.succ_pos _, hold.2.2⟩
          · refine ⟨TitleThread.sound_new _ _ _ _ _ _, fun hrefused => ?_, fun hrefused => ?_⟩
            · exact ⟨rfl, hheld (of_decide_eq_true hrefused), rfl⟩
            · have hok := of_decide_eq_false hrefused
              exact SystemSession.activateTitle_accepted h.stocked (Decidable.not_not.1 hok)
        refine ⟨?_, hadmits.2.1, ?_⟩
        · rw [hconfig]
          exact hadmits.1
        · rw [hconfig, hoverrides]
          exact hadmits.2.2

/-- **One step.** -/
theorem WellHeld.step (h : s.WellHeld) {event : TitleEvent} (hresumes : s.ResumesNoRefused event)
    (hs : s.step platform event = some s') : s'.WellHeld := by
  cases event with
  | launch path registers resumed =>
    obtain ⟨-, hs⟩ := Option.ite_none_left_eq_some.1 hs
    cases hs
    exact h.launch path registers resumed
  | run thread event => exact h.onThread hs
  | overrideReturn thread result => exact h.overrideReturn hs
  | spawn thread registers suspended => exact h.spawn hs
  | suspend thread target => exact h.suspend hs
  | resume thread target => exact h.resume hresumes hs
  | destroy =>
    obtain ⟨-, hs⟩ := Option.ite_none_left_eq_some.1 hs
    cases hs
    exact h.of_threads fun u hu => .inl hu

end

end SystemTitle

/-! ## Runs -/

/-- A guest call that enters an override. -/
def TitleEvent.callsOverride : TitleEvent → Bool
  | .run _ (.call _) => true
  | _ => false

/-- What holds of a session after the events, whatever they were. -/
structure TitleRuns (config : SystemSessionConfig) (events : List TitleEvent)
    (s : SystemTitle) : Prop where
  /-- A title that fails the identity check or refuses an override runs no instruction. -/
  running : ∀ thread t, s.running thread = some t →
    t.title.Accepted config ∧ s.session.overrides.Serves config.overrides
  handlers : ∀ t ∈ s.threads, ∀ call ∈ t.handlerCalls, t.title.Accepted config ∧
    overrideCall config.overrides call.address call.arguments = some call
  nested : ∀ t ∈ s.threads, TitleThread.Nested t.frames t.registers.linkage t.pending
  restored : ∀ t ∈ s.threads, ∀ call ∈ t.finished, call.after = call.before
  counted : s.nativeOverrideCalls = .ofNat (events.countP (·.callsOverride))
  /-- Nothing happens after an override has failed. -/
  failed : ∀ front thread result rest, events = front ++ .overrideReturn thread result :: rest →
    ¬ result.Ok → rest = []

namespace SystemTitle

section

variable {platform : Platform} {s s' : SystemTitle} {thread : Nat} {t : TitleThread}

theorem onThread_session {event : ThreadEvent} (hs : s.onThread thread event = some s') :
    s'.session = s.session ∧ s'.nativeOverrideCalls =
      s.nativeOverrideCalls + .ofNat (TitleEvent.run thread event).callsOverride.toNat := by
  obtain ⟨t, -, hs⟩ := Option.bind_eq_some_iff.1 hs
  obtain ⟨t', -, hs⟩ := Option.bind_eq_some_iff.1 hs
  cases hs
  cases event <;> first | exact ⟨rfl, rfl⟩ | exact ⟨rfl, (UInt64.add_zero _).symm⟩

/-- A step counts the override that it calls, and no step changes the configuration. -/
theorem step_counts {event : TitleEvent} (hs : s.step platform event = some s') :
    s'.session.config = s.session.config ∧
      s'.nativeOverrideCalls = s.nativeOverrideCalls + .ofNat event.callsOverride.toNat := by
  have hzero := (UInt64.add_zero s.nativeOverrideCalls).symm
  cases event with
  | launch path registers resumed =>
    obtain ⟨-, hs⟩ := Option.ite_none_left_eq_some.1 hs
    cases hs
    unfold launch
    cases hemulator : s.session.emulator with
    | false =>
      unfold SystemSession.launch
      rw [hemulator, if_pos Bool.false_ne_true]
      exact ⟨rfl, hzero⟩
    | true =>
      rw [launch_eq hemulator]
      cases path.loaded <;> exact ⟨rfl, hzero⟩
  | run thread event =>
    obtain ⟨hsession, hcalls⟩ := onThread_session hs
    exact ⟨congrArg SystemSession.config hsession, hcalls⟩
  | overrideReturn thread result =>
    simp only [step, overrideReturn] at hs
    split at hs
    · obtain ⟨hsession, hcalls⟩ := onThread_session hs
      exact ⟨congrArg SystemSession.config hsession, hcalls⟩
    · obtain ⟨t, -, hs⟩ := Option.bind_eq_some_iff.1 hs
      split at hs
      · cases hs
        exact ⟨rfl, hzero⟩
      · cases hs
  | spawn thread registers suspended =>
    obtain ⟨t, -, hs⟩ := Option.bind_eq_some_iff.1 hs
    obtain ⟨-, hs⟩ := Option.ite_none_right_eq_some.1 hs
    cases hs
    exact ⟨rfl, hzero⟩
  | suspend thread target =>
    obtain ⟨t, -, hs⟩ := Option.bind_eq_some_iff.1 hs
    obtain ⟨-, hs⟩ := Option.ite_none_right_eq_some.1 hs
    cases hs
    exact ⟨rfl, hzero⟩
  | resume thread target =>
    obtain ⟨t, -, hs⟩ := Option.bind_eq_some_iff.1 hs
    obtain ⟨-, hs⟩ := Option.ite_none_right_eq_some.1 hs
    cases hs
    exact ⟨rfl, hzero⟩
  | destroy =>
    obtain ⟨-, hs⟩ := Option.ite_none_left_eq_some.1 hs
    cases hs
    exact ⟨rfl, hzero⟩

/-- The counter of a run. -/
theorem play_counts {events : List TitleEvent} (hs : play (step platform) s events = some s') :
    s'.session.config = s.session.config ∧ s'.nativeOverrideCalls =
      s.nativeOverrideCalls + .ofNat (events.countP (·.callsOverride)) := by
  induction events generalizing s with
  | nil =>
    cases hs
    exact ⟨rfl, (UInt64.add_zero _).symm⟩
  | cons event events ih =>
    obtain ⟨s1, h1, hs⟩ := play_cons_iff.1 hs
    obtain ⟨hconfig, hcalls⟩ := step_counts h1
    obtain ⟨hconfig', hcalls'⟩ := ih hs
    refine ⟨hconfig'.trans hconfig, ?_⟩
    rw [hcalls', hcalls, List.countP_cons, UInt64.add_assoc, ← UInt64.ofNat_add]
    congr 2
    cases event.callsOverride with
    | true => exact Nat.add_comm _ _
    | false => exact Nat.zero_add _

/-- Nothing steps in a process that has ended. -/
theorem step_of_ended (h : s.ended.isSome) (event : TitleEvent) : s.step platform event = none := by
  have hrunning : ∀ thread, s.running thread = none := fun thread => running_of_ended h
  have honThread : ∀ thread event, s.onThread thread event = none := by
    intro thread event
    unfold onThread
    rw [hrunning]
    rfl
  cases event with
  | launch path registers resumed => exact if_pos h
  | run thread event => exact honThread thread event
  | overrideReturn thread result =>
    simp only [step, overrideReturn, honThread, hrunning]
    exact ite_self _
  | spawn thread registers suspended => simp only [step, spawn, hrunning]; rfl
  | suspend thread target => simp only [step, suspend, hrunning]; rfl
  | resume thread target => simp only [step, resume, hrunning]; rfl
  | destroy => exact if_pos h

/-- A handler that fails ends the process. -/
theorem overrideReturn_failed {result : ExecutionResult} (hfailed : ¬ result.Ok)
    (hs : s.step platform (.overrideReturn thread result) = some s') : s'.ended.isSome := by
  simp only [step, overrideReturn, if_neg hfailed] at hs
  obtain ⟨t, -, hs⟩ := Option.bind_eq_some_iff.1 hs
  split at hs
  · cases hs
    rfl
  · cases hs

/-- **Main result.** -/
theorem play_titleRuns {config : SystemSessionConfig} (hcomposed : Composes platform config)
    {events : List TitleEvent}
    (hresumes : EveryStep (step platform) ResumesNoRefused
      { session := (SystemSession.initializeSession platform config).1 } events)
    (hs : play (step platform)
      { session := (SystemSession.initializeSession platform config).1 } events = some s) :
    TitleRuns config events s := by
  rw [initializeSession_eq hcomposed] at hs hresumes
  obtain ⟨hconfig, hcalls⟩ := play_counts hs
  have hkept : s.WellHeld := by
    apply play_invariant_where (P := WellHeld)
      (fun s e s' h hresumes hstep => h.step hresumes hstep) ?_ hresumes hs
    exact ⟨⟨rfl, OverrideDispatch.linked_fresh true, nofun⟩, nofun⟩
  have hsame : s.session.config = config := hconfig
  refine ⟨fun thread t ht => ?_, fun t ht call hcall => ?_, fun t ht => ?_, fun t ht => ?_, ?_, ?_⟩
  · rw [← hsame]
    exact (hkept.running ht).2.2
  · obtain ⟨hsound, hheld, hadmitted⟩ := hkept.threads t ht
    cases hrefused : t.refused with
    | true =>
      unfold TitleThread.handlerCalls at hcall
      rw [(hheld hrefused).2.2] at hcall
      cases hcall
    | false =>
      rw [← hsame]
      exact ⟨(hadmitted hrefused).1, hsound.handlers call hcall⟩
  · exact (hkept.threads t ht).sound.nested
  · exact (hkept.threads t ht).sound.restored
  · rw [hcalls]
    exact UInt64.zero_add _
  · rintro front thread result rest rfl hfailed
    rw [play_append] at hs
    obtain ⟨s1, -, hs⟩ := Option.bind_eq_some_iff.1 hs
    obtain ⟨s2, h2, hs⟩ := play_cons_iff.1 hs
    cases rest with
    | nil => rfl
    | cons event rest =>
      obtain ⟨s3, h3, -⟩ := play_cons_iff.1 hs
      rw [step_of_ended (overrideReturn_failed hfailed h2)] at h3
      cases h3

end

section Titles

def consolePlatform : Platform where
  pathExists _ := true
  isAbsolute _ := true
  isGamertagValid _ := true
  acquired := true
  directoryError := none
  setup := 0
  gamepadSetup := 0
  hasAccounts := true
  createProfile := true
  signedIn := true
  failed status := status != 0

/-- A title with one override. -/
def overriddenConfig : SystemSessionConfig where
  titlePath := "title.xex"
  storageRoot := "/storage"
  expectedTitleId := 0x58410001
  inputState := true
  inputCapabilities := true
  overrides := [{ address := 0x82000010, handler := some ⟨1⟩ }]

theorem composes_overridden : Composes consolePlatform overriddenConfig where
  valid := ⟨by decide, rfl, ⟨by decide, rfl⟩, .inl rfl, ⟨rfl, rfl⟩, by decide, by decide,
    by decide, by simp [overriddenConfig]⟩
  acquired := rfl
  directories := rfl
  setup := rfl
  gamepads := nofun
  player := .inl rfl

def overriddenTitle : LoadedTitle where
  titleId := 0x58410001
  text := some ⟨0x82000000, 0x1000⟩
  accepts _ := true

/-- The main thread is inside the original body when a thread that it has made suspends it,
resumes it and enters the same override; the body does not put `r1` and `lr` back. -/
def twoCalls : List TitleEvent :=
  [.launch ⟨some overriddenTitle, 0⟩ {} true, .run 0 (.call 0x82000010),
    .run 0 (.callOriginalBody [7] true), .spawn 0 {} false, .suspend 1 0, .resume 1 0,
    .run 1 (.call 0x82000010), .run 0 (.compute { lr := 5 }), .run 0 (.originalReturn true),
    .overrideReturn 1 ⟨{}, 3⟩, .overrideReturn 0 ⟨{}, 4⟩]

theorem play_titleRuns_twoCalls : ∃ s,
    play (step consolePlatform)
      { session := (SystemSession.initializeSession consolePlatform overriddenConfig).1 }
      twoCalls = some s ∧
    s.nativeOverrideCalls = 2 ∧ s.threads.map (·.finished.length) = [2, 1] ∧
      ∀ t ∈ s.threads, ∀ call ∈ t.finished, call.after = call.before := by
  have hrun : (play (step consolePlatform)
      { session := (SystemSession.initializeSession consolePlatform overriddenConfig).1 }
      twoCalls).map (·.threads.map (·.finished.length)) = some [2, 1] := by
    rw [initializeSession_eq composes_overridden]
    decide +kernel
  have hresumes : EveryStep (step consolePlatform) ResumesNoRefused
      { session := (SystemSession.initializeSession consolePlatform overriddenConfig).1 }
      twoCalls := by
    rw [initializeSession_eq composes_overridden]
    decide +kernel
  obtain ⟨s, hs, hfinished⟩ := Option.map_eq_some_iff.1 hrun
  have hruns := play_titleRuns composes_overridden hresumes hs
  exact ⟨s, hs, hruns.counted, hfinished, hruns.restored⟩

end Titles

end SystemTitle

end X360Port
