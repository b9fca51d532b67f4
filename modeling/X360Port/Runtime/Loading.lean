import X360Port.ExecutableInvalidation.Interleaving
import X360Port.Library.Machine
import X360Port.Runtime
import X360Port.RuntimeImports.PatchedImports

/-!
# What a load can do

A call of `LoadModule` either leaves the context as it is, or it takes the
image range and then stops before the watch, is refused the watch, or loads the
module (`Loading`). `ReachesArming` is the condition on the call and the context
before it under which the watch is asked for.
-/

namespace X360Port

open Library

/-- Xenia grants the watch on the call's code range. -/
def LoadCall.Armed (call : LoadCall) : Prop :=
  (({} : ExecutableInvalidation).arm call.module.descriptor.code call.registered call.enabled).2.Ok

instance LoadCall.decidableArmed (call : LoadCall) : Decidable call.Armed := by
  unfold LoadCall.Armed; infer_instance

namespace Runtime

/-- No call has mapped an image. -/
def Idle (s : Runtime) : Prop := s.loadFailed = false ∧ s.module = false

/-- The call passes validation, gets its range and has its imports and its module taken. -/
structure ReachesArming (lookupHeap : GuestAddress → Bool) (s : Runtime) (call : LoadCall)
    (imports : RuntimeImports) (guest : Attachment) : Prop where
  idle : s.Idle
  module : (validateModule call.module).Ok
  bindings : (validateImports call.module call.bindings).Ok
  created : RuntimeImports.create call.module.importManifest call.bindings =
    .ok ⟨some imports, {}⟩
  heap : lookupHeap call.module.descriptor.image.base = true
  allocated : call.allocFixed = true
  attached : ∃ failure, failure.Ok ∧
    imports.attach call.symbols (s.copyImage call.module).guest = (guest, .returned failure)
  registered : call.addModule = .accepted

/-- The module is registered, with its code range, its image and its watch. -/
def registeredWith (s : Runtime) (call : LoadCall) (imports : RuntimeImports)
    (guest : Attachment) : Runtime :=
  { s with
    guest := guest
    imports := some imports
    module := true
    codeRange := call.module.descriptor.code
    imageAddress := call.module.descriptor.image.base
    invalidation := some (({} : ExecutableInvalidation).arm call.module.descriptor.code
      call.registered call.enabled).1 }

/-- What a call of `LoadModule` can do. -/
inductive Loading (lookupHeap : GuestAddress → Bool) (s : Runtime) (call : LoadCall) :
    Runtime → CallOutcome → Prop
  | refused (failure : RuntimeFailure) (hf : ¬ failure.Ok)
      (hr : ∀ imports guest, ¬ s.ReachesArming lookupHeap call imports guest) :
      Loading lookupHeap s call s (.returned failure)
  | stopped (imports : RuntimeImports) (guest : Attachment) (outcome : CallOutcome)
      (hi : s.Idle) (hf : ¬ outcome.Succeeded)
      (hr : ∀ imports guest, ¬ s.ReachesArming lookupHeap call imports guest) :
      Loading lookupHeap s call
        ({ s.taken call.module.descriptor.image.base with
            guest := guest
            imports := some imports
            loadFailed := true }.givenBack call.module.descriptor.image.base) outcome
  | unwatched (imports : RuntimeImports) (guest : Attachment) (failure : RuntimeFailure)
      (hr : s.ReachesArming lookupHeap call imports guest) (ha : ¬ call.Armed)
      (hf : ¬ failure.Ok) :
      Loading lookupHeap s call
        ({ (s.taken call.module.descriptor.image.base).registeredWith call imports guest with
            loadFailed := true }.givenBack call.module.descriptor.image.base) (.returned failure)
  | loaded (imports : RuntimeImports) (guest : Attachment)
      (hr : s.ReachesArming lookupHeap call imports guest) (ha : call.Armed) :
      Loading lookupHeap s call
        ((s.taken call.module.descriptor.image.base).registeredWith call imports guest)
        (.returned {})

section

variable {lookupHeap : GuestAddress → Bool} {s : Runtime} {call : LoadCall}

/-- A call that gets its range allocated. -/
structure Maps (lookupHeap : GuestAddress → Bool) (s : Runtime) (call : LoadCall)
    (imports : RuntimeImports) : Prop where
  idle : s.Idle
  module : (validateModule call.module).Ok
  bindings : (validateImports call.module call.bindings).Ok
  created : RuntimeImports.create call.module.importManifest call.bindings =
    .ok ⟨some imports, {}⟩
  heap : lookupHeap call.module.descriptor.image.base = true
  allocated : call.allocFixed = true

/-- The watch of a loaded module is where the runs of `WatchState` start. -/
theorem registeredWith_invalidation (imports : RuntimeImports) (guest : Attachment)
    (ha : call.Armed) : (s.registeredWith call imports guest).invalidation =
      some (WatchState.armed call.module.descriptor.code).invalidation :=
  congrArg some (ExecutableInvalidation.arm_of_ok ha)

theorem attachImports_of_attach {imports : RuntimeImports} {guest : Attachment}
    {outcome : CallOutcome} (h : imports.attach call.symbols s.guest = (guest, outcome)) :
    s.attachImports call imports =
      match outcome with
      | .threw =>
        ({ s with imports := some imports, guest := guest, loadFailed := true }, .threw, false)
      | .returned failure =>
        if ¬ failure.Ok then
          ({ s with imports := some imports, guest := guest, loadFailed := true },
            .returned failure, false)
        else registerModule { s with imports := some imports, guest := guest } call := by
  unfold attachImports
  simp only [h]
  cases outcome <;> rfl

/-- Attaching is refused, or throws. -/
theorem not_reachesArming_of_attach {imports : RuntimeImports} {guest : Attachment}
    {outcome : CallOutcome} (hm : s.Maps lookupHeap call imports)
    (h : imports.attach call.symbols (s.copyImage call.module).guest = (guest, outcome))
    (hf : ¬ outcome.Succeeded) :
    ∀ imports guest, ¬ s.ReachesArming lookupHeap call imports guest := by
  intro imports' guest' hr
  obtain ⟨failure, hok, ha⟩ := hr.attached
  have hc := hm.created.symm.trans hr.created
  cases hc
  rw [h] at ha
  cases ha
  exact hf hok

/-- A mapped image: what happens under the reservation. -/
theorem mapImage_loading {imports : RuntimeImports} (h : s.Maps lookupHeap call imports) :
    Loading lookupHeap s call (s.mapImage lookupHeap call imports).1
      (s.mapImage lookupHeap call imports).2 := by
  have hmap : ¬ (¬ lookupHeap call.module.descriptor.image.base = true ∨
      ¬ call.allocFixed = true) := by
    rw [h.heap, h.allocated]
    decide
  unfold mapImage
  rw [if_neg hmap]
  rcases hattach : imports.attach call.symbols (s.copyImage call.module).guest with
    ⟨guest, outcome⟩
  rw [attachImports_of_attach (s := (s.taken _).copyImage call.module) hattach]
  cases outcome with
  | threw =>
    exact .stopped imports guest .threw h.idle id (not_reachesArming_of_attach h hattach id)
  | returned failure =>
    simp only
    by_cases hf : failure.Ok
    swap
    · rw [if_pos hf]
      exact .stopped imports guest _ h.idle hf (not_reachesArming_of_attach h hattach hf)
    rw [if_neg (not_not_intro hf)]
    have hnot : call.addModule ≠ .accepted →
        ∀ imports guest, ¬ s.ReachesArming lookupHeap call imports guest :=
      fun hadd _ _ hr => hadd hr.registered
    unfold registerModule
    split
    · next hadd => exact .stopped imports guest .threw h.idle id (hnot (by rw [hadd]; nofun))
    · next hadd =>
      exact .stopped imports guest _ h.idle RuntimeError.noConfusion (hnot (by rw [hadd]; nofun))
    · next hadd =>
      have hreach : s.ReachesArming lookupHeap call imports guest :=
        ⟨h.idle, h.module, h.bindings, h.created, h.heap, h.allocated, ⟨failure, hf, hattach⟩,
          hadd⟩
      unfold armModule
      simp only
      split
      · next hw => exact .unwatched imports guest _ hreach hw hw
      · next hw => exact .loaded imports guest hreach (Decidable.not_not.1 hw)

/-- **What a load can do**, for every call on every context; it is always defined. -/
theorem loadModule_loading (lookupHeap : GuestAddress → Bool) (s : Runtime) (call : LoadCall) :
    ∃ s' outcome, s.loadModule lookupHeap call = .ok (s', outcome) ∧
      Loading lookupHeap s call s' outcome := by
  unfold loadModule
  by_cases hfailed : s.loadFailed = true
  · rw [if_pos hfailed]
    exact ⟨_, _, rfl, .refused _ RuntimeError.noConfusion fun _ _ hr =>
      Bool.noConfusion (hfailed.symm.trans hr.idle.1)⟩
  rw [if_neg hfailed]
  by_cases hmodule : s.module = true
  · rw [if_pos hmodule]
    exact ⟨_, _, rfl, .refused _ RuntimeError.noConfusion fun _ _ hr =>
      Bool.noConfusion (hmodule.symm.trans hr.idle.2)⟩
  rw [if_neg hmodule]
  by_cases hm : (validateModule call.module).Ok
  swap
  · rw [if_pos hm]
    exact ⟨_, _, rfl, .refused _ RuntimeError.noConfusion fun _ _ hr => hm hr.module⟩
  rw [if_neg (not_not_intro hm)]
  by_cases hb : (validateImports call.module call.bindings).Ok
  swap
  · rw [if_pos hb]
    exact ⟨_, _, rfl, .refused _ RuntimeError.noConfusion fun _ _ hr => hb hr.bindings⟩
  rw [if_neg (not_not_intro hb)]
  rcases create_defined ((validateImports_ok_iff _ _).1 hb) with hc | ⟨hc, -⟩
  · rw [hc]
    refine ⟨(s.mapImage lookupHeap call _).1, (s.mapImage lookupHeap call _).2, rfl, ?_⟩
    have hidle : s.Idle := ⟨Bool.eq_false_iff.2 hfailed, Bool.eq_false_iff.2 hmodule⟩
    by_cases hmap : lookupHeap call.module.descriptor.image.base = true ∧ call.allocFixed = true
    · exact mapImage_loading ⟨hidle, hm, hb, hc, hmap.1, hmap.2⟩
    · have hrefused : ¬ lookupHeap call.module.descriptor.image.base = true ∨
          ¬ call.allocFixed = true := Decidable.not_and_iff_not_or_not.1 hmap
      unfold mapImage
      rw [if_pos hrefused]
      exact .refused _ RuntimeError.noConfusion fun _ _ hr => hmap ⟨hr.heap, hr.allocated⟩
  · rw [hc]
    refine ⟨_, _, rfl, .refused _ RuntimeError.noConfusion fun _ _ hr => ?_⟩
    have := hc.symm.trans hr.created
    cases this

end

end Runtime

/-! ## Runs -/

/-- A context and how its loads have ended, the last one first. -/
structure LoadHistory where
  context : Runtime
  outcomes : List CallOutcome := []

namespace LoadHistory

/-- A created context. -/
def start (memory : Memory UInt8) : LoadHistory := { context := .fresh memory }

def step (lookupHeap : GuestAddress → Bool) (h : LoadHistory) (call : LoadCall) :
    Option LoadHistory :=
  match h.context.loadModule lookupHeap call with
  | .ok (s, outcome) => some ⟨s, outcome :: h.outcomes⟩
  | .error _ => none

/-- Some load has succeeded. -/
def Loaded (h : LoadHistory) : Prop := ∃ outcome ∈ h.outcomes, outcome.Succeeded

/-- The calls that ask for the watch are granted it. -/
def WatchGranted (lookupHeap : GuestAddress → Bool) (h : LoadHistory) (call : LoadCall) : Prop :=
  ∀ imports guest, h.context.ReachesArming lookupHeap call imports guest → call.Armed

theorem step_of_loadModule {lookupHeap : GuestAddress → Bool} {h : LoadHistory} {call : LoadCall}
    {s : Runtime} {outcome : CallOutcome}
    (hl : h.context.loadModule lookupHeap call = .ok (s, outcome)) :
    h.step lookupHeap call = some ⟨s, outcome :: h.outcomes⟩ := by
  rw [step, hl]

end LoadHistory

/-- A load of the synthetic module; `granted` is Xenia's answer to the watch. -/
def syntheticLoad (granted : Bool) : LoadCall where
  module := syntheticModule syntheticImports
  bindings := syntheticBindings
  symbols := plainXenia
  registered := granted

theorem syntheticLoad_reachesArming (memory : Memory UInt8) (granted : Bool) :
    ∃ guest, (Runtime.fresh memory).ReachesArming (fun _ => true) (syntheticLoad granted)
      ⟨tablesOf syntheticImports syntheticBindings⟩ guest := by
  have hw := wellFormed_of_ok syntheticImports_accepted
  have hbound : (validateImports (syntheticModule syntheticImports) syntheticBindings).Ok := by
    decide
  obtain ⟨guest, hattach, -⟩ := attach_tablesOf hw.imports hw.apart hw.ordered
    ((validateImports_ok_iff _ _).1 hbound) (plainXenia_finds (by decide)) plainXenia_declares
    ((Runtime.fresh memory).copyImage (syntheticModule syntheticImports)).memory
  have hcreated : RuntimeImports.create syntheticImports syntheticBindings =
      .ok ⟨some ⟨tablesOf syntheticImports syntheticBindings⟩, {}⟩ := by
    decide
  exact ⟨guest, ⟨rfl, rfl⟩, syntheticImports_accepted, hbound, hcreated, rfl, rfl,
    ⟨{}, rfl, hattach⟩, rfl⟩

end X360Port
