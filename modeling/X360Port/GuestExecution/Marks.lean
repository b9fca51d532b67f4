import X360Port.GuestExecution.Thread

/-!
# What a mark leaves alone

The marks and the counted blocks write into scopes: budgets, detail slots and
the history. None of them touches a register, a counter or the registers that
a scope is going to restore. `Frame.call` is what is left of a frame when the
written parts are forgotten, and `OnlyMarks` says that two threads differ in
nothing else.
-/

namespace X360Port

/-- The kind of a frame, with the registers that its end restores. -/
inductive CallFrame where
  | translated (stackPointer linkRegister : UInt64)
  | interpreted
  | handler
  | entered
  deriving DecidableEq, Repr

def Frame.call : Frame → CallFrame
  | .scope sc => .translated sc.previousStackPointer sc.previousLinkRegister
  | .interpreter => .interpreted
  | .native .hostOverride _ => .handler
  | .native _ _ => .entered

/-- A change of a scope that keeps what it restores. -/
def KeepsSaved (f : Scope → Scope) : Prop :=
  ∀ scope, (f scope).previousStackPointer = scope.previousStackPointer ∧
    (f scope).previousLinkRegister = scope.previousLinkRegister

theorem call_scope_of_keepsSaved {f : Scope → Scope} (h : KeepsSaved f) (scope : Scope) :
    (Frame.scope (f scope)).call = (Frame.scope scope).call := by
  simp only [Frame.call, h scope]

theorem call_modifyInnermost {f : Scope → Scope} (h : KeepsSaved f) (frames : List Frame) :
    (modifyInnermost f frames).map Frame.call = frames.map Frame.call := by
  induction frames with
  | nil => rfl
  | cons frame rest ih =>
    cases frame with
    | scope scope =>
      simp only [modifyInnermost, List.map_cons, call_scope_of_keepsSaved h]
    | native entry received => exact congrArg (_ :: ·) ih
    | interpreter => exact congrArg (_ :: ·) ih

theorem call_modifyScope {f : Scope → Scope} (h : KeepsSaved f) (id : Nat) (frames : List Frame) :
    (modifyScope id f frames).map Frame.call = frames.map Frame.call := by
  rw [modifyScope, List.map_map]
  refine List.map_congr_left fun frame _ => ?_
  cases frame with
  | scope scope =>
    simp only [Function.comp, Frame.mapScope]
    split
    · exact call_scope_of_keepsSaved h scope
    · rfl
  | native entry received => rfl
  | interpreter => rfl

theorem call_receive (result : ExecutionResult) (frames : List Frame) :
    (receive result frames).map Frame.call = frames.map Frame.call := by
  rcases frames with _ | ⟨_ | ⟨_ | _ | _, _⟩ | _, rest⟩ <;> rfl

namespace GuestThread

/-- The threads differ in what marks write. -/
structure OnlyMarks (s s' : GuestThread) : Prop where
  registers : s'.registers = s.registers
  statistics : s'.statistics = s.statistics
  calls : s'.frames.map Frame.call = s.frames.map Frame.call

theorem OnlyMarks.refl (s : GuestThread) : OnlyMarks s s := ⟨rfl, rfl, rfl⟩

theorem OnlyMarks.trans {s s' s'' : GuestThread} (h : OnlyMarks s s') (h' : OnlyMarks s' s'') :
    OnlyMarks s s'' where
  registers := h'.registers.trans h.registers
  statistics := h'.statistics.trans h.statistics
  calls := h'.calls.trans h.calls

section

variable (s : GuestThread)

theorem onlyMarks_modifyScope {f : Scope → Scope} (h : KeepsSaved f) (id : Nat) :
    OnlyMarks s { s with frames := modifyScope id f s.frames } :=
  ⟨rfl, rfl, call_modifyScope h id s.frames⟩

theorem onlyMarks_addMark (event : ExitEvent) : OnlyMarks s (s.addMark event) := by
  refine ⟨rfl, rfl, call_modifyInnermost ?_ s.frames⟩
  exact fun _ => ⟨rfl, rfl⟩

theorem onlyMarks_setExitReason (pointer : Nat) (reason : GuestExecutionExitReason) :
    OnlyMarks s (s.setExitReason pointer reason) := by
  refine s.onlyMarks_modifyScope ?_ pointer
  exact fun _ => ⟨rfl, rfl⟩

/-- Writing a detail slot and then the reason. -/
theorem onlyMarks_setDetail {f : Scope → Scope} (h : KeepsSaved f) (slot pointer : Nat)
    (reason : GuestExecutionExitReason) :
    OnlyMarks s ({ s with frames := modifyScope slot f s.frames }.setExitReason pointer reason) :=
  (s.onlyMarks_modifyScope h slot).trans (onlyMarks_setExitReason _ pointer reason)

theorem onlyMarks_markGuestOverrideFailed (failure : RuntimeFailure) :
    OnlyMarks s (s.markGuestOverrideFailed failure) := by
  unfold markGuestOverrideFailed
  split
  · next budget slot _ _ =>
    have hmark := s.onlyMarks_addMark (.overrideFailed failure)
    simp only
    split
    · refine hmark.trans (onlyMarks_setDetail _ ?_ slot budget _)
      exact fun _ => ⟨rfl, rfl⟩
    · exact hmark
  · exact ⟨rfl, rfl, rfl⟩

theorem onlyMarks_markGuestImportRefused (refusal : GuestImportRefusal) :
    OnlyMarks s (s.markGuestImportRefused refusal) := by
  unfold markGuestImportRefused
  split
  · next budget slot _ _ =>
    have hmark := s.onlyMarks_addMark (.importRefused refusal)
    simp only
    split
    · refine hmark.trans (onlyMarks_setDetail _ ?_ slot budget _)
      exact fun _ => ⟨rfl, rfl⟩
    · exact hmark
  · exact ⟨rfl, rfl, rfl⟩

theorem onlyMarks_markGuestExecutableWriteObserved :
    OnlyMarks s s.markGuestExecutableWriteObserved := by
  have hmark := s.onlyMarks_addMark .executableWrite
  unfold markGuestExecutableWriteObserved
  simp only
  split
  · split
    · exact hmark.trans (onlyMarks_setExitReason _ _ _)
    · exact hmark
  · exact hmark

theorem onlyMarks_exhaustBudget : OnlyMarks s s.exhaustBudget := by
  unfold exhaustBudget
  split
  · split
    · exact (s.onlyMarks_addMark .budgetExhausted).trans (onlyMarks_setExitReason _ _ _)
    · exact .refl s
  · exact .refl s

theorem onlyMarks_claimFault (guard : GuestFaultGuard) (exception : GuestException) :
    OnlyMarks s (s.claimFault guard exception) := by
  unfold claimFault
  split
  · exact .refl s
  · split
    · exact .refl s
    · split
      · exact .refl s
      · next budget _ _ =>
        have hmark := s.onlyMarks_addMark
          (.accessViolation budget.faultGuestAddress budget.faultWasWrite)
        refine hmark.trans (onlyMarks_modifyScope _ ?_ _)
        exact fun _ => ⟨rfl, rfl⟩

theorem onlyMarks_enterBlock {s s' : GuestThread} (h : s.enterBlock = some s') :
    OnlyMarks s s' := by
  unfold enterBlock at h
  split at h
  · cases h
    exact ⟨rfl, rfl, rfl⟩
  · split at h
    · cases h
    · split at h
      · cases h
      · cases h
        refine ⟨rfl, rfl, call_modifyScope ?_ _ s.frames⟩
        exact fun _ => ⟨rfl, rfl⟩

end

end GuestThread

end X360Port
