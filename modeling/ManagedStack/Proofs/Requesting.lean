import ManagedStack.Proofs.Deferring

namespace ManagedStack

/-!
# What a request leaves

A request for a frame either redirects it, which sets one record and writes one word,
or marks the thread that owns it, or changes nothing.  A request that fails has changed
nothing either, except in one case: the record is set before the word is written, so
where the stack has no word for the return address of the frame, the record stays.
-/

open Operation

/-- Reading fails where the stack has no word. -/
theorem Stack.raises_read
    {stack : Stack}
    {address : Address}
    {cause : FrameError} :
    (stack.read address).Raises cause ↔
      ¬stack.Covers address ∧
        ∃ access, stack.index? address = .error access ∧ cause = .access access := by
  unfold read read? Probe.Raises
  rcases found : stack.index? address with access | index
  · have uncovered : ¬stack.Covers address := fun covers => by
      rw [Stack.index?_of_covers covers] at found
      cases found
    simp [uncovered, eq_comm]
  · have covers := Stack.covers_of_index? found
    have inside := Stack.index?_lt found
    simp [covers, inside, Probe.answer]

/-- An address without a word has no position. -/
theorem Stack.exists_index?_of_not_covers
    {stack : Stack}
    {address : Address}
    (uncovered : ¬stack.Covers address) :
    ∃ access, stack.index? address = .error access := by
  rcases found : stack.index? address with access | index
  · exact ⟨access, rfl⟩
  · exact (uncovered (Stack.covers_of_index? found)).elim

namespace DeoptRecords

/-- One record was set, in place of any earlier one for the same frame. -/
structure SetsOne
    (before after : DeoptRecords)
    (unitStart frameId pc : Address) :
    Prop where
  entry : after.displacedPcs.filter (isAbout unitStart frameId) =
    [⟨unitStart, frameId, pc⟩]
  others : after.displacedPcs.filter (fun entry => !isAbout unitStart frameId entry) =
    before.displacedPcs.filter fun entry => !isAbout unitStart frameId entry
  marked : after.marked = before.marked

theorem setsOne_record
    (records : DeoptRecords)
    (unitStart frameId pc : Address) :
    records.SetsOne (records.record unitStart frameId pc) unitStart frameId pc where
  entry := by
    have set : isAbout unitStart frameId ⟨unitStart, frameId, pc⟩ = true := by
      simp [isAbout]
    simp only [record, forget, List.filter_cons, set, if_true, List.filter_filter,
      Bool.and_not_self, List.filter_false]
  others := by
    have set : isAbout unitStart frameId ⟨unitStart, frameId, pc⟩ = true := by
      simp [isAbout]
    simp only [record, forget, List.filter_cons, set, Bool.not_true, Bool.false_eq_true,
      if_false, List.filter_filter, Bool.and_self]
  marked := rfl

end DeoptRecords

namespace Frame

/-- The views of frames that there are. -/
inductive IsView (env : Env) : Frame → Prop where
  | plain
      {view : View}
      (sameEnv : view.toEnv = env)
      (sp fp pc : Address) :
      IsView env (plainFrame view sp fp pc)
  | extended
      {view : View}
      (sameEnv : view.toEnv = env)
      (sp unextendedSp fp pc : Address) :
      IsView env (extendedFrame view sp unextendedSp fp pc)
  | withPc
      {view : View}
      {frame changed : Frame}
      {pc : Address}
      (sameEnv : view.toEnv = env)
      (isView : IsView env frame)
      (changes : frame.withPc view pc = .ok changed) :
      IsView env changed
  | repointed
      {view : View}
      {frame : Frame}
      (sameEnv : view.toEnv = env)
      (isView : IsView env frame)
      (pc : Address) :
      IsView env (frame.repointed view pc)

section Views

variable {env : Env} {frame : Frame} {view : View}

/-- A frame that is not redirected lies in the blob that has its address. -/
def InPlace
    (code : CodeCache)
    (frame : Frame) :
    Prop :=
  frame.deoptState ≠ .deoptimized → frame.blob = code.find? frame.pc

theorem inPlace_resolved
    (runsIn : frame.blob = view.code.find? frame.pc) :
    (frame.resolved view.records).InPlace view.code := by
  intro state
  rw [resolved_of_state state]
  exact runsIn

theorem inPlace_repointed
    (frame : Frame)
    (view : View)
    (pc : Address) :
    (frame.repointed view pc).InPlace view.code := by
  intro state
  unfold repointed at state ⊢
  dsimp only at state ⊢
  split at state
  · exact (state rfl).elim
  · rename_i unknown
    rw [if_neg unknown]

theorem inPlace_of_withPc
    {changed : Frame}
    {pc : Address}
    (changes : frame.withPc view pc = .ok changed) :
    changed.InPlace view.code := by
  unfold withPc at changes
  obtain ⟨-, -, changes⟩ := bind_eq_ok.mp changes
  obtain rfl := Except.ok.inj changes
  exact fun _ => rfl

/-- A view stands in the code that its pc is in, unless the frame is deoptimized. -/
theorem IsView.inPlace (isView : frame.IsView env) : frame.InPlace env.code := by
  cases isView with
  | plain sameEnv =>
      subst sameEnv
      exact inPlace_resolved rfl
  | extended sameEnv =>
      subst sameEnv
      exact inPlace_resolved (by rw [blob_adjust, pc_adjust, unresolved])
  | withPc sameEnv _ changes =>
      subst sameEnv
      exact inPlace_of_withPc changes
  | repointed sameEnv =>
      subst sameEnv
      exact inPlace_repointed _ _ _

end Views

section Requests

variable {frame seen : Frame} {env : Env} {before after : Machine}
  {request : DeoptRequest} {blob : Blob} {compiled : CompiledUnit} {handler : Address}
  {cause : FrameError}

/-- Patching fails where the stack has no word to patch. -/
theorem raises_patchPc :
    (frame.patchPc env handler).Raises before cause after ↔
      ¬before.stack.Covers frame.returnSlot ∧ after = before ∧
        ∃ access, before.stack.index? frame.returnSlot = .error access ∧
          cause = .access access := by
  unfold patchPc
  simp only [raises_bind, raises_ite, Machine.raises_look, Machine.raises_write,
    Machine.gives_look, gives_report, raises_report, Stack.raises_read, Stack.gives_read,
    Probe.raises_pure, false_and, and_false, exists_false, or_false, false_or]
  constructor
  · rintro (⟨-, ⟨missing, rfl⟩ | ⟨_, _, ⟨-, rfl⟩, _, _, rfl, missing⟩⟩ | ⟨-, missing⟩)
    · exact ⟨missing.1, rfl, missing.2⟩
    · exact missing
    · exact missing
  · rintro ⟨uncovered, rfl, missing⟩
    by_cases traces : env.diagnostics.tracePcPatching = true
    · exact .inl ⟨traces, .inl ⟨⟨uncovered, missing⟩, rfl⟩⟩
    · exact .inr ⟨traces, uncovered, rfl, missing⟩

/-- The machine after a frame of a blob was recorded only. -/
def recordedOnly
    (frame : Frame)
    (blob : Blob)
    (machine : Machine) :
    Machine :=
  { machine with records := machine.records.record blob.start frame.id frame.pc }

/-- A redirection that fails has set the record. -/
theorem raises_redirect :
    (frame.redirect env blob compiled).Raises before cause after ↔
      ¬before.stack.Covers frame.returnSlot ∧
        after = frame.recordedOnly blob before ∧
          ∃ access, before.stack.index? frame.returnSlot = .error access ∧
            cause = .access access := by
  unfold redirect
  simp only [Machine.updateRecords, raises_bind, raises_update, gives_update, raises_pure,
    raises_patchPc, false_or, exists_eq_left, exists_const, and_false, exists_false,
    or_false, recordedOnly]

/-- A request comes to the point at which the frame is redirected. -/
structure Proceeds
    (frame : Frame)
    (env : Env)
    (request : DeoptRequest)
    (before : Machine)
    (blob : Blob)
    (compiled : CompiledUnit) :
    Prop extends frame.Eligible blob compiled where
  allowed : (request.needsSuspend && !request.byOwner) = true →
    request.safepoint.active = true ∧
      ¬(before.thread.deoptSuspended && before.thread.mustDeoptId == frame.id) = true ∧
        (frame.isReturnedToFromNative (before.view env) before.thread
          request.safepoint).Gives false

/--
A request that fails has changed nothing, unless it failed to redirect the frame.
What is refused has read the machine, and not yet written to it.
-/
theorem eq_or_proceeds_of_raises
    (raises : (frame.deoptimize env request).Raises before cause after) :
    after = before ∨ ∃ blob compiled, frame.Proceeds env request before blob compiled ∧
      (frame.redirect env blob compiled).Raises before cause after := by
  unfold deoptimize at raises
  rcases raises_ite.mp raises with ⟨-, fails⟩ | ⟨kind, raises⟩
  · exact .inl (raises_fail.mp fails).2
  rcases raises_ite.mp raises with ⟨-, never⟩ | ⟨state, raises⟩
  · exact (raises_pure never).elim
  rcases raises_ite.mp raises with ⟨-, fails⟩ | ⟨can, raises⟩
  · exact .inl (raises_fail.mp fails).2
  split at raises
  case h_2 => exact .inl (raises_fail.mp raises).2
  rename_i blob compiled runsIn unit
  have eligible : frame.Eligible blob compiled :=
    ⟨⟨not_not.mp kind, state, runsIn, by simpa [compiled?, runsIn] using unit⟩,
      by simpa using can⟩
  rcases raises_ite.mp raises with ⟨remote, raises⟩ | ⟨free, redirects⟩
  · rcases raises_ite.mp raises with ⟨-, fails⟩ | ⟨active, raises⟩
    · exact .inl (raises_fail.mp fails).2
    rcases raises_bind.mp raises with never | ⟨_, _, reads, asks⟩
    · exact (raises_state never).elim
    obtain ⟨rfl, rfl⟩ := gives_state.mp reads
    rcases raises_ite.mp asks with ⟨-, never⟩ | ⟨unmarked, looks⟩
    · exact (raises_pure never).elim
    rcases raises_bind.mp looks with fails | ⟨returns, _, sees, decides⟩
    · exact .inl (Machine.raises_look.mp fails).2
    obtain ⟨answers, rfl⟩ := Machine.gives_look.mp sees
    rcases raises_ite.mp decides with ⟨-, never⟩ | ⟨refuses, redirects⟩
    · rcases raises_bind.mp never with never | ⟨_, _, -, never⟩
      · exact (raises_update never).elim
      · exact (raises_pure never).elim
    · obtain rfl : returns = false := by simpa using refuses
      exact .inr ⟨blob, compiled, ⟨eligible, fun _ => ⟨by simpa using active, unmarked,
        answers⟩⟩, redirects⟩
  · exact .inr ⟨blob, compiled, ⟨eligible, fun remote => (free remote).elim⟩, redirects⟩

/-- Where the request comes to redirecting the frame, it fails as that does. -/
theorem Proceeds.raises_deoptimize
    (proceeds : frame.Proceeds env request before blob compiled)
    (raises : (frame.redirect env blob compiled).Raises before cause after) :
    (frame.deoptimize env request).Raises before cause after := by
  have isUnit : frame.compiled? = some compiled := by
    simp [compiled?, proceeds.runsIn, proceeds.unit]
  unfold deoptimize
  simp only [proceeds.kind, proceeds.state, proceeds.deoptimizable, proceeds.runsIn, isUnit,
    ne_eq, not_true_eq_false, if_false, Bool.not_true, Bool.false_eq_true]
  by_cases remote : (request.needsSuspend && !request.byOwner) = true
  · obtain ⟨active, unmarked, refuses⟩ := proceeds.allowed remote
    simp only [remote, active, if_true, Bool.not_true, Bool.false_eq_true, if_false]
    refine raises_bind.mpr (.inr ⟨before, before, gives_state.mpr ⟨rfl, rfl⟩, ?_⟩)
    rw [if_neg unmarked]
    exact raises_bind.mpr (.inr ⟨false, before, Machine.gives_look.mpr ⟨refuses, rfl⟩,
      raises⟩)
  · simp only [remote]
    exact raises

theorem records_redirection
    (frame : Frame)
    (blob : Blob)
    (handler : Address)
    (machine : Machine) :
    (frame.redirection blob handler machine).records =
      machine.records.record blob.start frame.id frame.pc := by
  simp only [redirection]

theorem thread_redirection
    (frame : Frame)
    (blob : Blob)
    (handler : Address)
    (machine : Machine) :
    (frame.redirection blob handler machine).thread = machine.thread := by
  rw [redirection]

/-- What a request has changed, by its answer. -/
structure Confines
    (frame : Frame)
    (env : Env)
    (request : DeoptRequest)
    (before : Machine) :
    Prop where
  /-- The frame was recorded in the unit at its address, and its return slot written. -/
  patched : ∀ handler seen after,
    (frame.deoptimize env request).Gives before (.patched handler, seen) after →
      ∃ blob compiled, env.code.find? frame.pc = some blob ∧
        blob.compiled? = some compiled ∧ handler = compiled.handlerFor frame.pc ∧
          before.records.SetsOne after.records blob.start frame.id frame.pc ∧
            before.stack.Keeps (· ≠ frame.returnSlot.toNat) after.stack ∧
              after.stack.Holds frame.returnSlot handler ∧
                after.thread = before.thread
  deferred : ∀ seen after,
    (frame.deoptimize env request).Gives before (.deferred, seen) after →
      seen = frame ∧ after = before.markedFor frame.id
  other : ∀ outcome seen after,
    (frame.deoptimize env request).Gives before (outcome, seen) after →
      outcome = .alreadyPending ∨ outcome = .alreadyDeoptimized →
        seen = frame ∧ after = before

theorem confines
    (isView : frame.IsView env)
    (request : DeoptRequest)
    (before : Machine) :
    frame.Confines env request before where
  patched := by
    intro handler seen after gives
    obtain ⟨blob, compiled, fit, rfl, covers, rfl⟩ := redirected_of_gives gives
    have runsIn : env.code.find? frame.pc = some blob :=
      (isView.inPlace fit.state).symm.trans fit.runsIn
    refine ⟨blob, compiled, runsIn, fit.unit, rfl, ?_, ?_, ?_, ?_⟩
    · rw [records_redirection]
      exact before.records.setsOne_record blob.start frame.id frame.pc
    · rw [stack_redirection]
      exact .put before.stack _ fun kept => kept rfl
    · rw [stack_redirection]
      exact Stack.holds_put_same covers
    · rw [thread_redirection]
  deferred := by
    intro seen after gives
    cases gives_deoptimize.mp gives with
    | deferred => exact ⟨rfl, rfl⟩
  other := by
    intro outcome seen after gives quiet
    cases gives_deoptimize.mp gives with
    | already | pending => exact ⟨rfl, rfl⟩
    | deferred | redirected => simp at quiet

/-- A request that fails has changed nothing, and one that answers only what it says. -/
def IsAllOrNothing (env : Env) : Prop :=
  ∀ (frame : Frame) (request : DeoptRequest) (before : Machine), frame.IsView env →
    (∀ cause after, (frame.deoptimize env request).Raises before cause after →
      after = before) ∧
    frame.Confines env request before

/-- A request that fails has left a record of a frame that it did not redirect. -/
structure LeavesRecord
    (frame : Frame)
    (env : Env)
    (request : DeoptRequest)
    (before after : Machine) :
    Prop where
  recorded : ∃ blob compiled, frame.Proceeds env request before blob compiled ∧
    env.code.find? frame.pc = some blob ∧ after = frame.recordedOnly blob before
  uncovered : ¬before.stack.Covers frame.returnSlot

/--
A request that answers has changed only what it says, and one that fails has changed
nothing, unless the stack has no word for the return address of the frame: then the
record was set already, and stays.
-/
theorem deoptimize_confined
    (isView : frame.IsView env)
    (request : DeoptRequest)
    (before : Machine) :
    (∀ after, (∃ cause, (frame.deoptimize env request).Raises before cause after) →
        after = before ∨ frame.LeavesRecord env request before after) ∧
      (∀ after, frame.LeavesRecord env request before after →
        ∃ access, (frame.deoptimize env request).Raises before (.access access) after) ∧
      frame.Confines env request before := by
  refine ⟨?_, ?_, confines isView request before⟩
  · rintro after ⟨cause, raises⟩
    rcases eq_or_proceeds_of_raises raises with same | ⟨blob, compiled, proceeds, fails⟩
    · exact .inl same
    · obtain ⟨uncovered, isAfter, -⟩ := raises_redirect.mp fails
      have runsIn : env.code.find? frame.pc = some blob :=
        (isView.inPlace proceeds.state).symm.trans proceeds.runsIn
      exact .inr ⟨⟨blob, compiled, proceeds, runsIn, isAfter⟩, uncovered⟩
  · rintro after ⟨⟨blob, compiled, proceeds, -, rfl⟩, uncovered⟩
    obtain ⟨access, missing⟩ := Stack.exists_index?_of_not_covers uncovered
    exact ⟨access, proceeds.raises_deoptimize
      (raises_redirect.mpr ⟨uncovered, rfl, access, missing, rfl⟩)⟩

end Requests

end Frame

namespace Handshake.Reentering

/-- A frame whose return address would lie below the stack. -/
def lowest : Frame :=
  Frame.plainFrame (machine.view env) 0x7f00 0 0x4010

theorem isView_lowest : lowest.IsView env :=
  @Frame.IsView.plain env (machine.view env) rfl 0x7f00 0 0x4010

theorem leavesRecord_lowest :
    lowest.LeavesRecord env stopped.ownRequest machine
      (lowest.recordedOnly compiled machine) where
  recorded := ⟨compiled, compiledUnit,
    { kind := rfl, state := by decide, runsIn := rfl, unit := rfl, deoptimizable := rfl,
      allowed := fun remote => absurd remote (by decide) }, rfl, rfl⟩
  uncovered := by
    unfold Stack.Covers
    decide

/-- The request of the owner fails and leaves a record of the frame. -/
theorem deoptimize_confined_lowest :
    lowest.IsView env ∧
      ∃ access, (lowest.deoptimize env stopped.ownRequest).Raises machine
        (.access access) (lowest.recordedOnly compiled machine) :=
  ⟨isView_lowest, (Frame.deoptimize_confined isView_lowest stopped.ownRequest
    machine).2.1 _ leavesRecord_lowest⟩

theorem not_isAllOrNothing : ¬Frame.IsAllOrNothing env := by
  intro nothing
  have raises : (lowest.deoptimize env stopped.ownRequest).Raises machine
      (.access (.outOfBounds 0x7ef8)) (lowest.recordedOnly compiled machine) :=
    ⟨rfl, rfl⟩
  have same := (nothing lowest stopped.ownRequest machine isView_lowest).1 _ _ raises
  exact absurd (congrArg (·.records.displacedPcs.length) same) (by decide)

end Handshake.Reentering

end ManagedStack
