import ManagedStack.Proofs.Transparency

namespace ManagedStack

/-!
# One activation seen by different steps

A step that follows link and return address alone takes the stack pointer of the
caller for its unextended stack pointer; a step from a frame of fixed size looks
first whether a method handle returns to the caller, and then takes the saved frame
pointer instead.  The unextended stack pointer is the identity under which the
records know a redirected frame.  So the two steps see the same activation except at
method-handle returns, and there they see it under two identities, one of which the
records do not know.
-/

open Operation

/-- The address at which a frame resumes after a request for which this was done. -/
def DeoptOutcome.resumed
    (pc : Address) :
    DeoptOutcome → Address
  | .patched handler => handler
  | _ => pc

namespace Frame

/-- Two views take what they see for one activation in one state. -/
structure SameActivation (first second : Frame) : Prop where
  id : first.id = second.id
  pc : first.pc = second.pc
  state : first.deoptState = second.deoptState

theorem SameActivation.refl (frame : Frame) : frame.SameActivation frame :=
  ⟨rfl, rfl, rfl⟩

/-- The views of an activation that steps of the two kinds build. -/
def viewsOf
    (view : View)
    (sp fp pc : Address) :
    List Frame :=
  [plainFrame view sp fp pc, extendedFrame view sp sp fp pc]

/-- It makes no difference which kind of step has built the view. -/
def ViewsAgree
    (view : View)
    (sp fp pc : Address) :
    Prop :=
  (plainFrame view sp fp pc).SameActivation (extendedFrame view sp sp fp pc)

section Views

variable {view : View} {sp fp pc : Address} {blob : Blob} {compiled : CompiledUnit}
  {seen : Frame}

theorem plainFrame_eq :
    plainFrame view sp fp pc = (arriving view false sp sp fp pc).resolved view.records :=
  rfl

theorem extendedFrame_eq :
    extendedFrame view sp sp fp pc =
      (arriving view true sp sp fp pc).resolved view.records :=
  rfl

/-- Both views are resolved from what is found at the address. -/
theorem mem_viewsOf :
    seen ∈ viewsOf view sp fp pc ↔
      ∃ adjusts, seen = (arriving view adjusts sp sp fp pc).resolved view.records := by
  simp [viewsOf, plainFrame_eq, extendedFrame_eq]

theorem sp_of_mem_viewsOf (isView : seen ∈ viewsOf view sp fp pc) : seen.sp = sp := by
  simp only [viewsOf, List.mem_cons, List.not_mem_nil, or_false] at isView
  rcases isView with rfl | rfl <;> simp

theorem blob_of_mem_viewsOf (isView : seen ∈ viewsOf view sp fp pc) :
    seen.blob = view.code.find? pc := by
  obtain ⟨adjusts, rfl⟩ := mem_viewsOf.mp isView
  unfold resolved
  split <;> simp

/-- Where no handler is, a view has the address that it was built with. -/
theorem pc_of_mem_viewsOf
    (runsIn : view.code.find? pc = some blob)
    (unit : blob.compiled? = some compiled)
    (elsewhere : compiled.isDeoptPc pc = false)
    (isView : seen ∈ viewsOf view sp fp pc) :
    seen.pc = pc := by
  obtain ⟨adjusts, rfl⟩ := mem_viewsOf.mp isView
  have notAtHandler : (arriving view adjusts sp sp fp pc).resumesAtHandler = false := by
    simp [resumesAtHandler, compiled?, runsIn, unit, elsewhere]
  simp [resolved, notAtHandler]

/-- The views differ exactly where the saved frame pointer stands for another sp. -/
theorem viewsAgree_iff
    (runsIn : view.code.find? pc = some blob)
    (unit : blob.compiled? = some compiled) :
    ViewsAgree view sp fp pc ↔ (compiled.takesFp pc = true → fp = sp) := by
  constructor
  · intro agree takes
    have sameId := agree.id
    rw [plainFrame_eq, extendedFrame_eq, id_resolved, id_resolved] at sameId
    simpa [arriving_eq runsIn unit, id, takes] using sameId.symm
  · intro harmless
    have same : arriving view true sp sp fp pc = arriving view false sp sp fp pc := by
      rw [arriving_eq runsIn unit, arriving_eq runsIn unit]
      cases takes : compiled.takesFp pc with
      | false => simp
      | true => simp [harmless takes]
    rw [ViewsAgree, plainFrame_eq, extendedFrame_eq, same]
    exact .refl _

end Views

section Requests

variable {env : Env} {before after : Machine} {sp fp pc handler : Address} {blob : Blob}
  {compiled : CompiledUnit} {through seen : Frame} {request : DeoptRequest}

/-- A request through one of the views writes a handler below the stack pointer. -/
theorem holds_handler_of_mem_viewsOf
    (runsIn : env.code.find? pc = some blob)
    (unit : blob.compiled? = some compiled)
    (isView : through ∈ viewsOf (before.view env) sp fp pc)
    (gives : (through.deoptimize env request).Gives before (.patched handler, seen)
      after) :
    handler = compiled.handlerFor through.pc ∧
      after.stack.Holds (sp.offset (-1)) handler := by
  obtain ⟨found, foundUnit, fit, isHandler, covers, isAfter⟩ := redirected_of_gives gives
  have sameBlob : found = blob :=
    Option.some.inj (fit.runsIn.symm.trans ((blob_of_mem_viewsOf isView).trans runsIn))
  have sameUnit : foundUnit = compiled :=
    Option.some.inj (fit.unit.symm.trans (sameBlob ▸ unit))
  have slot : sp.offset (-1) = through.returnSlot := by
    rw [returnSlot, sp_of_mem_viewsOf isView]
  rw [slot, isAfter, stack_redirection]
  exact ⟨sameUnit ▸ isHandler, Stack.holds_put_same covers⟩

/--
The two views of an activation in compiled code agree unless a method handle returns to
it and its saved frame pointer is not its stack pointer, before it is redirected through
either of them and after.
-/
theorem viewsAgree_throughout
    (built : env.code.Built)
    (runsIn : env.code.find? pc = some blob)
    (unit : blob.compiled? = some compiled)
    (before : Machine)
    (sp fp : Address) :
    (ViewsAgree (before.view env) sp fp pc ↔ (compiled.takesFp pc = true → fp = sp)) ∧
      ∀ through ∈ viewsOf (before.view env) sp fp pc, ∀ request outcome seen after,
        (through.deoptimize env request).Gives before (outcome, seen) after →
          (ViewsAgree (after.view env) sp fp (outcome.resumed pc) ↔
            (compiled.takesFp (outcome.resumed pc) = true → fp = sp)) ∧
          (compiled.isDeoptPc pc = false →
            (ViewsAgree (after.view env) sp fp (outcome.resumed pc) ↔
              ViewsAgree (before.view env) sp fp pc)) ∧
          ∀ handler, outcome = .patched handler →
            after.stack.Holds (sp.offset (-1)) handler := by
  have ordered := built.ordered
  have agree : ViewsAgree (before.view env) sp fp pc ↔
      (compiled.takesFp pc = true → fp = sp) :=
    viewsAgree_iff runsIn unit
  refine ⟨agree, fun through isView request outcome seen after gives => ?_⟩
  have unchanged (same : outcome.resumed pc = pc) :
      env.code.find? (outcome.resumed pc) = some blob ∧
        (compiled.isDeoptPc pc = false →
          compiled.takesFp (outcome.resumed pc) = compiled.takesFp pc) := by
    rw [same]
    exact ⟨runsIn, fun _ => rfl⟩
  have resumes : env.code.find? (outcome.resumed pc) = some blob ∧
      (compiled.isDeoptPc pc = false →
        compiled.takesFp (outcome.resumed pc) = compiled.takesFp pc) := by
    cases outcome with
    | patched handler =>
        obtain ⟨rfl, -⟩ := holds_handler_of_mem_viewsOf runsIn unit isView gives
        refine ⟨ordered.find?_handlerFor runsIn unit _, fun elsewhere => ?_⟩
        rw [DeoptOutcome.resumed, pc_of_mem_viewsOf runsIn unit elsewhere isView]
        exact CompiledUnit.takesFp_handlerFor (ordered.unambiguous runsIn unit) elsewhere
    | deferred => exact unchanged rfl
    | alreadyPending => exact unchanged rfl
    | alreadyDeoptimized => exact unchanged rfl
  have agreeAfter : ViewsAgree (after.view env) sp fp (outcome.resumed pc) ↔
      (compiled.takesFp (outcome.resumed pc) = true → fp = sp) :=
    viewsAgree_iff resumes.1 unit
  refine ⟨agreeAfter, fun elsewhere => ?_, ?_⟩
  · rw [agreeAfter, agree, resumes.2 elsewhere]
  · rintro handler rfl
    exact (holds_handler_of_mem_viewsOf runsIn unit isView gives).2

/-- An activation in compiled code has one identity, whichever step has found it. -/
def HasOneIdentity : Prop :=
  ∀ (env : Env) (before : Machine) (sp fp pc : Address) (blob : Blob)
      (compiled : CompiledUnit), env.layout = .x86_64 → env.code.Built →
    env.code.find? pc = some blob → blob.compiled? = some compiled →
      ViewsAgree (before.view env) sp fp pc ∧
        ∀ through ∈ viewsOf (before.view env) sp fp pc,
          ∀ request handler seen after,
            (through.deoptimize env request).Gives before (.patched handler, seen) after →
              ViewsAgree (after.view env) sp fp handler

end Requests

end Frame

namespace Nested

/-- The views of the frame at the method-handle call, and of it once redirected. -/
theorem not_hasOneIdentity :
    (Frame.plainFrame (before.view env) 0x7f30 0x7f38 0x4020).id = 0x7f30 ∧
      Frame.extendedFrame (before.view env) 0x7f30 0x7f30 0x7f38 0x4020 = handling ∧
        handling.id = 0x7f38 ∧
          (handling.deoptimize env request).Gives before (.patched 0x4900, handling.marked)
            between ∧
            Frame.extendedFrame (between.view env) 0x7f30 0x7f30 0x7f38 0x4900 =
                handling.marked ∧
              (Frame.plainFrame (between.view env) 0x7f30 0x7f38 0x4900).pc = 0x4900 ∧
                ¬Frame.HasOneIdentity := by
  refine ⟨by decide, by decide, rfl, ⟨rfl, rfl⟩, by decide, by decide, fun one => ?_⟩
  obtain ⟨agree, -⟩ := one env before 0x7f30 0x7f38 0x4020 compiled compiledUnit rfl built
    rfl rfl
  exact absurd agree.id (by decide)

/-- The other frame of the method is the same activation to both kinds of steps. -/
theorem viewsAgree_called :
    env.code.Built ∧ env.code.find? 0x4010 = some compiled ∧
      compiled.compiled? = some compiledUnit ∧
        Frame.ViewsAgree (before.view env) 0x7f10 0x7f20 0x4010 ∧
          Frame.ViewsAgree (Machine.view env (called.deoptimize env request before).2)
            0x7f10 0x7f20 0x4800 := by
  have runsIn : env.code.find? 0x4010 = some compiled := rfl
  have unit : compiled.compiled? = some compiledUnit := rfl
  obtain ⟨agree, redirected⟩ :=
    Frame.viewsAgree_throughout built runsIn unit before 0x7f10 0x7f20
  have agreeNow := agree.mpr (fun takes => absurd takes (by decide))
  have isView : called ∈ Frame.viewsOf (before.view env) 0x7f10 0x7f20 0x4010 := by
    decide
  have gives : (called.deoptimize env request).Gives before
      (.patched 0x4800, called.marked) (called.deoptimize env request before).2 :=
    ⟨rfl, rfl⟩
  obtain ⟨-, kept, -⟩ := redirected called isView request _ _ _ gives
  exact ⟨built, runsIn, unit, agreeNow, (kept (by decide)).mpr agreeNow⟩

end Nested

end ManagedStack
