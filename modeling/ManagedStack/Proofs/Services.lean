import ManagedStack.Proofs.Publishing

namespace ManagedStack

/-!
# What served requests do

One law for each service says what a successful run of it found and what it left.
Where a service ends by publishing an activation, the session it leaves *settles*: it
has a stated chain and a stated stack, and the thread's anchor names the top.
-/

open Operation

namespace Activation

/-- A fresh activation has the shape it was given and nothing on it yet. -/
theorem ofShape_eq_ok
    {thread : ThreadId}
    {shape : ActivationShape}
    {layout : FrameLayout}
    {fresh : Activation}
    (shaped : ofShape thread shape layout = .ok fresh) :
    ∃ stackLimit scratch,
      limitFor (shape.monitorBase.offset (-1)) shape.maxStack =
          .ok stackLimit ∧
        fresh = {
          thread := thread
          method := shape.method
          bcp := shape.bcp
          locals := shape.locals
          maxLocals := shape.maxLocals
          constants := shape.constants
          mdx := 0
          stackTop := shape.monitorBase
          stackBase := shape.monitorBase.offset (-1)
          stackLimit := stackLimit
          monitorBase := shape.monitorBase
          monitorWords := layout.monitorWords
          fp := shape.fp
          oopTemp := 0
          message := .noRequest
          payload := .empty
          caller := shape.caller
          pendingException := none
          scratch := scratch } := by
  simp only [ofShape, bind_eq_ok] at shaped
  obtain ⟨stackLimit, limited, scratch, -, made⟩ := shaped
  exact ⟨stackLimit, scratch, limited, (Except.ok.inj made).symm⟩

end Activation

namespace FrameManager

/-- A replaced activation is found where the former one was. -/
theorem activation?_withActivation
    {manager : FrameManager}
    {index : Nat}
    {former : Activation}
    (found : manager.activation? index = some former)
    (activation : Activation) :
    (manager.withActivation index activation).activation? index =
      some activation := by
  simp only [activation?, Option.map_eq_some_iff] at found
  obtain ⟨held, heldFound, -⟩ := found
  simp [activation?, withActivation, Array.getElem?_modify, heldFound]

/-- Replacing an activation twice is replacing it once. -/
theorem withActivation_withActivation
    (manager : FrameManager)
    (index : Nat)
    (first second : Activation) :
    (manager.withActivation index first).withActivation index second =
      manager.withActivation index second := by
  simp only [withActivation, mk.injEq, and_self, and_true]
  apply Array.ext_getElem?
  intro position
  simp only [Array.getElem?_modify]
  split <;> simp [Option.map_map, Function.comp_def]

section Top

variable {manager : FrameManager} {rest : Array HeldActivation}
  {held : HeldActivation}

theorem top?_of_push (stands : manager.activations = rest.push held) :
    manager.top? = some held.activation := by
  simp [top?, stands]

theorem activation?_of_push (stands : manager.activations = rest.push held) :
    manager.activation? rest.size = some held.activation := by
  simp [activation?, stands]

theorem depth_of_push (stands : manager.activations = rest.push held) :
    manager.depth = rest.size + 1 := by
  simp [depth, stands]

theorem withActivation_of_push
    (stands : manager.activations = rest.push held)
    (activation : Activation) :
    manager.withActivation rest.size activation =
      { manager with
        activations := rest.push { held with activation := activation } } := by
  simp only [withActivation, mk.injEq, and_self, and_true, stands]
  apply Array.ext_getElem?
  intro position
  rw [Array.getElem?_modify]
  split
  · rename_i atTop
    simp [← atTop]
  · rename_i below
    simp [Array.getElem?_push, Ne.symm below]

/-- A chain has a top exactly when it is not empty. -/
theorem push_of_topIndex?
    {index : Nat}
    (found : manager.topIndex? = some index) :
    ∃ (rest : Array HeldActivation) (held : HeldActivation),
      manager.activations = rest.push held ∧ index = rest.size := by
  unfold topIndex? depth at found
  split at found
  · cases found
  · rename_i notEmpty
    obtain rfl := Option.some.inj found
    obtain ⟨rest, held, stands⟩ := Array.eq_push_of_size_ne_zero notEmpty
    exact ⟨rest, held, stands, by simp [stands]⟩

theorem push_of_top?
    {activation : Activation}
    (found : manager.top? = some activation) :
    ∃ (rest : Array HeldActivation) (held : HeldActivation),
      manager.activations = rest.push held ∧ held.activation = activation := by
  have isSome : manager.topIndex? = some (manager.depth - 1) := by
    unfold topIndex? depth
    split
    · rename_i empty
      simp [top?, Array.eq_empty_of_size_eq_zero empty] at found
    · rfl
  obtain ⟨rest, held, stands, -⟩ := push_of_topIndex? isSome
  exact ⟨rest, held, stands,
    Option.some.inj ((top?_of_push stands).symm.trans found)⟩

end Top

end FrameManager

namespace Session

variable {context : ManagerContext τ} {before after : Session τ}

/-- The session has this chain and this stack, and its anchor names the top. -/
structure Settles
    (context : ManagerContext τ)
    (session : Session τ)
    (manager : FrameManager)
    (stack : Stack) :
    Prop where
  managed : session.manager = manager
  stacked : session.machine.stack = stack
  anchored :
    session.machine.thread.anchor = anchorFor context manager.top?

/-- Publishing and pointing the anchor at the top settles a session. -/
theorem settles_of_commit
    {index : Nat}
    {between : Session τ}
    {value other : Unit}
    (committed : (commit context index).Gives before value between)
    (anchored : (commitAnchor context : Operation _ ProtocolError _).Gives
      between other after) :
    ∃ activation stack,
      before.manager.activation? index = some activation ∧
        Publishes context activation before.machine.stack stack ∧
        Settles context after before.manager stack := by
  obtain ⟨activation, stack, found, publishes, rfl⟩ := gives_commit committed
  obtain rfl := gives_commitAnchor.mp anchored
  exact ⟨activation, stack, found, publishes, rfl, rfl, rfl⟩

theorem gives_publish
    {index : Nat}
    {response : Message}
    {outcome : StepOutcome}
    (gives : (publish context index response).Gives before outcome after) :
    ∃ activation stack,
      before.manager.activation? index = some activation ∧
        Publishes context activation before.machine.stack stack ∧
        Settles context after before.manager stack ∧
        outcome = .resumed before.manager.depth response := by
  simp only [publish, gives_bind, gives_readManager, gives_pure, and_assoc,
    exists_and_left, exists_eq_left] at gives
  obtain ⟨_, between, committed, _, settled, anchored, rfl, rfl⟩ := gives
  obtain ⟨activation, stack, found, publishes, settles⟩ :=
    settles_of_commit committed anchored
  exact ⟨activation, stack, found, publishes, settles, by
    rw [settles.managed]⟩

theorem gives_expectAccepts
    {activation : Activation}
    {response : Message}
    {value : Unit} :
    (expectAccepts activation response).Gives before value after ↔
      activation.accepts response = true ∧ after = before := by
  unfold expectAccepts
  split <;> simp [*]

/-- What laying out an activation ran, and the chain that it left. -/
theorem gives_pushActivation
    {method : Method}
    {top callerFp returnPc : Address}
    {caller : Option Nat}
    {index : Nat}
    (gives : (pushActivation context method top callerFp returnPc caller).Gives
      before index after) :
    ∃ placement stack fresh,
      place context.env.layout method top = .ok placement ∧
        before.machine.stack.limit.toNat ≤ placement.lowest.toNat ∧
        placement.lowest.toNat ≤ top.toNat ∧
        (do
          clearLocals placement.locals method.parameterSlots
            (placement.localWords - method.parameterSlots)
          writeFields context.env.layout method placement top callerFp
            returnPc : Operation Stack FrameError Unit).Gives
          before.machine.stack () stack ∧
        Activation.ofShape before.machine.thread.id
          (shapeAt method placement caller) context.env.layout = .ok fresh ∧
        index = before.manager.depth ∧
        after = { before.withStack stack with
          manager := { before.manager with
            activations :=
              before.manager.activations.push
                ⟨fresh, method.parameterSlots⟩ } } := by
  simp only [pushActivation, gives_bind, gives_check, gives_checkHeadroom,
    gives_onMachine, Machine.gives_onStack, gives_readThread,
    gives_readManager, gives_updateManager, gives_pure, and_assoc,
    exists_and_left, exists_eq_left, exists_const] at gives
  obtain ⟨placement, placed, headroom, headroomTop, _, _, ⟨_, ⟨stack, written,
    rfl⟩, rfl⟩, fresh, shaped, rfl, rfl⟩ := gives
  exact ⟨placement, stack, fresh, placed, headroom, headroomTop,
    gives_bind.mpr written, shaped, rfl, rfl⟩

/-- The activation as an accepted response leaves it. -/
def resumed
    (activation : Activation)
    (response : Message) :
    Activation :=
  { activation with message := response, payload := .empty }

/-- Work on one activation replaces it and the stack. -/
@[simp] theorem manager_withWorkspace
    (session : Session τ)
    (index : Nat)
    (workspace : Workspace) :
    (session.withWorkspace index workspace).manager =
      session.manager.withActivation index workspace.activation :=
  rfl

@[simp] theorem depth_withActivation
    (manager : FrameManager)
    (index : Nat)
    (activation : Activation) :
    (manager.withActivation index activation).depth = manager.depth := by
  simp [FrameManager.depth, FrameManager.withActivation]

/-- A callee is laid out over the caller's arguments and entered. -/
theorem gives_serveCall
    {index : Nat}
    {outcome : StepOutcome}
    (gives : (serveCall context index).Gives before outcome after) :
    ∃ caller call callee depth pushed laid fresh stack,
      before.manager.activation? index = some caller ∧
        caller.payload.toCall = .ok call ∧
        context.env.methods.find? call.callee = some callee ∧
        caller.stackDepth = .ok depth ∧
        callee.parameterSlots ≤ depth.toNat ∧
        (pushActivation context callee caller.stackTop caller.fp
          context.entryPoints.interpreterReturnPc (some index)).Gives
            before pushed laid ∧
        laid.manager.activation? pushed = some fresh ∧
        Publishes context (resumed fresh .methodEntry)
          laid.machine.stack stack ∧
        Settles context after
          (laid.manager.withActivation pushed (resumed fresh .methodEntry))
          stack ∧
        outcome = .called laid.manager.depth := by
  simp only [serveCall, gives_bind, gives_activation, gives_check, gives_method,
    gives_readManager, gives_pure, gives_onWorkspace, Workspace.gives_resume,
    fail_bind, gives_guard, gives_guard_report, and_assoc, exists_and_left,
    exists_eq_left, exists_const] at gives
  obtain ⟨caller, callerFound, call, isCall, -, callee, calleeFound, depth,
    counted, enough, pushed, laid, pushedGives, _, ⟨fresh, freshFound, -, -,
    rfl⟩, _, _, committed, _, _, anchored, rfl, rfl⟩ := gives
  obtain ⟨activation, stack, found, publishes, settles⟩ :=
    settles_of_commit committed anchored
  have same := FrameManager.activation?_withActivation freshFound
    (resumed fresh .methodEntry)
  obtain rfl := Option.some.inj (same.symm.trans found)
  refine ⟨caller, call, callee, depth, pushed, laid, fresh, stack,
    callerFound, isCall, calleeFound, counted, by omega, pushedGives,
    freshFound, publishes, settles, ?_⟩
  rw [settles.managed]
  simp

/-- The caller of a return as it goes on after its invoke. -/
def returnedInto
    (waiting : Activation)
    (top bcp : Address) :
    Activation :=
  resumed { waiting with stackTop := top, bcp := bcp } .methodResume

/-- A result replaces the arguments of the waiting caller. -/
theorem gives_returnIntoCaller
    {caller parameters : Nat}
    {value : List Word}
    {outcome : StepOutcome}
    (gives : (returnIntoCaller context caller parameters value).Gives
      before outcome after) :
    ∃ waiting call top written bcp stack,
      before.manager.activation? caller = some waiting ∧
        waiting.accepts .methodResume = true ∧
        waiting.payload.toCall = .ok call ∧
        top = waiting.stackTop.offset (parameters - value.length) ∧
        waiting.stackLimit.toNat ≤ top.toNat ∧
        (Stack.writeAll top value).Gives before.machine.stack () written ∧
        Publishes context (returnedInto waiting top bcp) written stack ∧
        Settles context after
          (before.manager.withActivation caller
            (returnedInto waiting top bcp))
          stack ∧
        waiting.bcp.plus call.advance.toUInt64 = .ok bcp ∧
        outcome = .resumed before.manager.depth .methodResume := by
  simp only [returnIntoCaller, gives_bind, gives_activation,
    gives_expectAccepts, gives_check, gives_onMachine, Machine.gives_onStack,
    gives_onWorkspace, Workspace.gives_resume,
    Workspace.gives_updateActivation, fail_bind, gives_guard, and_assoc,
    exists_and_left, exists_eq_left, exists_const] at gives
  obtain ⟨waiting, found, accepts, call, isCall, enough, _, _, ⟨_, ⟨written,
    writes, rfl⟩, rfl⟩, _, ⟨again, foundAgain, _, ⟨bcp, position, -, -, rfl⟩, rfl⟩,
    published⟩ := gives
  rw [UInt64.lt_iff_toNat_lt] at enough
  obtain rfl := Option.some.inj (found.symm.trans foundAgain)
  obtain ⟨activation, stack, activationFound, publishes, settles, rfl⟩ :=
    gives_publish published
  have same := FrameManager.activation?_withActivation found
    (returnedInto waiting
      (waiting.stackTop.offset (parameters - value.length)) bcp)
  obtain rfl := Option.some.inj (same.symm.trans activationFound)
  exact ⟨waiting, call, _, written, bcp, stack, found, accepts, isCall, rfl,
    Nat.le_of_not_lt enough, writes, publishes, settles, position, by simp⟩

/-- Whoever is given a result is resumed. -/
theorem outcome_of_returnIntoCaller
    {caller parameters : Nat}
    {value : List Word}
    {outcome : StepOutcome}
    (gives : (returnIntoCaller context caller parameters value).Gives
      before outcome after) :
    outcome = .resumed before.manager.depth .methodResume := by
  obtain ⟨_, _, _, _, _, _, -, -, -, -, -, -, -, -, -, resumed⟩ :=
    gives_returnIntoCaller gives
  exact resumed

section Popping

variable {rest : Array HeldActivation} {held : HeldActivation}

/-- The session with another chain of activations. -/
def withActivations
    (session : Session τ)
    (activations : Array HeldActivation) :
    Session τ :=
  { session with
    manager := { session.manager with activations := activations } }

/-- Popping takes the top off the chain. -/
theorem gives_popActivation_of_push
    {value : HeldActivation}
    (stands : before.manager.activations = rest.push held) :
    (popActivation : Operation (Session τ) ProtocolError _).Gives
        before value after ↔
      value = held ∧ after = before.withActivations rest := by
  simp [gives_popActivation, stands, withActivations, eq_comm]

/-- Work on the top replaces the top. -/
theorem activations_withWorkspace_top
    (stands : before.manager.activations = rest.push held)
    (workspace : Workspace) :
    (before.withWorkspace rest.size workspace).manager.activations =
      rest.push { held with activation := workspace.activation } := by
  rw [manager_withWorkspace, FrameManager.withActivation_of_push stands]

/-- A return ends the entry or goes on in the caller. -/
theorem gives_serveReturn
    {outcome : StepOutcome}
    (stands : before.manager.activations = rest.push held)
    (gives : (serveReturn context rest.size).Gives before outcome after) :
    ∃ kind value,
      held.activation.payload.toReturnKind = .ok kind ∧
        (∃ method depth, context.env.methods.find? held.activation.method =
            some method ∧
          kind = .ofType method.resultType ∧
          held.activation.stackDepth = .ok depth ∧
          kind.words ≤ depth.toNat) ∧
        (before.machine.stack.readAll held.activation.stackTop kind.words).Gives
          value ∧
        (held.activation.caller = none ∧
            (finishEntry : Operation _ ProtocolError _).Gives
              (before.withActivations rest) () after ∧
            outcome = .returned kind value ∨
          ∃ caller, held.activation.caller = some caller ∧
            (returnIntoCaller context caller held.parameterSlots value).Gives
              (before.withActivations rest) outcome after) := by
  simp only [serveReturn, gives_bind, gives_activation, gives_check,
    gives_method, gives_onMachine, Machine.gives_onStack, gives_inspect,
    gives_popActivation_of_push stands, fail_bind, gives_guard, and_assoc,
    exists_and_left, exists_eq_left,
    FrameManager.activation?_of_push stands, Option.some.injEq] at gives
  obtain ⟨_, rfl, kind, isReturn, callee, found, declared, depth, counted,
    enough, value, read, ended⟩ := gives
  refine ⟨kind, value, isReturn, ⟨callee, depth, found,
    Decidable.not_not.mp declared, counted, Nat.le_of_not_lt enough⟩, read, ?_⟩
  rcases callerOf : held.activation.caller with _ | caller
  · simp only [callerOf, gives_bind, gives_pure] at ended
    obtain ⟨_, _, finished, rfl, rfl⟩ := ended
    exact .inl ⟨rfl, finished, rfl⟩
  · simp only [callerOf] at ended
    exact .inr ⟨caller, rfl, ended⟩

/--
A throw ends the entry or leaves the exception alone with the caller.  Without a
caller the exception leaves through the entry that started the run.
-/
theorem gives_serveThrow
    {outcome : StepOutcome}
    (stands : before.manager.activations = rest.push held)
    (gives : (serveThrow context rest.size).Gives before outcome after) :
    ∃ exception,
      held.activation.pendingException = some exception ∧
        (held.activation.caller = none ∧
            (finishEntry : Operation _ ProtocolError _).Gives
              (before.withActivations rest) () after ∧
            outcome = .threw exception ∨
          ∃ caller waiting pushed stack,
            held.activation.caller = some caller ∧
              (before.withActivations rest).manager.activation? caller =
                some waiting ∧
              waiting.accepts .rethrowException = true ∧
              (Workspace.push exception).Gives
                ⟨waiting.withEmptyStack, before.machine.stack⟩ () pushed ∧
              Publishes context (resumed pushed.activation .rethrowException)
                pushed.stack stack ∧
              Settles context after
                ((before.withActivations rest).manager.withActivation caller
                  (resumed pushed.activation .rethrowException))
                stack ∧
              outcome = .resumed rest.size .rethrowException) := by
  simp only [serveThrow, gives_bind, gives_activation, gives_demand,
    gives_onWorkspace, Workspace.gives_updateActivation, and_assoc,
    exists_and_left, exists_eq_left, exists_const,
    FrameManager.activation?_of_push stands, Option.some.injEq] at gives
  obtain ⟨_, rfl, _, ⟨_, rfl, rfl⟩, exception, thrown, popped, between,
    poppedGives, ended⟩ := gives
  obtain ⟨rfl, rfl⟩ := (gives_popActivation_of_push
    (activations_withWorkspace_top stands _)).mp poppedGives
  refine ⟨exception, thrown, ?_⟩
  rcases callerOf : held.activation.caller with _ | caller
  · simp only [callerOf, gives_bind, gives_pure] at ended
    obtain ⟨_, _, finished, rfl, rfl⟩ := ended
    exact .inl ⟨rfl, finished, rfl⟩
  · simp only [callerOf, gives_bind, gives_activation, gives_expectAccepts,
      gives_onWorkspace, Workspace.gives_updateActivation,
      Workspace.gives_resume, and_assoc, exists_and_left, exists_eq_left,
      exists_const] at ended
    obtain ⟨waiting, waitingFound, accepts, _, ⟨again, foundAgain, _, ⟨_,
      pushed, pushedGives, -, -, rfl⟩, rfl⟩, published⟩ := ended
    obtain rfl := Option.some.inj (waitingFound.symm.trans foundAgain)
    obtain ⟨activation, stack, found, publishes, settles, rfl⟩ :=
      gives_publish published
    have same := FrameManager.activation?_withActivation waitingFound
      (resumed pushed.activation .rethrowException)
    obtain rfl := Option.some.inj (same.symm.trans found)
    exact .inr ⟨caller, waiting, pushed, stack, rfl, waitingFound, accepts,
      pushedGives, publishes, settles, by
        simp [FrameManager.depth, FrameManager.withActivation,
          withActivations]⟩

/-- A popped activation leaves its caller at the invoke. -/
theorem gives_servePop
    {outcome : StepOutcome}
    (stands : before.manager.activations = rest.push held)
    (gives : (servePop context rest.size).Gives before outcome after) :
    ∃ caller waiting stack,
      held.activation.caller = some caller ∧
        (before.withActivations rest).manager.activation? caller =
          some waiting ∧
        Publishes context (resumed waiting .deoptResume2)
          before.machine.stack stack ∧
        Settles context after
          ((before.withActivations rest).manager.withActivation caller
            (resumed waiting .deoptResume2))
          stack ∧
        outcome = .resumed rest.size .deoptResume2 := by
  simp only [servePop, gives_bind, gives_activation, gives_demand,
    gives_expectAccepts, gives_popActivation_of_push stands,
    gives_onWorkspace, Workspace.gives_resume, and_assoc, exists_and_left,
    exists_eq_left, exists_const, FrameManager.activation?_of_push stands,
    Option.some.injEq] at gives
  obtain ⟨_, rfl, caller, callerOf, _, -, -, _, ⟨waiting, waitingFound, -, -,
    rfl⟩, published⟩ := gives
  obtain ⟨activation, stack, found, publishes, settles, rfl⟩ :=
    gives_publish published
  have same := FrameManager.activation?_withActivation waitingFound
    (resumed waiting .deoptResume2)
  obtain rfl := Option.some.inj (same.symm.trans found)
  exact ⟨caller, waiting, stack, callerOf, waitingFound, publishes, settles, by
    simp [FrameManager.depth, FrameManager.withActivation, withActivations]⟩

/-- An activation that leaves for compiled code leaves its caller side behind. -/
theorem gives_serveOsr
    {outcome : StepOutcome}
    (stands : before.manager.activations = rest.push held)
    (gives : (serveOsr context rest.size).Gives before outcome after) :
    ∃ request result pending,
      held.activation.payload.toOsr = .ok request ∧
        pending.caller = held.activation.caller ∧
        pending.parameterSlots = held.parameterSlots ∧
        (∃ method, context.env.methods.find? held.activation.method =
            some method ∧
          pending.kind = .ofType method.resultType) ∧
        Settles context after
          { before.manager with
            activations := rest
            pendingOsr := some pending }
          before.machine.stack ∧
        outcome = .onStackReplaced result := by
  simp only [serveOsr, gives_bind, gives_activation, gives_method,
    gives_check, gives_demand, gives_onOwn, gives_updateManager, gives_pure,
    gives_commitAnchor, and_assoc, exists_and_left, exists_eq_left,
    exists_const, FrameManager.activation?_of_push stands,
    Option.some.injEq] at gives
  obtain ⟨_, rfl, running, found, request, isOsr, handler, -, result, _, ⟨own, -,
    rfl⟩, popped, _, poppedGives, rfl, rfl⟩ := gives
  have standsStill : ({ before with own := own } : Session τ).manager.activations
      = rest.push held := stands
  obtain ⟨rfl, rfl⟩ :=
    (gives_popActivation_of_push standsStill).mp poppedGives
  exact ⟨request, result, _, isOsr, rfl, rfl, ⟨running, found, rfl⟩,
    ⟨rfl, rfl, rfl⟩, rfl⟩

end Popping

/-- The registers of an activation that made room for one more monitor. -/
def grown (activation : Activation) (shift : Int) : Activation :=
  { activation with
    stackTop := activation.stackTop.offset shift
    stackBase := activation.stackBase.offset shift
    stackLimit := activation.stackLimit.offset shift }

/-- Growing the monitors moves the expression stack and clears a monitor. -/
theorem gives_workspace_growMonitors
    {before after : Workspace}
    {monitor : Address}
    (gives : Workspace.growMonitors.Gives before monitor after) :
    ∃ depth shift copied stack,
      before.activation.stackDepth = .ok depth ∧
        negateSigned before.activation.monitorWords.signed = .ok shift ∧
        (Stack.copyWords before.activation.stackTop
          (before.activation.stackTop.offset shift) depth.toNat).Gives
            before.stack () copied ∧
        monitor = (grown before.activation shift).monitorEnd ∧
        (Stack.zeroWords monitor
          before.activation.monitorWords.toNat).Gives copied () stack ∧
        after = ⟨grown before.activation shift, stack⟩ := by
  simp only [Workspace.growMonitors, gives_bind, Workspace.gives_current,
    gives_check, Workspace.gives_onStack, Workspace.gives_updateActivation,
    gives_pure, and_assoc, exists_and_left, exists_eq_left,
    exists_const] at gives
  obtain ⟨depth, counted, shift, negated, _, _, ⟨copied, copies, rfl⟩, _, _,
    ⟨stack, zeroes, rfl⟩, rfl, rfl⟩ := gives
  exact ⟨depth, shift, copied, stack, counted, negated, copies, rfl, zeroes,
    rfl⟩

theorem gives_growMonitors
    {index : Nat}
    {monitor : Address}
    (gives : (growMonitors context index).Gives before monitor after) :
    ∃ growing lowered workspace,
      before.manager.activation? index = some growing ∧
        growing.stackLimit.below context.env.layout.monitorWords =
          .ok lowered ∧
        before.machine.stack.limit.toNat ≤ lowered.toNat ∧
        lowered.toNat ≤ growing.stackLimit.toNat ∧
        Workspace.growMonitors.Gives ⟨growing, before.machine.stack⟩
          monitor workspace ∧
        after = before.withWorkspace index workspace := by
  simp only [growMonitors, gives_bind, gives_activation, gives_check,
    gives_checkHeadroom, gives_onWorkspace, and_assoc, exists_and_left,
    exists_eq_left, exists_const] at gives
  obtain ⟨growing, found, lowered, lowers, headroom, ordered, again,
    foundAgain, workspace, grows, rfl⟩ := gives
  obtain rfl := Option.some.inj (found.symm.trans foundAgain)
  exact ⟨growing, lowered, workspace, found, lowers, headroom, ordered, grows,
    rfl⟩

/-- A served monitor request leaves one more monitor. -/
theorem gives_serveMonitor
    {index : Nat}
    {outcome : StepOutcome}
    (gives : (serveMonitor context index).Gives before outcome after) :
    ∃ monitor made activation stack,
      (growMonitors context index).Gives before monitor made ∧
        made.manager.activation? index = some activation ∧
        Publishes context (resumed activation .gotMonitors)
          made.machine.stack stack ∧
        Settles context after
          (made.manager.withActivation index
            (resumed activation .gotMonitors))
          stack ∧
        outcome = .resumed made.manager.depth .gotMonitors := by
  simp only [serveMonitor, gives_bind, gives_onWorkspace,
    Workspace.gives_resume, and_assoc, exists_and_left, exists_eq_left,
    exists_const] at gives
  obtain ⟨monitor, made, grows, _, ⟨activation, found, -, -, rfl⟩,
    published⟩ := gives
  obtain ⟨_, stack, foundAgain, publishes, settles, rfl⟩ :=
    gives_publish published
  have same := FrameManager.activation?_withActivation found
    (resumed activation .gotMonitors)
  obtain rfl := Option.some.inj (same.symm.trans foundAgain)
  exact ⟨monitor, made, activation, stack, grows, found, publishes, settles, by
    simp⟩

end Session

end ManagedStack
