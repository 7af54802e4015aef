import ManagedStack.Proofs.Protocol

namespace ManagedStack

/-!
# Payloads are asked for only in the form they have

A call, a kind of result and a replacement request are taken out of a payload of the
form that the message announces.  Nothing else that the manager does is given up over
the form of a payload, and where the protocol is followed these three are not either.
-/

open Operation

section Arithmetic

variable {held expected : PayloadForm}

@[simp] theorem Word.plus_ne_payloadForm {left right : Word} :
    left.plus right ≠ .error (.payloadForm held expected) := by
  unfold plus
  split <;> simp

@[simp] theorem Word.minus_ne_payloadForm {left right : Word} :
    left.minus right ≠ .error (.payloadForm held expected) := by
  unfold minus
  split <;> simp

@[simp] theorem negateSigned_ne_payloadForm {value : Int} :
    negateSigned value ≠ .error (.payloadForm held expected) := by
  unfold negateSigned
  split <;> simp

@[simp] theorem subtractSigned_ne_payloadForm {left right : Int} :
    subtractSigned left right ≠ .error (.payloadForm held expected) := by
  unfold subtractSigned
  split <;> simp

@[simp] theorem Word.below_ne_payloadForm {address words : Word} :
    address.below words ≠ .error (.payloadForm held expected) := by
  simp [below]

@[simp] theorem require_ne_payloadForm
    {assertion : Assertion}
    {holds : Bool} :
    require assertion holds ≠ .error (.payloadForm held expected) := by
  unfold require
  split <;> simp

@[simp] theorem requireCapacity_ne_payloadForm {words : Word} :
    requireCapacity words ≠ .error (.payloadForm held expected) := by
  unfold requireCapacity
  split <;> simp

@[simp] theorem Activation.stackDepth_ne_payloadForm {activation : Activation} :
    activation.stackDepth ≠ .error (.payloadForm held expected) := by
  simp [stackDepth, bind_eq_error, pure, Except.pure]

@[simp] theorem FrameLayout.entryFixedWords_ne_payloadForm
    {layout : FrameLayout} :
    layout.entryFixedWords ≠ .error (.payloadForm held expected) := by
  simp [entryFixedWords]

@[simp] theorem Method.bcpOf_ne_payloadForm
    {method : Method}
    {bci : UInt32} :
    method.bcpOf bci ≠ .error (.payloadForm held expected) := by
  simp [bcpOf]

@[simp] theorem Activation.ofShape_ne_payloadForm
    {thread : ThreadId}
    {shape : ActivationShape}
    {layout : FrameLayout} :
    ofShape thread shape layout ≠ .error (.payloadForm held expected) := by
  simp [ofShape, limitFor, ScratchArea.ofLayout, bind_eq_error, pure,
    Except.pure]

@[simp] theorem Activation.forSetup_ne_payloadForm
    {thread : ThreadId}
    {layout : FrameLayout} :
    forSetup thread layout ≠ .error (.payloadForm held expected) := by
  simp [forSetup, bind_eq_error, pure, Except.pure]

@[simp] theorem Session.place_ne_payloadForm
    {layout : FrameLayout}
    {method : Method}
    {top : Address} :
    place layout method top ≠ .error (.payloadForm held expected) := by
  simp [place, bind_eq_error, pure, Except.pure]

end Arithmetic

section Parts

variable {held expected : PayloadForm} {cause : Abort}

@[simp] theorem Stack.givesUp_read
    {stack : Stack}
    {address : Address} :
    ¬(stack.read address).GivesUp cause := by
  unfold read
  split <;> nofun

@[simp] theorem Stack.givesUp_write
    {address : Address}
    {word : Word}
    {before : Stack} :
    ¬(write address word).GivesUp before cause := by
  unfold write Operation.GivesUp
  dsimp only
  split <;> nofun

/-- Nothing that is done on a stack alone is given up. -/
@[simp] theorem Stack.givesUp_writeAll
    {start : Address}
    {words : List Word}
    {before : Stack} :
    ¬(writeAll start words).GivesUp before cause := by
  induction words generalizing start before with
  | nil => simp [writeAll]
  | cons word rest inductionHypothesis => simp [writeAll, inductionHypothesis]

@[simp] theorem Stack.givesUp_zeroWords
    {start : Address}
    {count : Nat}
    {before : Stack} :
    ¬(zeroWords start count).GivesUp before cause := by
  induction count generalizing start before with
  | zero => simp [zeroWords]
  | succ count inductionHypothesis => simp [zeroWords, inductionHypothesis]

@[simp] theorem Stack.givesUp_readAll
    {stack : Stack}
    {start : Address}
    {count : Nat} :
    ¬(stack.readAll start count).GivesUp cause := by
  induction count generalizing start with
  | zero => simp [readAll]
  | succ count inductionHypothesis =>
      simp [readAll, inductionHypothesis, -bind_pure_comp]

@[simp] theorem Stack.givesUp_copyWords
    {source target : Address}
    {count : Nat}
    {before : Stack} :
    ¬(copyWords source target count).GivesUp before cause := by
  simp [copyWords]

@[simp] theorem CallWrapper.givesUp_write
    {address : Address}
    {callee : Word}
    {anchor : FrameAnchor}
    {handles : List Word}
    {before : Stack} :
    ¬(write address callee anchor handles).GivesUp before cause := by
  simp [write, -bind_pure_comp]

@[simp] theorem Machine.givesUp_onStack
    {operation : Operation Stack ε α}
    {before : Machine} :
    (onStack operation).GivesUp before cause ↔
      operation.GivesUp before.stack cause :=
  Iff.rfl

@[simp] theorem Machine.givesUp_look
    {env : Env}
    {probe : View → Probe ε α}
    {before : Machine} :
    (look env probe).GivesUp before cause ↔
      (probe (before.view env)).GivesUp cause :=
  Iff.rfl

/-- Deciding whether a frame is redirected is never given up. -/
@[simp] theorem Frame.givesUp_plain
    {view : View}
    {sp fp pc : Address} :
    ¬(plain view sp fp pc : Probe ε Frame).GivesUp cause := by
  unfold plain resolve
  split
  · split <;> simp [-bind_pure_comp]
  · simp

@[simp] theorem Frame.givesUp_putField
    {frame : Frame}
    {offset : Int}
    {value : Word}
    {before : Machine} :
    ¬(frame.putField offset value).GivesUp before cause := by
  simp [putField, Machine.write]

@[simp] theorem Frame.givesUp_expectKind
    {frame : Frame}
    {kind : FrameKind} :
    ¬(frame.expectKind kind).GivesUp cause := by
  unfold expectKind
  split <;> simp

@[simp] theorem Frame.givesUp_convertMdx
    {frame : Frame}
    {view : View}
    {formerlyIndex : Bool}
    {value : Word} :
    ¬(frame.convertMdx view formerlyIndex value).GivesUp
      (.payloadForm held expected) := by
  unfold convertMdx Frame.method
  cases formerlyIndex <;>
    simp [ProfilingArea.pointerOf, Frame.methodWord, Frame.field,
      expectInterpreted, -bind_pure_comp]

/-- Publishing a position is not about payloads. -/
@[simp] theorem Frame.givesUp_setBcx
    {frame : Frame}
    {env : Env}
    {position : Word}
    {before : Machine} :
    ¬(frame.setBcx env position).GivesUp before
      (.payloadForm held expected) := by
  simp [setBcx, setMdx, expectInterpreted, bcx, mdx, Frame.field]

namespace Workspace

variable {before : Workspace}

@[simp] theorem givesUp_current :
    ¬(current : Operation Workspace ε Activation).GivesUp before cause :=
  nofun

@[simp] theorem givesUp_updateActivation {change : Activation → Activation} :
    ¬(updateActivation change : Operation Workspace ε Unit).GivesUp
      before cause :=
  nofun

@[simp] theorem givesUp_onStack {operation : Operation Stack FrameError α} :
    (onStack operation).GivesUp before cause ↔
      operation.GivesUp before.stack cause := by
  simp [onStack]

@[simp] theorem givesUp_push {word : Word} :
    ¬(push word).GivesUp before cause := by
  simp [push, writeWord]

@[simp] theorem givesUp_pushAll {words : List Word} :
    ¬(pushAll words).GivesUp before cause := by
  induction words generalizing before with
  | nil => simp [pushAll]
  | cons word rest inductionHypothesis => simp [pushAll, inductionHypothesis]

@[simp] theorem givesUp_localSlot {index : Nat} :
    ¬(localSlot index).GivesUp before cause := by
  unfold localSlot Activation.localSlot
  simp only [givesUp_bind, givesUp_current, gives_current, false_or]
  rintro ⟨activation, _, -, ended⟩
  by_cases inside : index < activation.maxLocals
  · rw [if_pos inside] at ended
    exact givesUp_pure ended
  · rw [if_neg inside] at ended
    exact givesUp_fail ended

@[simp] theorem givesUp_writeLocals
    {first : Nat}
    {words : List Word} :
    ¬(writeLocals first words).GivesUp before cause := by
  induction words generalizing first before with
  | nil => simp [writeLocals]
  | cons word rest inductionHypothesis =>
      simp [writeLocals, writeLocal, writeWord, inductionHypothesis]

@[simp] theorem givesUp_resume {response : Message} :
    ¬(resume response).GivesUp before cause := by
  simp [resume]

@[simp] theorem givesUp_growMonitors :
    ¬growMonitors.GivesUp before (.payloadForm held expected) := by
  simp [growMonitors, -bind_pure_comp]

end Workspace

namespace Session

open FrameManager

variable {context : ManagerContext τ} {before : Session τ}

@[simp] theorem givesUp_onMachine {operation : Operation Machine FrameError α} :
    (onMachine operation).GivesUp before cause ↔
      operation.GivesUp before.machine cause := by
  simp [onMachine]

@[simp] theorem givesUp_onOwn {operation : Operation τ ProtocolError α} :
    (onOwn operation).GivesUp before cause ↔
      operation.GivesUp before.own cause := by
  simp [onOwn]

@[simp] theorem givesUp_readManager :
    ¬(readManager : Operation (Session τ) ε FrameManager).GivesUp before cause :=
  nofun

@[simp] theorem givesUp_updateManager {change : FrameManager → FrameManager} :
    ¬(updateManager change : Operation (Session τ) ε Unit).GivesUp
      before cause :=
  nofun

@[simp] theorem givesUp_readThread :
    ¬(readThread : Operation (Session τ) ε Thread).GivesUp before cause :=
  nofun

@[simp] theorem givesUp_readStack :
    ¬(readStack : Operation (Session τ) ε Stack).GivesUp before cause :=
  nofun

@[simp] theorem givesUp_setState {state : ThreadState} :
    ¬(setState state : Operation (Session τ) ε Unit).GivesUp before cause :=
  nofun

@[simp] theorem givesUp_setAnchor {anchor : FrameAnchor} :
    ¬(setAnchor anchor : Operation (Session τ) ε Unit).GivesUp before cause :=
  nofun

@[simp] theorem givesUp_activation {index : Nat} :
    ¬(activation index : Operation (Session τ) ε Activation).GivesUp before
      (.payloadForm held expected) := by
  simp only [activation, givesUp_bind, givesUp_readManager, false_or]
  rintro ⟨manager, _, -, ended⟩
  split at ended
  · exact givesUp_pure ended
  · simp at ended

/-- A run on an activation is given up only if what is run gives up there. -/
theorem givesUp_onActivation
    {index : Nat}
    {operation : Operation (Turn τ) ProtocolError α}
    (givesUp : (onActivation index operation).GivesUp before
      (.payloadForm held expected)) :
    ∃ activation, before.manager.activation? index = some activation ∧
      operation.GivesUp ⟨before.own, activation, before.machine.stack⟩
        (.payloadForm held expected) := by
  unfold onActivation Operation.GivesUp at givesUp
  dsimp only at givesUp
  split at givesUp
  · cases givesUp
  · rename_i activation found
    exact ⟨activation, found, givesUp⟩

@[simp] theorem givesUp_onWorkspace
    {index : Nat}
    {operation : Operation Workspace ProtocolError α}
    (never : ∀ workspace,
      ¬operation.GivesUp workspace (.payloadForm held expected)) :
    ¬(onWorkspace index operation).GivesUp before
      (.payloadForm held expected) := by
  intro givesUp
  obtain ⟨activation, -, ended⟩ := givesUp_onActivation givesUp
  exact never ⟨activation, before.machine.stack⟩ ended

/-- An engine's run is given up only if the engine gives up. -/
theorem givesUp_runEngine
    {index : Nat}
    {engine : Engine τ}
    (givesUp : (runEngine index engine).GivesUp before
      (.payloadForm held expected)) :
    ∃ activation, before.manager.activation? index = some activation ∧
      engine.GivesUp ⟨before.own, activation, before.machine.stack⟩
        (.payloadForm held expected) := by
  simp only [runEngine, givesUp_bind, givesUp_setState, false_or,
    gives_setState, exists_eq_left, exists_const, givesUp_attempt] at givesUp
  rcases givesUp with ended | ⟨ran, _, -, ended⟩
  · obtain ⟨activation, found, gaveUp⟩ := givesUp_onActivation ended
    exact ⟨activation, found, gaveUp⟩
  · split at ended
    · exact (givesUp_pure ended).elim
    · exact (givesUp_fail ended).elim

@[simp] theorem givesUp_method {word : Word} :
    ¬(method context word).GivesUp before cause :=
  givesUp_demand

@[simp] theorem givesUp_checkHeadroom {lowest top : Address} :
    ¬(checkHeadroom lowest top : Operation (Session τ) _ _).GivesUp
      before cause := by
  simp [checkHeadroom]

@[simp] theorem givesUp_frameOf {activation : Activation} :
    ¬(frameOf context activation).GivesUp before cause := by
  simp [frameOf]

@[simp] theorem givesUp_commit {index : Nat} :
    ¬(commit context index).GivesUp before (.payloadForm held expected) := by
  simp [commit, Frame.setMonitorEnd, Frame.setLastSp]

@[simp] theorem givesUp_commitAnchor :
    ¬(commitAnchor context : Operation (Session τ) ε Unit).GivesUp
      before cause := by
  simp only [commitAnchor, givesUp_bind, givesUp_readManager, false_or]
  rintro ⟨manager, _, -, ended⟩
  split at ended <;> exact givesUp_setAnchor ended

@[simp] theorem givesUp_finishEntry :
    ¬(finishEntry : Operation (Session τ) ε Unit).GivesUp before cause := by
  simp only [finishEntry, givesUp_bind, givesUp_readManager, false_or]
  rintro ⟨manager, _, -, ended⟩
  split at ended
  · exact givesUp_pure ended
  · simp at ended

@[simp] theorem givesUp_popActivation :
    ¬(popActivation : Operation (Session τ) _ _).GivesUp before cause := by
  simp only [popActivation, givesUp_bind, givesUp_readManager, false_or]
  rintro ⟨manager, _, -, ended⟩
  split at ended
  · exact givesUp_fail ended
  · simp [-bind_pure_comp] at ended

@[simp] theorem givesUp_clearLocals
    {locals : Address}
    {first count : Nat}
    {before : Stack} :
    ¬(clearLocals locals first count).GivesUp before cause := by
  induction count generalizing first before with
  | zero => simp [clearLocals]
  | succ count inductionHypothesis => simp [clearLocals, inductionHypothesis]

@[simp] theorem givesUp_writeArguments
    {top : Address}
    {arguments : List Word}
    {before : Stack} :
    ¬(writeArguments top arguments).GivesUp before cause := by
  induction arguments generalizing before with
  | nil => simp [writeArguments]
  | cons argument rest inductionHypothesis =>
      simp [writeArguments, inductionHypothesis]

@[simp] theorem givesUp_writeOwners
    {owned : List (Address × Word)}
    {before : Stack} :
    ¬(writeOwners owned).GivesUp before cause := by
  induction owned generalizing before with
  | nil => simp [writeOwners]
  | cons entry rest inductionHypothesis =>
      simp [writeOwners, inductionHypothesis]

@[simp] theorem givesUp_writeFields
    {layout : FrameLayout}
    {method : Method}
    {placement : Placement}
    {top callerFp returnPc : Address}
    {before : Stack} :
    ¬(writeFields layout method placement top callerFp returnPc).GivesUp
      before cause := by
  simp [writeFields]

@[simp] theorem givesUp_pushActivation
    {method : Method}
    {top callerFp returnPc : Address}
    {caller : Option Nat} :
    ¬(pushActivation context method top callerFp returnPc caller).GivesUp
      before (.payloadForm held expected) := by
  simp [pushActivation, -bind_pure_comp]

@[simp] theorem givesUp_publish
    {index : Nat}
    {response : Message} :
    ¬(publish context index response).GivesUp before
      (.payloadForm held expected) := by
  simp [publish, -bind_pure_comp]

@[simp] theorem givesUp_expectAccepts
    {activation : Activation}
    {response : Message} :
    ¬(expectAccepts activation response : Operation (Session τ) _ _).GivesUp
      before cause := by
  simp [expectAccepts]

@[simp] theorem givesUp_growMonitors {index : Nat} :
    ¬(growMonitors context index).GivesUp before
      (.payloadForm held expected) := by
  simp [growMonitors, -gives_onWorkspace]

/-- A result is delivered to an activation that carries its call. -/
theorem givesUp_returnIntoCaller
    {caller parameters : Nat}
    {value : List Word}
    (waits : ∀ waiting, before.manager.activation? caller = some waiting →
      waiting.Waits) :
    ¬(returnIntoCaller context caller parameters value).GivesUp before
      (.payloadForm held expected) := by
  intro givesUp
  simp only [returnIntoCaller, fail_bind, givesUp_bind, givesUp_activation,
    gives_activation, givesUp_expectAccepts, givesUp_check, gives_check,
    givesUp_ite, givesUp_fail, and_false, givesUp_onMachine,
    Machine.givesUp_onStack, Stack.givesUp_writeAll, gives_onMachine,
    Machine.gives_onStack, Workspace.givesUp_updateActivation,
    Word.plus_ne_payloadForm, Workspace.givesUp_resume, exists_false, or_self,
    not_false_eq_true, implies_true, givesUp_onWorkspace, givesUp_publish,
    or_false, false_or] at givesUp
  obtain ⟨waiting, _, ⟨found, rfl⟩, _, _, accepted, asked⟩ := givesUp
  obtain ⟨call, carried⟩ := (waits waiting found).2
  simp [carried, Payload.toCall] at asked

section Services

variable {rest : Array HeldActivation} {held : HeldActivation}
  {form expected : PayloadForm}

theorem givesUp_serveCall
    (poses : Poses before.manager rest held)
    (isCall : held.activation.message.isCall = true) :
    ¬(serveCall context rest.size).GivesUp before
      (.payloadForm form expected) := by
  obtain ⟨call, carried⟩ := (poses.waits isCall).2
  have taken : held.activation.payload.toCall = .ok call := by rw [carried]; rfl
  simp [serveCall, activation?_of_push poses.stands, taken, -bind_pure_comp]

/-- A message that announces a kind of result carries one. -/
theorem Poses.returns
    (poses : Poses before.manager rest held)
    (posted : held.activation.message = .returnFromMethod) :
    ∃ kind, held.activation.payload.toReturnKind = .ok kind := by
  have fits := poses.fits
  unfold Activation.Fits at fits
  rw [posted] at fits
  cases carried : held.activation.payload with
  | returning kind => exact ⟨kind, rfl⟩
  | _ => simp [carried, Payload.form, Message.payloadForm] at fits

/-- A message that announces a replacement request carries one. -/
theorem Poses.leaves
    (poses : Poses before.manager rest held)
    (posted : held.activation.message = .doOsr) :
    ∃ request, held.activation.payload.toOsr = .ok request := by
  have fits := poses.fits
  unfold Activation.Fits at fits
  rw [posted] at fits
  cases carried : held.activation.payload with
  | osr request => exact ⟨request, rfl⟩
  | _ => simp [carried, Payload.form, Message.payloadForm] at fits

theorem givesUp_serveReturn
    (poses : Poses before.manager rest held)
    (posted : held.activation.message = .returnFromMethod) :
    ¬(serveReturn context rest.size).GivesUp before
      (.payloadForm form expected) := by
  obtain ⟨kind, taken⟩ := poses.returns posted
  intro givesUp
  simp only [serveReturn, ne_eq, fail_bind, ite_not, givesUp_bind,
    givesUp_activation, gives_activation, activation?_of_push poses.stands,
    Option.some.injEq, givesUp_check, gives_check, givesUp_method, gives_method,
    givesUp_ite, Activation.stackDepth_ne_payloadForm, givesUp_fail, and_false,
    givesUp_onMachine, Machine.givesUp_onStack, givesUp_inspect,
    Stack.givesUp_readAll, gives_onMachine, Machine.gives_onStack,
    gives_inspect, and_assoc, exists_and_left, exists_eq_left,
    givesUp_popActivation, false_or, or_false, exists_eq_left', taken,
    reduceCtorEq, Except.ok.injEq] at givesUp
  obtain ⟨_, -, -, _, -, -, value, -, popped, _, pops, ended⟩ := givesUp
  obtain ⟨rfl, rfl⟩ := (gives_popActivation_of_push poses.stands).mp pops
  split at ended
  · simp [-bind_pure_comp] at ended
  · exact givesUp_returnIntoCaller (fun _ => poses.chain.waits) ended

@[simp] theorem givesUp_serveThrow {index : Nat} :
    ¬(serveThrow context index).GivesUp before
      (.payloadForm form expected) := by
  intro givesUp
  simp only [serveThrow, givesUp_bind, givesUp_activation, gives_activation,
    Workspace.givesUp_updateActivation, not_false_eq_true, implies_true,
    givesUp_onWorkspace, givesUp_demand, givesUp_popActivation,
    false_or] at givesUp
  obtain ⟨_, _, -, _, _, -, _, _, -, popped, _, -, ended⟩ := givesUp
  split at ended <;> simp [-bind_pure_comp] at ended

@[simp] theorem givesUp_servePop {index : Nat} :
    ¬(servePop context index).GivesUp before
      (.payloadForm form expected) := by
  simp [servePop]

@[simp] theorem givesUp_serveMonitor {index : Nat} :
    ¬(serveMonitor context index).GivesUp before
      (.payloadForm form expected) := by
  simp [serveMonitor]

/-- Leaving for compiled code is given up only by the code's own handler. -/
theorem givesUp_serveOsr
    (poses : Poses before.manager rest held)
    (posted : held.activation.message = .doOsr)
    (givesUp : (serveOsr context rest.size).GivesUp before
      (.payloadForm form expected)) :
    ∃ handler method request,
      context.osrHandler = some handler ∧
        (handler method held.activation request).GivesUp before.own
          (.payloadForm form expected) := by
  obtain ⟨request, taken⟩ := poses.leaves posted
  simp only [serveOsr, givesUp_bind, givesUp_activation, gives_activation,
    activation?_of_push poses.stands, Option.some.injEq, givesUp_method,
    gives_method, givesUp_check, gives_check, givesUp_demand, gives_demand,
    givesUp_onOwn, givesUp_popActivation, givesUp_updateManager,
    givesUp_commitAnchor, givesUp_pure, and_false, exists_false, or_self,
    or_false, and_assoc, exists_and_left, exists_eq_left, false_or,
    exists_eq_left', taken, reduceCtorEq, Except.ok.injEq] at givesUp
  obtain ⟨method, -, handler, handlerIs, ended⟩ := givesUp
  exact ⟨handler, method, request, handlerIs, ended⟩

/-- Serving is given up over a payload only by the handler of replacements. -/
theorem givesUp_serve
    (poses : Poses before.manager rest held)
    (givesUp : (serve context rest.size held.activation.message).GivesUp before
      (.payloadForm form expected)) :
    ∃ handler method request,
      context.osrHandler = some handler ∧
        (handler method held.activation request).GivesUp before.own
          (.payloadForm form expected) := by
  rcases posted : held.activation.message <;> rw [posted] at givesUp
  case callMethod | callMethodHandle =>
    exact (givesUp_serveCall poses (by rw [posted]; rfl) givesUp).elim
  case returnFromMethod =>
    exact (givesUp_serveReturn poses posted givesUp).elim
  case moreMonitors => exact (givesUp_serveMonitor givesUp).elim
  case throwingException => exact (givesUp_serveThrow givesUp).elim
  case poppingFrame => exact (givesUp_servePop givesUp).elim
  case doOsr => exact givesUp_serveOsr poses posted givesUp
  all_goals exact (givesUp_fail givesUp).elim

end Services

section Calls

variable {form expected : PayloadForm}

/-- Advancing is given up only if the engine gives up on the top. -/
theorem givesUp_advance
    {engine : Engine τ}
    (givesUp : (advance context engine).GivesUp before
      (.payloadForm form expected)) :
    ∃ top, before.manager.top? = some top ∧
      engine.GivesUp ⟨before.own, top, before.machine.stack⟩
        (.payloadForm form expected) := by
  simp only [advance, fail_bind, givesUp_bind, givesUp_readManager,
    gives_readManager, givesUp_ite, givesUp_fail, and_false, givesUp_demand,
    gives_demand, givesUp_activation, gives_activation, givesUp_commit,
    givesUp_pure, exists_false, or_self, or_false, false_or, and_assoc,
    exists_and_left, exists_eq_left] at givesUp
  obtain ⟨-, index, topFound, former, -, -, ended⟩ := givesUp
  obtain ⟨rest, held, stands, rfl⟩ := push_of_topIndex? topFound
  obtain ⟨top, found, gaveUp⟩ := givesUp_runEngine ended
  obtain rfl := Option.some.inj ((activation?_of_push stands).symm.trans found)
  exact ⟨held.activation, top?_of_push stands, gaveUp⟩

/-- A run on a loose activation is given up where the engine is. -/
theorem givesUp_onLoose
    {activation : Activation}
    {engine : Engine τ} :
    (onLoose activation engine).GivesUp before cause ↔
      engine.GivesUp ⟨before.own, activation, before.machine.stack⟩ cause := by
  obtain ⟨own, manager, thread, stack, records⟩ := before
  unfold onLoose Operation.GivesUp Probe.GivesUp Probe.andThen
  dsimp only
  rcases engine ⟨own, activation, stack⟩ with ⟨⟨outcome | value, notes⟩, turn⟩
  · simp
  · simp [Probe.answer]

theorem givesUp_setUp
    {engine : Engine τ}
    (givesUp : (setUp context engine).GivesUp before
      (.payloadForm form expected)) :
    ∃ fresh, Activation.forSetup before.machine.thread.id context.env.layout =
        .ok fresh ∧
      engine.GivesUp ⟨before.own, fresh, before.machine.stack⟩
        (.payloadForm form expected) := by
  simp only [setUp, fail_bind, givesUp_bind, givesUp_readManager,
    gives_readManager, givesUp_ite, givesUp_pure, and_false, givesUp_readThread,
    gives_readThread, givesUp_check, gives_check, givesUp_fail,
    givesUp_updateManager, or_self, exists_false, or_false, and_assoc,
    exists_and_left, exists_eq_left, false_or,
    Activation.forSetup_ne_payloadForm] at givesUp
  obtain ⟨-, fresh, made, ended⟩ := givesUp
  exact ⟨fresh, made, givesUp_onLoose.mp ended⟩

theorem givesUp_start
    {methodWord : Word}
    {arguments handles : List Word} :
    ¬(start context methodWord arguments handles).GivesUp before
      (.payloadForm form expected) := by
  simp [start, -bind_pure_comp]

theorem givesUp_completeOsr
    {kind : ReturnKind}
    {value : List Word}
    (follows : before.manager.FollowsProtocol) :
    ¬(completeOsr context kind value).GivesUp before
      (.payloadForm form expected) := by
  intro givesUp
  simp only [completeOsr, ne_eq, fail_bind, ite_not, givesUp_bind,
    givesUp_readManager, gives_readManager, givesUp_demand, gives_demand,
    givesUp_ite, givesUp_updateManager, gives_updateManager, exists_eq_left,
    exists_const, false_or, givesUp_fail, and_false, or_false, and_assoc,
    exists_and_left] at givesUp
  obtain ⟨pending, isPending, -, -, ended⟩ := givesUp
  split at ended
  · simp [-bind_pure_comp] at ended
  · rename_i caller callerOf
    have chain := follows.chain_of_pending isPending callerOf
    refine givesUp_returnIntoCaller ?_ ended
    exact fun _ => chain.waits

/-- A step is given up by its engine or by the handler of replacements. -/
theorem givesUp_step
    {engine : Engine τ}
    (follows : before.manager.FollowsProtocol)
    (acts : ActsThroughActivation engine)
    (givesUp : (step context engine).GivesUp before
      (.payloadForm form expected)) :
    ∃ top, before.manager.top? = some top ∧
      (engine.GivesUp ⟨before.own, top, before.machine.stack⟩
          (.payloadForm form expected) ∨
        ∃ turn handler method request,
          engine.Gives ⟨before.own, top, before.machine.stack⟩ () turn ∧
            context.osrHandler = some handler ∧
            (handler method turn.workspace.activation request).GivesUp
              turn.own (.payloadForm form expected)) := by
  rw [step_eq] at givesUp
  rcases givesUp_bind.mp givesUp with ended | ⟨posted, ready, advanced, ended⟩
  · obtain ⟨top, topIs, gaveUp⟩ := givesUp_advance ended
    exact ⟨top, topIs, .inl gaveUp⟩
  · obtain ⟨rest, held, turn, stack, stands, isResponse, turned, -, -, rfl, own,
      managed, -⟩ := gives_advance advanced
    have poses := poses_of_turn follows acts stands isResponse turned
    rw [← managed] at poses
    obtain ⟨handler, method, request, handlerIs, gaveUp⟩ :=
      givesUp_serve poses ended
    rw [own] at gaveUp
    exact ⟨held.activation, top?_of_push stands, .inr ⟨turn, handler, method,
      request, turned, handlerIs, gaveUp⟩⟩

@[simp] theorem givesUp_growAll {index count : Nat} :
    ¬(growAll context index count).GivesUp before
      (.payloadForm form expected) := by
  induction count generalizing before with
  | zero => simp [growAll]
  | succ count inductionHypothesis =>
      simp [growAll, inductionHypothesis, -bind_pure_comp]

@[simp] theorem givesUp_restoreImage
    {index : Nat}
    {bcp : Address}
    {image : DeoptimizedActivation} :
    ¬(restoreImage context index bcp image).GivesUp before
      (.payloadForm form expected) := by
  simp [restoreImage]

@[simp] theorem givesUp_release
    {source : DeoptSource}
    {env : Env}
    {before : Machine} :
    ¬(source.release env : Operation Machine ε _).GivesUp before cause := by
  unfold DeoptSource.release
  split
  · exact givesUp_pure
  · simp [Operation.state, Machine.updateRecords, Probe.answer,
      Probe.GivesUp, -bind_pure_comp]

@[simp] theorem givesUp_releaseSource {source : DeoptSource} :
    ¬(releaseSource context source).GivesUp before cause := by
  simp [releaseSource]

theorem givesUp_pushDeoptimized {image : DeoptimizedActivation} :
    ¬(pushDeoptimized context image).GivesUp before
      (.payloadForm form expected) := by
  intro givesUp
  simp only [pushDeoptimized, dropPendingOsr, fail_bind, givesUp_bind,
    givesUp_readManager, givesUp_ite, givesUp_fail, givesUp_method,
    givesUp_demand, givesUp_activation, givesUp_check,
    Activation.stackDepth_ne_payloadForm, Method.bcpOf_ne_payloadForm,
    givesUp_updateManager, givesUp_pushActivation, givesUp_restoreImage,
    givesUp_commitAnchor, and_false, false_or] at givesUp
  obtain ⟨_, _, -, -, _, _, -, _, _, -, _, _, -, -, _, _, -, -, _, _, -, -, _, _,
    -, _, _, -, _, _, -, _, _, -, ended⟩ := givesUp
  split at ended
  · exact givesUp_releaseSource ended
  · exact givesUp_pure ended

end Calls

end Session

end Parts

/-- The engine's or the handler's own run in a call is what gives up. -/
def Call.GivenUpOutside
    (context : ManagerContext τ)
    (session : Session τ)
    (cause : Abort) :
    Call τ → Prop
  | .setUp engine =>
      ∃ fresh,
        Activation.forSetup session.machine.thread.id context.env.layout =
            .ok fresh ∧
          engine.GivesUp ⟨session.own, fresh, session.machine.stack⟩ cause
  | .step engine =>
      ∃ top, session.manager.top? = some top ∧
        (engine.GivesUp ⟨session.own, top, session.machine.stack⟩ cause ∨
          ∃ turn handler method request,
            engine.Gives ⟨session.own, top, session.machine.stack⟩ () turn ∧
              context.osrHandler = some handler ∧
              (handler method turn.workspace.activation request).GivesUp
                turn.own cause)
  | _ => False

/--
The manager never takes something out of a payload that the payload does not hold.

Only the engine and the handler of replacements could do that, in a run of their own.
-/
theorem Call.givenUpOutside_of_payloadForm
    {context : ManagerContext τ}
    {session : Session τ}
    {call : Call τ}
    {held expected : PayloadForm}
    (follows : session.manager.FollowsProtocol)
    (acts : call.Acts)
    (givesUp : (call.perform context).GivesUp session
      (.payloadForm held expected)) :
    call.GivenUpOutside context session (.payloadForm held expected) := by
  cases call <;>
    simp only [perform, givesUp_bind, givesUp_pure, and_false, exists_false,
      or_false] at givesUp
  case setUp engine => exact Session.givesUp_setUp givesUp
  case start method arguments handles =>
    exact Session.givesUp_start givesUp
  case step engine => exact Session.givesUp_step follows acts givesUp
  case completeOsr kind value =>
    exact Session.givesUp_completeOsr follows givesUp
  case pushDeoptimized image => exact Session.givesUp_pushDeoptimized givesUp

/--
Between two calls the protocol is followed, and the next call, whatever it is, never
takes out of a payload what the payload does not hold.
-/
theorem followsProtocol_of_reached
    {context : ManagerContext τ}
    {session : Session τ}
    (reached : Reached context session) :
    session.manager.FollowsProtocol ∧
      ∀ call : Call τ, call.Acts → ∀ held expected : PayloadForm,
        (call.perform context).GivesUp session (.payloadForm held expected) →
          call.GivenUpOutside context session (.payloadForm held expected) :=
  ⟨reached.followsProtocol, fun _ acts _ _ givesUp =>
    Call.givenUpOutside_of_payloadForm reached.followsProtocol acts givesUp⟩

/-- The session of a callee and its waiting caller is such a session. -/
theorem followsProtocol_of_entered :
    Reached Pair.context Pair.entered ∧ Pair.entered.manager.depth = 2 ∧
      Pair.entered.manager.FollowsProtocol :=
  ⟨Pair.reached_entered, by decide +kernel,
    (followsProtocol_of_reached Pair.reached_entered).1⟩

end ManagedStack
