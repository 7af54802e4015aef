import ManagedStack.Proofs.Services

namespace ManagedStack

/-!
# Calls from outside, and the states they reach

A manager is used by five calls.  Each has a law that says what a successful run of
it did.  The states that a manager can be in between two calls are those that such
runs lead to; while nothing is in progress, the thread and its stack are anyone's to
change.
-/

open Operation

namespace Session

variable {context : ManagerContext τ} {before after : Session τ}

/-- Setting up again does nothing, and the first time it only is remembered. -/
theorem gives_setUp
    {engine : Engine τ}
    {value : Unit}
    (gives : (setUp context engine).Gives before value after) :
    before.manager.initialized = true ∧ after = before ∨
      before.manager.initialized = false ∧
        after.manager = { before.manager with initialized := true } := by
  simp only [setUp, gives_bind, gives_readManager, gives_readThread,
    gives_check, gives_ite, fail_bind, gives_fail, gives_pure,
    gives_updateManager, and_assoc, exists_and_left, exists_eq_left,
    and_false, false_or] at gives
  rcases gives with ⟨done, -, rfl⟩ | ⟨undone, fresh, -, ran, between, ranGives,
    -, rfl⟩
  · exact .inl ⟨done, rfl⟩
  · have sameManager : between.manager = before.manager := by
      rw [← ranGives.2]
      rfl
    exact .inr ⟨by simpa using undone, by simp [sameManager]⟩

/-- A run of the engine on an activation of the chain. -/
theorem gives_runEngine
    {index : Nat}
    {engine : Engine τ}
    {value : Unit}
    (gives : (runEngine index engine).Gives before value after) :
    ∃ activation turn,
      before.manager.activation? index = some activation ∧
        engine.Gives ⟨before.own, activation, before.machine.stack⟩ () turn ∧
        after = (before.withTurn index turn).withThread
          { before.machine.thread with state := .inVm } := by
  simp only [runEngine, gives_bind, gives_setState, exists_eq_left,
    exists_const] at gives
  obtain ⟨ran, _, attempted, ended⟩ := gives
  rcases gives_attempt.mp attempted with ⟨_, rfl, engineRan⟩ | ⟨cause, rfl, -⟩
  · obtain ⟨activation, turn, found, turned, rfl⟩ :=
      gives_onActivation.mp engineRan
    obtain ⟨-, rfl⟩ := gives_pure.mp ended
    exact ⟨activation, turn, found, turned, rfl⟩
  · exact (gives_fail ended).elim

/-- Run the engine on the top activation and publish what it left. -/
def advance
    (context : ManagerContext τ)
    (engine : Engine τ) :
    Operation (Session τ) ProtocolError (Nat × Message) := do
  let manager ← readManager
  if !manager.initialized then
    Operation.fail .notInitialized
  let index ← Operation.demand manager.topIndex? .noActivation
  let before ← activation index
  if !before.message.isResponse then
    Operation.fail (.notResumed before.message)
  runEngine index engine
  let after ← activation index
  if !after.message.isRequest then
    Operation.fail (.noRequest after.method)
  commit context index
  return (index, after.message)

/-- A step advances the top and serves what it posted. -/
theorem step_eq
    (context : ManagerContext τ)
    (engine : Engine τ) :
    step context engine = (do
      let (index, message) ← advance context engine
      serve context index message) := by
  simp only [step, advance, bind_assoc, ite_bind, fail_bind, pure_bind]

/-- Advancing replaces the top by what the engine made of it, and publishes it. -/
theorem gives_advance
    {engine : Engine τ}
    {posted : Nat × Message}
    (gives : (advance context engine).Gives before posted after) :
    ∃ (rest : Array HeldActivation) (held : HeldActivation)
        (turn : Turn τ) (stack : Stack),
      before.manager.activations = rest.push held ∧
        held.activation.message.isResponse = true ∧
        engine.Gives ⟨before.own, held.activation, before.machine.stack⟩ ()
          turn ∧
        turn.workspace.activation.message.isRequest = true ∧
        Publishes context turn.workspace.activation turn.workspace.stack
          stack ∧
        posted = (rest.size, turn.workspace.activation.message) ∧
        after.own = turn.own ∧
        after.manager = { before.manager with
          activations := rest.push
            { held with activation := turn.workspace.activation } } ∧
        after.machine.stack = stack := by
  simp only [advance, gives_bind, gives_readManager, gives_demand,
    gives_activation, fail_bind, gives_guard, gives_pure, and_assoc,
    exists_and_left, exists_eq_left] at gives
  obtain ⟨-, index, topFound, former, formerFound, isResponse, _, _, ran,
    changed, changedFound, isRequest, _, _, committed, rfl, rfl⟩ := gives
  obtain ⟨rest, held, stands, rfl⟩ := FrameManager.push_of_topIndex? topFound
  have topIs := FrameManager.activation?_of_push stands
  obtain ⟨activation, turn, found, turned, rfl⟩ := gives_runEngine ran
  obtain rfl := Option.some.inj (topIs.symm.trans formerFound)
  obtain rfl := Option.some.inj (topIs.symm.trans found)
  have changedIs := FrameManager.activation?_withActivation found
    turn.workspace.activation
  obtain rfl := Option.some.inj (changedIs.symm.trans changedFound)
  obtain ⟨_, stack, committedFound, publishes, rfl⟩ := gives_commit committed
  obtain rfl := Option.some.inj (changedIs.symm.trans committedFound)
  exact ⟨rest, held, turn, stack, stands, by simpa using isResponse, turned,
    by simpa using isRequest, publishes, rfl, rfl,
    FrameManager.withActivation_of_push stands _, rfl⟩

/-- The result of compiled code reaches the caller of the migrated activation. -/
theorem gives_completeOsr
    {kind : ReturnKind}
    {value : List Word}
    {outcome : StepOutcome}
    (gives : (completeOsr context kind value).Gives before outcome after) :
    ∃ pending,
      before.manager.pendingOsr = some pending ∧
        (kind = pending.kind ∧ value.length = kind.words) ∧
        (pending.caller = none ∧
            (finishEntry : Operation _ ProtocolError _).Gives
              { before with
                manager := { before.manager with pendingOsr := none } }
              () after ∧
            outcome = .returned kind value ∨
          ∃ caller, pending.caller = some caller ∧
            (returnIntoCaller context caller pending.parameterSlots
              value).Gives
              { before with
                manager := { before.manager with pendingOsr := none } }
              outcome after) := by
  simp only [completeOsr, gives_bind, gives_readManager, gives_demand,
    gives_updateManager, fail_bind, gives_guard, and_assoc, exists_and_left,
    exists_eq_left, exists_const] at gives
  obtain ⟨pending, found, declared, counted, ended⟩ := gives
  refine ⟨pending, found,
    ⟨Decidable.not_not.mp declared, Decidable.not_not.mp counted⟩, ?_⟩
  rcases callerOf : pending.caller with _ | caller
  · simp only [callerOf, gives_bind, gives_pure] at ended
    obtain ⟨_, _, finished, rfl, rfl⟩ := ended
    exact .inl ⟨rfl, finished, rfl⟩
  · simp only [callerOf] at ended
    exact .inr ⟨caller, rfl, ended⟩

/-- The writes that lay a call wrapper and an entry frame out. -/
def writeEntry
    (layout : FrameLayout)
    (wrapper entryFp argumentTop : Address)
    (methodWord : Word)
    (savedAnchor : FrameAnchor)
    (arguments handles : List Word) :
    Operation Stack FrameError Unit := do
  let _ ← CallWrapper.write wrapper methodWord savedAnchor handles
  Stack.write (entryFp.offset layout.link) 0
  Stack.write (entryFp.offset layout.returnAddress) 0
  Stack.write (entryFp.offset layout.entryCallWrapper) wrapper
  writeArguments argumentTop arguments

/-- A start lays out the entry frame, the arguments and the first activation. -/
theorem gives_start
    {methodWord : Word}
    {arguments handles : List Word}
    {value : Unit}
    (gives : (start context methodWord arguments handles).Gives
      before value after) :
    ∃ (callee : Method) (wrapper : Address) (fixed words : Word)
        (argumentTop : Address) (entered : Stack) (pushed : Nat)
        (laid : Session τ) (fresh : Activation) (stack : Stack),
      before.manager.initialized = true ∧
        before.manager.entry = none ∧
        context.env.methods.find? methodWord = some callee ∧
        arguments.length = callee.parameterSlots ∧
        wrapper =
          (if before.machine.thread.anchor.isEmpty then
            before.machine.stack.base
          else
            before.machine.thread.anchor.sp).offset
            (-CallWrapper.sizeWords handles.length) ∧
        context.env.layout.entryFixedWords = .ok fixed ∧
        fixed.plus (UInt64.ofNat callee.parameterSlots) = .ok words ∧
        (wrapper.offset (-2)).below words = .ok argumentTop ∧
        (writeEntry context.env.layout wrapper (wrapper.offset (-2))
          argumentTop methodWord before.machine.thread.anchor arguments
          handles).Gives before.machine.stack () entered ∧
        (pushActivation context callee argumentTop (wrapper.offset (-2))
          context.entryPoints.callStubReturnPc none).Gives
          { before.withStack entered with
            manager := { before.manager with
              entry := some ⟨wrapper, before.machine.thread.anchor⟩ } }
          pushed laid ∧
        laid.manager.activation? pushed = some fresh ∧
        Publishes context (resumed fresh .methodEntry)
          laid.machine.stack stack ∧
        Settles context after
          (laid.manager.withActivation pushed (resumed fresh .methodEntry))
          stack := by
  simp only [start, gives_bind, gives_readManager, gives_method,
    gives_readThread, gives_readStack, gives_check, gives_checkHeadroom,
    gives_onMachine, Machine.gives_onStack, gives_updateManager,
    gives_onWorkspace, Workspace.gives_resume, gives_setState, fail_bind,
    gives_guard, and_assoc, exists_and_left, exists_eq_left,
    exists_const] at gives
  obtain ⟨initialized, noEntry, callee, calleeFound, argumentCount, fixed,
    fixedOk, words, wordsOk, argumentTop, argumentTopOk, -, -, _, _, ⟨_,
    ⟨entered, written, rfl⟩, rfl⟩, pushed, laid, pushedGives, _, ⟨fresh,
    freshFound, -, -, rfl⟩, _, _, committed, _, _, anchored, rfl⟩ := gives
  obtain ⟨_, stack, found, publishes, settles⟩ :=
    settles_of_commit committed anchored
  have same := FrameManager.activation?_withActivation freshFound
    (resumed fresh .methodEntry)
  obtain rfl := Option.some.inj (same.symm.trans found)
  refine ⟨callee, _, fixed, words, argumentTop, entered, pushed, laid, fresh,
    stack, by simpa using initialized, by simpa using noEntry, calleeFound,
    by simpa using argumentCount, rfl, fixedOk, wordsOk, argumentTopOk, ?_,
    pushedGives, freshFound, publishes, ?_⟩
  · simpa only [writeEntry, gives_bind] using written
  · exact ⟨settles.managed, settles.stacked, settles.anchored⟩

/-- Dropping a record changes no more than the records. -/
theorem gives_releaseSource
    {source : DeoptSource}
    {value : Unit}
    (gives : (releaseSource context source).Gives before value after) :
    after.manager = before.manager ∧
      after.machine.stack = before.machine.stack ∧
      after.machine.thread = before.machine.thread := by
  simp only [releaseSource, gives_bind, gives_onMachine] at gives
  obtain ⟨_, _, ⟨machine, released, rfl⟩, reported⟩ := gives
  have same : machine.stack = before.machine.stack ∧
      machine.thread = before.machine.thread := by
    unfold DeoptSource.release at released
    split at released
    · obtain ⟨-, rfl⟩ := gives_pure.mp released
      exact ⟨rfl, rfl⟩
    · simp only [gives_bind, gives_state, Machine.updateRecords, gives_update,
        gives_pure, and_assoc, exists_and_left, exists_eq_left,
        exists_const] at released
      obtain ⟨-, rfl⟩ := released
      exact ⟨rfl, rfl⟩
  rcases gives_ite.mp reported with ⟨-, ended⟩ | ⟨-, ended⟩
  · obtain rfl := gives_report.mp ended
    exact ⟨rfl, same⟩
  · obtain ⟨-, rfl⟩ := gives_pure.mp ended
    exact ⟨rfl, same⟩

/-- The chain after compiled code that took over the top's call is gone. -/
def withoutPendingOsr
    (manager : FrameManager)
    (caller : Nat) :
    FrameManager :=
  if manager.pendingOsr.any (·.caller == some caller) then
    { manager with pendingOsr := none }
  else
    manager

/-- Nothing but the pending replacement may differ. -/
theorem withoutPendingOsr_eq
    (manager : FrameManager)
    (caller : Nat) :
    withoutPendingOsr manager caller =
      { manager with pendingOsr := (withoutPendingOsr manager caller).pendingOsr } := by
  unfold withoutPendingOsr
  split <;> rfl

/-- An image is restored in order: locals, monitors, expressions, owners. -/
theorem gives_restoreImage
    {index : Nat}
    {bcp : Address}
    {image : DeoptimizedActivation}
    {value : Unit}
    (gives : (restoreImage context index bcp image).Gives before value after) :
    ∃ (fresh grownTop : Activation) (filled pushed : Workspace)
        (monitors : List Address) (roomy : Session τ) (stack owned : Stack),
      before.manager.activation? index = some fresh ∧
        (Workspace.writeLocals 0 image.locals).Gives
          ⟨fresh, before.machine.stack⟩ () filled ∧
        (growAll context index image.monitors.length).Gives
          (before.withWorkspace index filled) monitors roomy ∧
        roomy.manager.activation? index = some grownTop ∧
        (Workspace.pushAll image.expressions).Gives
          ⟨grownTop, roomy.machine.stack⟩ () pushed ∧
        Publishes context
          (resumed { pushed.activation with bcp := bcp } .deoptResume)
          pushed.stack stack ∧
        (writeOwners (monitors.zip image.monitors)).Gives stack () owned ∧
        after.manager = roomy.manager.withActivation index
          (resumed { pushed.activation with bcp := bcp } .deoptResume) ∧
        after.machine.stack = owned := by
  simp only [restoreImage, gives_bind, gives_onWorkspace,
    Workspace.gives_updateActivation, Workspace.gives_resume,
    gives_activation, gives_frameOf, gives_onMachine, Machine.gives_onStack,
    and_assoc, exists_and_left, exists_eq_left, exists_const] at gives
  obtain ⟨_, _, ⟨fresh, freshFound, filled, fills, rfl⟩, monitors, roomy,
    grows, _, ⟨grownTop, grownFound, _, ⟨_, pushed, pushes, -, -, rfl⟩, rfl⟩,
    _, _, committed, _, -, _, -, _, ⟨owned, owns, rfl⟩, rfl⟩ := gives
  obtain ⟨_, stack, found, publishes, rfl⟩ := gives_commit committed
  have same := FrameManager.activation?_withActivation grownFound
    (resumed { pushed.activation with bcp := bcp } .deoptResume)
  obtain rfl := Option.some.inj (same.symm.trans found)
  exact ⟨fresh, grownTop, filled, pushed, monitors, roomy, stack, owned,
    freshFound, fills, grows, grownFound, pushes, publishes, owns, rfl, rfl⟩

/-- A rebuilt activation is laid out over the waiting top and filled. -/
theorem gives_pushDeoptimized
    {image : DeoptimizedActivation}
    {value : Unit}
    (gives : (pushDeoptimized context image).Gives before value after) :
    ∃ (callee : Method) (rest : Array HeldActivation) (held : HeldActivation)
        (depth : Word) (bcp : Address) (pushed : Nat)
        (laid restored : Session τ),
      before.manager.initialized = true ∧
        context.env.methods.find? image.method = some callee ∧
        before.manager.activations = rest.push held ∧
        held.activation.message.isCall = true ∧
        held.activation.stackDepth = .ok depth ∧
        callee.parameterSlots ≤ depth.toNat ∧
        (pushActivation context callee held.activation.stackTop
          held.activation.fp context.entryPoints.interpreterReturnPc
          (some rest.size)).Gives
          { before with manager := withoutPendingOsr before.manager rest.size }
          pushed laid ∧
        (restoreImage context pushed bcp image).Gives laid () restored ∧
        Settles context after restored.manager restored.machine.stack := by
  simp only [pushDeoptimized, gives_bind, gives_readManager, gives_method,
    gives_demand, gives_activation, gives_check, dropPendingOsr,
    gives_updateManager, gives_commitAnchor, fail_bind, gives_guard,
    and_assoc, exists_and_left, exists_eq_left, exists_const] at gives
  obtain ⟨initialized, callee, calleeFound, index, topFound, waiting,
    waitingFound, isCall, depth, counted, enough, bcp, -, -, pushed, laid,
    pushedGives, _, restored, restores, ended⟩ := gives
  obtain ⟨rest, held, stands, rfl⟩ := FrameManager.push_of_topIndex? topFound
  obtain rfl := Option.some.inj
    ((FrameManager.activation?_of_push stands).symm.trans waitingFound)
  refine ⟨callee, rest, held, depth, bcp, pushed, laid, restored,
    by simpa using initialized, calleeFound, stands, by simpa using isCall,
    counted, by omega, pushedGives, restores, ?_⟩
  rcases sourced : image.source with _ | source <;>
    simp only [sourced] at ended
  · obtain ⟨-, rfl⟩ := gives_pure.mp ended
    exact ⟨rfl, rfl, rfl⟩
  · obtain ⟨sameManager, sameStack, sameThread⟩ := gives_releaseSource ended
    exact ⟨sameManager, sameStack, by rw [sameThread]; rfl⟩

end Session

/-- A call of the manager from outside. -/
inductive Call (τ : Type) where
  | setUp (engine : Engine τ)
  | start (method : Word) (arguments handles : List Word)
  | step (engine : Engine τ)
  | completeOsr (kind : ReturnKind) (value : List Word)
  | pushDeoptimized (image : DeoptimizedActivation)

namespace Call

/-- Make a call; a step and the completion of compiled code have an outcome. -/
def perform
    (context : ManagerContext τ) :
    Call τ → Operation (Session τ) ProtocolError (Option StepOutcome)
  | .setUp engine => do
      Session.setUp context engine
      return none
  | .start method arguments handles => do
      Session.start context method arguments handles
      return none
  | .step engine => do
      let outcome ← Session.step context engine
      return some outcome
  | .completeOsr kind value => do
      let outcome ← Session.completeOsr context kind value
      return some outcome
  | .pushDeoptimized image => do
      Session.pushDeoptimized context image
      return none

/-- The engine that a call runs, if it runs one, acts through its activation. -/
def Acts : Call τ → Prop
  | .setUp engine => ActsThroughActivation engine
  | .step engine => ActsThroughActivation engine
  | _ => True

end Call

/--
The sessions that calls which all succeeded lead to.

While a manager has no entry frame, its thread and the memory of its engine may change
in any way before the next call.
-/
inductive Reached (context : ManagerContext τ) : Session τ → Prop where
  | fresh
      {session : Session τ}
      (unused : session.manager = {}) :
      Reached context session
  | idle
      {session : Session τ}
      (reached : Reached context session)
      (noEntry : session.manager.entry = none)
      (own : τ)
      (machine : Machine) :
      Reached context { session with own := own, machine := machine }
  | call
      {before after : Session τ}
      {outcome : Option StepOutcome}
      (reached : Reached context before)
      (call : Call τ)
      (acts : call.Acts)
      (performed : (call.perform context).Gives before outcome after) :
      Reached context after

namespace Call

/-- Make calls one after the other, as long as all of them succeed. -/
def runAll?
    (context : ManagerContext τ) :
    List (Call τ) → Session τ → Option (Session τ)
  | [], session => some session
  | call :: rest, session =>
      match call.perform context session with
      | (⟨.ok _, _⟩, after) => runAll? context rest after
      | (⟨.error _, _⟩, _) => none

end Call

/-- A run of calls that all succeeded leads to a session that is reached. -/
theorem Reached.of_runAll?
    {context : ManagerContext τ}
    {before after : Session τ}
    {calls : List (Call τ)}
    (reached : Reached context before)
    (acts : ∀ call ∈ calls, call.Acts)
    (ran : Call.runAll? context calls before = some after) :
    Reached context after := by
  induction calls generalizing before with
  | nil =>
      obtain rfl := Option.some.inj ran
      exact reached
  | cons call rest inductionHypothesis =>
      unfold Call.runAll? at ran
      split at ran
      · rename_i outcome notes between performed
        have gives : (call.perform context).Gives before outcome between := by
          unfold Operation.Gives Probe.Gives
          rw [performed]
          exact ⟨rfl, rfl⟩
        exact inductionHypothesis (reached.call call (acts call (by simp)) gives)
          (fun later inRest => acts later (by simp [inRest])) ran
      · cases ran

/-!
A caller and a callee, whose receiver and argument the caller pushes.
-/

namespace Pair

/-- A method that takes an object and a receiver. -/
def callee : Method where
  id := 0x500008
  name := "Sink.accept"
  signature := ⟨[.object], .void⟩
  codeBase := 0x610000
  codeSize := 16
  maxStack := 2
  masks := [(0, ⟨[.oop, .oop], []⟩)]

/-- A method whose first instruction passes an object to the other one. -/
def caller : Method where
  id := 0x500000
  name := "Main.run"
  signature := ⟨[], .void⟩
  codeBase := 0x600000
  codeSize := 16
  maxStack := 3
  isStatic := true
  masks := [(0, ⟨[], []⟩)]
  invokes := [(0, ⟨⟨[.object], .void⟩, true, 3⟩)]

def context : ManagerContext Unit where
  env := {
    code := ⟨[.ofRange "interpreter" 0x1000 0x2000 .interpreter,
      .ofRange "call stub" 0x3000 0x3100 (.callStub 0x3040)]⟩
    methods := ⟨[caller, callee]⟩
    layout := .x86_64
    diagnostics := {}
    adapters := .noAdapters
  }
  entryPoints := ⟨0x1100, 0x3040⟩
  osrHandler := none

def fresh : Session Unit where
  own := ()
  manager := {}
  machine := {
    thread := { id := 1 }
    stack := {
      base := 0x8000
      words := Array.replicate 64 0
      base_aligned := by decide
      fits := by simp
      allocated := by simp
    }
    records := {}
  }

/-- Push a receiver and an object and pass them on. -/
def invoke : Engine Unit :=
  (Turn.onWorkspace (Workspace.push 0x700000)).andThen fun _ =>
    (Turn.onWorkspace (Workspace.push 0x700008)).andThen fun _ =>
      Turn.onWorkspace (Workspace.requestCall ⟨0x500008, 0x1200, 3⟩)

/-- An engine that has nothing to set up. -/
def idle : Engine Unit :=
  Operation.ofProbe (.answer ())

/-- Throw an exception into the caller. -/
def throwInto : Engine Unit :=
  Turn.onWorkspace (Workspace.requestThrow 0x700010)

/-- Calls after which the callee has been entered. -/
def calls : List (Call Unit) :=
  [.setUp idle, .start 0x500000 [] [], .step invoke]

theorem acts : ∀ call ∈ calls, call.Acts := by
  simp only [calls, List.mem_cons, List.not_mem_nil, or_false, forall_eq_or_imp,
    forall_eq, Call.Acts, true_and]
  exact ⟨.probe _, .andThen (.offered (.push _)) fun _ =>
    .andThen (.offered (.push _)) fun _ => .offered (.requestCall _)⟩

theorem ran : (Call.runAll? context calls fresh).isSome = true := by
  decide +kernel

/-- The session in which the callee has been entered. -/
def entered : Session Unit :=
  (Call.runAll? context calls fresh).get ran

theorem reached_entered : Reached context entered :=
  (Reached.fresh rfl).of_runAll? acts (Option.some_get ran).symm

end Pair

end ManagedStack
