import ManagedStack.Manager.Layout

namespace ManagedStack.Session

/-!
# Serving requests

Each service answers one request of the top activation.  A call lays out a callee
over the pushed arguments; a return replaces those arguments by the result and goes
on after the invoke; a throw leaves nothing but the exception on the caller's
expression stack; popping a frame leaves the arguments and executes the invoke
again; on-stack replacement takes the activation away and remembers its caller.
-/

/-- Publish an activation as the resumed top of the chain. -/
def publish
    (context : ManagerContext τ)
    (index : Nat)
    (response : Message) :
    Operation (Session τ) ProtocolError StepOutcome := do
  commit context index
  commitAnchor context
  let manager ← readManager
  return .resumed manager.depth response

/-- Refuse to resume an activation that waits for something else. -/
def expectAccepts
    (activation : Activation)
    (response : Message) :
    Operation (Session τ) ProtocolError Unit :=
  if activation.accepts response then
    pure ()
  else
    Operation.fail (.incompatibleResume activation.message response)

/-- Lay out the callee that an activation asks for. -/
def serveCall
    (context : ManagerContext τ)
    (index : Nat) :
    Operation (Session τ) ProtocolError StepOutcome := do
  let caller ← activation index
  let call ← Operation.check caller.payload.toCall
  if !context.env.code.interpreterContains call.entryPoint then
    Operation.report (.calleeNotInterpreted call.callee call.entryPoint)
    Operation.fail (.unsupportedCallee call.callee call.entryPoint)
  let callee ← method context call.callee
  let parameters := callee.parameterSlots
  let depth ← Operation.check caller.stackDepth
  if depth.toNat < parameters then
    Operation.fail (.argumentCount parameters depth.toNat)
  let pushed ←
    pushActivation context callee caller.stackTop caller.fp
      context.entryPoints.interpreterReturnPc (some index)
  onWorkspace pushed (Workspace.resume .methodEntry)
  commit context pushed
  commitAnchor context
  let manager ← readManager
  return .called manager.depth

/-- Replace a caller's arguments by a result and go on after its invoke. -/
def returnIntoCaller
    (context : ManagerContext τ)
    (caller : Nat)
    (parameters : Nat)
    (value : List Word) :
    Operation (Session τ) ProtocolError StepOutcome := do
  let waiting ← activation caller
  expectAccepts waiting .methodResume
  let call ← Operation.check waiting.payload.toCall
  let top := waiting.stackTop.offset (parameters - value.length)
  if top < waiting.stackLimit then
    Operation.fail (.expressionStackOverflow waiting.method)
  onMachine (Machine.onStack (Stack.writeAll top value))
  onWorkspace caller do
    Workspace.updateActivation fun activation =>
      { activation with stackTop := top }
    let bcp ← Operation.check (waiting.bcp.plus call.advance.toUInt64)
    Workspace.updateActivation fun activation => { activation with bcp := bcp }
    Workspace.resume .methodResume
  publish context caller .methodResume

/-- Give the result of the top activation to its caller, or to the outside. -/
def serveReturn
    (context : ManagerContext τ)
    (index : Nat) :
    Operation (Session τ) ProtocolError StepOutcome := do
  let returning ← activation index
  let kind ← Operation.check returning.payload.toReturnKind
  let callee ← method context returning.method
  let declared := ReturnKind.ofType callee.resultType
  if kind ≠ declared then
    Operation.fail (.returnKindMismatch declared kind)
  let depth ← Operation.check returning.stackDepth
  if depth.toNat < kind.words then
    Operation.fail (.expressionStackUnderflow returning.method)
  let value ← onMachine <| Machine.onStack <|
    Operation.inspect fun stack => stack.readAll returning.stackTop kind.words
  let popped ← popActivation
  match popped.activation.caller with
  | none => do
      finishEntry
      return .returned kind value
  | some caller =>
      returnIntoCaller context caller popped.parameterSlots value

/-- Check that there is room for one more monitor, then make it. -/
def growMonitors
    (context : ManagerContext τ)
    (index : Nat) :
    Operation (Session τ) ProtocolError Address := do
  let growing ← activation index
  let lowered ← Operation.check
    (growing.stackLimit.below context.env.layout.monitorWords)
  checkHeadroom lowered growing.stackLimit
  onWorkspace index Workspace.growMonitors

/-- Give the top activation room for one more monitor. -/
def serveMonitor
    (context : ManagerContext τ)
    (index : Nat) :
    Operation (Session τ) ProtocolError StepOutcome := do
  let _ ← growMonitors context index
  onWorkspace index (Workspace.resume .gotMonitors)
  publish context index .gotMonitors

/-- Unwind the top activation's exception into its caller, or to the outside. -/
def serveThrow
    (context : ManagerContext τ)
    (index : Nat) :
    Operation (Session τ) ProtocolError StepOutcome := do
  let throwing ← activation index
  onWorkspace index <| Workspace.updateActivation fun activation =>
    { activation with pendingException := none }
  let exception ←
    Operation.demand throwing.pendingException .missingException
  let popped ← popActivation
  match popped.activation.caller with
  | none => do
      finishEntry
      return .threw exception
  | some caller => do
      let waiting ← activation caller
      expectAccepts waiting .rethrowException
      onWorkspace caller do
        Workspace.updateActivation Activation.withEmptyStack
        Workspace.push exception
        Workspace.resume .rethrowException
      publish context caller .rethrowException

/-- Drop the top activation and let its caller execute the invoke again. -/
def servePop
    (context : ManagerContext τ)
    (index : Nat) :
    Operation (Session τ) ProtocolError StepOutcome := do
  let popping ← activation index
  let caller ← Operation.demand popping.caller .popOutermost
  let waiting ← activation caller
  expectAccepts waiting .deoptResume2
  let _ ← popActivation
  onWorkspace caller (Workspace.resume .deoptResume2)
  publish context caller .deoptResume2

/-- Move the top activation into compiled code. -/
def serveOsr
    (context : ManagerContext τ)
    (index : Nat) :
    Operation (Session τ) ProtocolError StepOutcome := do
  let leaving ← activation index
  let running ← method context leaving.method
  let request ← Operation.check leaving.payload.toOsr
  let handler ← Operation.demand context.osrHandler .osrUnavailable
  let result ← onOwn (handler running leaving request)
  let popped ← popActivation
  updateManager fun manager =>
    { manager with
      pendingOsr := some {
        caller := popped.activation.caller
        parameterSlots := popped.parameterSlots
        kind := ReturnKind.ofType running.resultType
      } }
  commitAnchor context
  return .onStackReplaced result

/-- Serve the request that an activation has posted. -/
def serve
    (context : ManagerContext τ)
    (index : Nat) :
    Message → Operation (Session τ) ProtocolError StepOutcome
  | .callMethod => serveCall context index
  | .callMethodHandle => serveCall context index
  | .returnFromMethod => serveReturn context index
  | .moreMonitors => serveMonitor context index
  | .throwingException => serveThrow context index
  | .poppingFrame => servePop context index
  | .doOsr => serveOsr context index
  | message => Operation.fail (.notARequest message)

end ManagedStack.Session
