import ManagedStack.Manager.Service

namespace ManagedStack

/-!
# Driving a chain of activations

A manager is set up once, started, and stepped: a step runs the engine on the top
activation until it posts a request and serves that request.  Two things reach it
from outside: the result of an activation that finished in compiled code, and the
interpreter image of a compiled activation that was deoptimized.
-/

/-- The interpreter image of a deoptimized compiled activation. -/
structure DeoptimizedActivation where
  method : Word
  bci : UInt32
  locals : List Word
  /-- Expression stack, the deepest entry first. -/
  expressions : List Word
  /-- Owners of the held monitors, the outermost first. -/
  monitors : List Word
  /-- The compiled frame that is replaced. -/
  source : Option DeoptSource
  deriving Repr, DecidableEq

namespace Session

/-- Run an engine on a given activation, which is then dropped. -/
def onLoose
    (activation : Activation)
    (engine : Engine τ) :
    Operation (Session τ) ProtocolError Activation :=
  fun session =>
    let ⟨own, manager, ⟨thread, stack, records⟩⟩ := session
    let (probe, ⟨ownAfter, ⟨changed, stackAfter⟩⟩) :=
      engine ⟨own, activation, stack⟩
    (probe.andThen fun _ => .answer changed,
      ⟨ownAfter, manager, ⟨thread, stackAfter, records⟩⟩)

/-- Let the engine set itself up; done once. -/
def setUp
    (context : ManagerContext τ)
    (engine : Engine τ) :
    Operation (Session τ) ProtocolError Unit := do
  let manager ← readManager
  if manager.initialized then
    return ()
  else
    let thread ← readThread
    let fresh ←
      Operation.check (Activation.forSetup thread.id context.env.layout)
    let after ← onLoose fresh engine
    if after.message.isRequest then
      Operation.fail (.unexpectedRequest after.message)
    updateManager fun manager => { manager with initialized := true }

/-- Run the engine on an activation; the thread runs managed code meanwhile. -/
def runEngine
    (index : Nat)
    (engine : Engine τ) :
    Operation (Session τ) ProtocolError Unit := do
  setState .inJava
  let ran ← Operation.attempt (onActivation index engine)
  setState .inVm
  match ran with
  | .ok _ => return ()
  | .error cause => Operation.fail cause

/-- Run the engine on the top activation and serve the request it posts. -/
def step
    (context : ManagerContext τ)
    (engine : Engine τ) :
    Operation (Session τ) ProtocolError StepOutcome := do
  let manager ← readManager
  if !manager.initialized then
    Operation.fail .notInitialized
  let index ← Operation.demand manager.topIndex? .noActivation
  let before ← activation index
  if !before.message.isResponse then
    Operation.fail (.notResumed before.message)
  runEngine index engine
  let after ← activation index
  if !after.message.isRequest then
    Operation.fail (.noRequest after.method)
  commit context index
  serve context index after.message

/-- Step until nothing is left to drive, at most a number of times. -/
def run
    (context : ManagerContext τ)
    (engine : Engine τ) :
    Nat → Operation (Session τ) ProtocolError StepOutcome
  | 0 => Operation.outOfSteps
  | steps + 1 => do
      let outcome ← step context engine
      if outcome.isTerminal then
        return outcome
      else
        run context engine steps

/-- Deliver the result of a method that finished in compiled code. -/
def completeOsr
    (context : ManagerContext τ)
    (kind : ReturnKind)
    (value : List Word) :
    Operation (Session τ) ProtocolError StepOutcome := do
  let manager ← readManager
  let pending ← Operation.demand manager.pendingOsr .noOsrPending
  if kind ≠ pending.kind then
    Operation.fail (.returnKindMismatch pending.kind kind)
  if value.length ≠ kind.words then
    Operation.fail (.argumentCount kind.words value.length)
  updateManager fun manager => { manager with pendingOsr := none }
  match pending.caller with
  | none => do
      finishEntry
      return .returned kind value
  | some caller =>
      returnIntoCaller context caller pending.parameterSlots value

/-- Make room for monitors and return their addresses. -/
def growAll
    (context : ManagerContext τ)
    (index : Nat) :
    Nat → Operation (Session τ) ProtocolError (List Address)
  | 0 => pure []
  | count + 1 => do
      let monitor ← growMonitors context index
      let rest ← growAll context index count
      return monitor :: rest

/-- Write the owners of monitors. -/
def writeOwners : List (Address × Word) → Operation Stack FrameError Unit
  | [] => pure ()
  | (monitor, owner) :: rest => do
      Stack.write (Frame.monitorOwner monitor) owner
      writeOwners rest

/-- Compiled code that took over a caller's pending call is gone. -/
def dropPendingOsr (caller : Nat) : Operation (Session τ) ε Unit :=
  updateManager fun manager =>
    if manager.pendingOsr.any (·.caller == some caller) then
      { manager with pendingOsr := none }
    else
      manager

/-- Fill a fresh activation from an image and let it resume there. -/
def restoreImage
    (context : ManagerContext τ)
    (index : Nat)
    (bcp : Address)
    (image : DeoptimizedActivation) :
    Operation (Session τ) ProtocolError Unit := do
  onWorkspace index (Workspace.writeLocals 0 image.locals)
  let monitors ← growAll context index image.monitors.length
  onWorkspace index do
    Workspace.pushAll image.expressions
    Workspace.updateActivation fun activation => { activation with bcp := bcp }
    Workspace.resume .deoptResume
  commit context index
  let restored ← activation index
  let _ ← frameOf context restored
  onMachine (Machine.onStack (writeOwners (monitors.zip image.monitors)))

/-- Drop the record of a replaced compiled frame. -/
def releaseSource
    (context : ManagerContext τ)
    (source : DeoptSource) :
    Operation (Session τ) ProtocolError Unit := do
  let released ← onMachine (source.release context.env)
  if released.isNone then
    Operation.report (.replacedFrameUnrecorded source.frameId)

/--
Rebuild an interpreted activation from a deoptimized compiled one.

The top activation must be waiting on the call that reached the compiled code.
-/
def pushDeoptimized
    (context : ManagerContext τ)
    (image : DeoptimizedActivation) :
    Operation (Session τ) ProtocolError Unit := do
  let manager ← readManager
  if !manager.initialized then
    Operation.fail .notInitialized
  let callee ← method context image.method
  let caller ← Operation.demand manager.topIndex? .noActivation
  let waiting ← activation caller
  if !waiting.message.isCall then
    Operation.fail (.incompatibleResume waiting.message .deoptResume)
  let parameters := callee.parameterSlots
  let depth ← Operation.check waiting.stackDepth
  if depth.toNat < parameters then
    Operation.fail (.argumentCount parameters depth.toNat)
  let bcp ← Operation.check (callee.bcpOf image.bci)
  if (callee.bciOfBcx? bcp).isNone then
    Operation.fail (.frame (.invalidBcx callee.name bcp))
  dropPendingOsr caller
  let index ←
    pushActivation context callee waiting.stackTop waiting.fp
      context.entryPoints.interpreterReturnPc (some caller)
  restoreImage context index bcp image
  commitAnchor context
  match image.source with
  | some source => releaseSource context source
  | none => return ()

/-- The frame of the top activation. -/
def topFrame
    (context : ManagerContext τ) :
    Operation (Session τ) ProtocolError (Option Frame) := do
  let manager ← readManager
  match manager.top? with
  | none => return none
  | some activation =>
      let frame ← frameOf context activation
      return some frame

end Session

end ManagedStack
