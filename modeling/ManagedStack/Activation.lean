import ManagedStack.Layout
import ManagedStack.Protocol.Error
import ManagedStack.Thread

namespace ManagedStack

/-!
# Interpreted activations

An activation is what engine and frame manager share about one interpreted method
in progress.  Its locals, monitors and expression stack lie on the thread stack:
locals grow downward from their pointer, monitors downward from their base, and the
expression stack downward from below the monitors.  The top pointer addresses the
top entry and lies one word above the deepest place when there is no entry.
-/

/-- The shared record of one interpreted method in progress. -/
structure Activation where
  thread : ThreadId
  method : Word
  bcp : Address
  locals : Address
  maxLocals : Nat
  constants : Word
  mdx : Word
  /-- Address of the top entry. -/
  stackTop : Address
  /-- Address of the deepest entry. -/
  stackBase : Address
  /-- Lowest address an entry may have. -/
  stackLimit : Address
  /-- One past the highest monitor. -/
  monitorBase : Address
  monitorWords : Word
  fp : Address
  oopTemp : Word
  message : Message
  payload : Payload
  /-- The caller, by its position in the chain of activations. -/
  caller : Option Nat
  pendingException : Option Word
  scratch : ScratchArea
  deriving Repr, DecidableEq

/-- What is fixed when an activation is laid out. -/
structure ActivationShape where
  method : Word
  bcp : Address
  locals : Address
  maxLocals : Nat
  constants : Word
  fp : Address
  monitorBase : Address
  maxStack : Word
  caller : Option Nat
  deriving Repr, DecidableEq

namespace Activation

/-- Lowest address an entry may have, for a number of entries below a base. -/
def limitFor
    (stackBase : Address)
    (maxStack : Word) :
    Except Abort Address :=
  (subtractSigned 1 maxStack.signed).map stackBase.offset

/-- A fresh activation, without monitors or entries. -/
def ofShape
    (thread : ThreadId)
    (shape : ActivationShape)
    (layout : FrameLayout) :
    Except Abort Activation := do
  let stackBase := shape.monitorBase.offset (-1)
  let stackLimit ← limitFor stackBase shape.maxStack
  let scratch ← ScratchArea.ofLayout layout
  return {
    thread := thread
    method := shape.method
    bcp := shape.bcp
    locals := shape.locals
    maxLocals := shape.maxLocals
    constants := shape.constants
    mdx := 0
    stackTop := shape.monitorBase
    stackBase := stackBase
    stackLimit := stackLimit
    monitorBase := shape.monitorBase
    monitorWords := layout.monitorWords
    fp := shape.fp
    oopTemp := 0
    message := .noRequest
    payload := .empty
    caller := shape.caller
    pendingException := none
    scratch := scratch
  }

/-- The shape of the activation that sets an engine up. -/
def setupShape : ActivationShape where
  method := 0
  bcp := 0
  locals := 0
  maxLocals := 0
  constants := 0
  fp := 0
  monitorBase := 0
  maxStack := 0
  caller := none

/-- The activation that sets an engine up; it lies nowhere. -/
def forSetup
    (thread : ThreadId)
    (layout : FrameLayout) :
    Except Abort Activation := do
  let fresh ← ofShape thread setupShape layout
  return { fresh with message := .engineSetup }

/-- The lowest monitor, or the base of the block when there is none. -/
def monitorEnd (activation : Activation) : Address :=
  activation.stackBase.offset 1

/-- How many monitors there are. -/
def monitorCount (activation : Activation) : Except Abort Word := do
  let block ← activation.monitorBase.minus activation.monitorEnd
  let size ← activation.monitorWords.times 8
  block.dividedBy size

/-- Address of a monitor, counted from the highest. -/
def monitorAt?
    (activation : Activation)
    (index : Nat) :
    Except Abort (Option Address) := do
  let count ← activation.monitorCount
  if index < count.toNat then
    return some (activation.monitorBase.offset
      (-((index + 1) * activation.monitorWords.toNat : Nat)))
  else
    return none

/-- How many entries the expression stack has. -/
def stackDepth (activation : Activation) : Except Abort Word := do
  let taken ← activation.monitorEnd.minus activation.stackTop
  return taken / 8

/-- Whether a response answers what the activation has pending. -/
def accepts
    (activation : Activation)
    (response : Message) :
    Bool :=
  match response with
  | .engineSetup => activation.message == .noRequest
  | .methodEntry => activation.message == .noRequest
  | .deoptResume => activation.message == .noRequest
  | .methodResume => activation.message.isCall
  | .rethrowException => activation.message.isCall
  | .deoptResume2 => activation.message.isCall
  | .gotMonitors => activation.message == .moreMonitors
  | _ => false

/-- Address of a local. -/
def localSlot
    (activation : Activation)
    (index : Nat) :
    Except ProtocolError Address :=
  if index < activation.maxLocals then
    .ok (activation.locals.offset (-index))
  else
    .error (.localOutOfRange activation.method index)

/-- The activation without any expression stack entry. -/
def withEmptyStack (activation : Activation) : Activation :=
  { activation with stackTop := activation.monitorEnd }

end Activation

/-- An activation together with the stack that it lies on. -/
structure Workspace where
  activation : Activation
  stack : Stack

namespace Workspace

/-- The activation. -/
def current : Operation Workspace ε Activation :=
  Operation.inspect fun workspace => .answer workspace.activation

/-- Change the activation. -/
def updateActivation
    (change : Activation → Activation) :
    Operation Workspace ε Unit :=
  Operation.update fun workspace =>
    { workspace with activation := change workspace.activation }

/-- Run an operation on the stack alone. -/
def onStack
    (operation : Operation Stack FrameError α) :
    Operation Workspace ProtocolError α :=
  (operation.mapError .frame).onPart fun ⟨activation, stack⟩ =>
    (stack, fun changed => ⟨activation, changed⟩)

/-- Read one stack word. -/
def readWord (address : Address) : Operation Workspace ProtocolError Word :=
  onStack (Operation.inspect fun stack => stack.read address)

/-- Write one stack word. -/
def writeWord
    (address : Address)
    (value : Word) :
    Operation Workspace ProtocolError Unit :=
  onStack (Stack.write address value)

/-- Push an entry onto the expression stack. -/
def push (value : Word) : Operation Workspace ProtocolError Unit := do
  let activation ← current
  let next := activation.stackTop.offset (-1)
  if next < activation.stackLimit then
    Operation.fail (.expressionStackOverflow activation.method)
  else
    writeWord next value
    updateActivation fun activation => { activation with stackTop := next }

/-- Push several entries in order. -/
def pushAll : List Word → Operation Workspace ProtocolError Unit
  | [] => pure ()
  | value :: rest => do
      push value
      pushAll rest

/-- Pop the top entry. -/
def pop : Operation Workspace ProtocolError Word := do
  let activation ← current
  let depth ← Operation.check activation.stackDepth
  if depth = 0 then
    Operation.fail (.expressionStackUnderflow activation.method)
  else
    let value ← readWord activation.stackTop
    updateActivation fun activation =>
      { activation with stackTop := activation.stackTop.offset 1 }
    return value

/-- The entry a number of words below the top. -/
def peek (depth : Nat) : Operation Workspace ProtocolError Word := do
  let activation ← current
  let entries ← Operation.check activation.stackDepth
  if entries.toNat ≤ depth then
    Operation.fail (.expressionStackUnderflow activation.method)
  else
    readWord (activation.stackTop.offset depth)

/-- Address of a local of the activation. -/
def localSlot (index : Nat) : Operation Workspace ProtocolError Address := do
  let activation ← current
  match activation.localSlot index with
  | .ok address => return address
  | .error cause => Operation.fail cause

/-- Read a local. -/
def readLocal (index : Nat) : Operation Workspace ProtocolError Word := do
  let address ← localSlot index
  readWord address

/-- Write a local. -/
def writeLocal
    (index : Nat)
    (value : Word) :
    Operation Workspace ProtocolError Unit := do
  let address ← localSlot index
  writeWord address value

/-- Write locals with ascending indices. -/
def writeLocals
    (first : Nat) :
    List Word → Operation Workspace ProtocolError Unit
  | [] => pure ()
  | value :: rest => do
      writeLocal first value
      writeLocals (first + 1) rest

/-- Post a request; there can be only one at a time. -/
def post
    (request : Message)
    (payload : Payload) :
    Operation Workspace ProtocolError Unit := do
  let activation ← current
  if !request.isRequest then
    Operation.fail (.notARequest request)
  else if activation.message.isRequest then
    Operation.fail (.requestPending activation.message request)
  else
    updateActivation fun activation =>
      { activation with message := request, payload := payload }

/-- Ask for a call. -/
def requestCall (call : CallRequest) : Operation Workspace ProtocolError Unit :=
  post .callMethod (.call call)

/-- Ask for a call through a method handle. -/
def requestMethodHandleCall
    (call : CallRequest) :
    Operation Workspace ProtocolError Unit :=
  post .callMethodHandle (.call call)

/-- Ask to return with a result of this kind on top of the stack. -/
def requestReturn (kind : ReturnKind) : Operation Workspace ProtocolError Unit :=
  post .returnFromMethod (.returning kind)

/-- Ask for room for one more monitor. -/
def requestMonitor : Operation Workspace ProtocolError Unit :=
  post .moreMonitors .empty

/-- Ask to unwind an exception into the caller. -/
def requestThrow (exception : Word) : Operation Workspace ProtocolError Unit := do
  post .throwingException .empty
  updateActivation fun activation =>
    { activation with pendingException := some exception }

/-- Ask to drop the activation and execute its invoke again. -/
def requestPop : Operation Workspace ProtocolError Unit :=
  post .poppingFrame .empty

/-- Ask to move the activation into compiled code. -/
def requestOsr (request : OsrRequest) : Operation Workspace ProtocolError Unit :=
  post .doOsr (.osr request)

/-- Hand control back to the engine with a response. -/
def resume (response : Message) : Operation Workspace ProtocolError Unit := do
  let activation ← current
  if !response.isResponse then
    Operation.fail (.notAResponse response)
  else if !activation.accepts response then
    Operation.report
      (.incompatibleResume activation.message.name response.name)
    Operation.fail (.incompatibleResume activation.message response)
  else
    updateActivation fun activation =>
      { activation with message := response, payload := .empty }

/--
Make room for one more zeroed monitor and return its address.

The expression stack moves down by the size of a monitor; locals and the monitors
already there stay where they are.
-/
def growMonitors : Operation Workspace ProtocolError Address := do
  let activation ← current
  let grow := activation.monitorWords.signed
  let depth ← Operation.check activation.stackDepth
  let shift ← Operation.check (negateSigned grow)
  let newTop := activation.stackTop.offset shift
  onStack (Stack.copyWords activation.stackTop newTop depth.toNat)
  let moved : Activation := { activation with
    stackTop := newTop
    stackBase := activation.stackBase.offset shift
    stackLimit := activation.stackLimit.offset shift }
  updateActivation fun _ => moved
  let monitor := moved.monitorEnd
  onStack (Stack.zeroWords monitor activation.monitorWords.toNat)
  return monitor

end Workspace

end ManagedStack
