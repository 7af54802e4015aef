import ManagedStack.Manager.Basic

namespace ManagedStack.Session

/-!
# Laying activations out

An activation takes, from its caller's top downward: room for the locals that are
not parameters, the return address, the link, the fixed slots, and its expression
stack.  The parameters stay where the caller pushed them.  Calling into managed code
from outside first lays out a call wrapper and an entry frame, with the arguments
where a caller would have pushed them.
-/

/-- Where the parts of an activation go. -/
structure Placement where
  localWords : Nat
  locals : Address
  returnSlot : Address
  fp : Address
  monitorBase : Address
  /-- Lowest address the activation may use. -/
  lowest : Address
  deriving Repr, DecidableEq

/-- Where the parts of an activation go whose arguments end at `top`. -/
def place
    (layout : FrameLayout)
    (method : Method)
    (top : Address) :
    Except Abort Placement := do
  let parameters := method.parameterSlots
  let localWords := max method.maxLocals parameters
  let locals := top.offset (parameters - 1)
  let down ← subtractSigned 1 (Word.signed (UInt64.ofNat localWords))
  let returnSlot := (locals.offset down).offset (-1)
  let fp := returnSlot.offset (-1)
  let monitorBase := fp.offset layout.monitorBlockBottom
  let lowest ← monitorBase.below method.maxStack
  return {
    localWords := localWords
    locals := locals
    returnSlot := returnSlot
    fp := fp
    monitorBase := monitorBase
    lowest := lowest
  }

/-- Write zero to locals with ascending indices. -/
def clearLocals
    (locals : Address)
    (first : Nat) :
    Nat → Operation Stack FrameError Unit
  | 0 => pure ()
  | count + 1 => do
      Stack.write (locals.offset (-first)) 0
      clearLocals locals (first + 1) count

/-- Write the fields of a fresh activation. -/
def writeFields
    (layout : FrameLayout)
    (method : Method)
    (placement : Placement)
    (top callerFp returnPc : Address) :
    Operation Stack FrameError Unit := do
  let put (offset : Int) (value : Word) : Operation Stack FrameError Unit :=
    Stack.write (placement.fp.offset offset) value
  Stack.write placement.returnSlot returnPc
  put layout.link callerFp
  put layout.interpreterSenderSp top
  put layout.lastSp placement.monitorBase
  put layout.method method.id
  put layout.mdx 0
  put layout.cache method.constants
  put layout.locals placement.locals
  put layout.bcx method.codeBase
  put layout.oopTemp 0
  put layout.monitorBlockTop placement.monitorBase

/-- The shape of an activation at a place. -/
def shapeAt
    (method : Method)
    (placement : Placement)
    (caller : Option Nat) :
    ActivationShape where
  method := method.id
  bcp := method.codeBase
  locals := placement.locals
  maxLocals := placement.localWords
  constants := method.constants
  fp := placement.fp
  monitorBase := placement.monitorBase
  maxStack := method.maxStack
  caller := caller

/--
Lay out an activation whose arguments end at `top`, and put it on the chain.

Nothing is written unless all its words fit above the stack limit.
-/
def pushActivation
    (context : ManagerContext τ)
    (method : Method)
    (top callerFp returnPc : Address)
    (caller : Option Nat) :
    Operation (Session τ) ProtocolError Nat := do
  let layout := context.env.layout
  let placement ← Operation.check (place layout method top)
  checkHeadroom placement.lowest top
  let parameters := method.parameterSlots
  onMachine <| Machine.onStack do
    clearLocals placement.locals parameters
      (placement.localWords - parameters)
    writeFields layout method placement top callerFp returnPc
  let thread ← readThread
  let activation ← Operation.check
    (Activation.ofShape thread.id (shapeAt method placement caller) layout)
  let manager ← readManager
  updateManager fun manager =>
    { manager with
      activations := manager.activations.push ⟨activation, parameters⟩ }
  return manager.depth

/-- Write arguments below each other; the last one goes to `top`. -/
def writeArguments
    (top : Address) :
    List Word → Operation Stack FrameError Unit
  | [] => pure ()
  | argument :: rest => do
      Stack.write (top.offset rest.length) argument
      writeArguments top rest

/--
Call into a method from outside managed code.

The call wrapper goes below the thread's last managed frame, or below the base of
the stack when there is none; then come the entry frame, the arguments and the first
activation.
-/
def start
    (context : ManagerContext τ)
    (methodWord : Word)
    (arguments handles : List Word) :
    Operation (Session τ) ProtocolError Unit := do
  let layout := context.env.layout
  let manager ← readManager
  if !manager.initialized then
    Operation.fail .notInitialized
  if manager.entry.isSome then
    Operation.fail .alreadyStarted
  let callee ← method context methodWord
  let parameters := callee.parameterSlots
  if arguments.length ≠ parameters then
    Operation.fail (.argumentCount parameters arguments.length)
  let thread ← readThread
  let stack ← readStack
  let savedAnchor := thread.anchor
  let top := if savedAnchor.isEmpty then stack.base else savedAnchor.sp
  let wrapper := top.offset (-CallWrapper.sizeWords handles.length)
  let entryFp := wrapper.offset (-2)
  let fixed ← Operation.check layout.entryFixedWords
  let words ← Operation.check (fixed.plus (UInt64.ofNat parameters))
  let argumentTop ← Operation.check (entryFp.below words)
  checkHeadroom argumentTop top
  onMachine <| Machine.onStack do
    let _ ← CallWrapper.write wrapper methodWord savedAnchor handles
    Stack.write (entryFp.offset layout.link) 0
    Stack.write (entryFp.offset layout.returnAddress) 0
    Stack.write (entryFp.offset layout.entryCallWrapper) wrapper
    writeArguments argumentTop arguments
  updateManager fun manager =>
    { manager with entry := some ⟨wrapper, savedAnchor⟩ }
  let index ←
    pushActivation context callee argumentTop entryFp
      context.entryPoints.callStubReturnPc none
  onWorkspace index (Workspace.resume .methodEntry)
  commit context index
  commitAnchor context
  setState .inJava

end ManagedStack.Session
