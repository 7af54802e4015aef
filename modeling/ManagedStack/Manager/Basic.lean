import ManagedStack.Deoptimization
import ManagedStack.Engine
import ManagedStack.Frame.Monitors

namespace ManagedStack

/-!
# The frame manager

A frame manager lays interpreted activations out on one thread's stack and serves
the requests that their engine posts.  It keeps the chain of activations, the entry
frame under them, and the caller side of an activation that left for compiled code.
Every service publishes the engine's registers into the frame slots and the top
activation into the thread's anchor, so that the stack can be walked between steps.
-/

/-- Code addresses that the manager stores as return addresses. -/
structure EntryPoints where
  /-- Used by every callee and by the anchor. -/
  interpreterReturnPc : Address
  /-- Used by the outermost activation. -/
  callStubReturnPc : Address
  deriving Repr, DecidableEq

/-- Moves an interpreted activation into compiled code. -/
abbrev OsrHandler (τ : Type) :=
  Method → Activation → OsrRequest → Operation τ ProtocolError OsrResult

/-- What does not change while a manager works. -/
structure ManagerContext (τ : Type) where
  env : Env
  entryPoints : EntryPoints
  osrHandler : Option (OsrHandler τ)

/-- What one served request did to the chain of activations. -/
inductive StepOutcome where
  | called (depth : Nat)
  | resumed (depth : Nat) (message : Message)
  | returned (kind : ReturnKind) (value : List Word)
  | threw (exception : Word)
  | onStackReplaced (result : OsrResult)
  deriving Repr, DecidableEq

/-- Whether the manager has nothing left to drive. -/
def StepOutcome.isTerminal : StepOutcome → Bool
  | .called _ => false
  | .resumed _ _ => false
  | .returned _ _ => true
  | .threw _ => true
  | .onStackReplaced _ => true

/-- An activation, with how many words its caller pushed for it. -/
structure HeldActivation where
  activation : Activation
  parameterSlots : Nat
  deriving Repr, DecidableEq

/-- The entry frame under the activations. -/
structure EntryRecord where
  wrapper : Address
  /-- The anchor to give back when the entry frame goes. -/
  savedAnchor : FrameAnchor
  deriving Repr, DecidableEq

/-- The caller side of an activation that left for compiled code. -/
structure PendingOsr where
  caller : Option Nat
  parameterSlots : Nat
  kind : ReturnKind
  deriving Repr, DecidableEq

/-- The bookkeeping of a frame manager. -/
structure FrameManager where
  /-- The chain, the outermost activation first. -/
  activations : Array HeldActivation := #[]
  entry : Option EntryRecord := none
  pendingOsr : Option PendingOsr := none
  initialized : Bool := false
  deriving Repr

namespace FrameManager

/-- How many activations there are. -/
def depth (manager : FrameManager) : Nat :=
  manager.activations.size

/-- The activation at a position of the chain. -/
def activation?
    (manager : FrameManager)
    (index : Nat) :
    Option Activation :=
  manager.activations[index]?.map HeldActivation.activation

/-- The top activation. -/
def top? (manager : FrameManager) : Option Activation :=
  manager.activations.back?.map HeldActivation.activation

/-- Position of the top activation. -/
def topIndex? (manager : FrameManager) : Option Nat :=
  if manager.depth = 0 then none else some (manager.depth - 1)

/-- Activations found by following caller links, for a number of links. -/
def follow
    (manager : FrameManager) :
    Nat → Option Activation → List Activation
  | _, none => []
  | 0, some activation => [activation]
  | links + 1, some activation =>
      activation ::
        manager.follow links (activation.caller.bind manager.activation?)

/-- The activations from the top to the outermost, by their caller links. -/
def chain (manager : FrameManager) : List Activation :=
  manager.follow manager.depth manager.top?

/-- The manager with one activation replaced. -/
def withActivation
    (manager : FrameManager)
    (index : Nat)
    (activation : Activation) :
    FrameManager :=
  { manager with
    activations := manager.activations.modify index fun held =>
      { held with activation := activation } }

/-- The text of an optional entry record, with numbers in decimal. -/
def entryText : Option EntryRecord → String
  | none => "None"
  | some entry =>
      "Some(EntryRecord \x7b wrapper: " ++ toString entry.wrapper.toNat ++
        ", saved_anchor: FrameAnchor \x7b last_java_sp: " ++
        toString entry.savedAnchor.sp.toNat ++ ", last_java_fp: " ++
        toString entry.savedAnchor.fp.toNat ++ ", last_java_pc: " ++
        toString entry.savedAnchor.pc.toNat ++ " \x7d \x7d)"

/-- The text of a manager for a thread. -/
def text
    (manager : FrameManager)
    (thread : ThreadId) :
    String :=
  "FrameManager \x7b thread: ThreadId(" ++ toString thread ++ "), depth: " ++
    toString manager.depth ++ ", entry: " ++ entryText manager.entry ++
    ", initialized: " ++ toString manager.initialized ++ ", osr_pending: " ++
    toString manager.pendingOsr.isSome ++ " \x7d"

end FrameManager

/-- What the operations of a manager work on. -/
structure Session (τ : Type) where
  /-- The memory of the engine and its helpers. -/
  own : τ
  manager : FrameManager
  machine : Machine

namespace Session

/-- Work on the thread and its stack. -/
def onMachine
    (operation : Operation Machine FrameError α) :
    Operation (Session τ) ProtocolError α :=
  (operation.mapError .frame).onPart fun ⟨own, manager, machine⟩ =>
    (machine, fun changed => ⟨own, manager, changed⟩)

/-- Work on the memory of the engine and its helpers. -/
def onOwn
    (operation : Operation τ ProtocolError α) :
    Operation (Session τ) ProtocolError α :=
  operation.onPart fun ⟨own, manager, machine⟩ =>
    (own, fun changed => ⟨changed, manager, machine⟩)

/-- The bookkeeping of the manager. -/
def readManager : Operation (Session τ) ε FrameManager :=
  Operation.inspect fun session => .answer session.manager

/-- Change the bookkeeping of the manager. -/
def updateManager
    (change : FrameManager → FrameManager) :
    Operation (Session τ) ε Unit :=
  Operation.update fun session =>
    { session with manager := change session.manager }

/-- The stack as it is now. -/
def readStack : Operation (Session τ) ε Stack :=
  Operation.inspect fun session => .answer session.machine.stack

/-- The thread as it is now. -/
def readThread : Operation (Session τ) ε Thread :=
  Operation.inspect fun session => .answer session.machine.thread

/-- Change what the thread publishes. -/
def updateThread (change : Thread → Thread) : Operation (Session τ) ε Unit :=
  Operation.update fun session =>
    { session with
      machine := { session.machine with
        thread := change session.machine.thread } }

/-- Publish what the thread is doing. -/
def setState (state : ThreadState) : Operation (Session τ) ε Unit :=
  updateThread fun thread => { thread with state := state }

/-- Publish a last managed frame, or with the empty anchor that there is none. -/
def setAnchor (anchor : FrameAnchor) : Operation (Session τ) ε Unit :=
  updateThread fun thread => { thread with anchor := anchor }

/-- The activation at a position of the chain. -/
def activation (index : Nat) : Operation (Session τ) ε Activation := do
  let manager ← readManager
  match manager.activation? index with
  | some activation => return activation
  | none => Operation.check (.error (.indexOutOfRange manager.depth index))

/-- Run an engine, or one of its helpers, on one activation. -/
def onActivation
    (index : Nat)
    (operation : Operation (Turn τ) ProtocolError α) :
    Operation (Session τ) ProtocolError α :=
  fun session =>
    match session.manager.activation? index with
    | none =>
        (Probe.check
          (.error (.indexOutOfRange session.manager.depth index)), session)
    | some activation =>
        let ⟨own, manager, ⟨thread, stack, records⟩⟩ := session
        let (probe, ⟨ownAfter, ⟨changed, stackAfter⟩⟩) :=
          operation ⟨own, activation, stack⟩
        (probe, {
          own := ownAfter
          manager := manager.withActivation index changed
          machine := ⟨thread, stackAfter, records⟩
        })

/-- Work on one activation and its stack. -/
def onWorkspace
    (index : Nat)
    (operation : Operation Workspace ProtocolError α) :
    Operation (Session τ) ProtocolError α :=
  onActivation index (Turn.onWorkspace operation)

/-- The method that a method word stands for. -/
def method
    (context : ManagerContext τ)
    (word : Word) :
    Operation (Session τ) ProtocolError Method :=
  Operation.demand (context.env.methods.find? word)
    (.frame (.unknownMethod word))

/-- Fail unless the words from `lowest` up to `top` fit above the limit. -/
def checkHeadroom
    (lowest top : Address) :
    Operation (Session τ) ProtocolError Unit := do
  let stack ← readStack
  if lowest < stack.limit || top < lowest then
    Operation.fail (.stackOverflow lowest stack.limit)

/-- The frame of an activation. -/
def frameOf
    (context : ManagerContext τ)
    (activation : Activation) :
    Operation (Session τ) ProtocolError Frame :=
  onMachine (Machine.look context.env fun view =>
    Frame.plain view activation.stackTop activation.fp
      context.entryPoints.interpreterReturnPc)

/-- Publish the registers of an activation into the slots of its frame. -/
def commit
    (context : ManagerContext τ)
    (index : Nat) :
    Operation (Session τ) ProtocolError Unit := do
  let env := context.env
  let activation ← activation index
  let frame ← frameOf context activation
  onMachine do
    frame.setBcx env activation.bcp
    frame.putField env.layout.mdx activation.mdx
    frame.setMonitorEnd env activation.monitorEnd
    frame.setLastSp env activation.stackTop
    frame.putField env.layout.oopTemp activation.oopTemp

/-- Point the thread's anchor at the top activation, or clear it. -/
def commitAnchor
    (context : ManagerContext τ) :
    Operation (Session τ) ε Unit := do
  let manager ← readManager
  match manager.top? with
  | some activation =>
      setAnchor {
        sp := activation.stackTop
        fp := activation.fp
        pc := context.entryPoints.interpreterReturnPc
      }
  | none => setAnchor {}

/-- Drop the entry frame and give the thread its earlier anchor back. -/
def finishEntry : Operation (Session τ) ε Unit := do
  let manager ← readManager
  match manager.entry with
  | none => return ()
  | some entry =>
      updateManager fun manager => { manager with entry := none }
      setAnchor (if entry.savedAnchor.isEmpty then {} else entry.savedAnchor)
      setState .inVm

/-- Take the top activation off the chain. -/
def popActivation : Operation (Session τ) ProtocolError HeldActivation := do
  let manager ← readManager
  match manager.activations.back? with
  | none => Operation.fail .noActivation
  | some held =>
      updateManager fun manager =>
        { manager with activations := manager.activations.pop }
      return held

end Session

end ManagedStack
