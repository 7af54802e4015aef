import ManagedStack.Activation

namespace ManagedStack

/-!
# Bytecode engines

An engine executes one activation until it posts a request.  It has a memory of its
own that lasts over its runs, and it sees the activation and the stack.  An engine
that *acts through its activation* touches both only by the operations that
activations offer; whatever it computes in its own memory is its own business.
-/

/-- What an engine works on during one run. -/
structure Turn (τ : Type) where
  own : τ
  workspace : Workspace

/-- One run of an engine with memory of type `τ`. -/
abbrev Engine (τ : Type) := Operation (Turn τ) ProtocolError Unit

namespace Turn

/-- Work on the activation and its stack. -/
def onWorkspace
    (operation : Operation Workspace ProtocolError α) :
    Operation (Turn τ) ProtocolError α :=
  operation.onPart fun ⟨own, workspace⟩ =>
    (workspace, fun changed => ⟨own, changed⟩)

/-- Work on the engine's own memory. -/
def onOwn
    (operation : Operation τ ProtocolError α) :
    Operation (Turn τ) ProtocolError α :=
  operation.onPart fun ⟨own, workspace⟩ =>
    (own, fun changed => ⟨changed, workspace⟩)

end Turn

/-- Operations that an activation offers to its engine. -/
inductive Offered : {α : Type} → Operation Workspace ProtocolError α → Prop where
  | current : Offered Workspace.current
  | push (value : Word) : Offered (Workspace.push value)
  | pop : Offered Workspace.pop
  | peek (depth : Nat) : Offered (Workspace.peek depth)
  | readLocal (index : Nat) : Offered (Workspace.readLocal index)
  | writeLocal (index : Nat) (value : Word) :
      Offered (Workspace.writeLocal index value)
  | setBcp (bcp : Address) :
      Offered (Workspace.updateActivation fun activation =>
        { activation with bcp := bcp })
  | setMdx (mdx : Word) :
      Offered (Workspace.updateActivation fun activation =>
        { activation with mdx := mdx })
  | setOopTemp (oopTemp : Word) :
      Offered (Workspace.updateActivation fun activation =>
        { activation with oopTemp := oopTemp })
  | setScratch (scratch : ScratchArea) :
      Offered (Workspace.updateActivation fun activation =>
        { activation with scratch := scratch })
  | requestCall (call : CallRequest) : Offered (Workspace.requestCall call)
  | requestMethodHandleCall (call : CallRequest) :
      Offered (Workspace.requestMethodHandleCall call)
  | requestReturn (kind : ReturnKind) : Offered (Workspace.requestReturn kind)
  | requestMonitor : Offered Workspace.requestMonitor
  | requestThrow (exception : Word) :
      Offered (Workspace.requestThrow exception)
  | requestPop : Offered Workspace.requestPop
  | requestOsr (request : OsrRequest) : Offered (Workspace.requestOsr request)
  | resume (response : Message) : Offered (Workspace.resume response)

/-- Runs that touch activation and stack by offered operations only. -/
inductive ActsThroughActivation {τ : Type} :
    {α : Type} → Operation (Turn τ) ProtocolError α → Prop where
  | offered {operation : Operation Workspace ProtocolError α}
      (isOffered : Offered operation) :
      ActsThroughActivation (Turn.onWorkspace operation)
  | own (operation : Operation τ ProtocolError α) :
      ActsThroughActivation (Turn.onOwn operation)
  | probe (probe : Probe ProtocolError α) :
      ActsThroughActivation (Operation.ofProbe probe)
  | andThen
      {first : Operation (Turn τ) ProtocolError α}
      {next : α → Operation (Turn τ) ProtocolError β}
      (firstActs : ActsThroughActivation first)
      (nextActs : ∀ value, ActsThroughActivation (next value)) :
      ActsThroughActivation (first.andThen next)
  | attempt
      {operation : Operation (Turn τ) ProtocolError α}
      (acts : ActsThroughActivation operation) :
      ActsThroughActivation
        (operation.attempt :
          Operation (Turn τ) ProtocolError (Except ProtocolError α))

end ManagedStack
