import ManagedStack.Manager.Drive
import ManagedStack.Proofs.Engines

namespace ManagedStack

/-!
# Successful runs of the manager's parts

Each operation of the frame manager has one law that says what a successful run of
it read, which smaller operations it ran on the way, and which state it left.  The
invariants of a manager are proved from these laws, and no later proof looks into
an operation again.
-/

open Operation

namespace Workspace

@[simp] theorem gives_updateActivation
    {change : Activation → Activation}
    {before after : Workspace}
    {value : Unit} :
    (updateActivation change : Operation Workspace ε Unit).Gives
        before value after ↔
      after = { before with activation := change before.activation } := by
  simp [updateActivation]

@[simp] theorem gives_onStack
    {operation : Operation Stack FrameError α}
    {before after : Workspace}
    {value : α} :
    (onStack operation).Gives before value after ↔
      ∃ stack, operation.Gives before.stack value stack ∧
        after = { before with stack := stack } := by
  simp [onStack]

/-- A response is accepted when the activation waits for it. -/
theorem gives_resume
    {response : Message}
    {before after : Workspace}
    {value : Unit} :
    (resume response).Gives before value after ↔
      response.isResponse = true ∧
        before.activation.accepts response = true ∧
        after = { before with
          activation := { before.activation with
            message := response, payload := .empty } } := by
  simp only [resume, gives_bind, gives_current, gives_guard,
    gives_guard_report, gives_updateActivation, and_assoc, exists_and_left,
    exists_eq_left]
  simp

end Workspace

namespace Machine

@[simp] theorem gives_onStack
    {operation : Operation Stack ε α}
    {before after : Machine}
    {value : α} :
    (onStack operation).Gives before value after ↔
      ∃ stack, operation.Gives before.stack value stack ∧
        after = { before with stack := stack } := by
  simp [onStack]

@[simp] theorem gives_write
    {address : Address}
    {word : Word}
    {before after : Machine}
    {value : Unit} :
    (write address word).Gives before value after ↔
      before.stack.Covers address ∧
        after = { before with stack := before.stack.put address word } := by
  simp only [write, gives_onStack, Stack.gives_write]
  constructor
  · rintro ⟨_, ⟨covers, rfl⟩, rfl⟩
    exact ⟨covers, rfl⟩
  · rintro ⟨covers, rfl⟩
    exact ⟨_, ⟨covers, rfl⟩, rfl⟩

@[simp] theorem gives_look
    {env : Env}
    {probe : View → Probe ε α}
    {before after : Machine}
    {value : α} :
    (look env probe).Gives before value after ↔
      (probe (before.view env)).Gives value ∧ after = before := by
  simp [look]

/-- A write fails where the stack has no word, and changes nothing then. -/
@[simp] theorem raises_write
    {address : Address}
    {word : Word}
    {before after : Machine}
    {cause : FrameError} :
    (write address word).Raises before cause after ↔
      ¬before.stack.Covers address ∧ after = before ∧
        ∃ access, before.stack.index? address = .error access ∧
          cause = .access access := by
  obtain ⟨thread, stack, records⟩ := before
  change (Stack.write address word stack).1.outcome = .error (.error cause) ∧
    (⟨thread, (Stack.write address word stack).2, records⟩ : Machine) = after ↔ _
  unfold Stack.write
  rcases found : stack.index? address with access | index
  · have uncovered : ¬stack.Covers address := fun covers => by
      rw [Stack.index?_of_covers covers] at found
      cases found
    simp [uncovered, eq_comm, and_comm]
  · simp [Stack.covers_of_index? found, Probe.answer]

@[simp] theorem raises_look
    {env : Env}
    {probe : View → Probe ε α}
    {before after : Machine}
    {cause : ε} :
    (look env probe).Raises before cause after ↔
      (probe (before.view env)).Raises cause ∧ after = before := by
  simp [look]

end Machine

namespace Session

section Parts

variable {before after : Session τ}

@[simp] theorem gives_onMachine
    {operation : Operation Machine FrameError α}
    {value : α} :
    (onMachine operation).Gives before value after ↔
      ∃ machine, operation.Gives before.machine value machine ∧
        after = { before with machine := machine } := by
  simp [onMachine]

@[simp] theorem gives_onOwn
    {operation : Operation τ ProtocolError α}
    {value : α} :
    (onOwn operation).Gives before value after ↔
      ∃ own, operation.Gives before.own value own ∧
        after = { before with own := own } := by
  simp [onOwn]

@[simp] theorem gives_readManager {value : FrameManager} :
    (readManager : Operation (Session τ) ε FrameManager).Gives
        before value after ↔
      value = before.manager ∧ after = before := by
  simp [readManager]

@[simp] theorem gives_updateManager
    {change : FrameManager → FrameManager}
    {value : Unit} :
    (updateManager change : Operation (Session τ) ε Unit).Gives
        before value after ↔
      after = { before with manager := change before.manager } := by
  simp [updateManager]

@[simp] theorem gives_readStack {value : Stack} :
    (readStack : Operation (Session τ) ε Stack).Gives before value after ↔
      value = before.machine.stack ∧ after = before := by
  simp [readStack]

@[simp] theorem gives_readThread {value : Thread} :
    (readThread : Operation (Session τ) ε Thread).Gives before value after ↔
      value = before.machine.thread ∧ after = before := by
  simp [readThread]

/-- The session with a change to what the thread publishes. -/
def withThread
    (session : Session τ)
    (thread : Thread) :
    Session τ :=
  { session with machine := { session.machine with thread := thread } }

@[simp] theorem gives_updateThread
    {change : Thread → Thread}
    {value : Unit} :
    (updateThread change : Operation (Session τ) ε Unit).Gives
        before value after ↔
      after = before.withThread (change before.machine.thread) := by
  simp [updateThread, withThread]

@[simp] theorem gives_setState
    {state : ThreadState}
    {value : Unit} :
    (setState state : Operation (Session τ) ε Unit).Gives before value after ↔
      after =
        before.withThread { before.machine.thread with state := state } := by
  simp [setState]

@[simp] theorem gives_setAnchor
    {anchor : FrameAnchor}
    {value : Unit} :
    (setAnchor anchor : Operation (Session τ) ε Unit).Gives
        before value after ↔
      after =
        before.withThread { before.machine.thread with anchor := anchor } := by
  simp [setAnchor]

@[simp] theorem gives_activation
    {index : Nat}
    {value : Activation} :
    (activation index : Operation (Session τ) ε Activation).Gives
        before value after ↔
      before.manager.activation? index = some value ∧ after = before := by
  simp only [activation, gives_bind, gives_readManager, and_assoc,
    exists_and_left, exists_eq_left]
  rcases before.manager.activation? index with missing | found
  · simp
  · simp [eq_comm]

/-- The session after a run on one activation. -/
def withTurn
    (session : Session τ)
    (index : Nat)
    (turn : Turn τ) :
    Session τ where
  own := turn.own
  manager := session.manager.withActivation index turn.workspace.activation
  machine := { session.machine with stack := turn.workspace.stack }

@[simp] theorem gives_onActivation
    {index : Nat}
    {operation : Operation (Turn τ) ProtocolError α}
    {value : α} :
    (onActivation index operation).Gives before value after ↔
      ∃ activation turn,
        before.manager.activation? index = some activation ∧
          operation.Gives ⟨before.own, activation, before.machine.stack⟩
            value turn ∧
          after = before.withTurn index turn := by
  obtain ⟨own, manager, thread, stack, records⟩ := before
  unfold onActivation Operation.Gives
  dsimp only
  rcases manager.activation? index with missing | activation
  · simp [Probe.Gives, Probe.check]
  · constructor
    · rintro ⟨answered, rfl⟩
      exact ⟨activation, _, rfl, ⟨answered, rfl⟩, rfl⟩
    · rintro ⟨_, _, ⟨⟩, ⟨answered, rfl⟩, rfl⟩
      exact ⟨answered, rfl⟩

/-- The session after work on one activation and its stack. -/
def withWorkspace
    (session : Session τ)
    (index : Nat)
    (workspace : Workspace) :
    Session τ :=
  session.withTurn index ⟨session.own, workspace⟩

@[simp] theorem gives_onWorkspace
    {index : Nat}
    {operation : Operation Workspace ProtocolError α}
    {value : α} :
    (onWorkspace index operation).Gives before value after ↔
      ∃ activation workspace,
        before.manager.activation? index = some activation ∧
          operation.Gives ⟨activation, before.machine.stack⟩ value workspace ∧
          after = before.withWorkspace index workspace := by
  simp only [onWorkspace, gives_onActivation, Turn.onWorkspace, gives_onPart]
  constructor
  · rintro ⟨activation, _, found, ⟨workspace, ran, rfl⟩, rfl⟩
    exact ⟨activation, workspace, found, ran, rfl⟩
  · rintro ⟨activation, workspace, found, ran, rfl⟩
    exact ⟨activation, _, found, ⟨workspace, ran, rfl⟩, rfl⟩

@[simp] theorem gives_method
    {context : ManagerContext τ}
    {word : Word}
    {value : Method} :
    (method context word).Gives before value after ↔
      context.env.methods.find? word = some value ∧ after = before := by
  simp [method]

theorem gives_checkHeadroom
    {lowest top : Address}
    {value : Unit} :
    (checkHeadroom lowest top).Gives before value after ↔
      before.machine.stack.limit.toNat ≤ lowest.toNat ∧
        lowest.toNat ≤ top.toNat ∧ after = before := by
  simp only [checkHeadroom, gives_bind, gives_readStack, and_assoc,
    exists_and_left, exists_eq_left, gives_guard, gives_pure]
  simp [UInt64.lt_iff_toNat_lt, and_assoc]

/-- Publishing the registers of an activation changes the stack only. -/
theorem gives_frameOf
    {context : ManagerContext τ}
    {activation : Activation}
    {value : Frame} :
    (frameOf context activation).Gives before value after ↔
      (Frame.plain (before.machine.view context.env) activation.stackTop
          activation.fp context.entryPoints.interpreterReturnPc :
        Probe FrameError Frame).Gives value ∧
        after = before := by
  simp only [frameOf, gives_onMachine, Machine.gives_look]
  constructor
  · rintro ⟨_, ⟨framed, rfl⟩, rfl⟩
    exact ⟨framed, rfl⟩
  · rintro ⟨framed, rfl⟩
    exact ⟨_, ⟨framed, rfl⟩, rfl⟩

theorem gives_popActivation {value : HeldActivation} :
    (popActivation : Operation (Session τ) ProtocolError _).Gives
        before value after ↔
      before.manager.activations.back? = some value ∧
        after = { before with
          manager := { before.manager with
            activations := before.manager.activations.pop } } := by
  simp only [popActivation, gives_bind, gives_readManager, and_assoc,
    exists_and_left, exists_eq_left]
  rcases before.manager.activations.back? with missing | held
  · simp
  · simp only [gives_bind, gives_updateManager, gives_pure, Option.some.injEq]
    constructor
    · rintro ⟨_, _, rfl, rfl, rfl⟩
      exact ⟨rfl, rfl⟩
    · rintro ⟨rfl, rfl⟩
      exact ⟨(), _, rfl, rfl, rfl⟩

/-- The anchor of a thread whose top activation is this one. -/
def anchorFor
    (context : ManagerContext τ) :
    Option Activation → FrameAnchor
  | some activation => {
      sp := activation.stackTop
      fp := activation.fp
      pc := context.entryPoints.interpreterReturnPc
    }
  | none => {}

theorem gives_commitAnchor
    {context : ManagerContext τ}
    {value : Unit} :
    (commitAnchor context : Operation (Session τ) ε Unit).Gives
        before value after ↔
      after = before.withThread { before.machine.thread with
        anchor := anchorFor context before.manager.top? } := by
  simp only [commitAnchor, gives_bind, gives_readManager, and_assoc,
    exists_and_left, exists_eq_left]
  rcases before.manager.top? with missing | activation <;>
    simp [anchorFor]

/-- The thread after its entry frame is gone. -/
def leftThread
    (thread : Thread)
    (saved : FrameAnchor) :
    Thread :=
  { thread with
    anchor := if saved.isEmpty then {} else saved
    state := .inVm }

theorem gives_finishEntry {value : Unit} :
    (finishEntry : Operation (Session τ) ε Unit).Gives before value after ↔
      before.manager.entry = none ∧ after = before ∨
        ∃ entry, before.manager.entry = some entry ∧
          after = { before with
              manager := { before.manager with entry := none } }.withThread
            (leftThread before.machine.thread entry.savedAnchor) := by
  simp only [finishEntry, gives_bind, gives_readManager, and_assoc,
    exists_and_left, exists_eq_left]
  rcases before.manager.entry with missing | entry
  · simp
  · simp [withThread, leftThread]

/-- An entry frame can always be dropped. -/
theorem exists_gives_finishEntry (session : Session τ) :
    ∃ after, (finishEntry : Operation _ ε _).Gives session () after := by
  rcases isEntry : session.manager.entry with _ | entry
  · exact ⟨_, gives_finishEntry.mpr (.inl ⟨isEntry, rfl⟩)⟩
  · exact ⟨_, gives_finishEntry.mpr (.inr ⟨entry, isEntry, rfl⟩)⟩

end Parts

end Session

end ManagedStack
