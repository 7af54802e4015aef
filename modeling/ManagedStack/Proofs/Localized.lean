import ManagedStack.Proofs.Growing

namespace ManagedStack

/-!
# Work in one place

Filling an activation is work on it and on the stack.  However that ends, with an answer
or with an error, the other activations, the thread, the records and the memory of the
engine are as they were.
-/

open Operation

/-- However it ends, the operation changes no more than the words of the stack. -/
def OnlyStack (operation : Operation Machine ε α) : Prop :=
  operation.Respects fun before after => after = { before with stack := after.stack }

namespace OnlyStack

/-- A chain changes the stack only if its links do. -/
theorem bind
    {first : Operation Machine ε α}
    {next : α → Operation Machine ε β}
    (firstOnly : OnlyStack first)
    (nextOnly : ∀ value, OnlyStack (next value)) :
    OnlyStack (first >>= next) := by
  refine Respects.andThen ?_ firstOnly nextOnly
  intro a b c first second
  rw [second, first]

theorem ite
    {condition : Prop}
    [Decidable condition]
    {yes no : Operation Machine ε α}
    (yesOnly : OnlyStack yes)
    (noOnly : OnlyStack no) :
    OnlyStack (if condition then yes else no) := by
  split <;> assumption

theorem inspect (look : Machine → Probe ε α) : OnlyStack (Operation.inspect look) :=
  fun _ => rfl

theorem onStack (operation : Operation Stack ε α) :
    OnlyStack (Machine.onStack operation) :=
  fun _ => rfl

theorem putField
    (frame : Frame)
    (offset : Int)
    (value : Word) :
    OnlyStack (frame.putField offset value) :=
  onStack _

theorem setBcx
    (frame : Frame)
    (env : Env)
    (position : Word) :
    OnlyStack (frame.setBcx env position) := by
  unfold Frame.setBcx
  refine .bind (inspect _) fun _ => .ite ?_ (putField _ _ _)
  refine .bind (inspect _) fun _ => .bind (inspect _) fun _ => .ite (putField _ _ _) ?_
  exact .bind (inspect _) fun _ => .bind (putField _ _ _) fun _ =>
    .bind (inspect _) fun _ => putField _ _ _

end OnlyStack

namespace Session

/-- Only one activation and the stack differ. -/
def WorksAt
    (index : Nat)
    (before after : Session τ) :
    Prop :=
  ∀ former, before.manager.activation? index = some former →
    ∃ workspace, after = before.withWorkspace index workspace

namespace WorksAt

variable {index : Nat} {before between after : Session τ}

theorem withStack
    (session : Session τ)
    (stack : Stack) :
    WorksAt index session (session.withStack stack) := by
  intro former found
  refine ⟨⟨former, stack⟩, ?_⟩
  simp only [withWorkspace, withTurn, FrameManager.withActivation_self found]
  rfl

theorem refl (session : Session τ) : WorksAt index session session :=
  withStack session session.machine.stack

theorem trans
    (first : WorksAt index before between)
    (second : WorksAt index between after) :
    WorksAt index before after := by
  intro former found
  obtain ⟨middle, rfl⟩ := first former found
  obtain ⟨workspace, rfl⟩ := second middle.activation
    (FrameManager.activation?_withActivation found middle.activation)
  exact ⟨workspace, withWorkspace_withWorkspace ..⟩

end WorksAt

/-- However it ends, the operation is work on one activation and the stack. -/
def Localized
    (index : Nat)
    (operation : Operation (Session τ) ε α) :
    Prop :=
  operation.Respects (WorksAt index)

namespace Localized

variable {index : Nat} {context : ManagerContext τ}

theorem bind
    {first : Operation (Session τ) ε α}
    {next : α → Operation (Session τ) ε β}
    (firstLocalized : Localized index first)
    (nextLocalized : ∀ value, Localized index (next value)) :
    Localized index (first >>= next) :=
  Respects.andThen WorksAt.trans firstLocalized nextLocalized

theorem inspect (look : Session τ → Probe ε α) :
    Localized index (Operation.inspect look) :=
  .refl

theorem onMachine
    {operation : Operation Machine FrameError α}
    (only : OnlyStack operation) :
    Localized index (Session.onMachine operation : Operation (Session τ) _ α) := by
  intro before
  have same := only before.machine
  change WorksAt index before { before with machine := (operation before.machine).2 }
  rw [same]
  exact .withStack before _

theorem onWorkspace (operation : Operation Workspace ProtocolError α) :
    Localized index (Session.onWorkspace index operation : Operation (Session τ) _ α) := by
  intro before former found
  refine ⟨(operation ⟨former, before.machine.stack⟩).2, ?_⟩
  unfold Session.onWorkspace onActivation
  rw [found]
  rfl

theorem activation (other : Nat) :
    Localized index (Session.activation other : Operation (Session τ) ε _) := by
  refine .bind (inspect _) fun manager => ?_
  split <;> exact .inspect _

theorem commit : Localized index (Session.commit context index) := by
  refine .bind (activation _) fun _ => .bind (.onMachine (.inspect _)) fun _ => ?_
  refine .onMachine (.bind (.setBcx _ _ _) fun _ => .bind (.putField _ _ _) fun _ => ?_)
  exact .bind (.putField _ _ _) fun _ => .bind (.putField _ _ _) fun _ => .putField _ _ _

theorem growMonitors : Localized index (Session.growMonitors context index) := by
  refine .bind (activation _) fun _ => .bind (.inspect _) fun _ => ?_
  refine .bind (.bind (.inspect _) fun _ => ?_) fun _ => .onWorkspace _
  split <;> exact .inspect _

theorem growAll (count : Nat) :
    Localized index (Session.growAll context index count) := by
  induction count with
  | zero => exact .inspect _
  | succ count inductionHypothesis =>
      exact .bind growMonitors fun _ => .bind inductionHypothesis fun _ => .inspect _

/-- Filling an activation from an image is work on it. -/
theorem restoreImage
    (bcp : Address)
    (image : DeoptimizedActivation) :
    Localized index (Session.restoreImage context index bcp image) := by
  refine .bind (.onWorkspace _) fun _ => .bind (growAll _) fun _ => ?_
  refine .bind (.onWorkspace _) fun _ => .bind commit fun _ => ?_
  exact .bind (activation _) fun _ => .bind (.onMachine (.inspect _)) fun _ =>
    .onMachine (.onStack _)

end Localized

end Session

end ManagedStack
