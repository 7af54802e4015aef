import ManagedStack.Proofs.Resuming

namespace ManagedStack

/-!
# Exceptions that leave their activation

An exception that no activation is left to catch leaves the chain.  Any other one goes
on in the caller, whose expression stack it is alone on.  That stack has to take an
entry for it: a caller whose method declares none loses the exception.
-/

open Operation FrameManager

namespace Activation

/-- Whether the expression stack takes an entry when there is none. -/
def TakesEntry (activation : Activation) : Prop :=
  activation.stackLimit.toNat + 8 ≤ activation.monitorEnd.toNat

instance (activation : Activation) : Decidable activation.TakesEntry :=
  inferInstanceAs (Decidable (_ ≤ _))

/-- It does where the method declares one. -/
theorem HasRoom.takesEntry_iff
    {activation : Activation}
    {entries : Nat}
    (room : activation.HasRoom (8 * entries)) :
    activation.TakesEntry ↔ entries ≠ 0 := by
  have extent := room.extent
  unfold TakesEntry
  omega

end Activation

namespace Workspace

variable {before : Workspace} {value : Word}

/-- An entry goes below the top, where the limit admits it. -/
theorem push_of_covers
    (admitted :
      ¬before.activation.stackTop.offset (-1) < before.activation.stackLimit)
    (covers : before.stack.Covers (before.activation.stackTop.offset (-1))) :
    (push value).Gives before ()
      { activation := { before.activation with
          stackTop := before.activation.stackTop.offset (-1) }
        stack := before.stack.put (before.activation.stackTop.offset (-1))
          value } := by
  refine gives_bind.mpr ⟨_, before, gives_current.mpr ⟨rfl, rfl⟩, ?_⟩
  dsimp only
  rw [if_neg admitted]
  have written : (writeWord (before.activation.stackTop.offset (-1)) value).Gives
      before () { before with
        stack := before.stack.put (before.activation.stackTop.offset (-1))
          value } :=
    gives_onStack.mpr ⟨_, Stack.gives_write.mpr ⟨covers, rfl⟩, rfl⟩
  refine gives_bind.mpr ⟨(), _, written, ?_⟩
  rw [gives_updateActivation]

/-- Where the limit does not admit it, nothing changes. -/
theorem raises_push
    (refused :
      before.activation.stackTop.offset (-1) < before.activation.stackLimit) :
    (push value).Raises before
      (.expressionStackOverflow before.activation.method) before := by
  refine raises_bind.mpr (.inr ⟨_, before, gives_current.mpr ⟨rfl, rfl⟩, ?_⟩)
  dsimp only
  rw [if_pos refused]
  exact raises_fail.mpr ⟨rfl, rfl⟩

section Emptied

variable {waiting : Activation} {stack : Stack} {exception : Word}

/-- The place of the only entry, below the monitors. -/
theorem toNat_onlyEntry
    (low : stack.limit.toNat + 8 ≤ waiting.monitorEnd.toNat) :
    (waiting.monitorEnd.offset (-1)).toNat + 8 =
      waiting.monitorEnd.toNat := by
  have moved := Word.toNat_offset waiting.monitorEnd (-1)
  have small := waiting.monitorEnd.toNat_lt
  omega

/-- The caller's part in a throw: its stack is emptied for the exception. -/
def rethrow (exception : Word) : Operation Workspace ProtocolError Unit := do
  updateActivation Activation.withEmptyStack
  push exception
  resume .rethrowException

/-- What was pushed onto the emptied stack is alone on it. -/
theorem rethrow_of_pushed
    {next : Address}
    {written : Stack}
    (isCall : waiting.message.isCall = true)
    (sits : waiting.Sits stack)
    (place : next.toNat + 8 = waiting.monitorEnd.toNat)
    (pushes : (push exception).Gives ⟨waiting.withEmptyStack, stack⟩ ()
      ⟨{ waiting.withEmptyStack with stackTop := next }, written⟩)
    (holds : written.Holds next exception) :
    ∃ changed : Activation,
      (rethrow exception).Gives ⟨waiting, stack⟩ () ⟨changed, written⟩ ∧
        Worked ⟨waiting, stack⟩ ⟨changed, written⟩ ∧
        changed.bcp = waiting.bcp ∧
        changed.HoldsEntries written [exception] := by
  have emptied : Worked ⟨waiting, stack⟩ ⟨waiting.withEmptyStack, stack⟩ :=
    worked_withEmptyStack
  have worked := emptied.trans (((worked_push exception).of_gives pushes).trans
    (worked_resumed (rfl : Message.rethrowException.isResponse = true)))
  refine ⟨_, gives_bind.mpr ⟨(), _, gives_updateActivation.mpr rfl,
    gives_bind.mpr ⟨(), _, pushes, resume_of_accepts rfl isCall⟩⟩, worked, rfl,
    (worked.sits sits).holdsEntries_iff.mpr ⟨?_, ?_⟩⟩
  · rw [worked.seat.monitorEnd, ← place]
    rfl
  · intro index word found
    obtain ⟨inside, rfl⟩ := List.getElem?_eq_some_iff.mp found
    obtain rfl : index = 0 := by simpa using inside
    simpa [Session.resumed] using holds

/-- An emptied expression stack that takes an entry takes the exception. -/
theorem exists_gives_rethrow
    (exception : Word)
    (isCall : waiting.message.isCall = true)
    (sits : waiting.Sits stack)
    (low : stack.limit.toNat + 8 ≤ waiting.monitorEnd.toNat)
    (takes : waiting.TakesEntry) :
    ∃ (changed : Activation) (written : Stack),
      (rethrow exception).Gives ⟨waiting, stack⟩ () ⟨changed, written⟩ ∧
        Worked ⟨waiting, stack⟩ ⟨changed, written⟩ ∧
        changed.bcp = waiting.bcp ∧
        changed.HoldsEntries written [exception] ∧
        Stack.Keeps (waiting.monitorEnd.toNat ≤ ·) stack written := by
  have place := toNat_onlyEntry low
  have covers : stack.Covers (waiting.monitorEnd.offset (-1)) := by
    have ceiling := sits.monitorEnd_le_ceiling
    have inStack := sits.ceiling_le_base
    have fpAligned := sits.fpAligned
    have base := sits.monitorBase
    have monitors := sits.monitorEndLe
    have whole := sits.wholeMonitors
    refine ⟨?_, ?_, ?_⟩ <;> omega
  have admitted :
      ¬waiting.withEmptyStack.stackTop.offset (-1) < waiting.stackLimit := by
    unfold Activation.TakesEntry at takes
    rw [UInt64.lt_iff_toNat_lt]
    change ¬(waiting.monitorEnd.offset (-1)).toNat < _
    omega
  have keeps : Stack.Keeps (waiting.monitorEnd.toNat ≤ ·) stack
      (stack.put (waiting.monitorEnd.offset (-1)) exception) :=
    .put _ _ fun above => by omega
  obtain ⟨changed, rethrows, worked, position, holds⟩ := rethrow_of_pushed isCall
    sits place (push_of_covers admitted covers) (Stack.holds_put_same covers)
  exact ⟨changed, _, rethrows, worked, position, holds, keeps⟩

/-- One that takes none does not take the exception. -/
theorem raises_rethrow
    (low : stack.limit.toNat + 8 ≤ waiting.monitorEnd.toNat)
    (takesNone : ¬waiting.TakesEntry) :
    (rethrow exception).Raises ⟨waiting, stack⟩
      (.expressionStackOverflow waiting.method)
      ⟨waiting.withEmptyStack, stack⟩ := by
  have place := toNat_onlyEntry low
  have refused :
      waiting.withEmptyStack.stackTop.offset (-1) < waiting.stackLimit := by
    unfold Activation.TakesEntry at takesNone
    rw [UInt64.lt_iff_toNat_lt]
    change (waiting.monitorEnd.offset (-1)).toNat < _
    omega
  exact raises_bind.mpr (.inr ⟨(), _, gives_updateActivation.mpr rfl,
    raises_bind.mpr (.inl (raises_push refused))⟩)

end Emptied

end Workspace

namespace Session

variable {context : ManagerContext τ} {before : Session τ}

/-- Work on an activation of the chain fails as the work does. -/
theorem raises_onWorkspace
    {index : Nat}
    {activation : Activation}
    {operation : Operation Workspace ProtocolError α}
    {cause : ProtocolError}
    {workspace : Workspace}
    (found : before.manager.activation? index = some activation)
    (raises : operation.Raises ⟨activation, before.machine.stack⟩ cause
      workspace) :
    (onWorkspace index operation).Raises before cause
      (before.withWorkspace index workspace) := by
  obtain ⟨failed, rfl⟩ := raises
  constructor <;> simp only [onWorkspace, onActivation, found, Turn.onWorkspace,
    onPart]
  · exact failed
  · rfl

/-- Take the exception of an activation, and the activation off the chain. -/
def takeException
    (index : Nat) :
    Operation (Session τ) ProtocolError (Word × Option Nat) := do
  let throwing ← activation index
  onWorkspace index <| Workspace.updateActivation fun activation =>
    { activation with pendingException := none }
  let exception ←
    Operation.demand throwing.pendingException .missingException
  let popped ← popActivation
  return (exception, popped.activation.caller)

/-- Let an exception go on in a caller. -/
def rethrowIn
    (context : ManagerContext τ)
    (caller : Nat)
    (exception : Word) :
    Operation (Session τ) ProtocolError StepOutcome := do
  let waiting ← activation caller
  expectAccepts waiting .rethrowException
  onWorkspace caller (Workspace.rethrow exception)
  publish context caller .rethrowException

/-- Let an exception go on in the caller, or to the outside. -/
def unwind
    (context : ManagerContext τ)
    (exception : Word) :
    Option Nat → Operation (Session τ) ProtocolError StepOutcome
  | none => do
      finishEntry
      return .threw exception
  | some caller => rethrowIn context caller exception

/-- Serving a throw takes the exception, which then goes on somewhere. -/
theorem serveThrow_eq
    (context : ManagerContext τ)
    (index : Nat) :
    serveThrow context index = (do
      let (exception, caller) ← takeException index
      unwind context exception caller) := by
  simp only [takeException, bind_assoc, pure_bind]
  rfl

section Unwinding

variable {rest lower : Array HeldActivation} {held caller : HeldActivation}
  {exception : Word}

/-- Taking the exception leaves the chain without the activation. -/
theorem takeException_of_push
    (stands : before.manager.activations = rest.push held)
    (pending : held.activation.pendingException = some exception) :
    (takeException rest.size : Operation (Session τ) _ _).Gives before
      (exception, held.activation.caller) (before.withActivations rest) := by
  have topIs := activation?_of_push stands
  have cleared := activations_withWorkspace_top stands
    ⟨{ held.activation with pendingException := none }, before.machine.stack⟩
  have clears : (onWorkspace rest.size
      (Workspace.updateActivation fun activation =>
        { activation with pendingException := none })).Gives before ()
      (before.withWorkspace rest.size ⟨{ held.activation with
        pendingException := none }, before.machine.stack⟩) :=
    gives_onWorkspace.mpr ⟨_, _, topIs,
      Workspace.gives_updateActivation.mpr rfl, rfl⟩
  exact gives_bind.mpr ⟨_, _, gives_activation.mpr ⟨topIs, rfl⟩,
    gives_bind.mpr ⟨_, _, clears, gives_bind.mpr ⟨_, _,
      gives_demand.mpr ⟨pending, rfl⟩, gives_bind.mpr ⟨_, _,
        (gives_popActivation_of_push cleared).mpr ⟨rfl, rfl⟩,
        gives_pure.mpr ⟨rfl, rfl⟩⟩⟩⟩⟩

/-- The caller goes on with the exception as its only entry, where it takes one. -/
theorem exists_gives_rethrowIn
    (before : Session τ)
    (exception : Word)
    (x86 : context.env.layout = .x86_64)
    (unprofiled : context.env.diagnostics.profileInterpreter = false)
    (interpreter : context.env.code.interpreterContains
      context.entryPoints.interpreterReturnPc = true)
    (stands : before.manager.activations = lower.push caller)
    (isCall : caller.activation.message.isCall = true)
    (sits : caller.activation.Sits before.machine.stack)
    (low : before.machine.stack.limit.toNat + 8 ≤
      caller.activation.monitorEnd.toNat)
    (takes : caller.activation.TakesEntry) :
    ∃ (after : Session τ) (resumed : HeldActivation),
      (rethrowIn context lower.size exception).Gives before
          (.resumed (lower.size + 1) .rethrowException) after ∧
        after.manager.activations = lower.push resumed ∧
        caller.GoesOn before.machine.stack after.machine.stack
          caller.activation.bcp [exception] resumed := by
  have topIs := activation?_of_push stands
  obtain ⟨changed, written, rethrows, worked, position, holds, keeps⟩ :=
    Workspace.exists_gives_rethrow exception isCall sits low takes
  have resumes : (onWorkspace lower.size (Workspace.rethrow exception)).Gives
      before () (before.withWorkspace lower.size ⟨changed, written⟩) :=
    gives_onWorkspace.mpr ⟨_, _, topIs, rethrows, rfl⟩
  obtain ⟨after, published, chain, goesOn, -⟩ := exists_gives_publish_top before x86
    unprofiled interpreter stands worked.seat (worked.sits sits) holds
    (keeps.mono fun _ => sits.le_of_monitorOrLocal) .rethrowException
  rw [position] at goesOn
  exact ⟨after, { caller with activation := changed },
    gives_bind.mpr ⟨_, _, gives_activation.mpr ⟨topIs, rfl⟩, gives_bind.mpr
      ⟨(), _, gives_expectAccepts.mpr ⟨isCall, rfl⟩, gives_bind.mpr
        ⟨(), _, resumes, published⟩⟩⟩, chain, goesOn⟩

/-- Where it takes none, the exception is gone, and the caller still waits. -/
theorem raises_rethrowIn
    (context : ManagerContext τ)
    (before : Session τ)
    (exception : Word)
    (stands : before.manager.activations = lower.push caller)
    (isCall : caller.activation.message.isCall = true)
    (low : before.machine.stack.limit.toNat + 8 ≤
      caller.activation.monitorEnd.toNat)
    (takesNone : ¬caller.activation.TakesEntry) :
    ∃ after : Session τ,
      (rethrowIn context lower.size exception).Raises before
          (.expressionStackOverflow caller.activation.method) after ∧
        after.manager.activations =
          lower.push { caller with activation := caller.activation.withEmptyStack } ∧
        after.machine.stack = before.machine.stack := by
  have topIs := activation?_of_push stands
  have raises : (onWorkspace lower.size (Workspace.rethrow exception)).Raises
      before (.expressionStackOverflow caller.activation.method)
      (before.withWorkspace lower.size
        ⟨caller.activation.withEmptyStack, before.machine.stack⟩) :=
    raises_onWorkspace topIs (Workspace.raises_rethrow low takesNone)
  exact ⟨_, raises_bind.mpr (.inr ⟨_, _, gives_activation.mpr ⟨topIs, rfl⟩,
    raises_bind.mpr (.inr ⟨(), _, gives_expectAccepts.mpr ⟨isCall, rfl⟩,
      raises_bind.mpr (.inl raises)⟩)⟩),
    activations_withWorkspace_top stands _, rfl⟩

end Unwinding

end Session

/-- An engine that runs on the top throws an exception from it. -/
structure Throws
    (engine : Engine τ)
    (before : Session τ)
    (rest : Array HeldActivation)
    (held : HeldActivation)
    (exception : Word) :
    Prop where
  acts : ActsThroughActivation engine
  stands : before.manager.activations = rest.push held
  isResponse : held.activation.message.isResponse = true
  posts : ∃ turn,
    engine.Gives ⟨before.own, held.activation, before.machine.stack⟩ () turn ∧
      turn.workspace.activation.message = .throwingException ∧
      turn.workspace.activation.pendingException = some exception

/-- An engine can throw anything from an activation that it was handed. -/
theorem throws_of_requestThrow
    {before : Session τ}
    {rest : Array HeldActivation}
    {held : HeldActivation}
    (stands : before.manager.activations = rest.push held)
    (isResponse : held.activation.message.isResponse = true)
    (exception : Word) :
    Throws (Turn.onWorkspace (Workspace.requestThrow exception)) before rest held
      exception := by
  have requests : (Workspace.requestThrow exception).Gives
      ⟨held.activation, before.machine.stack⟩ () _ :=
    gives_bind.mpr ⟨(), _, Workspace.post_of_response rfl isResponse,
      Workspace.gives_updateActivation.mpr rfl⟩
  exact ⟨.offered (.requestThrow exception), stands, isResponse,
    _, gives_onPart.mpr ⟨_, requests, rfl⟩, rfl, rfl⟩

namespace Session

variable {context : ManagerContext τ} {before : Session τ} {engine : Engine τ}
  {rest lower : Array HeldActivation} {held caller : HeldActivation}
  {exception : Word}

/-- A run of an engine ended with an exception, and its activation is gone. -/
structure Taken
    (context : ManagerContext τ)
    (engine : Engine τ)
    (before after : Session τ)
    (index : Nat)
    (exception : Word)
    (caller : Option Nat) :
    Prop where
  advanced : ∃ ready,
    (advance context engine).Gives before (index, .throwingException) ready ∧
      (takeException index : Operation (Session τ) _ _).Gives ready
        (exception, caller) after

namespace Taken

variable {between after : Session τ} {index : Nat} {exception : Word}
  {caller : Option Nat}

/-- The step answers what becomes of the exception. -/
theorem gives
    {outcome : StepOutcome}
    (taken : Taken context engine before between index exception caller)
    (unwinds : (unwind context exception caller).Gives between outcome after) :
    (step context engine).Gives before outcome after := by
  obtain ⟨ready, advanced, takes⟩ := taken.advanced
  rw [step_eq]
  refine gives_bind.mpr ⟨_, ready, advanced, ?_⟩
  change (serveThrow context index).Gives ready outcome after
  rw [serveThrow_eq]
  exact gives_bind.mpr ⟨_, between, takes, unwinds⟩

/-- The step fails as what is to become of the exception fails. -/
theorem raises
    {cause : ProtocolError}
    (taken : Taken context engine before between index exception caller)
    (unwinds : (unwind context exception caller).Raises between cause after) :
    (step context engine).Raises before cause after := by
  obtain ⟨ready, advanced, takes⟩ := taken.advanced
  rw [step_eq]
  refine raises_bind.mpr (.inr ⟨_, ready, advanced, ?_⟩)
  change (serveThrow context index).Raises ready cause after
  rw [serveThrow_eq]
  exact raises_bind.mpr (.inr ⟨_, between, takes, unwinds⟩)

end Taken

/-- What throws is run, and loses its place on the chain with the exception. -/
theorem exists_taken
    (x86 : context.env.layout = .x86_64)
    (unprofiled : context.env.diagnostics.profileInterpreter = false)
    (reached : Reached context before)
    (throws : Throws engine before rest held exception) :
    ∃ (ready : Session τ) (turn : Turn τ),
      Advances context engine before ready rest held turn ∧
        Taken context engine before (ready.withActivations rest) rest.size
          exception (predecessor? rest.size) := by
  obtain ⟨turn, turned, message, pending⟩ := throws.posts
  obtain ⟨ready, advanced, advances⟩ := exists_gives_advance x86 unprofiled
    reached throws.acts throws.stands throws.isResponse turned
    (by rw [message]; rfl)
  have poses := advances.poses reached.followsProtocol throws.acts
  rw [message] at advanced
  have takes := takeException_of_push poses.stands pending
  rw [poses.caller] at takes
  exact ⟨ready, turn, advances, ready, advanced, takes⟩

/-- Below the monitors of a caller there is room for what it called. -/
theorem low_of_rests
    {stack : Stack}
    {entry : EntryRecord}
    {callers : List HeldActivation}
    (rests : Rests context stack entry held (caller :: callers)) :
    stack.limit.toNat + 8 ≤ caller.activation.monitorEnd.toNat := by
  have within : held.activation.ceiling ≤ caller.activation.monitorEnd.toNat :=
    rests.within
  have low := rests.sits.low
  omega

end Session

/-- What is to become of exceptions that callees throw into callers of some kind. -/
def HandsExceptionsOn
    (context : ManagerContext τ)
    (kind : Activation → Prop) :
    Prop :=
  ∀ {before : Session τ} {engine : Engine τ} {lower : Array HeldActivation}
    {caller held : HeldActivation} {exception : Word},
    Reached context before →
    Throws engine before (lower.push caller) held exception →
    kind caller.activation →
    ∃ (after : Session τ) (resumed : HeldActivation),
      (Session.step context engine).Gives before
          (.resumed (lower.size + 1) .rethrowException) after ∧
        after.manager.activations = lower.push resumed ∧
        caller.GoesOn before.machine.stack after.machine.stack
          caller.activation.bcp [exception] resumed

/-- Where the exceptions that engines throw go. -/
structure UnwindsExceptions (context : ManagerContext τ) : Prop where
  /-- One that the outermost activation throws ends what was started. -/
  outermost :
    ∀ {before : Session τ} {engine : Engine τ} {held : HeldActivation}
      {exception : Word},
      Reached context before →
      Throws engine before #[] held exception →
      ∃ after, (Session.step context engine).Gives before (.threw exception)
        after
  /-- Any other one goes on in the caller, if that takes an entry. -/
  caller : HandsExceptionsOn context Activation.TakesEntry
  /-- If it takes none, the exception is gone, and the caller still waits. -/
  lost :
    ∀ {before : Session τ} {engine : Engine τ} {lower : Array HeldActivation}
      {caller held : HeldActivation} {exception : Word},
      Reached context before →
      Throws engine before (lower.push caller) held exception →
      ¬caller.activation.TakesEntry →
      ∃ after,
        (Session.step context engine).Raises before
            (.expressionStackOverflow caller.activation.method) after ∧
          after.manager.activations = lower.push { caller with
            activation := caller.activation.withEmptyStack }
  /-- An activation takes an entry exactly if its method declares one. -/
  takes :
    ∀ {session : Session τ} {held : HeldActivation} {method : Method},
      Reached context session →
      held ∈ session.manager.activations →
      context.env.methods.find? held.activation.method = some method →
      method.maxStack.toNat < 0x1000000000000000 →
      (held.activation.TakesEntry ↔ method.maxStack ≠ 0)

/-- Exceptions go on wherever the caller's method declares an entry. -/
theorem unwindsExceptions_of_x86_64
    {context : ManagerContext τ}
    (x86 : context.env.layout = .x86_64)
    (unprofiled : context.env.diagnostics.profileInterpreter = false) :
    UnwindsExceptions context where
  outermost := by
    intro before engine held exception reached throws
    obtain ⟨ready, turn, advances, taken⟩ :=
      Session.exists_taken x86 unprofiled reached throws
    obtain ⟨after, finishes⟩ :=
      Session.exists_gives_finishEntry (ready.withActivations #[])
    exact ⟨after, taken.gives (gives_bind.mpr
      ⟨(), _, finishes, gives_pure.mpr ⟨rfl, rfl⟩⟩)⟩
  caller := by
    intro before engine lower caller held exception reached throws takesEntry
    obtain ⟨ready, turn, advances, taken⟩ :=
      Session.exists_taken x86 unprofiled reached throws
    rw [predecessor?_push] at taken
    obtain ⟨entry, waits, rests, callerRests, -, keeps⟩ :=
      advances.over_caller x86 reached throws.acts
    obtain ⟨after, resumed, rethrows, chain, goesOn⟩ :=
      Session.exists_gives_rethrowIn (ready.withActivations (lower.push caller))
        exception x86 unprofiled
        advances.publishes.interpreter rfl waits.1 callerRests.sits
        (Session.low_of_rests rests) takesEntry
    exact ⟨after, resumed, taken.gives rethrows, chain,
      goesOn.since callerRests.sits (keeps.mono fun _ above =>
        Nat.le_trans rests.arguments_le above)⟩
  lost := by
    intro before engine lower caller held exception reached throws takesNone
    obtain ⟨ready, turn, advances, taken⟩ :=
      Session.exists_taken x86 unprofiled reached throws
    rw [predecessor?_push] at taken
    obtain ⟨entry, waits, rests, -⟩ :=
      advances.over_caller x86 reached throws.acts
    obtain ⟨after, raises, chain, -⟩ :=
      Session.raises_rethrowIn context
        (ready.withActivations (lower.push caller)) exception rfl waits.1
        (Session.low_of_rests rests) takesNone
    exact ⟨after, taken.raises raises, chain⟩
  takes := by
    intro session held method reached inside found small
    obtain ⟨index, isAt⟩ := Array.getElem?_of_mem inside
    obtain ⟨entry, isEntry⟩ :=
      Option.isSome_iff_exists.mp (reached.entered isAt)
    obtain ⟨other, otherFound, -, -, room⟩ :=
      ((reached.stacked x86).rests_at isEntry isAt).1.runs
    obtain rfl := Option.some.inj (found.symm.trans otherFound)
    rw [(room small).takesEntry_iff, ne_eq, ne_eq, ← UInt64.toNat_inj]
    rfl

namespace Pair

/-- The callee's exception is all that the caller of the pair goes on with. -/
theorem unwindsExceptions_of_entered :
    context.env.layout = .x86_64 ∧
      context.env.diagnostics.profileInterpreter = false ∧
      Reached context entered ∧
      ∃ (lower : Array HeldActivation) (caller held : HeldActivation),
        Throws throwInto entered (lower.push caller) held 0x700010 ∧
          caller.activation.TakesEntry ∧
          ∃ (after : Session Unit) (resumed : HeldActivation),
            (Session.step context throwInto).Gives entered
                (.resumed 1 .rethrowException) after ∧
              after.manager.activations = lower.push resumed ∧
              caller.GoesOn entered.machine.stack after.machine.stack
                0x600000 [0x700010] resumed := by
  obtain ⟨caller, held, stands⟩ :=
    eq_push_of_size_two (by decide +kernel : entered.manager.activations.size = 2)
  have below : entered.manager.activations[0]?.all (fun caller =>
      caller.activation.TakesEntry && caller.activation.bcp == 0x600000) = true := by
    decide +kernel
  have above : entered.manager.activations[1]?.all
      (·.activation.message.isResponse) = true := by
    decide +kernel
  simp only [stands, Array.getElem?_push, Array.size_push, List.size_toArray,
    List.length_nil, Nat.zero_add, reduceIte, Nat.reduceEqDiff, Option.all_some,
    Bool.and_eq_true, decide_eq_true_eq, beq_iff_eq] at below above
  have throws : Throws throwInto entered (#[].push caller) held 0x700010 :=
    throws_of_requestThrow stands above 0x700010
  obtain ⟨after, resumed, stepped, chain, goesOn⟩ :=
    (unwindsExceptions_of_x86_64 rfl rfl).caller reached_entered throws below.1
  rw [below.2] at goesOn
  exact ⟨rfl, rfl, reached_entered, #[], caller, held, throws, below.1, after,
    resumed, stepped, chain, goesOn⟩

end Pair

namespace Cramped

/-- A method that calls itself and needs no entry for it. -/
def method : Method where
  id := 0x500000
  name := "Main.recurse"
  signature := ⟨[], .void⟩
  codeBase := 0x600000
  codeSize := 16
  isStatic := true
  masks := [(0, ⟨[], []⟩)]
  invokes := [(0, ⟨⟨[], .void⟩, false, 3⟩)]

def context : ManagerContext Unit where
  env := { Pair.context.env with methods := ⟨[method]⟩ }
  entryPoints := Pair.context.entryPoints
  osrHandler := none

/-- Call the method again. -/
def recurse : Engine Unit :=
  Turn.onWorkspace (Workspace.requestCall ⟨0x500000, 0x1200, 3⟩)

def calls : List (Call Unit) :=
  [.setUp Pair.idle, .start 0x500000 [] [], .step recurse]

theorem acts : ∀ call ∈ calls, call.Acts := by
  simp only [calls, List.mem_cons, List.not_mem_nil, or_false, forall_eq_or_imp,
    forall_eq, Call.Acts, true_and]
  exact ⟨.probe _, .offered (.requestCall _)⟩

theorem ran : (Call.runAll? context calls Pair.fresh).isSome = true := by
  decide +kernel

/-- The session in which the method has called itself. -/
def entered : Session Unit :=
  (Call.runAll? context calls Pair.fresh).get ran

theorem reached_entered : Reached context entered :=
  (Reached.fresh rfl).of_runAll? acts (Option.some_get ran).symm

/-- A method without an entry for it does not get the exception of its callee. -/
theorem not_handsExceptionsOn :
    context.env.layout = .x86_64 ∧
      context.env.diagnostics.profileInterpreter = false ∧
      ¬HandsExceptionsOn context fun _ => True := by
  refine ⟨rfl, rfl, fun handsOn => ?_⟩
  obtain ⟨caller, held, stands⟩ :=
    eq_push_of_size_two (by decide +kernel : entered.manager.activations.size = 2)
  have above : entered.manager.activations[1]?.all
      (·.activation.message.isResponse) = true := by
    decide +kernel
  simp only [stands, Array.getElem?_push, Array.size_push, List.size_toArray,
    List.length_nil, Nat.zero_add, reduceIte, Option.all_some] at above
  have fails : (Session.step context Pair.throwInto entered).1.outcome.toOption =
      none := by
    decide +kernel
  have throws : Throws Pair.throwInto entered (#[].push caller) held 0x700010 :=
    throws_of_requestThrow stands above 0x700010
  obtain ⟨after, -, answered, -⟩ := handsOn reached_entered throws trivial
  rw [answered.1] at fails
  cases fails

end Cramped

end ManagedStack
