import ManagedStack.Proofs.Replacement
import ManagedStack.Proofs.Stranding

namespace ManagedStack

/-!
# What is expected from compiled code

An activation that left for compiled code leaves a record of its caller behind, and the
manager expects a result, or an image, in its place.  A call that does not take either
changes nothing while something is expected.  One that takes it strikes the record out
first, whatever comes of it then, so that nothing is taken twice; but a result for which
the caller has no room, and an image whose callee has none, are lost with the record.
-/

open Operation FrameManager

/-- Past a link that answers, a chain leaves what the rest of it leaves. -/
theorem Operation.leaves_bind_of_gives
    {first : Operation σ ε α}
    {next : α → Operation σ ε β}
    {before between : σ}
    {value : α}
    {property : σ → Prop}
    (gives : first.Gives before value between)
    (leaves : (next value).Leaves between property) :
    (first >>= next).Leaves before property := by
  have ended : (first >>= next).ending before = (next value).ending between :=
    ending_bind_of_gives gives
  change property ((first >>= next).ending before).2
  rw [ended]
  exact leaves

/-- The run does not come to an answer, and changes nothing. -/
def Operation.Declines
    (operation : Operation σ ε α)
    (before : σ) :
    Prop :=
  (∀ value after, ¬operation.Gives before value after) ∧ operation.Leaves before (· = before)

namespace Operation.Declines

variable {before : σ}

theorem of_raises
    {operation : Operation σ ε α}
    {cause : ε}
    (raises : operation.Raises before cause before) :
    operation.Declines before :=
  ⟨fun _ _ gives => gives.not_raises raises, raises.2⟩

theorem bind
    {first : Operation σ ε α}
    {next : α → Operation σ ε β}
    (declines : first.Declines before) :
    (first >>= next).Declines before := by
  refine ⟨fun value after gives => ?_, leaves_bind.mpr
    ⟨fun value between gives => absurd gives (declines.1 value between), fun _ => declines.2⟩⟩
  obtain ⟨middle, between, gives, -⟩ := gives_bind.mp gives
  exact declines.1 middle between gives

end Operation.Declines

/-- Nothing is expected that was not before, and all records are there still. -/
structure Session.Quieter (before after : Session τ) : Prop where
  pending : after.manager.pendingOsr = before.manager.pendingOsr ∨
    after.manager.pendingOsr = none
  records : after.machine.records = before.machine.records

namespace Session.Quieter

theorem refl (session : Session τ) : session.Quieter session :=
  ⟨.inl rfl, rfl⟩

theorem trans
    {before between after : Session τ}
    (first : before.Quieter between)
    (second : between.Quieter after) :
    before.Quieter after := by
  refine ⟨?_, second.records.trans first.records⟩
  rcases second.pending with same | gone
  · exact first.pending.imp same.trans same.trans
  · exact .inr gone

end Session.Quieter

/-- However it ends, nothing more is expected after it, and no record is gone. -/
def Quiet (operation : Operation (Session τ) ε α) : Prop :=
  operation.Respects Session.Quieter

namespace Quiet

variable {context : ManagerContext τ}

theorem bind
    {first : Operation (Session τ) ε α}
    {next : α → Operation (Session τ) ε β}
    (firstQuiet : Quiet first)
    (nextQuiet : ∀ value, Quiet (next value)) :
    Quiet (first >>= next) :=
  Respects.andThen .trans firstQuiet nextQuiet

theorem ite
    {condition : Prop}
    [Decidable condition]
    {yes no : Operation (Session τ) ε α}
    (yesQuiet : Quiet yes)
    (noQuiet : Quiet no) :
    Quiet (if condition then yes else no) := by
  split <;> assumption

theorem inspect (look : Session τ → Probe ε α) : Quiet (Operation.inspect look) :=
  .refl

theorem report (event : Event) : Quiet (Operation.report event : Operation (Session τ) ε Unit) :=
  .refl

theorem ofOnlyLooks
    {operation : Operation (Session τ) ε α}
    (onlyLooks : OnlyLooks operation) :
    Quiet operation :=
  fun before => by
    rw [onlyLooks before]
    exact .refl before

theorem onMachine
    {operation : Operation Machine FrameError α}
    (only : OnlyStack operation) :
    Quiet (Session.onMachine operation : Operation (Session τ) _ α) :=
  fun before => by
    have same : (operation before.machine).2.records = before.machine.records := by
      rw [only before.machine]
    exact ⟨.inl rfl, same⟩

theorem onOwn (operation : Operation τ ProtocolError α) : Quiet (Session.onOwn operation) :=
  fun _ => ⟨.inl rfl, rfl⟩

theorem onActivation
    (index : Nat)
    (operation : Operation (Turn τ) ProtocolError α) :
    Quiet (Session.onActivation index operation) := by
  intro before
  unfold Session.onActivation
  split <;> exact ⟨.inl rfl, rfl⟩

theorem onWorkspace
    (index : Nat)
    (operation : Operation Workspace ProtocolError α) :
    Quiet (Session.onWorkspace index operation : Operation (Session τ) _ α) :=
  onActivation index _

theorem updateThread (change : Thread → Thread) :
    Quiet (Session.updateThread change : Operation (Session τ) ε Unit) :=
  fun _ => ⟨.inl rfl, rfl⟩

/-- A change that leaves the record of compiled code alone, or strikes it out. -/
theorem updateManager
    {change : FrameManager → FrameManager}
    (strikes : ∀ manager,
      (change manager).pendingOsr = manager.pendingOsr ∨ (change manager).pendingOsr = none) :
    Quiet (Session.updateManager change : Operation (Session τ) ε Unit) :=
  fun before => ⟨strikes before.manager, rfl⟩

theorem activation (index : Nat) : Quiet (Session.activation index : Operation (Session τ) ε _) :=
  ofOnlyLooks (Session.onlyLooks_activation index)

theorem checkHeadroom (lowest top : Address) :
    Quiet (Session.checkHeadroom lowest top : Operation (Session τ) _ _) :=
  ofOnlyLooks (Session.onlyLooks_checkHeadroom lowest top)

theorem commit (index : Nat) : Quiet (Session.commit context index) := by
  refine .bind (activation index) fun _ => .bind (onMachine (.inspect _)) fun _ => ?_
  refine onMachine (.bind (.setBcx _ _ _) fun _ => .bind (.putField _ _ _) fun _ => ?_)
  exact .bind (.putField _ _ _) fun _ => .bind (.putField _ _ _) fun _ => .putField _ _ _

theorem commitAnchor : Quiet (Session.commitAnchor context : Operation (Session τ) ε Unit) := by
  refine .bind (inspect _) fun manager => ?_
  split <;> exact updateThread _

theorem finishEntry : Quiet (Session.finishEntry : Operation (Session τ) ε Unit) := by
  refine .bind (inspect _) fun manager => ?_
  split
  · exact inspect _
  · exact .bind (updateManager fun _ => .inl rfl) fun _ =>
      .bind (updateThread _) fun _ => updateThread _

theorem popActivation : Quiet (Session.popActivation : Operation (Session τ) ProtocolError _) := by
  refine .bind (inspect _) fun manager => ?_
  split
  · exact inspect _
  · exact .bind (updateManager fun _ => .inl rfl) fun _ => inspect _

theorem pushActivation
    {method : Method}
    {top callerFp returnPc : Address}
    {caller : Option Nat} :
    Quiet (Session.pushActivation context method top callerFp returnPc caller) := by
  refine .bind (inspect _) fun _ => .bind (checkHeadroom _ _) fun _ => ?_
  refine .bind (onMachine (.onStack _)) fun _ => .bind (inspect _) fun _ => ?_
  exact .bind (inspect _) fun _ => .bind (inspect _) fun _ =>
    .bind (updateManager fun _ => .inl rfl) fun _ => inspect _

theorem publish
    (index : Nat)
    (response : Message) :
    Quiet (Session.publish context index response) :=
  .bind (commit index) fun _ => .bind commitAnchor fun _ =>
    .bind (inspect _) fun _ => inspect _

theorem expectAccepts
    (activation : Activation)
    (response : Message) :
    Quiet (Session.expectAccepts activation response :
      Operation (Session τ) ProtocolError Unit) :=
  .ite (inspect _) (inspect _)

theorem returnIntoCaller
    (caller parameters : Nat)
    (value : List Word) :
    Quiet (Session.returnIntoCaller context caller parameters value) := by
  refine .bind (activation _) fun _ => .bind (expectAccepts _ _) fun _ => ?_
  simp only [fail_bind]
  refine .bind (inspect _) fun _ => .ite (inspect _) ?_
  exact .bind (onMachine (.onStack _)) fun _ => .bind (onWorkspace _ _) fun _ => publish _ _

theorem deliver
    (kind : ReturnKind)
    (value : List Word)
    (parameters : Nat)
    (caller : Option Nat) :
    Quiet (Session.deliver context kind value parameters caller) := by
  cases caller with
  | none => exact .bind finishEntry fun _ => inspect _
  | some caller => exact returnIntoCaller caller parameters value

theorem growMonitors (index : Nat) : Quiet (Session.growMonitors context index) :=
  .bind (activation index) fun _ => .bind (inspect _) fun _ =>
    .bind (checkHeadroom _ _) fun _ => onWorkspace _ _

theorem growAll
    (index count : Nat) :
    Quiet (Session.growAll context index count) := by
  induction count with
  | zero => exact inspect _
  | succ count inductionHypothesis =>
      exact .bind (growMonitors index) fun _ => .bind inductionHypothesis fun _ => inspect _

theorem restoreImage
    (index : Nat)
    (bcp : Address)
    (image : DeoptimizedActivation) :
    Quiet (Session.restoreImage context index bcp image) := by
  refine .bind (onWorkspace _ _) fun _ => .bind (growAll _ _) fun _ => ?_
  refine .bind (onWorkspace _ _) fun _ => .bind (commit _) fun _ => ?_
  exact .bind (activation _) fun _ => .bind (onMachine (.inspect _)) fun _ =>
    onMachine (.onStack _)

theorem dropPendingOsr (caller : Nat) :
    Quiet (Session.dropPendingOsr caller : Operation (Session τ) ε Unit) := by
  refine updateManager fun manager => ?_
  split
  · exact .inr rfl
  · exact .inl rfl

theorem layOutFor (image : DeoptimizedActivation) : Quiet (Session.layOutFor context image) :=
  .bind (ofOnlyLooks Session.onlyLooks_examine) fun _ =>
    .bind (dropPendingOsr _) fun _ => .bind pushActivation fun _ => inspect _

theorem completeOsr
    (kind : ReturnKind)
    (value : List Word) :
    Quiet (Session.completeOsr context kind value) := by
  unfold Session.completeOsr
  simp only [fail_bind]
  refine .bind (inspect _) fun _ => .bind (inspect _) fun pending => ?_
  refine .ite (inspect _) (.ite (inspect _) ?_)
  exact .bind (updateManager fun _ => .inr rfl) fun _ => deliver kind value _ _

theorem setUp (engine : Engine τ) : Quiet (Session.setUp context engine) := by
  unfold Session.setUp
  simp only [fail_bind]
  refine .bind (inspect _) fun _ => .ite (inspect _) ?_
  refine .bind (inspect _) fun _ => .bind (inspect _) fun _ => ?_
  refine .bind (fun _ => ⟨.inl rfl, rfl⟩) fun _ => .ite (inspect _) ?_
  exact updateManager fun _ => .inl rfl

theorem start
    (method : Word)
    (arguments handles : List Word) :
    Quiet (Session.start context method arguments handles) := by
  unfold Session.start
  simp only [fail_bind]
  refine .bind (inspect _) fun _ => .ite (inspect _) (.ite (inspect _) ?_)
  refine .bind (inspect _) fun _ => .ite (inspect _) ?_
  refine .bind (inspect _) fun _ => .bind (inspect _) fun _ => ?_
  refine .bind (inspect _) fun _ => .bind (inspect _) fun _ => .bind (inspect _) fun _ => ?_
  refine .bind (checkHeadroom _ _) fun _ => .bind (onMachine (.onStack _)) fun _ => ?_
  refine .bind (updateManager fun _ => .inl rfl) fun _ => .bind pushActivation fun _ => ?_
  exact .bind (onWorkspace _ _) fun _ => .bind (commit _) fun _ =>
    .bind commitAnchor fun _ => updateThread _

theorem runEngine
    (index : Nat)
    (engine : Engine τ) :
    Quiet (Session.runEngine index engine) := by
  refine .bind (updateThread _) fun _ => .bind (onActivation index engine).attempt fun ran => ?_
  refine .bind (updateThread _) fun _ => ?_
  split <;> exact inspect _

theorem advance (engine : Engine τ) : Quiet (Session.advance context engine) := by
  unfold Session.advance
  simp only [fail_bind]
  refine .bind (inspect _) fun _ => .ite (inspect _) (.bind (inspect _) fun _ => ?_)
  refine .bind (activation _) fun _ => .ite (inspect _) (.bind (runEngine _ _) fun _ => ?_)
  exact .bind (activation _) fun _ => .ite (inspect _) (.bind (commit _) fun _ => inspect _)

end Quiet

/-- However it ends, nothing is expected after it that was not before. -/
def ExpectsNoMore (operation : Operation (Session τ) ε α) : Prop :=
  operation.Respects fun before after =>
    after.manager.pendingOsr = before.manager.pendingOsr ∨ after.manager.pendingOsr = none

namespace ExpectsNoMore

variable {context : ManagerContext τ}

theorem bind
    {first : Operation (Session τ) ε α}
    {next : α → Operation (Session τ) ε β}
    (firstExpects : ExpectsNoMore first)
    (nextExpects : ∀ value, ExpectsNoMore (next value)) :
    ExpectsNoMore (first >>= next) := by
  refine Respects.andThen ?_ firstExpects nextExpects
  rintro a b c first (same | gone)
  · exact first.imp same.trans same.trans
  · exact .inr gone

theorem of_quiet
    {operation : Operation (Session τ) ε α}
    (quiet : Quiet operation) :
    ExpectsNoMore operation :=
  fun before => (quiet before).pending

/-- What is done with an image once its callee may be laid out. -/
theorem settle
    (index : Nat)
    (bcp : Address)
    (image : DeoptimizedActivation) :
    ExpectsNoMore (do
      Session.restoreImage context index bcp image
      Session.commitAnchor context
      match image.source with
      | some source => Session.releaseSource context source
      | none => return () : Operation (Session τ) ProtocolError Unit) := by
  refine .bind (of_quiet (.restoreImage index bcp image)) fun _ =>
    .bind (of_quiet .commitAnchor) fun _ => ?_
  split
  · refine .bind (fun _ => .inl rfl) fun _ => ?_
    split <;> exact fun _ => .inl rfl
  · exact fun _ => .inl rfl

theorem pushDeoptimized (image : DeoptimizedActivation) :
    ExpectsNoMore (Session.pushDeoptimized context image) := by
  rw [Session.pushDeoptimized_eq]
  exact .bind (of_quiet (.layOutFor image)) fun _ => settle _ _ image

end ExpectsNoMore

/-- Only by letting an activation leave does the operation make anything be expected. -/
def QuietUnlessReplaced
    (operation : Operation (Session τ) ProtocolError StepOutcome) :
    Prop :=
  ∀ before, (∃ result after, operation.Gives before (.onStackReplaced result) after ∧
      after.machine.records = before.machine.records) ∨
    operation.Leaves before before.Quieter

namespace QuietUnlessReplaced

variable {context : ManagerContext τ}

theorem of_quiet
    {operation : Operation (Session τ) ProtocolError StepOutcome}
    (quiet : Quiet operation) :
    QuietUnlessReplaced operation :=
  fun before => .inr (quiet before)

theorem bind
    {first : Operation (Session τ) ProtocolError α}
    {next : α → Operation (Session τ) ProtocolError StepOutcome}
    (firstQuiet : Quiet first)
    (nextQuiet : ∀ value, QuietUnlessReplaced (next value)) :
    QuietUnlessReplaced (first >>= next) := by
  intro before
  by_cases answers : ∃ value between, first.Gives before value between
  · obtain ⟨value, between, gives⟩ := answers
    have begun : before.Quieter between := firstQuiet.of_gives gives
    rcases nextQuiet value between with ⟨result, after, replaces, same⟩ | leaves
    · exact .inl ⟨result, after, gives_bind.mpr ⟨value, between, gives, replaces⟩,
        same.trans begun.records⟩
    · exact .inr (leaves_bind_of_gives gives (begun.trans leaves))
  · refine .inr (leaves_bind.mpr ⟨fun value between gives => ?_, fun _ => firstQuiet before⟩)
    exact absurd ⟨value, between, gives⟩ answers

/-- The record is made last, when nothing can fail any more. -/
theorem serveOsr (index : Nat) : QuietUnlessReplaced (Session.serveOsr context index) := by
  refine .bind (.activation _) fun _ => .bind (.inspect _) fun _ => ?_
  refine .bind (.inspect _) fun _ => .bind (.inspect _) fun _ => .bind (.onOwn _) fun result => ?_
  refine .bind .popActivation fun popped before => .inl ⟨result, _, gives_bind.mpr ⟨(), _,
    Session.gives_updateManager.mpr rfl, gives_bind.mpr ⟨(), _,
      Session.gives_commitAnchor.mpr rfl, gives_pure.mpr ⟨rfl, rfl⟩⟩⟩, rfl⟩

theorem serveCall (index : Nat) : Quiet (Session.serveCall context index) := by
  unfold Session.serveCall
  simp only [fail_bind]
  refine .bind (.activation _) fun _ => .bind (.inspect _) fun _ => ?_
  refine .ite (.bind (.report _) fun _ => .inspect _) (.bind (.inspect _) fun _ => ?_)
  refine .bind (.inspect _) fun _ => .ite (.inspect _) (.bind .pushActivation fun _ => ?_)
  exact .bind (.onWorkspace _ _) fun _ => .bind (.commit _) fun _ => .bind .commitAnchor fun _ =>
    .bind (.inspect _) fun _ => .inspect _

theorem serveReturn (index : Nat) : Quiet (Session.serveReturn context index) := by
  unfold Session.serveReturn
  simp only [fail_bind]
  refine .bind (.activation _) fun _ => .bind (.inspect _) fun _ => .bind (.inspect _) fun _ => ?_
  refine .ite (.inspect _) (.bind (.inspect _) fun _ => .ite (.inspect _) ?_)
  refine .bind (.onMachine (.onStack _)) fun value => .bind .popActivation fun popped => ?_
  exact .deliver _ value popped.parameterSlots popped.activation.caller

theorem serveMonitor (index : Nat) : Quiet (Session.serveMonitor context index) :=
  .bind (.growMonitors index) fun _ => .bind (.onWorkspace _ _) fun _ => .publish _ _

theorem serveThrow (index : Nat) : Quiet (Session.serveThrow context index) := by
  refine .bind (.activation _) fun _ => .bind (.onWorkspace _ _) fun _ => ?_
  refine .bind (.inspect _) fun _ => .bind .popActivation fun _ => ?_
  split
  · exact .bind .finishEntry fun _ => .inspect _
  · exact .bind (.activation _) fun _ => .bind (.expectAccepts _ _) fun _ =>
      .bind (.onWorkspace _ _) fun _ => .publish _ _

theorem servePop (index : Nat) : Quiet (Session.servePop context index) :=
  .bind (.activation _) fun _ => .bind (.inspect _) fun _ => .bind (.activation _) fun _ =>
    .bind (.expectAccepts _ _) fun _ => .bind .popActivation fun _ =>
      .bind (.onWorkspace _ _) fun _ => .publish _ _

theorem serve
    (index : Nat)
    (message : Message) :
    QuietUnlessReplaced (Session.serve context index message) := by
  cases message with
  | callMethod => exact of_quiet (serveCall index)
  | callMethodHandle => exact of_quiet (serveCall index)
  | returnFromMethod => exact of_quiet (serveReturn index)
  | moreMonitors => exact of_quiet (serveMonitor index)
  | throwingException => exact of_quiet (serveThrow index)
  | poppingFrame => exact of_quiet (servePop index)
  | doOsr => exact serveOsr index
  | _ => exact of_quiet (.inspect _)

theorem step (engine : Engine τ) : QuietUnlessReplaced (Session.step context engine) := by
  rw [Session.step_eq]
  exact .bind (.advance engine) fun (index, message) => serve index message

end QuietUnlessReplaced

/-- A call makes something expected only if an activation leaves in it. -/
theorem Call.expectsOnlyReplaced
    (context : ManagerContext τ)
    (call : Call τ)
    (before : Session τ) :
    (∃ result after,
        (call.perform context).Gives before (some (.onStackReplaced result)) after) ∨
      (call.perform context).Leaves before fun after =>
        after.manager.pendingOsr = before.manager.pendingOsr ∨
          after.manager.pendingOsr = none := by
  have quiet {α : Type} {operation : Operation (Session τ) ProtocolError α}
      {next : α → Operation (Session τ) ProtocolError (Option StepOutcome)}
      (quiet : Quiet operation)
      (ends : ∀ value, Quiet (next value)) :
      (operation >>= next).Leaves before fun after =>
        after.manager.pendingOsr = before.manager.pendingOsr ∨
          after.manager.pendingOsr = none :=
    (Quiet.bind quiet ends before).pending
  cases call with
  | setUp engine => exact .inr (quiet (.setUp engine) fun _ => .inspect _)
  | start method arguments handles =>
      exact .inr (quiet (.start method arguments handles) fun _ => .inspect _)
  | step engine =>
      have steps : QuietUnlessReplaced (Session.step context engine) := .step engine
      rcases steps before with ⟨result, after, gives, -⟩ | leaves
      · exact .inl ⟨result, after, gives_bind.mpr ⟨_, after, gives, gives_pure.mpr ⟨rfl, rfl⟩⟩⟩
      · exact .inr (leaves_bind.mpr
          ⟨fun _ _ gives => leaves_pure.mpr (leaves.of_gives gives).pending,
            fun _ => leaves.pending⟩)
  | completeOsr kind value => exact .inr (quiet (.completeOsr kind value) fun _ => .inspect _)
  | pushDeoptimized image =>
      exact .inr (ExpectsNoMore.bind (.pushDeoptimized image) (fun _ => .of_quiet (.inspect _))
        before)

/-- Calls, whatever they come to, in which no activation leaves for compiled code. -/
inductive WithoutReplacing
    (context : ManagerContext τ)
    (first : Session τ) :
    Session τ → Prop where
  | here : WithoutReplacing context first first
  | idle
      {between : Session τ}
      (without : WithoutReplacing context first between)
      (noEntry : between.manager.entry = none)
      (own : τ)
      (machine : Machine) :
      WithoutReplacing context first { between with own := own, machine := machine }
  | call
      {between : Session τ}
      (without : WithoutReplacing context first between)
      (call : Call τ)
      (stays : ∀ result after,
        ¬(call.perform context).Gives between (some (.onStackReplaced result)) after) :
      WithoutReplacing context first (call.perform context between).2

/-- Where nothing was expected, nothing is until an activation leaves. -/
theorem WithoutReplacing.nothing
    {context : ManagerContext τ}
    {first last : Session τ}
    (without : WithoutReplacing context first last)
    (nothing : first.manager.pendingOsr = none) :
    last.manager.pendingOsr = none := by
  induction without with
  | here => exact nothing
  | idle _ _ _ _ inductionHypothesis => exact inductionHypothesis
  | call _ call stays inductionHypothesis =>
      rcases call.expectsOnlyReplaced context _ with ⟨result, after, gives⟩ | same | gone
      · exact (stays result after gives).elim
      · exact same.trans inductionHypothesis
      · exact gone

/-- Words that a stack has at addresses one after the other. -/
theorem Stack.exists_words
    {stack : Stack}
    {first : Address}
    {count : Nat}
    (covers : ∀ index < count, stack.Covers (first.offset index)) :
    ∃ words : List Word, words.length = count ∧
      ∀ (index : Nat) word, words[index]? = some word →
        stack.Holds (first.offset index) word := by
  choose word holds using fun index inside => Stack.exists_holds (covers index inside)
  refine ⟨List.ofFn fun index : Fin count => word index index.isLt, List.length_ofFn, ?_⟩
  intro index found isFound
  obtain ⟨inside, rfl⟩ := List.getElem?_eq_some_iff.mp isFound
  rw [List.length_ofFn] at inside
  rw [List.getElem_ofFn]
  exact holds index inside

/-- What sits on the stack has some words as its entries. -/
theorem Activation.Sits.exists_holdsEntries
    {stack : Stack}
    {activation : Activation}
    (sits : activation.Sits stack) :
    ∃ entries, activation.HoldsEntries stack entries := by
  obtain ⟨depth, counted, extent⟩ := sits.stackDepth_eq
  have aligned := sits.topAligned
  have limit := sits.limitLe
  have base := sits.monitorEnd_le_ceiling
  have ceiling := sits.ceiling_le_base
  obtain ⟨entries, length, holds⟩ : ∃ entries : List Word,
      entries.length = depth.toNat ∧ ∀ (index : Nat) word, entries[index]? = some word →
        stack.Holds (activation.stackTop.offset index) word := by
    refine Stack.exists_words fun index inside => ?_
    have place : (activation.stackTop.offset index).toNat = _ := toNat_entry (by omega)
    exact ⟨by omega, by omega, by omega⟩
  exact ⟨entries, depth, counted, Stack.gives_readAll.mpr ⟨length, holds⟩⟩

/-- There is room for so many words in the place of arguments. -/
structure Activation.HasRoomFor
    (stack : Stack)
    (waiting : Activation)
    (parameters words : Nat) :
    Prop where
  low : stack.limit.toNat + 8 * words ≤ waiting.stackTop.toNat + 8 * parameters
  room : waiting.stackLimit.toNat + 8 * words ≤ waiting.stackTop.toNat + 8 * parameters

/-- Where there is room for it, a result is taken above the entries under the arguments. -/
theorem Activation.HasRoomFor.takesResult
    {stack : Stack}
    {waiting : Activation}
    {parameters : Nat}
    {entries result : List Word}
    (hasRoom : waiting.HasRoomFor stack parameters result.length)
    (sits : waiting.Sits stack)
    (holds : waiting.HoldsEntries stack entries)
    (enough : parameters ≤ entries.length) :
    Workspace.TakesResult stack waiting parameters result (entries.drop parameters) := by
  obtain ⟨extent, words⟩ := sits.holdsEntries_iff.mp holds
  refine ⟨sits, ?_, fun index word found => ?_, hasRoom.low, hasRoom.room⟩
  · rw [List.length_drop]
    omega
  · rw [List.getElem?_drop] at found
    exact words _ word found

namespace Session

variable {context : ManagerContext τ} {before after : Session τ} {pending : PendingOsr}
  {kind : ReturnKind} {value : List Word} {image : DeoptimizedActivation}
  {cause : ProtocolError}

section Refusing

/-- While something is expected, the top does not run. -/
theorem declines_step_of_pending
    (follows : before.manager.FollowsProtocol)
    (isPending : before.manager.pendingOsr = some pending)
    (engine : Engine τ) :
    (step context engine).Declines before := by
  have entered := follows.entered_of_pending isPending
  have initialized := follows.started entered
  cases callerOf : pending.caller with
  | none =>
      exact .of_raises (raises_step_of_empty initialized
        (follows.orphan pending isPending callerOf) engine)
  | some caller =>
      obtain ⟨rest, held, stands, -⟩ :=
        push_of_topIndex? (follows.pending pending caller isPending callerOf)
      have waits := (follows.chain_of_pending isPending callerOf).waiting rest.size held
        (by rw [stands, Array.getElem?_push_size])
      refine .of_raises (raises_step_of_not_isResponse initialized stands ?_ engine)
      cases isResponse : held.activation.message.isResponse with
      | false => rfl
      | true => exact absurd waits.1 (by rw [Message.isCall_of_isResponse isResponse]; simp)

/-- A result of another kind or length is not taken. -/
theorem declines_completeOsr_of_mismatch
    (isPending : before.manager.pendingOsr = some pending)
    (mismatch : ¬(kind = pending.kind ∧ value.length = kind.words)) :
    (completeOsr context kind value).Declines before := by
  suffices raises : (completeOsr context kind value).Raises before
      (if kind = pending.kind then .argumentCount kind.words value.length
        else .returnKindMismatch pending.kind kind) before from
    .of_raises raises
  simp only [completeOsr, fail_bind]
  refine raises_bind.mpr (.inr ⟨_, before, gives_readManager.mpr ⟨rfl, rfl⟩,
    raises_bind.mpr (.inr ⟨pending, before, gives_demand.mpr ⟨isPending, rfl⟩, ?_⟩)⟩)
  by_cases declared : kind = pending.kind
  · have counted : value.length ≠ kind.words := fun counted => mismatch ⟨declared, counted⟩
    rw [if_neg (not_not_intro declared), if_pos counted, if_pos declared]
    exact raises_fail.mpr ⟨rfl, rfl⟩
  · rw [if_pos declared, if_neg declared]
    exact raises_fail.mpr ⟨rfl, rfl⟩

/-- An image that is not admitted is examined and nothing more. -/
theorem declines_pushDeoptimized_of_not_admitted
    (unfit : ∀ callee rest held bcp, ¬Admitted context image before callee rest held bcp) :
    (pushDeoptimized context image).Declines before := by
  have stops : (examine context image).Declines before := by
    refine ⟨fun checked between examines => ?_, onlyLooks_examine before⟩
    obtain ⟨-, callee, rest, held, bcp, -, admitted⟩ := admitted_of_gives examines
    exact unfit callee rest held bcp admitted
  rw [pushDeoptimized_eq]
  exact stops.bind.bind

end Refusing

section Taking

/-- A result that is taken is delivered with nothing expected any more. -/
theorem leaves_completeOsr_of_counted
    (isPending : before.manager.pendingOsr = some pending)
    (counted : value.length = pending.kind.words) :
    (completeOsr context pending.kind value).Leaves before
      (·.manager.pendingOsr = none) := by
  have ended : (completeOsr context pending.kind value).ending before =
      (deliver context pending.kind value pending.parameterSlots pending.caller).ending
        before.withoutPending :=
    ending_completeOsr pending isPending rfl counted
  have delivers : Quiet
      (deliver context pending.kind value pending.parameterSlots pending.caller) :=
    .deliver _ _ _ _
  change ((completeOsr context pending.kind value).ending before).2.manager.pendingOsr = none
  rw [ended]
  rcases (delivers before.withoutPending).pending with same | gone
  · exact same
  · exact gone

/-- The checks of an image that is admitted succeed. -/
theorem gives_examine_of_admitted
    {callee : Method}
    {rest : Array HeldActivation}
    {held : HeldActivation}
    {bcp : Address}
    (admitted : Admitted context image before callee rest held bcp) :
    (examine context image).Gives before (callee, rest.size, held.activation, bcp) before := by
  obtain ⟨depth, counted, enough⟩ := admitted.enough
  have few : ¬depth.toNat < callee.parameterSlots := by omega
  have known : (callee.bciOfBcx? bcp).isNone = false := by
    rw [← Option.not_isSome, admitted.known]
    rfl
  simp only [examine, gives_bind, gives_readManager, gives_method, gives_demand,
    gives_activation, gives_check, fail_bind, gives_guard, gives_pure, and_assoc,
    exists_and_left, exists_eq_left]
  exact ⟨by simp [admitted.initialized], callee, admitted.found, rest.size,
    by simp [topIndex?, depth_of_push admitted.stands], held.activation,
    activation?_of_push admitted.stands, by simp [admitted.isCall], depth, counted, few, bcp,
    admitted.position, by simp [known], rfl, trivial⟩

/-- So is an image that is taken: its callee is laid out with nothing expected any more. -/
theorem leaves_pushDeoptimized_of_admitted
    {callee : Method}
    {rest : Array HeldActivation}
    {held : HeldActivation}
    {bcp : Address}
    (follows : before.manager.FollowsProtocol)
    (admitted : Admitted context image before callee rest held bcp) :
    (pushDeoptimized context image).Leaves before (·.manager.pendingOsr = none) := by
  have dropped := (waits_of_isCall follows admitted.stands admitted.isCall).2
  rw [pushDeoptimized_eq]
  have lays : (layOutFor context image).Leaves before (·.manager.pendingOsr = none) := by
    have drops : (dropPendingOsr rest.size : Operation (Session τ) ProtocolError Unit).Gives
        before () { before with manager := withoutPendingOsr before.manager rest.size } :=
      gives_updateManager.mpr rfl
    refine leaves_bind_of_gives (gives_examine_of_admitted admitted)
      (leaves_bind_of_gives drops ?_)
    change (_ : Option PendingOsr) = none
    rcases (Quiet.bind Quiet.pushActivation (fun _ => .inspect _) _).pending with same | gone
    · exact same.trans (congrArg FrameManager.pendingOsr dropped)
    · exact gone
  refine leaves_bind.mpr ⟨fun (index, bcp) between gives => ?_, fun _ => lays⟩
  rcases ExpectsNoMore.settle index bcp image between with same | gone
  · exact same.trans (lays.of_gives gives)
  · exact gone

/-- Whoever waits for the expected result has room for it, and a position to go on at. -/
def CanDeliver
    (session : Session τ)
    (pending : PendingOsr) :
    Prop :=
  ∀ caller, pending.caller = some caller → ∃ waiting call,
    session.manager.activation? caller = some waiting ∧ waiting.payload = .call call ∧
      waiting.HasRoomFor session.machine.stack pending.parameterSlots pending.kind.words ∧
      waiting.bcp.toNat + call.advance.toNat < UInt64.size

/--
A result that is taken by someone with room for it is delivered.  It takes the place
of the arguments of the replaced callee, which are still there.
-/
theorem exists_gives_completeOsr
    (x86 : context.env.layout = .x86_64)
    (unprofiled : context.env.diagnostics.profileInterpreter = false)
    (reached : Reached context before)
    (isPending : before.manager.pendingOsr = some pending)
    (counted : value.length = pending.kind.words)
    (canDeliver : before.CanDeliver pending) :
    ∃ outcome after, (completeOsr context pending.kind value).Gives before outcome after := by
  have follows := reached.followsProtocol
  suffices delivers : ∃ outcome after, (deliver context pending.kind value
      pending.parameterSlots pending.caller).Gives before.withoutPending outcome after by
    obtain ⟨outcome, after, gives⟩ := delivers
    exact ⟨outcome, after, gives_of_ending
      ((ending_completeOsr pending isPending rfl counted).trans (ending_of_gives gives))⟩
  cases callerOf : pending.caller with
  | none =>
      obtain ⟨after, gives⟩ := exists_gives_finishEntry before.withoutPending
      exact ⟨_, after, gives_bind.mpr ⟨(), after, gives, gives_pure.mpr ⟨rfl, rfl⟩⟩⟩
  | some caller =>
      obtain ⟨waiting, call, found, payload, hasRoom, inside⟩ := canDeliver caller callerOf
      obtain ⟨rest, held, stands, rfl⟩ :=
        push_of_topIndex? (follows.pending pending caller isPending callerOf)
      have atTop : before.manager.activations[rest.size]? = some held := by
        rw [stands, Array.getElem?_push_size]
      obtain rfl := Option.some.inj ((activation?_of_push stands).symm.trans found)
      have waits := (follows.chain_of_pending isPending callerOf).waiting rest.size held atTop
      have entered := reached.entered atTop
      obtain ⟨entry, isEntry⟩ := Option.isSome_iff_exists.mp entered
      have stacked := reached.stacked x86
      have chained := stacked.chained entry isEntry
      rw [reverse_of_push stands] at chained
      have arguments := stacked.pending pending isPending held.activation (top?_of_push stands)
      have sits := chained.1.sits
      obtain ⟨entries, holds⟩ := sits.exists_holdsEntries
      have extent := (sits.holdsEntries_iff.mp holds).1
      rw [← counted] at hasRoom
      have takes := hasRoom.takesResult sits holds (by omega)
      obtain ⟨after, _, gives, -⟩ := exists_gives_returnIntoCaller before.withoutPending x86
        unprofiled (reached.interpreter entered) stands waits.1 payload takes inside
      exact ⟨_, after, gives⟩

end Taking

end Session

/-- The calls that take what is expected: its result, or an image in its place. -/
inductive Call.Takes
    (context : ManagerContext τ)
    (pending : PendingOsr)
    (before : Session τ) :
    Call τ → Prop where
  | result
      {value : List Word}
      (counted : value.length = pending.kind.words) :
      Takes context pending before (.completeOsr pending.kind value)
  | image
      {image : DeoptimizedActivation}
      {callee : Method}
      {rest : Array HeldActivation}
      {held : HeldActivation}
      {bcp : Address}
      (admitted : Session.Admitted context image before callee rest held bcp) :
      Takes context pending before (.pushDeoptimized image)

section Law

variable {context : ManagerContext τ} {before after : Session τ} {pending : PendingOsr}
  {call : Call τ}

/-- A call that does not take what is expected changes nothing, and at most sets up again. -/
theorem Call.leaves_of_not_takes
    (reached : Reached context before)
    (isPending : before.manager.pendingOsr = some pending)
    (passes : ¬call.Takes context pending before) :
    (∃ engine, call = .setUp engine) ∧ (call.perform context).Gives before none before ∨
      (call.perform context).Declines before := by
  have follows := reached.followsProtocol
  have entered := follows.entered_of_pending isPending
  have initialized := follows.started entered
  cases call with
  | setUp engine =>
      exact .inl ⟨⟨engine, rfl⟩, gives_bind.mpr ⟨(), before,
        Session.gives_setUp_of_initialized initialized engine, gives_pure.mpr ⟨rfl, rfl⟩⟩⟩
  | start method arguments handles =>
      exact .inr (Declines.of_raises (Session.raises_start_of_entered initialized entered method
        arguments handles)).bind
  | step engine => exact .inr (Session.declines_step_of_pending follows isPending engine).bind
  | completeOsr kind value =>
      refine .inr (Session.declines_completeOsr_of_mismatch isPending ?_).bind
      rintro ⟨rfl, counted⟩
      exact passes (.result counted)
  | pushDeoptimized image =>
      exact .inr (Session.declines_pushDeoptimized_of_not_admitted fun _ _ _ _ admitted =>
        passes (.image admitted)).bind

/-- A call that takes what is expected strikes it out, however the call ends. -/
theorem Call.Takes.leaves
    (takes : call.Takes context pending before)
    (reached : Reached context before)
    (isPending : before.manager.pendingOsr = some pending) :
    (call.perform context).Leaves before (·.manager.pendingOsr = none) := by
  cases takes with
  | result counted =>
      have strikes : (Session.completeOsr context pending.kind _).Leaves before
          (·.manager.pendingOsr = none) :=
        Session.leaves_completeOsr_of_counted isPending counted
      exact leaves_bind.mpr ⟨fun _ _ gives => strikes.of_gives gives, fun _ => strikes⟩
  | image admitted =>
      have strikes := Session.leaves_pushDeoptimized_of_admitted reached.followsProtocol admitted
      exact leaves_bind.mpr ⟨fun _ _ gives => strikes.of_gives gives, fun _ => strikes⟩

/-- What becomes of a result that is expected when a call is made. -/
structure Session.Consumes
    (context : ManagerContext τ)
    (before : Session τ)
    (pending : PendingOsr)
    (call : Call τ) :
    Prop where
  /-- A call that does not take it changes nothing; then it can be delivered as before. -/
  passed : ¬call.Takes context pending before →
    (∃ engine, call = .setUp engine) ∧ (call.perform context).Gives before none before ∨
      (call.perform context).Declines before
  /-- A call that takes it strikes it out, whether it succeeds or fails. -/
  taken : call.Takes context pending before →
    (call.perform context).Leaves before (·.manager.pendingOsr = none)
  /-- Nothing takes it again, in any session that is come to without a new replacement. -/
  once : call.Takes context pending before → ∀ later kind value,
    WithoutReplacing context (call.perform context before).2 later →
      (completeOsr context kind value).Raises later .noOsrPending later
  /-- Its result is delivered wherever there is room for it. -/
  delivered : context.env.layout = .x86_64 →
    context.env.diagnostics.profileInterpreter = false → before.CanDeliver pending →
      ∀ value : List Word, value.length = pending.kind.words →
        ∃ outcome after, (completeOsr context pending.kind value).Gives before outcome after

/-- What is expected from compiled code is taken once. -/
theorem Session.consumes_of_pending
    (reached : Reached context before)
    (isPending : before.manager.pendingOsr = some pending)
    (call : Call τ) :
    Consumes context before pending call where
  passed := call.leaves_of_not_takes reached isPending
  taken takes := takes.leaves reached isPending
  once takes _ kind value without :=
    raises_completeOsr_of_nothing (without.nothing (takes.leaves reached isPending)) kind value
  delivered x86 unprofiled canDeliver _ counted :=
    exists_gives_completeOsr x86 unprofiled reached isPending counted canDeliver

end Law

/-- What is expected stays expected until a call that succeeds has taken it, and then is not. -/
def Session.ConsumesOnce (context : ManagerContext τ) : Prop :=
  ∀ before pending (call : Call τ), Reached context before →
    before.manager.pendingOsr = some pending →
      (∀ cause after, (call.perform context).Raises before cause after →
        after.manager.pendingOsr = some pending) ∧
      ∀ outcome after, (call.perform context).Gives before outcome after →
        (∃ engine, call = .setUp engine) ∨
          after.manager.pendingOsr = none ∧ ∀ later kind value,
            WithoutReplacing context after later → ∀ outcome last,
              ¬(completeOsr context kind value).Gives later outcome last

namespace Sinking

/-- The result of the replaced callee is taken once, here as one without words. -/
theorem consumes_result :
    Reached context waiting ∧ waiting.manager.pendingOsr = some ⟨some 0, 2, .void⟩ ∧
      Session.Consumes context waiting ⟨some 0, 2, .void⟩ (.completeOsr .void []) :=
  ⟨reached_waiting, by decide +kernel,
    Session.consumes_of_pending reached_waiting (by decide +kernel) _⟩

end Sinking

/-!
A method that asks another one for a long and has no room for it.
-/

namespace Meagre

def asker : Method :=
  { Asking.asker with maxStack := 0 }

def context : ManagerContext Unit :=
  { Asking.replacing with
    env := { Pair.context.env with methods := ⟨[asker, Asking.clock]⟩ } }

/-- Call the other method. -/
def ask : Engine Unit :=
  Turn.onWorkspace (Workspace.requestCall ⟨0x500008, 0x1200, 3⟩)

def calls : List (Call Unit) :=
  [.setUp Pair.idle, .start 0x500000 [] [], .step ask, .step Asking.leave]

theorem acts : ∀ call ∈ calls, call.Acts := by
  simp only [calls, List.mem_cons, List.not_mem_nil, or_false, forall_eq_or_imp, forall_eq,
    Call.Acts, true_and]
  exact ⟨.probe _, .offered (.requestCall _), .offered (.requestOsr _)⟩

theorem ran : (Call.runAll? context calls Pair.fresh).isSome = true := by
  decide +kernel

/-- The session in which compiled code computes the long. -/
def waiting : Session Unit :=
  (Call.runAll? context calls Pair.fresh).get ran

theorem reached_waiting : Reached context waiting :=
  (Reached.fresh rfl).of_runAll? acts (Option.some_get ran).symm

/-- The long is refused for want of room, and can not be delivered any more. -/
theorem not_consumesOnce : ¬Session.ConsumesOnce context := by
  intro consumes
  have refused : ((Call.completeOsr .long [0x2, 0x1]).perform context).Raises waiting
      (.expressionStackOverflow 0x500000) _ :=
    ⟨by decide +kernel, rfl⟩
  have kept := (consumes _ ⟨some 0, 0, .long⟩ _ reached_waiting (by decide +kernel)).1 _ _ refused
  exact absurd kept (by decide +kernel)

end Meagre

end ManagedStack
