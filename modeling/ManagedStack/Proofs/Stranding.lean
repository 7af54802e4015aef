import ManagedStack.Proofs.Taking

namespace ManagedStack

/-!
# Images that are refused

An image is refused either before its callee is laid out or while the callee is filled.
In the first case the chain is as it was.  In the second the callee stays on it: an
activation that is sent nothing, above a caller that is still waiting.  From there no call
leads anywhere.
-/

open Operation FrameManager

/-- However it ends, the operation changes nothing. -/
def OnlyLooks (operation : Operation σ ε α) : Prop :=
  operation.Respects fun before after => after = before

namespace OnlyLooks

theorem bind
    {first : Operation σ ε α}
    {next : α → Operation σ ε β}
    (firstLooks : OnlyLooks first)
    (nextLooks : ∀ value, OnlyLooks (next value)) :
    OnlyLooks (first >>= next) :=
  Respects.andThen (fun first second => second.trans first) firstLooks nextLooks

theorem ite
    {condition : Prop}
    [Decidable condition]
    {yes no : Operation σ ε α}
    (yesLooks : OnlyLooks yes)
    (noLooks : OnlyLooks no) :
    OnlyLooks (if condition then yes else no) := by
  split <;> assumption

theorem inspect (look : σ → Probe ε α) : OnlyLooks (Operation.inspect look) :=
  fun _ => rfl

end OnlyLooks

/-- An error that is restated was an error before. -/
theorem Operation.exists_of_raises_mapError
    {restate : ε → ε'}
    {operation : Operation σ ε α}
    {before after : σ}
    {cause : ε'}
    (raises : (operation.mapError restate).Raises before cause after) :
    ∃ former, operation.Raises before former after := by
  obtain ⟨failed, left⟩ := raises
  unfold Operation.mapError Probe.mapError at failed left
  rcases ran : operation before with ⟨⟨(former | _ | _) | value, notes⟩, between⟩ <;>
    simp only [ran, Except.mapError, Failure.mapError] at failed left
  · exact ⟨former, by rw [ran], by rw [ran]; exact left⟩
  all_goals cases failed

/-- Dropping a record does not fail. -/
theorem DeoptSource.not_raises_release
    {source : DeoptSource}
    {env : Env}
    {before after : Machine}
    {cause : ε} :
    ¬(source.release env : Operation Machine ε _).Raises before cause after := by
  unfold release
  split
  · exact raises_pure
  · intro raises
    rcases raises_bind.mp raises with stops | ⟨_, _, -, forgets⟩
    · exact (raises_state stops).elim
    rcases raises_bind.mp forgets with stops | ⟨_, _, -, returns⟩
    · exact (raises_update stops).elim
    · exact (raises_pure returns).elim

namespace Session

variable {context : ManagerContext τ} {before after : Session τ}
  {image : DeoptimizedActivation} {cause : ProtocolError}

section Refusing

theorem onlyLooks_activation (index : Nat) :
    OnlyLooks (activation index : Operation (Session τ) ε _) := by
  refine .bind (.inspect _) fun _ => ?_
  split <;> exact .inspect _

theorem onlyLooks_checkHeadroom (lowest top : Address) :
    OnlyLooks (checkHeadroom lowest top : Operation (Session τ) _ _) :=
  .bind (.inspect _) fun _ => .ite (.inspect _) (.inspect _)

/-- Checking an image only looks. -/
theorem onlyLooks_examine : OnlyLooks (examine context image) := by
  simp only [examine, fail_bind]
  refine .bind (.inspect _) fun manager => .ite (.inspect _) ?_
  refine .bind (.inspect _) fun callee => .bind (.inspect _) fun caller => ?_
  refine .bind (onlyLooks_activation _) fun waiting => .ite (.inspect _) ?_
  refine .bind (.inspect _) fun depth => .ite (.inspect _) ?_
  exact .bind (.inspect _) fun bcp => .ite (.inspect _) (.inspect _)

/-- An activation that cannot be laid out is not on the chain. -/
theorem exists_of_raises_pushActivation
    {callee : Method}
    {top callerFp returnPc : Address}
    {caller : Option Nat}
    (raises : (pushActivation context callee top callerFp returnPc caller).Raises before cause
      after) :
    ∃ stack, after = before.withStack stack := by
  rcases raises_bind.mp raises with stops | ⟨placement, _, places, lays⟩
  · exact (raises_check stops).elim
  obtain ⟨-, rfl⟩ := gives_check.mp places
  rcases raises_bind.mp lays with stops | ⟨_, _, fits, writes⟩
  · exact ⟨_, (onlyLooks_checkHeadroom _ _).of_raises stops⟩
  obtain ⟨-, -, rfl⟩ := gives_checkHeadroom.mp fits
  rcases raises_bind.mp writes with stops | ⟨_, _, written, ends⟩
  · exact ⟨_, stops.2.symm⟩
  rcases raises_bind.mp ends with ⟨⟨⟩, -⟩ | ⟨thread, _, -, shapes⟩
  rcases raises_bind.mp shapes with stops | ⟨fresh, _, -, chains⟩
  · exact (raises_check stops).elim
  rcases raises_bind.mp chains with ⟨⟨⟩, -⟩ | ⟨manager, _, -, updates⟩
  rcases raises_bind.mp updates with stops | ⟨_, _, -, returns⟩
  · exact (raises_update stops).elim
  · exact (raises_pure returns).elim

/-- An image that is refused before its callee is laid out fails its checks, or lacks room. -/
theorem exists_of_raises_layOutFor
    (raises : (layOutFor context image).Raises before cause after) :
    (examine context image).Raises before cause before ∧ after = before ∨
      ∃ callee rest held bcp stack, Admitted context image before callee rest held bcp ∧
        after = { before.withStack stack with
          manager := withoutPendingOsr before.manager rest.size } := by
  rcases raises_bind.mp raises with stops | ⟨checked, between, examines, lays⟩
  · obtain rfl : after = before := onlyLooks_examine.of_raises stops
    exact .inl ⟨stops, rfl⟩
  obtain ⟨rfl, callee, rest, held, bcp, rfl, admitted⟩ := admitted_of_gives examines
  rcases raises_bind.mp lays with stops | ⟨_, dropped, drops, pushes⟩
  · exact (raises_update stops).elim
  obtain rfl := gives_updateManager.mp drops
  rcases raises_bind.mp pushes with stops | ⟨_, _, -, returns⟩
  · obtain ⟨stack, rfl⟩ := exists_of_raises_pushActivation stops
    exact .inr ⟨callee, rest, held, bcp, stack, admitted, rfl⟩
  · exact (raises_pure returns).elim

theorem not_raises_releaseSource
    {source : DeoptSource} :
    ¬(releaseSource context source).Raises before cause after := by
  intro raises
  rcases raises_bind.mp raises with stops | ⟨_, _, -, reports⟩
  · have failed : ((source.release context.env).mapError ProtocolError.frame).Raises
        before.machine cause _ :=
      ⟨stops.1, rfl⟩
    obtain ⟨_, inner⟩ := Operation.exists_of_raises_mapError failed
    exact (DeoptSource.not_raises_release inner).elim
  · rcases raises_ite.mp reports with ⟨-, stops⟩ | ⟨-, stops⟩
    · exact (raises_report stops).elim
    · exact (raises_pure stops).elim

/--
An image is refused where its callee is laid out, or where the callee is filled.  What
was filled is settled without fail.
-/
theorem raises_pushDeoptimized
    (raises : (pushDeoptimized context image).Raises before cause after) :
    (layOutFor context image).Raises before cause after ∨
      ∃ index bcp laid, (layOutFor context image).Gives before (index, bcp) laid ∧
        (restoreImage context index bcp image).Raises laid cause after := by
  rw [pushDeoptimized_eq] at raises
  rcases raises_bind.mp raises with stops | ⟨⟨index, bcp⟩, laid, lays, fills⟩
  · exact .inl stops
  rcases raises_bind.mp fills with stops | ⟨_, _, -, settles⟩
  · exact .inr ⟨index, bcp, laid, lays, stops⟩
  rcases raises_bind.mp settles with stops | ⟨_, _, -, releases⟩
  · rcases raises_bind.mp stops with ⟨⟨⟩, -⟩ | ⟨_, _, -, anchors⟩
    split at anchors <;> exact (raises_update anchors).elim
  · split at releases
    · exact (not_raises_releaseSource releases).elim
    · exact (raises_pure releases).elim

end Refusing

/-- What a refused image leaves as it was, whatever it does to the chain above. -/
structure Spares (before after : Session τ) : Prop where
  own : after.own = before.own
  thread : after.machine.thread = before.machine.thread
  records : after.machine.records = before.machine.records
  initialized : after.manager.initialized = before.manager.initialized
  entry : after.manager.entry = before.manager.entry
  standing : ∀ index < before.manager.depth,
    after.manager.activations[index]? = before.manager.activations[index]?

/-- The top was sent nothing, and no compiled code is to answer for it. -/
structure Stranded (session : Session τ) : Prop where
  initialized : session.manager.initialized = true
  entered : session.manager.entry.isSome = true
  answered : session.manager.pendingOsr = none
  top : ∃ (lower : Array HeldActivation) (held : HeldActivation),
    session.manager.activations = lower.push held ∧ held.activation.message = .noRequest

end Session

/-- What is left by calls that are made one after the other, whether they fail or not. -/
def Call.afterAll
    (context : ManagerContext τ)
    (calls : List (Call τ))
    (session : Session τ) :
    Session τ :=
  calls.foldl (fun session call => (call.perform context session).2) session

/-- Where no call changes anything, no calls lead anywhere. -/
theorem Call.afterAll_of_still
    {context : ManagerContext τ}
    {session : Session τ}
    (still : ∀ call : Call τ, (call.perform context).Leaves session (· = session))
    (calls : List (Call τ)) :
    Call.afterAll context calls session = session := by
  induction calls with
  | nil => rfl
  | cons call rest inductionHypothesis =>
      exact (congrArg (Call.afterAll context rest) (still call)).trans inductionHypothesis

namespace Session

variable {context : ManagerContext τ} {session : Session τ}

/-- Setting up again changes nothing. -/
theorem gives_setUp_of_initialized
    (initialized : session.manager.initialized = true)
    (engine : Engine τ) :
    (setUp context engine).Gives session () session :=
  gives_bind.mpr ⟨_, _, gives_readManager.mpr ⟨rfl, rfl⟩, by
    rw [if_pos initialized]
    exact gives_pure.mpr ⟨rfl, rfl⟩⟩

/-- A manager that has an entry frame is not started again. -/
theorem raises_start_of_entered
    (initialized : session.manager.initialized = true)
    (entered : session.manager.entry.isSome = true)
    (method : Word)
    (arguments handles : List Word) :
    (start context method arguments handles).Raises session .alreadyStarted session := by
  refine raises_bind.mpr (.inr ⟨_, session, gives_readManager.mpr ⟨rfl, rfl⟩, ?_⟩)
  simp only [initialized, entered, Bool.not_true, Bool.false_eq_true, if_false, if_true,
    fail_bind]
  exact raises_fail.mpr ⟨rfl, rfl⟩

/-- Without activations there is nothing to run. -/
theorem raises_step_of_empty
    (initialized : session.manager.initialized = true)
    (empty : session.manager.depth = 0)
    (engine : Engine τ) :
    (step context engine).Raises session .noActivation session := by
  refine raises_bind.mpr (.inr ⟨_, session, gives_readManager.mpr ⟨rfl, rfl⟩, ?_⟩)
  simp only [initialized, Bool.not_true, Bool.false_eq_true, if_false, fail_bind]
  refine raises_bind.mpr (.inl ?_)
  simp only [topIndex?, empty, if_true]
  exact raises_fail.mpr ⟨rfl, rfl⟩

/-- The engine is not run on a top that holds no response. -/
theorem raises_step_of_not_isResponse
    {lower : Array HeldActivation}
    {held : HeldActivation}
    (initialized : session.manager.initialized = true)
    (stands : session.manager.activations = lower.push held)
    (message : held.activation.message.isResponse = false)
    (engine : Engine τ) :
    (step context engine).Raises session (.notResumed held.activation.message) session := by
  refine raises_bind.mpr (.inr ⟨_, session, gives_readManager.mpr ⟨rfl, rfl⟩, ?_⟩)
  simp only [initialized, Bool.not_true, Bool.false_eq_true, if_false, fail_bind]
  refine raises_bind.mpr (.inr ⟨lower.size, session, gives_demand.mpr ⟨?_, rfl⟩, ?_⟩)
  · simp [topIndex?, depth_of_push stands]
  refine raises_bind.mpr (.inr ⟨held.activation, session,
    gives_activation.mpr ⟨activation?_of_push stands, rfl⟩, ?_⟩)
  rw [message]
  exact raises_fail.mpr ⟨rfl, rfl⟩

/-- No result is taken that is not expected. -/
theorem raises_completeOsr_of_nothing
    (nothing : session.manager.pendingOsr = none)
    (kind : ReturnKind)
    (value : List Word) :
    (completeOsr context kind value).Raises session .noOsrPending session := by
  refine raises_bind.mpr (.inr ⟨_, session, gives_readManager.mpr ⟨rfl, rfl⟩, ?_⟩)
  refine raises_bind.mpr (.inl ?_)
  rw [nothing]
  exact raises_fail.mpr ⟨rfl, rfl⟩

end Session

namespace Session.Stranded

variable {context : ManagerContext τ} {session : Session τ}

theorem step
    (stranded : session.Stranded)
    (engine : Engine τ) :
    ∃ cause, (Session.step context engine).Raises session cause session := by
  obtain ⟨lower, held, stands, message⟩ := stranded.top
  exact ⟨_, raises_step_of_not_isResponse stranded.initialized stands (by rw [message]; rfl)
    engine⟩

theorem pushDeoptimized
    (stranded : session.Stranded)
    (image : DeoptimizedActivation) :
    ∃ cause, (Session.pushDeoptimized context image).Raises session cause session := by
  obtain ⟨lower, held, stands, message⟩ := stranded.top
  suffices refused : ∃ cause, (examine context image).Raises session cause session by
    obtain ⟨cause, raises⟩ := refused
    refine ⟨cause, ?_⟩
    rw [pushDeoptimized_eq]
    exact raises_bind.mpr (.inl (raises_bind.mpr (.inl raises)))
  simp only [examine, fail_bind]
  rcases found : context.env.methods.find? image.method with _ | callee
  · refine ⟨.frame (.unknownMethod image.method), raises_bind.mpr (.inr ⟨_, session,
      gives_readManager.mpr ⟨rfl, rfl⟩, ?_⟩)⟩
    simp only [stranded.initialized, Bool.not_true, Bool.false_eq_true, if_false]
    refine raises_bind.mpr (.inl ?_)
    rw [method, found]
    exact raises_fail.mpr ⟨rfl, rfl⟩
  · refine ⟨.incompatibleResume .noRequest .deoptResume, raises_bind.mpr (.inr ⟨_, session,
      gives_readManager.mpr ⟨rfl, rfl⟩, ?_⟩)⟩
    simp only [stranded.initialized, Bool.not_true, Bool.false_eq_true, if_false]
    refine raises_bind.mpr (.inr ⟨callee, session, gives_method.mpr ⟨found, rfl⟩, ?_⟩)
    refine raises_bind.mpr (.inr ⟨lower.size, session, gives_demand.mpr ⟨?_, rfl⟩, ?_⟩)
    · simp [topIndex?, depth_of_push stands]
    refine raises_bind.mpr (.inr ⟨held.activation, session,
      gives_activation.mpr ⟨activation?_of_push stands, rfl⟩, ?_⟩)
    rw [message]
    exact raises_fail.mpr ⟨rfl, rfl⟩

/-- A call that does not only set the engine up fails, and none changes anything. -/
theorem perform
    (stranded : session.Stranded)
    (context : ManagerContext τ)
    (call : Call τ) :
    (∃ engine, call = .setUp engine) ∧
        (call.perform context).Gives session none session ∨
      ∃ cause, (call.perform context).Raises session cause session := by
  cases call with
  | setUp engine =>
      exact .inl ⟨⟨engine, rfl⟩, gives_bind.mpr ⟨(), session,
        gives_setUp_of_initialized stranded.initialized engine, gives_pure.mpr ⟨rfl, rfl⟩⟩⟩
  | start method arguments handles =>
      exact .inr ⟨_, raises_bind.mpr (.inl (raises_start_of_entered stranded.initialized
        stranded.entered method arguments handles))⟩
  | step engine =>
      obtain ⟨cause, raises⟩ := stranded.step engine
      exact .inr ⟨cause, raises_bind.mpr (.inl raises)⟩
  | completeOsr kind value =>
      exact .inr ⟨_, raises_bind.mpr (.inl (raises_completeOsr_of_nothing stranded.answered kind
        value))⟩
  | pushDeoptimized image =>
      obtain ⟨cause, raises⟩ := stranded.pushDeoptimized image
      exact .inr ⟨cause, raises_bind.mpr (.inl raises)⟩

/-- From a stranded session no calls lead anywhere. -/
theorem afterAll
    (stranded : session.Stranded)
    (calls : List (Call τ)) :
    Call.afterAll context calls session = session := by
  refine Call.afterAll_of_still (fun call => ?_) calls
  rcases stranded.perform context call with ⟨-, gives⟩ | ⟨_, raises⟩
  · exact gives.2
  · exact raises.2

end Session.Stranded

namespace Session

variable {context : ManagerContext τ} {before after : Session τ}
  {image : DeoptimizedActivation} {cause : ProtocolError}

/-- A callee is on the chain that was laid out in vain, and nothing leads away from it. -/
structure Strands
    (context : ManagerContext τ)
    (image : DeoptimizedActivation)
    (index : Nat)
    (laid after : Session τ) :
    Prop where
  overfull : ∃ fresh, laid.manager.activation? index = some fresh ∧
    ¬fresh.Takes laid.machine.stack image
  unsent : (after.manager.activation? index).map Activation.message = some .noRequest
  stuck : ∀ calls, Call.afterAll context calls after = after

/-- The ways in which an image is refused, and what each of them leaves. -/
inductive Refused
    (context : ManagerContext τ)
    (image : DeoptimizedActivation)
    (cause : ProtocolError)
    (before : Session τ) :
    Session τ → Prop where
  /-- The checks refuse the image, and nothing happened. -/
  | unfit
      (refuses : (examine context image).Raises before cause before) :
      Refused context image cause before before
  /--
  There is no room for the callee.  It is not on the chain, but compiled code that was to
  answer the caller is forgotten.
  -/
  | unplaced
      {after : Session τ}
      {callee : Method}
      {rest : Array HeldActivation}
      {held : HeldActivation}
      {bcp : Address}
      (admitted : Admitted context image before callee rest held bcp)
      (refuses : (layOutFor context image).Raises before cause after)
      (managed : after.manager = withoutPendingOsr before.manager rest.size)
      (forgets : Reached context before → after.manager.pendingOsr = none) :
      Refused context image cause before after
  /-- The callee was laid out, and stays on the chain when it cannot be filled. -/
  | unfilled
      {laid after : Session τ}
      {callee : Method}
      {rest : Array HeldActivation}
      {held unfinished : HeldActivation}
      {bcp : Address}
      (seated : SeatedFor context image before callee rest held bcp laid)
      (refuses : (restoreImage context before.manager.depth bcp image).Raises laid cause
        after)
      (managed : after.manager = { withoutPendingOsr before.manager rest.size with
        activations := before.manager.activations.push unfinished })
      (strands : context.env.layout = .x86_64 → Reached context before →
        Strands context image before.manager.depth laid after) :
      Refused context image cause before after

namespace SeatedFor

variable {callee : Method} {rest : Array HeldActivation} {held : HeldActivation}
  {bcp : Address} {laid : Session τ}

/-- A callee that cannot be filled is left on the chain; only it and the stack are touched. -/
theorem leaves
    (seated : SeatedFor context image before callee rest held bcp laid)
    (fills : (restoreImage context before.manager.depth bcp image).Raises laid cause after) :
    ∃ workspace : Workspace, after = { before.withStack workspace.stack with
      manager := { withoutPendingOsr before.manager rest.size with
        activations := before.manager.activations.push
          ⟨workspace.activation, callee.parameterSlots⟩ } } := by
  obtain ⟨_, stack, fresh, -, -, -, -, -, -, laidIs⟩ := gives_pushActivation seated.laysOut
  have stands : laid.manager.activations =
      before.manager.activations.push ⟨fresh, callee.parameterSlots⟩ := by
    rw [laidIs]
    exact congrArg (fun manager => manager.activations.push ⟨fresh, callee.parameterSlots⟩)
      (withoutPendingOsr_eq before.manager rest.size)
  have found : laid.manager.activation? before.manager.depth = some fresh :=
    activation?_of_push stands
  obtain ⟨workspace, isAfter⟩ := (Localized.restoreImage bcp image).of_raises fills fresh found
  have changed := withActivation_of_push stands workspace.activation
  refine ⟨workspace, ?_⟩
  rw [isAfter]
  subst laidIs
  exact congrArg (fun manager => { before.withStack workspace.stack with manager := manager })
    changed

/--
In a session that is reached, a callee that cannot be filled is one that does not take the
image, and the thread is stranded.
-/
theorem strands
    (x86 : context.env.layout = .x86_64)
    (reached : Reached context before)
    (seated : SeatedFor context image before callee rest held bcp laid)
    (fills : (restoreImage context before.manager.depth bcp image).Raises laid cause after) :
    Strands context image before.manager.depth laid after := by
  obtain ⟨placement, stack, fresh, layout, shaped, laidIs⟩ := seated.exists_layout x86 reached
  have laidStack : laid.machine.stack = stack := by rw [laidIs]; rfl
  have laidStands : laid.manager.activations =
      before.manager.activations.push ⟨fresh, callee.parameterSlots⟩ := by
    rw [laidIs]
  have found : laid.manager.activation? before.manager.depth = some fresh :=
    activation?_of_push laidStands
  have entered := reached.followsProtocol.entered_of_push seated.stands
  rw [← laidStack] at layout
  obtain ⟨refuses, unsent⟩ := takes_not_of_raises_restoreImage x86
    (reached.interpreter entered) found (layout.untouched shaped) fills
  obtain ⟨workspace, isAfter⟩ := seated.leaves fills
  have dropped := (waits_of_isCall reached.followsProtocol seated.stands seated.isCall).2
  rw [dropped] at isAfter
  have stands : after.manager.activations = before.manager.activations.push
      ⟨workspace.activation, callee.parameterSlots⟩ := by
    rw [isAfter]
  have topFound : after.manager.activation? before.manager.depth = some workspace.activation :=
    activation?_of_push stands
  refine ⟨⟨fresh, found, refuses⟩, unsent, Stranded.afterAll ?_⟩
  rw [topFound] at unsent
  exact {
    initialized := by rw [isAfter]; exact seated.initialized
    entered := by rw [isAfter]; exact entered
    answered := by rw [isAfter]
    top := ⟨_, _, stands, Option.some.inj unsent⟩ }

end SeatedFor

/--
A refused image leaves all that stood as it was.  If its callee was laid out before it was
refused, the callee is left above what stood, and the thread is stranded.
-/
theorem refused_of_raises
    (raises : (pushDeoptimized context image).Raises before cause after) :
    Spares before after ∧ Refused context image cause before after := by
  rcases raises_pushDeoptimized raises with lays | ⟨index, bcp, laid, lays, fills⟩
  · rcases exists_of_raises_layOutFor lays with
      ⟨refuses, rfl⟩ | ⟨callee, rest, held, bcp, stack, admitted, rfl⟩
    · exact ⟨⟨rfl, rfl, rfl, rfl, rfl, fun _ _ => rfl⟩, .unfit refuses⟩
    · refine ⟨?_, .unplaced admitted lays rfl fun reached => ?_⟩
      · rw [withoutPendingOsr_eq]
        exact ⟨rfl, rfl, rfl, rfl, rfl, fun _ _ => rfl⟩
      · rw [(waits_of_isCall reached.followsProtocol admitted.stands admitted.isCall).2]
  · obtain ⟨rfl, callee, rest, held, seated⟩ := seatedFor_of_gives lays
    obtain ⟨workspace, isAfter⟩ := seated.leaves fills
    have standing (index : Nat) (below : index < before.manager.depth) :
        (before.manager.activations.push ⟨workspace.activation, callee.parameterSlots⟩)[index]? =
          before.manager.activations[index]? := by
      rw [Array.getElem?_push, if_neg]
      exact Nat.ne_of_lt below
    refine ⟨?_, .unfilled seated fills (by rw [isAfter]) fun x86 reached =>
      seated.strands x86 reached fills⟩
    rw [isAfter, withoutPendingOsr_eq]
    exact ⟨rfl, rfl, rfl, rfl, rfl, standing⟩

end Session

/-- Refusing an image leaves no trace on the chain, on the thread or in the records. -/
def Session.RefusesCleanly (context : ManagerContext τ) : Prop :=
  ∀ before image cause after, Reached context before →
    (pushDeoptimized context image).Raises before cause after →
      after.manager.depth = before.manager.depth ∧
        (∀ index, after.manager.activation? index = before.manager.activation? index) ∧
        after.machine.thread.anchor = before.machine.thread.anchor ∧
        after.machine.records = before.machine.records

namespace Sinking

/-- The image has one local more than its callee. -/
def overfull : DeoptimizedActivation :=
  { image with locals := [0x700020, 1, 2, 3, 4] }

/-- The session that the image was refused in. -/
def stranded : Session Unit :=
  (Session.pushDeoptimized context overfull waiting).2

theorem raises_overfull :
    (Session.pushDeoptimized context overfull).Raises waiting
      (.localOutOfRange 0x500008 4) stranded :=
  ⟨by decide +kernel, rfl⟩

/-- The image is refused where the callee was laid out. -/
theorem refused_overfull :
    context.env.layout = .x86_64 ∧ Reached context waiting ∧
      (Session.pushDeoptimized context overfull).Raises waiting
        (.localOutOfRange 0x500008 4) stranded ∧
      Session.Spares waiting stranded ∧
      Session.Refused context overfull (.localOutOfRange 0x500008 4) waiting stranded :=
  ⟨rfl, reached_waiting, raises_overfull,
    Session.refused_of_raises raises_overfull⟩

theorem not_refusesCleanly : ¬Session.RefusesCleanly context := by
  intro cleanly
  have same := (cleanly _ _ _ _ reached_waiting raises_overfull).1
  exact absurd same (by decide +kernel)

end Sinking

end ManagedStack
