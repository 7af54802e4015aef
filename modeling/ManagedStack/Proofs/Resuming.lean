import ManagedStack.Proofs.Isolation

namespace ManagedStack

/-!
# Resuming a caller

What a session that was reached provides for the next step: the registers of any
activation that sits on the stack can be published, an engine's run can be followed
by the service of what it posted, and the caller of the top is ready to be resumed.
How it goes on is said by its position, its entries, and what is as it was.
-/

open Operation FrameManager

namespace Activation

variable {stack : Stack} {activation : Activation}

/-- The fixed slots of a frame are on the stack. -/
theorem Sits.covers_slot
    (sits : activation.Sits stack)
    {distance : Int}
    (above : -9 ≤ distance)
    (below : distance ≤ 1) :
    stack.Covers (activation.fp.offset distance) := by
  have place := sits.toNat_slot above below
  have aligned := sits.fpAligned
  have fixed := sits.monitorBase
  have endLe := sits.monitorEndLe
  have topLe := sits.topLe
  have limitLe := sits.limitLe
  have localsLe := sits.localsLe
  refine ⟨?_, ?_, ?_⟩ <;> omega

/-- Below where a frame ends there is room for its fixed slots. -/
theorem Sits.low
    (sits : activation.Sits stack) :
    stack.limit.toNat + 88 ≤ activation.ceiling := by
  have base := sits.monitorBase
  have monitors := sits.monitorEndLe
  have top := sits.topLe
  have limit := sits.limitLe
  unfold ceiling
  omega

/-- The words of the expression stack, the top entry first. -/
def HoldsEntries
    (stack : Stack)
    (activation : Activation)
    (entries : List Word) :
    Prop :=
  ∃ depth, activation.stackDepth = .ok depth ∧
    (stack.readAll activation.stackTop depth.toNat).Gives entries

instance
    (stack : Stack)
    (activation : Activation)
    (entries : List Word) :
    Decidable (activation.HoldsEntries stack entries) :=
  decidable_of_iff
    (activation.stackDepth.toOption.any (fun depth =>
      (stack.readAll activation.stackTop depth.toNat).outcome.toOption ==
        some entries) = true) (by
    unfold HoldsEntries Probe.Gives
    rcases activation.stackDepth with cause | depth
    · simp [Except.toOption]
    · simp only [Except.toOption, Option.any_some, Except.ok.injEq,
        exists_eq_left']
      cases (stack.readAll activation.stackTop depth.toNat).outcome <;> simp)

/-- The entries lie one after the other between the top and the monitors. -/
theorem Sits.holdsEntries_iff
    (sits : activation.Sits stack)
    {entries : List Word} :
    activation.HoldsEntries stack entries ↔
      activation.stackTop.toNat + 8 * entries.length =
          activation.monitorEnd.toNat ∧
        ∀ (index : Nat) word, entries[index]? = some word →
          stack.Holds (activation.stackTop.offset index) word := by
  obtain ⟨depth, counted, place⟩ := sits.stackDepth_eq
  constructor
  · rintro ⟨other, countedOther, read⟩
    obtain rfl := Except.ok.inj (counted.symm.trans countedOther)
    obtain ⟨length, holds⟩ := Stack.gives_readAll.mp read
    exact ⟨by omega, holds⟩
  · rintro ⟨length, holds⟩
    exact ⟨depth, counted, Stack.gives_readAll.mpr ⟨by omega, holds⟩⟩

/-- Where an entry is. -/
theorem toNat_entry
    {index : Nat}
    (inside :
      activation.stackTop.toNat + 8 * index ≤ activation.monitorEnd.toNat) :
    (activation.stackTop.offset index).toNat =
      activation.stackTop.toNat + 8 * index := by
  have small := activation.monitorEnd.toNat_lt
  exact Word.toNat_offset_of_fits (by omega) (by omega)

/-- The entries are as they were where their words are. -/
theorem HoldsEntries.of_keeps
    {kept : Nat → Prop}
    {after : Stack}
    {entries : List Word}
    (holds : activation.HoldsEntries stack entries)
    (sits : activation.Sits stack)
    (keeps : Stack.Keeps kept stack after)
    (inside : ∀ place : Nat, activation.stackTop.toNat ≤ place →
      place < activation.monitorEnd.toNat → kept place) :
    activation.HoldsEntries after entries := by
  obtain ⟨length, words⟩ := sits.holdsEntries_iff.mp holds
  refine (sits.of_keeps keeps).holdsEntries_iff.mpr
    ⟨length, fun index word found => keeps.holds (words index word found) ?_⟩
  have lower := (List.getElem?_eq_some_iff.mp found).1
  rw [toNat_entry (by omega)]
  exact inside _ (by omega) (by omega)

/-- Words of the monitors and of the locals. -/
def MonitorOrLocal
    (activation : Activation)
    (place : Nat) :
    Prop :=
  activation.monitorEnd.toNat ≤ place ∧
      place < activation.monitorBase.toNat ∨
    activation.fp.toNat + 16 ≤ place ∧ place < activation.ceiling

/-- They lie above the expression stack. -/
theorem Sits.le_of_monitorOrLocal
    (sits : activation.Sits stack)
    {place : Nat}
    (inside : activation.MonitorOrLocal place) :
    activation.monitorEnd.toNat ≤ place := by
  have base := sits.monitorBase
  have monitors := sits.monitorEndLe
  rcases inside with ⟨above, -⟩ | ⟨above, -⟩ <;> omega

end Activation

/-- An activation is below the one that was put on top of it. -/
theorem FrameManager.predecessor?_push
    (lower : Array HeldActivation)
    (caller : HeldActivation) :
    predecessor? (lower.push caller).size = some lower.size := by
  simp [predecessor?]

/-- A chain of two is a callee on its caller. -/
theorem FrameManager.eq_push_of_size_two
    {activations : Array HeldActivation}
    (two : activations.size = 2) :
    ∃ caller held, activations = (#[].push caller).push held := by
  obtain ⟨rest, held, rfl⟩ := Array.eq_push_of_size_ne_zero (by omega :
    activations.size ≠ 0)
  rw [Array.size_push] at two
  obtain ⟨lower, caller, rfl⟩ := Array.eq_push_of_size_ne_zero (by omega :
    rest.size ≠ 0)
  rw [Array.size_push] at two
  obtain rfl := Array.eq_empty_of_size_eq_zero (by omega : lower.size = 0)
  exact ⟨caller, held, rfl⟩

/-- A request is posted where a response was received. -/
theorem Workspace.post_of_response
    {before : Workspace}
    {request : Message}
    {payload : Payload}
    (isRequest : request.isRequest = true)
    (isResponse : before.activation.message.isResponse = true) :
    (post request payload).Gives before () { before with
      activation := { before.activation with
        message := request
        payload := payload } } := by
  have noRequest : before.activation.message.isRequest = false := by
    revert isResponse
    cases before.activation.message <;> decide
  refine gives_bind.mpr ⟨_, before, gives_current.mpr ⟨rfl, rfl⟩, ?_⟩
  simp [isRequest, noRequest]

/-- What accepts a response is resumed with it. -/
theorem Workspace.resume_of_accepts
    {before : Workspace}
    {response : Message}
    (isResponse : response.isResponse = true)
    (accepts : before.activation.accepts response = true) :
    (resume response).Gives before ()
      ⟨Session.resumed before.activation response, before.stack⟩ :=
  gives_resume.mpr ⟨isResponse, accepts, rfl⟩

/-- The activation goes on at a position with these entries, and else as it was. -/
structure HeldActivation.GoesOn
    (before after : Stack)
    (position : Address)
    (entries : List Word)
    (former resumed : HeldActivation) :
    Prop where
  parameterSlots : resumed.parameterSlots = former.parameterSlots
  seat : Workspace.SameSeat former.activation resumed.activation
  position : resumed.activation.bcp = position
  entries : resumed.activation.HoldsEntries after entries
  words : Stack.Keeps former.activation.MonitorOrLocal before after
  published : resumed.activation.Published after

/-- What was kept before it goes on is kept altogether. -/
theorem HeldActivation.GoesOn.since
    {earlier before after : Stack}
    {position : Address}
    {entries : List Word}
    {former resumed : HeldActivation}
    (goesOn : former.GoesOn before after position entries resumed)
    (sits : former.activation.Sits before)
    (keeps : Stack.Keeps (former.activation.monitorEnd.toNat ≤ ·)
      earlier before) :
    former.GoesOn earlier after position entries resumed :=
  { goesOn with
    words := (keeps.mono fun _ => sits.le_of_monitorOrLocal).trans goesOn.words }

namespace Session

variable {context : ManagerContext τ} {before after : Session τ}

section Publishing

variable {index : Nat} {activation : Activation}

/-- Where its position can be stored, what sits on the stack is published. -/
theorem exists_gives_commit_of_setBcx
    (x86 : context.env.layout = .x86_64)
    (interpreter : context.env.code.interpreterContains
      context.entryPoints.interpreterReturnPc = true)
    (found : before.manager.activation? index = some activation)
    (sits : activation.Sits before.machine.stack)
    (stores : ∀ frame : Frame, frame.kind = .interpreted → frame.fp = activation.fp →
      ∃ after, (frame.setBcx context.env activation.bcp).Gives before.machine () after) :
    ∃ after, (commit context index).Gives before () after := by
  obtain ⟨frame, framed, kind, fp⟩ := exists_gives_frameOf interpreter before activation
  have covers {slot : Int} (above : -9 ≤ slot) (below : slot ≤ 1) :
      before.machine.stack.Covers (frame.slot slot) := by
    rw [Frame.slot, fp]
    exact sits.covers_slot above below
  obtain ⟨positioned, stored⟩ := stores frame kind fp
  obtain ⟨-, stack, rfl, -, keeps, -⟩ := Frame.gives_setBcx stored
  have stays {slot : Int} (above : -9 ≤ slot) (below : slot ≤ 1) :
      stack.Covers (frame.slot slot) :=
    keeps.covers_iff.mpr (covers above below)
  have puts {machine : Machine} {slot : Int} {word : Word}
      (inside : machine.stack.Covers (frame.slot slot)) :
      (frame.putField slot word).Gives machine () _ :=
    Machine.gives_write.mpr ⟨inside, rfl⟩
  obtain ⟨machine, published⟩ : ∃ machine, (do
      frame.setBcx context.env activation.bcp
      frame.putField context.env.layout.mdx activation.mdx
      frame.setMonitorEnd context.env activation.monitorEnd
      frame.setLastSp context.env activation.stackTop
      frame.putField context.env.layout.oopTemp activation.oopTemp :
        Operation Machine FrameError Unit).Gives before.machine () machine := by
    refine ⟨_, gives_bind.mpr ⟨_, _, stored, gives_bind.mpr ⟨_, _, puts ?_,
      gives_bind.mpr ⟨_, _, puts ?_, gives_bind.mpr ⟨_, _, puts ?_, puts ?_⟩⟩⟩⟩⟩
    all_goals simp only [Stack.covers_put, x86]
    all_goals exact stays (by decide) (by decide)
  exact ⟨_, gives_bind.mpr ⟨_, _, gives_activation.mpr ⟨found, rfl⟩,
    gives_bind.mpr ⟨_, _, framed, gives_onMachine.mpr ⟨_, published, rfl⟩⟩⟩⟩

/-- Where the interpreter's code is known, what sits on the stack is published. -/
theorem exists_gives_commit
    (x86 : context.env.layout = .x86_64)
    (unprofiled : context.env.diagnostics.profileInterpreter = false)
    (interpreter : context.env.code.interpreterContains
      context.entryPoints.interpreterReturnPc = true)
    (found : before.manager.activation? index = some activation)
    (sits : activation.Sits before.machine.stack) :
    ∃ after, (commit context index).Gives before () after := by
  refine exists_gives_commit_of_setBcx x86 interpreter found sits fun frame kind fp => ?_
  refine Frame.exists_gives_setBcx unprofiled kind ?_ _
  rw [Frame.slot, fp, x86]
  exact sits.covers_slot (by decide) (by decide)

/-- So is what is resumed, and the anchor names the top. -/
theorem exists_gives_publish
    (x86 : context.env.layout = .x86_64)
    (unprofiled : context.env.diagnostics.profileInterpreter = false)
    (interpreter : context.env.code.interpreterContains
      context.entryPoints.interpreterReturnPc = true)
    (found : before.manager.activation? index = some activation)
    (sits : activation.Sits before.machine.stack)
    (response : Message) :
    ∃ after, (publish context index response).Gives before
      (.resumed before.manager.depth response) after := by
  obtain ⟨committed, commits⟩ :=
    exists_gives_commit x86 unprofiled interpreter found sits
  obtain ⟨_, stack, -, -, rfl⟩ := gives_commit commits
  exact ⟨_, gives_bind.mpr ⟨_, _, commits, gives_bind.mpr ⟨(), _,
    gives_commitAnchor.mpr rfl, gives_bind.mpr ⟨_, _,
      gives_readManager.mpr ⟨rfl, rfl⟩, gives_pure.mpr ⟨rfl, rfl⟩⟩⟩⟩⟩

end Publishing

end Session

/-- Only a step and the completion of a replacement have an outcome. -/
theorem Call.step_or_completeOsr
    {context : ManagerContext τ}
    {before after : Session τ}
    {call : Call τ}
    {outcome : StepOutcome}
    (performed : (call.perform context).Gives before (some outcome) after) :
    (∃ engine, call = .step engine ∧
        (Session.step context engine).Gives before outcome after) ∨
      ∃ kind value, call = .completeOsr kind value ∧
        (Session.completeOsr context kind value).Gives before outcome after := by
  cases call <;>
    obtain ⟨_, _, gives, ended⟩ := gives_bind.mp performed <;>
    obtain ⟨isOutcome, rfl⟩ := gives_pure.mp ended
  case setUp => cases isOutcome
  case start => cases isOutcome
  case pushDeoptimized => cases isOutcome
  case step =>
    obtain rfl := Option.some.inj isOutcome
    exact .inl ⟨_, rfl, gives⟩
  case completeOsr =>
    obtain rfl := Option.some.inj isOutcome
    exact .inr ⟨_, _, rfl, gives⟩

/-- Where nothing is in progress, only a start enters something. -/
theorem Call.isStart_of_entered
    {context : ManagerContext τ}
    {before after : Session τ}
    {call : Call τ}
    {outcome : Option StepOutcome}
    (reached : Reached context before)
    (noEntry : before.manager.entry = none)
    (performed : (call.perform context).Gives before outcome after)
    (entered : after.manager.entry.isSome = true) :
    ∃ methodWord arguments handles,
      call = .start methodWord arguments handles ∧
        (Session.start context methodWord arguments handles).Gives before ()
          after := by
  obtain ⟨empty, noPending⟩ :=
    reached.followsProtocol.nothing_of_noEntry noEntry
  cases call <;>
    obtain ⟨_, _, gives, ended⟩ := gives_bind.mp performed <;>
    obtain ⟨-, rfl⟩ := gives_pure.mp ended
  case setUp =>
    rcases Session.gives_setUp gives with ⟨-, rfl⟩ | ⟨-, managed⟩
    · simp [noEntry] at entered
    · simp [managed, noEntry] at entered
  case start => exact ⟨_, _, _, rfl, gives⟩
  case step =>
    rw [Session.step_eq] at gives
    obtain ⟨_, _, advanced, -⟩ := gives_bind.mp gives
    obtain ⟨_, _, _, -, advances⟩ := Session.advances_of_gives advanced
    have stands := advances.stands
    rw [empty] at stands
    simp at stands
  case completeOsr =>
    obtain ⟨_, isPending, -⟩ := Session.gives_completeOsr gives
    rw [noPending] at isPending
    cases isPending
  case pushDeoptimized =>
    obtain ⟨_, _, _, _, _, _, _, _, -, -, stands, -⟩ :=
      Session.gives_pushDeoptimized gives
    rw [empty] at stands
    simp at stands

/-- What has been entered was published, so that the interpreter's code is known. -/
theorem Reached.interpreter
    {context : ManagerContext τ}
    {session : Session τ}
    (reached : Reached context session)
    (entered : session.manager.entry.isSome = true) :
    context.env.code.interpreterContains
      context.entryPoints.interpreterReturnPc = true := by
  induction reached with
  | fresh unused =>
      rw [unused] at entered
      cases entered
  | idle _ noEntry _ _ _ =>
      rw [noEntry] at entered
      cases entered
  | @call before _ _ reached call _ performed inductionHypothesis =>
      by_cases enteredBefore : before.manager.entry.isSome = true
      · exact inductionHypothesis enteredBefore
      · obtain ⟨_, _, _, -, started⟩ :=
          Call.isStart_of_entered reached (by simpa using enteredBefore)
            performed entered
        obtain ⟨_, _, _, _, _, _, _, _, _, _, -, -, -, -, -, -, -, -, -, -, -,
          publishes, -⟩ := Session.gives_start started
        exact publishes.interpreter

namespace Session

/-- The session after an engine's turn on the top, back in the manager. -/
def afterTurn
    (session : Session τ)
    (index : Nat)
    (turn : Turn τ) :
    Session τ :=
  (session.withTurn index turn).withThread
    { session.machine.thread with state := .inVm }

variable {context : ManagerContext τ} {before ready : Session τ}
  {rest : Array HeldActivation} {held : HeldActivation}

/-- An engine that ends well is run on an activation of the chain. -/
theorem runEngine_of_gives
    {index : Nat}
    {activation : Activation}
    {engine : Engine τ}
    {turn : Turn τ}
    (found : before.manager.activation? index = some activation)
    (turned : engine.Gives ⟨before.own, activation, before.machine.stack⟩ ()
      turn) :
    (runEngine index engine).Gives before () (before.afterTurn index turn) := by
  have ran : (onActivation index engine).Gives
      (before.withThread { before.machine.thread with state := .inJava }) ()
      ((before.withTurn index turn).withThread
        { before.machine.thread with state := .inJava }) :=
    gives_onActivation.mpr ⟨activation, turn, found, turned, rfl⟩
  exact gives_bind.mpr ⟨(), _, gives_setState.mpr rfl, gives_bind.mpr
    ⟨.ok (), _, gives_attempt.mpr (.inl ⟨(), rfl, ran⟩), gives_bind.mpr
      ⟨(), _, gives_setState.mpr rfl, gives_pure.mpr ⟨rfl, rfl⟩⟩⟩⟩

/-- What an engine makes of the top sits on the stack. -/
theorem sits_of_turned
    {engine : Engine τ}
    {turn : Turn τ}
    (x86 : context.env.layout = .x86_64)
    (reached : Reached context before)
    (acts : ActsThroughActivation engine)
    (stands : before.manager.activations = rest.push held)
    (turned : engine.Gives ⟨before.own, held.activation, before.machine.stack⟩ ()
      turn) :
    turn.workspace.activation.Sits turn.workspace.stack := by
  have found : before.manager.activations[rest.size]? = some held := by
    rw [stands, Array.getElem?_push_size]
  obtain ⟨entry, isEntry⟩ :=
    Option.isSome_iff_exists.mp (reached.entered found)
  exact (Workspace.Worked.of_acts acts turned).sits
    ((reached.stacked x86).rests_at isEntry found).1.sits

/-- Publishing what the engine made of the top completes the advance. -/
theorem advances_of_commit
    {engine : Engine τ}
    {turn : Turn τ}
    (stands : before.manager.activations = rest.push held)
    (isResponse : held.activation.message.isResponse = true)
    (turned : engine.Gives ⟨before.own, held.activation, before.machine.stack⟩ ()
      turn)
    (commits : (commit context rest.size).Gives (before.afterTurn rest.size turn)
      () ready) :
    Advances context engine before ready rest held turn ∧
      ready.machine.thread = { before.machine.thread with state := .inVm } ∧
      ready.machine.records = before.machine.records := by
  obtain ⟨activation, stack, found, publishes, rfl⟩ := gives_commit commits
  have workedIs : (before.afterTurn rest.size turn).manager.activation? rest.size =
      some turn.workspace.activation :=
    activation?_withActivation (activation?_of_push stands) _
  obtain rfl := Option.some.inj (workedIs.symm.trans found)
  exact ⟨⟨stands, isResponse, turned, withActivation_of_push stands _, publishes⟩,
    rfl, rfl⟩

/-- What an engine makes of the top is published, if it posts a request. -/
theorem exists_gives_advance
    {engine : Engine τ}
    {turn : Turn τ}
    (x86 : context.env.layout = .x86_64)
    (unprofiled : context.env.diagnostics.profileInterpreter = false)
    (reached : Reached context before)
    (acts : ActsThroughActivation engine)
    (stands : before.manager.activations = rest.push held)
    (isResponse : held.activation.message.isResponse = true)
    (turned : engine.Gives ⟨before.own, held.activation, before.machine.stack⟩ ()
      turn)
    (isRequest : turn.workspace.activation.message.isRequest = true) :
    ∃ ready, (advance context engine).Gives before
        (rest.size, turn.workspace.activation.message) ready ∧
      Advances context engine before ready rest held turn := by
  have entered : before.manager.entry.isSome = true :=
    reached.entered (by rw [stands, Array.getElem?_push_size])
  have topIs := activation?_of_push stands
  have initialized := reached.followsProtocol.started entered
  have sits := sits_of_turned x86 reached acts stands turned
  have ran := runEngine_of_gives topIs turned
  have workedIs : (before.afterTurn rest.size turn).manager.activation? rest.size =
      some turn.workspace.activation :=
    activation?_withActivation topIs _
  obtain ⟨ready, commits⟩ := exists_gives_commit x86 unprofiled
    (reached.interpreter entered) workedIs sits
  refine ⟨ready, ?_, ?_⟩
  · simp only [advance, gives_bind, gives_readManager, gives_demand,
      gives_activation, fail_bind, gives_guard, gives_pure, and_assoc,
      exists_and_left, exists_eq_left]
    refine ⟨by simpa using initialized, _, by simp [topIndex?, depth_of_push stands], _, topIs,
      by simpa using isResponse, (), _, ran, _, workedIs, by simpa using isRequest,
      (), ready, commits, rfl, rfl⟩
  · exact (advances_of_commit stands isResponse turned commits).1

/-- An activation that is published goes on with the entries that it holds. -/
theorem goesOn_of_published
    {changed : Activation}
    {earlier written later : Stack}
    {entries : List Word}
    (x86 : context.env.layout = .x86_64)
    (seat : Workspace.SameSeat held.activation changed)
    (sits : changed.Sits written)
    (holds : changed.HoldsEntries written entries)
    (words : Stack.Keeps held.activation.MonitorOrLocal earlier written)
    (publishes : Publishes context changed written later) :
    held.GoesOn earlier later changed.bcp entries
      { held with activation := changed } := by
  have beside := publishes.keeps_beside x86 sits
  refine ⟨rfl, seat, rfl, holds.of_keeps sits beside fun place _ below => .inl
    (Nat.lt_of_lt_of_le below sits.monitorEndLe), words.trans (beside.mono ?_),
    .of_publishes x86 publishes⟩
  rw [seat.monitorBase, seat.fp]
  rintro place (⟨-, below⟩ | ⟨above, -⟩)
  · exact .inl below
  · exact .inr (by omega)

/-- A caller that was worked on and is published is the top, and goes on. -/
theorem exists_gives_publish_top
    {lower : Array HeldActivation}
    {caller : HeldActivation}
    {changed : Activation}
    {written : Stack}
    {entries : List Word}
    (before : Session τ)
    (x86 : context.env.layout = .x86_64)
    (unprofiled : context.env.diagnostics.profileInterpreter = false)
    (interpreter : context.env.code.interpreterContains
      context.entryPoints.interpreterReturnPc = true)
    (stands : before.manager.activations = lower.push caller)
    (seat : Workspace.SameSeat caller.activation changed)
    (sits : changed.Sits written)
    (holds : changed.HoldsEntries written entries)
    (words : Stack.Keeps caller.activation.MonitorOrLocal before.machine.stack written)
    (response : Message) :
    ∃ after,
      (publish context lower.size response).Gives
          (before.withWorkspace lower.size ⟨changed, written⟩)
          (.resumed (lower.size + 1) response) after ∧
        after.manager.activations =
          lower.push { caller with activation := changed } ∧
        caller.GoesOn before.machine.stack after.machine.stack changed.bcp
          entries { caller with activation := changed } ∧
        after.machine.thread.anchor = anchorFor context (some changed) := by
  have changedIs : (before.withWorkspace lower.size
      ⟨changed, written⟩).manager.activation? lower.size = some changed :=
    activation?_withActivation (activation?_of_push stands) changed
  have chain := activations_withWorkspace_top stands ⟨changed, written⟩
  obtain ⟨after, published⟩ := exists_gives_publish x86 unprofiled interpreter
    changedIs sits response
  obtain ⟨_, stack, found, publishes, settles, -⟩ := gives_publish published
  obtain rfl := Option.some.inj (changedIs.symm.trans found)
  rw [manager_withWorkspace, depth_withActivation, depth_of_push stands]
    at published
  refine ⟨after, published, ?_, ?_, ?_⟩
  · rw [settles.managed]
    exact chain
  · rw [settles.stacked]
    exact goesOn_of_published x86 seat sits holds words publishes
  · rw [settles.anchored, manager_withWorkspace]
    exact congrArg _ (top?_of_push chain)

/-- When the top has been run, its caller waits below it, as it was. -/
theorem Advances.over_caller
    {engine : Engine τ}
    {turn : Turn τ}
    {ready : Session τ}
    {lower : Array HeldActivation}
    {caller : HeldActivation}
    (advances : Advances context engine before ready (lower.push caller) held
      turn)
    (x86 : context.env.layout = .x86_64)
    (reached : Reached context before)
    (acts : ActsThroughActivation engine) :
    ∃ entry,
      caller.activation.Waits ∧
        Rests context ready.machine.stack entry
          { held with activation := turn.workspace.activation }
          (caller :: lower.toList.reverse) ∧
        Rests context ready.machine.stack entry caller lower.toList.reverse ∧
        caller.activation.stackTop.toNat + 8 * held.parameterSlots =
            held.activation.ceiling ∧
        Stack.Keeps
          (caller.activation.stackTop.toNat + 8 * held.parameterSlots ≤ ·)
          before.machine.stack ready.machine.stack := by
  have found : before.manager.activations[(lower.push caller).size]? =
      some held := by
    rw [advances.stands, Array.getElem?_push_size]
  obtain ⟨entry, isEntry⟩ :=
    Option.isSome_iff_exists.mp (reached.entered found)
  have stacked := reached.stacked x86
  have chained := advances.chained x86 stacked isEntry acts
  rw [reverse_of_push rfl] at chained
  have above : caller.activation.stackTop.toNat + 8 * held.parameterSlots =
      held.activation.ceiling := by
    rw [chained.1.arguments caller rfl, ← (advances.sameFrame acts).ceiling]
    exact HeldActivation.toNat_argumentTop chained.1.sits
      chained.1.laid.parameters
  refine ⟨entry, (reached.followsProtocol.chain advances.stands).waiting
    lower.size caller (by simp), chained.1, chained.2.2.1, above, ?_⟩
  rw [above]
  exact advances.keeps x86 stacked isEntry acts

end Session

end ManagedStack
