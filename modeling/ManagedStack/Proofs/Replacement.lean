import ManagedStack.Proofs.Alike
import ManagedStack.Proofs.Opening
import ManagedStack.Proofs.Payloads

namespace ManagedStack

/-!
# Replacing the top on the stack

An activation that leaves for compiled code is gone at once, and what is known of its
caller waits for the result in a record.  To the caller this makes no difference: when
the result is delivered from there, everything comes out as if the activation had
returned it, errors included.  Words that nobody owns any more are all that may differ.
-/

open Operation FrameManager

/-- An engine lets the top leave for compiled code. -/
structure LeavesForCompiled
    (engine : Engine τ)
    (before : Session τ)
    (held : HeldActivation) :
    Prop where
  acts : ActsThroughActivation engine
  posts : ∃ turn : Turn τ,
    engine.Gives ⟨before.own, held.activation, before.machine.stack⟩ () turn ∧
      turn.workspace.activation.message = .doOsr

/-- A handler of replacements that always answers. -/
def OsrHandler.Answers (handler : OsrHandler τ) : Prop :=
  ∀ method activation request own, ∃ result after,
    (handler method activation request).Gives own result after

/-- Two engines leave an activation at one position. -/
def StopAlike
    (engine twin : Engine τ)
    (start : Turn τ) :
    Prop :=
  ∀ one other, engine.Gives start () one → twin.Gives start () other →
    other.workspace.activation.bcp = one.workspace.activation.bcp

namespace Session

variable {context : ManagerContext τ} {before ready : Session τ}
  {rest : Array HeldActivation} {held : HeldActivation} {kind : ReturnKind}
  {result : List Word}

/-- After the engine's turn a step publishes the top and serves what it posted. -/
theorem ending_step
    (context : ManagerContext τ)
    {engine : Engine τ}
    {turn : Turn τ}
    (initialized : before.manager.initialized = true)
    (stands : before.manager.activations = rest.push held)
    (isResponse : held.activation.message.isResponse = true)
    (turned : engine.Gives ⟨before.own, held.activation, before.machine.stack⟩ ()
      turn)
    (isRequest : turn.workspace.activation.message.isRequest = true) :
    (step context engine).ending before =
      (do
        commit context rest.size
        serve context rest.size turn.workspace.activation.message :
          Operation (Session τ) ProtocolError StepOutcome).ending
        (before.afterTurn rest.size turn) := by
  have topIs := activation?_of_push stands
  have turnedIs : (before.afterTurn rest.size turn).manager.activation? rest.size =
      some turn.workspace.activation :=
    activation?_withActivation topIs _
  have ran : (runEngine rest.size engine).Gives before ()
      (before.afterTurn rest.size turn) :=
    runEngine_of_gives topIs turned
  unfold step
  rw [ending_bind_of_gives (gives_readManager.mpr ⟨rfl, rfl⟩),
    if_neg (by simp [initialized]),
    ending_bind_of_gives (gives_demand.mpr
      ⟨(by simp [topIndex?, depth_of_push stands] : _ = some rest.size), rfl⟩),
    ending_bind_of_gives (gives_activation.mpr ⟨topIs, rfl⟩)]
  dsimp only
  rw [if_neg (by simp [isResponse]),
    ending_bind_of_gives ran,
    ending_bind_of_gives (gives_activation.mpr ⟨turnedIs, rfl⟩),
    if_neg (by simp [isRequest])]

/-- The session after the top left for compiled code, with its caller on record. -/
def departed
    (context : ManagerContext τ)
    (session : Session τ)
    (rest : Array HeldActivation)
    (pending : PendingOsr)
    (own : τ) :
    Session τ :=
  { session with
    own := own
    manager := { session.manager with
      activations := rest
      pendingOsr := some pending }
    machine := { session.machine with
      thread := { session.machine.thread with
        anchor := anchorFor context
          (rest.back?.map HeldActivation.activation) } } }

/-- The session when nothing is expected from compiled code. -/
def withoutPending (session : Session τ) : Session τ :=
  { session with manager := { session.manager with pendingOsr := none } }

/-- With a handler that answers the top leaves for compiled code. -/
theorem gives_serveOsr_of_push
    {method : Method}
    {request : OsrRequest}
    {handler : OsrHandler τ}
    {replaced : OsrResult}
    {own : τ}
    (stands : ready.manager.activations = rest.push held)
    (isOsr : held.activation.payload.toOsr = .ok request)
    (found : context.env.methods.find? held.activation.method = some method)
    (isHandler : context.osrHandler = some handler)
    (answers : (handler method held.activation request).Gives ready.own replaced
      own) :
    (serveOsr context rest.size).Gives ready (.onStackReplaced replaced)
      (departed context ready rest ⟨held.activation.caller, held.parameterSlots,
        .ofType method.resultType⟩ own) := by
  have topIs := activation?_of_push stands
  have standsStill : ({ ready with own := own } : Session τ).manager.activations =
      rest.push held := stands
  exact gives_bind.mpr ⟨_, _, gives_activation.mpr ⟨topIs, rfl⟩,
    gives_bind.mpr ⟨_, _, gives_method.mpr ⟨found, rfl⟩,
    gives_bind.mpr ⟨_, _, gives_check.mpr ⟨isOsr, rfl⟩,
    gives_bind.mpr ⟨_, _, gives_demand.mpr ⟨isHandler, rfl⟩,
    gives_bind.mpr ⟨_, _, gives_onOwn.mpr ⟨own, answers, rfl⟩,
    gives_bind.mpr ⟨_, _,
      (gives_popActivation_of_push standsStill).mpr ⟨rfl, rfl⟩,
    gives_bind.mpr ⟨(), _, gives_updateManager.mpr rfl,
    gives_bind.mpr ⟨(), _, gives_commitAnchor.mpr rfl,
      gives_pure.mpr ⟨rfl, rfl⟩⟩⟩⟩⟩⟩⟩⟩⟩

/-- A result of the expected kind is delivered to the caller on record. -/
theorem ending_completeOsr
    (pending : PendingOsr)
    (isPending : ready.manager.pendingOsr = some pending)
    (declared : kind = pending.kind)
    (counted : result.length = kind.words) :
    (completeOsr context kind result).ending ready =
      (deliver context kind result pending.parameterSlots pending.caller).ending
        ready.withoutPending := by
  have dropped : (updateManager fun manager =>
      { manager with pendingOsr := none } :
        Operation (Session τ) ProtocolError Unit).Gives ready ()
          ready.withoutPending :=
    gives_updateManager.mpr rfl
  unfold completeOsr
  rw [ending_bind_of_gives (gives_readManager.mpr ⟨rfl, rfl⟩),
    ending_bind_of_gives (gives_demand.mpr ⟨isPending, rfl⟩),
    if_neg (Decidable.not_not.mpr declared),
    if_neg (Decidable.not_not.mpr counted),
    ending_bind_of_gives dropped]
  cases pending.caller <;> rfl

/-- Words of the fixed slots are not the activation's to write. -/
theorem foreign_slot
    {stack : Stack}
    {activation : Activation}
    (sits : activation.Sits stack)
    {offset : Int}
    (inside : offset ∈ [FrameLayout.x86_64.bcx, FrameLayout.x86_64.mdx,
      FrameLayout.x86_64.method]) :
    Workspace.Foreign activation (activation.fp.offset offset).toNat := by
  have near := near_of_committed inside
  have place := sits.toNat_slot near.1 near.2
  have monitors := sits.monitorEndLe
  exact ⟨Nat.le_trans monitors (monitorBase_le_slot sits inside), .inl (by omega)⟩

/--
Two engines that leave the top at one position have it published alike.  What the
profile is converted for is read from slots that no engine writes.
-/
theorem endsAlike_commits
    {engine twin : Engine τ}
    {turn twinTurn : Turn τ}
    (x86 : context.env.layout = .x86_64)
    (reached : Reached context before)
    (stands : before.manager.activations = rest.push held)
    (acts : ActsThroughActivation engine)
    (twinActs : ActsThroughActivation twin)
    (turned : engine.Gives ⟨before.own, held.activation, before.machine.stack⟩ ()
      turn)
    (twinTurned : twin.Gives ⟨before.own, held.activation, before.machine.stack⟩ ()
      twinTurn)
    (position : context.env.diagnostics.profileInterpreter = true →
      twinTurn.workspace.activation.bcp = turn.workspace.activation.bcp) :
    EndsAlike (fun _ _ => True)
      ((commit context rest.size).ending (before.afterTurn rest.size turn))
      ((commit context rest.size).ending (before.afterTurn rest.size twinTurn)) := by
  have interpreter := reached.interpreter
    (reached.entered (by rw [stands, Array.getElem?_push_size]))
  have workedIs (turn : Turn τ) :
      (before.afterTurn rest.size turn).manager.activation? rest.size =
        some turn.workspace.activation :=
    activation?_withActivation (activation?_of_push stands) _
  have sits := sits_of_turned x86 reached acts stands turned
  have twinSits := sits_of_turned x86 reached twinActs stands twinTurned
  by_cases profiled : context.env.diagnostics.profileInterpreter = true
  · obtain ⟨entry, isEntry⟩ := Option.isSome_iff_exists.mp
      (reached.entered (by rw [stands, Array.getElem?_push_size]))
    have held_sits := ((reached.stacked x86).rests_at isEntry
      (by rw [stands, Array.getElem?_push_size])).1.sits
    have worked := Workspace.Worked.of_acts acts turned
    have twinWorked := Workspace.Worked.of_acts twinActs twinTurned
    refine endsAlike_commit interpreter (workedIs turn) (workedIs twinTurn)
      (twinWorked.seat.fp.trans worked.seat.fp.symm) (position profiled)
      ((worked.keeps held_sits).symm.trans (twinWorked.keeps held_sits)) ?_
    rw [x86, ← worked.seat.foreign]
    exact fun offset inside => foreign_slot sits inside
  · have unprofiled : context.env.diagnostics.profileInterpreter = false := by
      simpa using profiled
    obtain ⟨_, commits⟩ :=
      exists_gives_commit x86 unprofiled interpreter (workedIs turn) sits
    obtain ⟨_, twinCommits⟩ :=
      exists_gives_commit x86 unprofiled interpreter (workedIs twinTurn) twinSits
    exact .of_gives commits twinCommits trivial

section Turns

variable {engine : Engine τ} {turn : Turn τ} {method : Method}

/-- What the top returned is delivered to what it rested on. -/
theorem Advances.ending_serveReturn
    {below : List Word}
    (advances : Advances context engine before ready rest held turn)
    (x86 : context.env.layout = .x86_64)
    (reached : Reached context before)
    (acts : ActsThroughActivation engine)
    (found : context.env.methods.find? held.activation.method = some method)
    (payload : turn.workspace.activation.payload =
      .returning (.ofType method.resultType))
    (holds : turn.workspace.activation.HoldsEntries turn.workspace.stack
      (result ++ below))
    (counted : result.length = (ReturnKind.ofType method.resultType).words) :
    (serveReturn context rest.size).ending ready =
      (deliver context (.ofType method.resultType) result held.parameterSlots
        (predecessor? rest.size)).ending (ready.withActivations rest) := by
  have poses := advances.poses reached.followsProtocol acts
  have worked := advances.works acts
  have sits := sits_of_turned x86 reached acts advances.stands advances.turned
  have beside := advances.publishes.keeps_beside x86 sits
  have holdsStill := holds.of_keeps sits beside fun _ _ below => .inl
    (Nat.lt_of_lt_of_le below sits.monitorEndLe)
  have callerIs : turn.workspace.activation.caller = predecessor? rest.size :=
    poses.caller
  rw [← callerIs]
  exact Session.ending_serveReturn poses.stands payload
    (worked.seat.method ▸ found) rfl (sits.of_keeps beside) holdsStill counted

/-- So is what compiled code returns once the top has left for it. -/
theorem Advances.ending_completeOsr
    {handler : OsrHandler τ}
    (advances : Advances context engine before ready rest held turn)
    (reached : Reached context before)
    (acts : ActsThroughActivation engine)
    (message : turn.workspace.activation.message = .doOsr)
    (found : context.env.methods.find? held.activation.method = some method)
    (isHandler : context.osrHandler = some handler)
    (answers : handler.Answers)
    (counted : result.length = (ReturnKind.ofType method.resultType).words) :
    ∃ pending own,
      (do
        let _ ← serveOsr context rest.size
        completeOsr context (.ofType method.resultType) result :
          Operation (Session τ) ProtocolError StepOutcome).ending ready =
        (deliver context (.ofType method.resultType) result held.parameterSlots
          (predecessor? rest.size)).ending
            (ready.departed context rest pending own).withoutPending := by
  have poses := advances.poses reached.followsProtocol acts
  obtain ⟨request, isOsr⟩ := poses.leaves message
  obtain ⟨replaced, own, answer⟩ :=
    answers method turn.workspace.activation request ready.own
  have callerIs : turn.workspace.activation.caller = predecessor? rest.size :=
    poses.caller
  have leaves := gives_serveOsr_of_push poses.stands isOsr
    ((advances.works acts).seat.method ▸ found) isHandler answer
  rw [← callerIs]
  let pending : PendingOsr := ⟨turn.workspace.activation.caller,
    held.parameterSlots, .ofType method.resultType⟩
  exact ⟨pending, own, (ending_bind_of_gives leaves).trans
    (Session.ending_completeOsr pending rfl rfl counted)⟩

end Turns

/-- With the top gone, what is left is the same either way. -/
theorem alike_of_departed
    {engine twin : Engine τ}
    {turn twinTurn : Turn τ}
    {twinReady : Session τ}
    (pending : PendingOsr)
    (own : τ)
    (x86 : context.env.layout = .x86_64)
    (reached : Reached context before)
    (acts : ActsThroughActivation engine)
    (twinActs : ActsThroughActivation twin)
    (advances : Advances context engine before ready rest held turn)
    (twinAdvances : Advances context twin before twinReady rest held twinTurn)
    (thread : twinReady.machine.thread = ready.machine.thread)
    (records : twinReady.machine.records = ready.machine.records) :
    Alike (held.activation.ceiling ≤ ·) (ready.withActivations rest)
      (twinReady.departed context rest pending own).withoutPending := by
  have poses := advances.poses reached.followsProtocol acts
  obtain ⟨entry, isEntry⟩ := Option.isSome_iff_exists.mp
    (reached.entered (by rw [advances.stands, Array.getElem?_push_size]))
  have stacked := reached.stacked x86
  have noPending : before.manager.pendingOsr = none := by
    have none := poses.noPending
    rw [advances.managed] at none
    exact none
  refine ⟨?_, ?_, records, ?_⟩
  · change ({ twinReady.manager with activations := rest, pendingOsr := none } :
      FrameManager) = { ready.manager with activations := rest }
    rw [advances.managed, twinAdvances.managed, ← noPending]
  · change ({ twinReady.machine.thread with
        anchor := anchorFor context (rest.back?.map HeldActivation.activation) } :
          Thread) =
      { ready.machine.thread with
        anchor := anchorFor context (rest.back?.map HeldActivation.activation) }
    rw [thread]
  · exact (advances.keeps x86 stacked isEntry acts).symm.trans
      (twinAdvances.keeps x86 stacked isEntry twinActs)

/-- Sessions agree on fewer words as well. -/
theorem Agree.mono
    {left right : Session τ}
    {kept fewer : Nat → Prop}
    (agree : Agree kept left right)
    (inside : ∀ place, fewer place → kept place) :
    Agree fewer left right :=
  { agree with words := agree.words.mono inside }

/-- The lowest word in use: the top entry, or what an entry was laid out below. -/
def lowestInUse
    (origin : Address)
    (session : Session τ) :
    Nat :=
  match session.manager.top? with
  | some top => top.stackTop.toNat
  | none => origin.toNat

/-- Sessions that differ in the engine's memory and in words out of use at most. -/
def AgreeInUse
    (origin : Address)
    (one other : Session τ) :
    Prop :=
  Agree (one.lowestInUse origin ≤ ·) one other

variable (held) in
/--
A result is given alike to what the activation rested on.  It goes to the entry of the
run, or to a caller that takes it on its stack.
-/
theorem endsAlike_deliver
    {left right : Session τ}
    {entry : EntryRecord}
    (x86 : context.env.layout = .x86_64)
    (interpreter : context.env.code.interpreterContains
      context.entryPoints.interpreterReturnPc = true)
    (stands : left.manager.activations = rest)
    (isEntry : left.manager.entry = some entry)
    (rests : Rests context left.machine.stack entry held rest.toList.reverse)
    (alike : Alike (held.activation.ceiling ≤ ·) left right)
    (chained : Chained context left.machine.stack entry rest.toList.reverse)
    (below : entry.floor ≤ (entry.origin left.machine.stack).toNat) :
    EndsAlike (AgreeInUse (entry.origin left.machine.stack))
      ((deliver context kind result held.parameterSlots
        (predecessor? rest.size)).ending left)
      ((deliver context kind result held.parameterSlots
        (predecessor? rest.size)).ending right) := by
  by_cases outermost : rest.size = 0
  · obtain rfl := Array.eq_empty_of_size_eq_zero outermost
    have within : held.activation.ceiling ≤ entry.floor := rests.within
    refine .bind (endsAlike_finishEntry alike isEntry)
      fun _ leftDone rightDone leftGives _ agree => .pure ?_
    have empty : leftDone.manager.activations = #[] := by
      rcases gives_finishEntry.mp leftGives with ⟨noEntry, -⟩ | ⟨_, -, rfl⟩
      · rw [isEntry] at noEntry
        cases noEntry
      · exact stands
    unfold AgreeInUse lowestInUse top?
    rw [empty]
    exact agree.mono fun place above =>
      Nat.le_trans within (Nat.le_trans below above)
  · obtain ⟨lower, caller, rfl⟩ := Array.eq_push_of_size_ne_zero outermost
    have found := activation?_of_push stands
    rw [Array.toList_push, List.reverse_concat] at chained rests
    have level : held.activation.ceiling =
        caller.activation.stackTop.toNat + 8 * held.parameterSlots := by
      rw [rests.arguments caller rfl,
        HeldActivation.toNat_argumentTop rests.sits rests.laid.parameters]
    rw [level] at alike
    rw [predecessor?_push]
    refine .imp (endsAlike_returnIntoCaller x86 interpreter alike found
      chained.1.sits rests.arguments_le)
      fun outcome leftDone rightDone gives agree => ?_
    obtain ⟨waiting, _, top, _, bcp, _, isWaiting, -, -, isTop, -, -, -, settles,
      -⟩ := gives_returnIntoCaller gives
    obtain rfl := Option.some.inj (found.symm.trans isWaiting)
    have chain : leftDone.manager.activations = lower.push
        { caller with activation := returnedInto caller.activation top bcp } := by
      rw [settles.managed, withActivation_of_push stands]
    have topIs : leftDone.manager.top? =
        some (returnedInto caller.activation top bcp) :=
      top?_of_push chain
    unfold AgreeInUse lowestInUse
    rw [topIs]
    exact isTop ▸ agree

/-- How a delivery comes out tells who was there to take the result. -/
theorem outcome_of_deliver
    {outcome : StepOutcome}
    {parameters : Nat}
    {after : Session τ}
    (stands : before.manager.activations = rest)
    (gives : (deliver context kind result parameters (predecessor? rest.size)).Gives
      before outcome after) :
    outcome = match predecessor? rest.size with
      | none => .returned kind result
      | some _ => .resumed rest.size .methodResume := by
  cases callerOf : predecessor? rest.size with
  | none =>
      rw [callerOf] at gives
      obtain ⟨_, _, -, ended⟩ := gives_bind.mp gives
      obtain ⟨rfl, -⟩ := gives_pure.mp ended
      rfl
  | some caller =>
      rw [callerOf] at gives
      rw [outcome_of_returnIntoCaller gives, FrameManager.depth, stands]

/-- When the top was published, both ways of giving its result end alike. -/
theorem endsAlike_served
    {engine twin : Engine τ}
    {turn twinTurn : Turn τ}
    {twinReady : Session τ}
    {method : Method}
    {handler : OsrHandler τ}
    {entry : EntryRecord}
    {below : List Word}
    (x86 : context.env.layout = .x86_64)
    (reached : Reached context before)
    (isEntry : before.manager.entry = some entry)
    (acts : ActsThroughActivation engine)
    (twinActs : ActsThroughActivation twin)
    (advances : Advances context engine before ready rest held turn)
    (twinAdvances : Advances context twin before twinReady rest held twinTurn)
    (thread : twinReady.machine.thread = ready.machine.thread)
    (records : twinReady.machine.records = ready.machine.records)
    (found : context.env.methods.find? held.activation.method = some method)
    (isHandler : context.osrHandler = some handler)
    (answers : handler.Answers)
    (payload : turn.workspace.activation.payload =
      .returning (.ofType method.resultType))
    (holds : turn.workspace.activation.HoldsEntries turn.workspace.stack
      (result ++ below))
    (counted : result.length = (ReturnKind.ofType method.resultType).words)
    (twinMessage : twinTurn.workspace.activation.message = .doOsr) :
    EndsAlike (AgreeInUse (entry.origin before.machine.stack))
      ((serveReturn context rest.size).ending ready)
      ((do
        let _ ← serveOsr context rest.size
        completeOsr context (.ofType method.resultType) result :
          Operation (Session τ) ProtocolError StepOutcome).ending twinReady) := by
  obtain ⟨pending, own, replaced⟩ := twinAdvances.ending_completeOsr reached
    twinActs twinMessage found isHandler answers counted
  have alike := alike_of_departed pending own x86 reached acts twinActs advances
    twinAdvances thread records
  have stacked := reached.stacked x86
  have sameBase := (advances.keeps x86 stacked isEntry acts).base
  have sameOrigin : entry.origin ready.machine.stack =
      entry.origin before.machine.stack := by
    unfold EntryRecord.origin
    rw [sameBase]
  have below := reached.floor_le_origin x86 isEntry
  obtain ⟨rests, -, chained⟩ := advances.chained x86 stacked isEntry acts
  have isEntryReady : ready.manager.entry = some entry := by
    rw [advances.managed]
    exact isEntry
  rw [advances.ending_serveReturn x86 reached acts found payload holds counted,
    replaced, ← sameOrigin]
  rw [← sameOrigin] at below
  have ceiling := (advances.sameFrame acts).ceiling
  rw [← ceiling] at alike
  exact endsAlike_deliver { held with activation := turn.workspace.activation } x86
    advances.publishes.interpreter rfl isEntryReady rests alike chained below

end Session

section Law

variable {context : ManagerContext τ} {before : Session τ}
  {engine twin : Engine τ} {rest : Array HeldActivation} {held : HeldActivation}
  {method : Method} {result : List Word} {handler : OsrHandler τ}

/--
To leave for compiled code that comes back with a result is to return the result.
-/
theorem replacing_transparent
    (x86 : context.env.layout = .x86_64)
    (reached : Reached context before)
    (found : context.env.methods.find? held.activation.method = some method)
    (returns : Returns engine before rest held (.ofType method.resultType) result)
    (leaves : LeavesForCompiled twin before held)
    (isHandler : context.osrHandler = some handler)
    (answers : handler.Answers)
    (position : context.env.diagnostics.profileInterpreter = true →
      StopAlike engine twin ⟨before.own, held.activation, before.machine.stack⟩) :
    ∃ entry, before.manager.entry = some entry ∧
      EndsAlike (Session.AgreeInUse (entry.origin before.machine.stack))
        ((Session.step context engine).ending before)
        ((do
          let _ ← Session.step context twin
          Session.completeOsr context (.ofType method.resultType) result :
            Operation (Session τ) ProtocolError StepOutcome).ending before) ∧
      ∀ outcome after, (Session.step context engine).Gives before outcome after →
        outcome = match predecessor? rest.size with
          | none => .returned (.ofType method.resultType) result
          | some _ => .resumed rest.size .methodResume := by
  obtain ⟨turn, below, turned, message, payload, holdsResult⟩ := returns.posts
  obtain ⟨twinTurn, twinTurned, twinMessage⟩ := leaves.posts
  have stands := returns.stands
  have atTop : before.manager.activations[rest.size]? = some held := by
    rw [stands, Array.getElem?_push_size]
  have entered := reached.entered atTop
  have initialized := reached.followsProtocol.started entered
  have interpreter := reached.interpreter entered
  obtain ⟨entry, isEntry⟩ := Option.isSome_iff_exists.mp entered
  have stacked := reached.stacked x86
  have served := Session.ending_step context initialized stands
    returns.isResponse turned (by rw [message]; rfl)
  have twinServed := Session.ending_step context initialized stands
    returns.isResponse twinTurned (by rw [twinMessage]; rfl)
  rw [message] at served
  rw [twinMessage] at twinServed
  have commits := Session.endsAlike_commits x86 reached stands returns.acts
    leaves.acts turned twinTurned fun profiled =>
      position profiled turn twinTurn turned twinTurned
  refine ⟨entry, isEntry, ?_, fun outcome after gives => ?_⟩
  · rw [served, ending_bind_congr twinServed, bind_assoc]
    refine .bind commits fun _ ready twinReady ran twinRan _ => ?_
    obtain ⟨advances, thread, records⟩ :=
      Session.advances_of_commit stands returns.isResponse turned ran
    obtain ⟨twinAdvances, twinThread, twinRecords⟩ :=
      Session.advances_of_commit stands returns.isResponse twinTurned twinRan
    exact Session.endsAlike_served x86 reached isEntry returns.acts leaves.acts
      advances twinAdvances (twinThread.trans thread.symm)
      (twinRecords.trans records.symm) found isHandler answers payload holdsResult
      returns.counted twinMessage
  · obtain ⟨_, ready, ran, gives⟩ :=
      gives_bind.mp (gives_of_ending (served.symm.trans (ending_of_gives gives)))
    obtain ⟨advances, -⟩ :=
      Session.advances_of_commit stands returns.isResponse turned ran
    have delivered := advances.ending_serveReturn x86 reached returns.acts found
      payload holdsResult returns.counted
    exact Session.outcome_of_deliver rfl
      (gives_of_ending (delivered.symm.trans (ending_of_gives gives)))

end Law

/-- An engine that was handed the top can let it leave for compiled code. -/
theorem leaves_of_requestOsr
    {before : Session τ}
    {held : HeldActivation}
    {request : OsrRequest}
    (isResponse : held.activation.message.isResponse = true) :
    LeavesForCompiled (Turn.onWorkspace (Workspace.requestOsr request)) before
      held where
  acts := .offered (.requestOsr request)
  posts := ⟨_, gives_onPart.mpr
    ⟨_, Workspace.post_of_response rfl isResponse, rfl⟩, rfl⟩

namespace Asking

/-- Replacements begin and return at fixed addresses. -/
def replace : OsrHandler Unit :=
  fun _ _ _ => Operation.ofProbe (.answer ⟨0x5000, 0x5040⟩)

def replacing : ManagerContext Unit :=
  { context with osrHandler := some replace }

/-- Leave for compiled code. -/
def leave : Engine Unit :=
  Turn.onWorkspace (Workspace.requestOsr ⟨0x610000, 0x5000⟩)

def callsToWork : List (Call Unit) :=
  [.setUp Pair.idle, .start 0x500000 [] [], .step ask, .step work]

theorem ran_callsToWork :
    (Call.runAll? replacing callsToWork Pair.fresh).isSome = true := by
  decide +kernel

/-- The session in which the called method has its long. -/
def computed : Session Unit :=
  (Call.runAll? replacing callsToWork Pair.fresh).get ran_callsToWork

theorem reached_computed : Reached replacing computed :=
  (Reached.fresh rfl).of_runAll?
    (by
      simp only [callsToWork, List.mem_cons, List.not_mem_nil, or_false,
        forall_eq_or_imp, forall_eq, Call.Acts, true_and]
      exact ⟨.probe _, acts_ask, acts_work⟩)
    (Option.some_get ran_callsToWork).symm

/-- The asking method is handed the long by compiled code as by the called method. -/
theorem replaces_long :
    ∃ (entry : EntryRecord) (after twinAfter : Session Unit),
      computed.manager.entry = some entry ∧
        (Session.step replacing answer).Gives computed (.resumed 1 .methodResume)
          after ∧
        (do
          let _ ← Session.step replacing leave
          Session.completeOsr replacing .long [0x2, 0x1] :
            Operation (Session Unit) ProtocolError StepOutcome).Gives computed
              (.resumed 1 .methodResume) twinAfter ∧
        Session.AgreeInUse (entry.origin computed.machine.stack) after
          twinAfter := by
  obtain ⟨caller, held, stands⟩ := eq_push_of_size_two
    (by decide +kernel : computed.manager.activations.size = 2)
  have above : computed.manager.activations[1]?.all (fun held =>
      decide (held.activation.HoldsEntries computed.machine.stack [0x2, 0x1]) &&
        held.activation.message.isResponse &&
        held.activation.method == 0x500008) = true := by
    decide +kernel
  simp only [stands, Array.getElem?_push, Array.size_push, List.size_toArray,
    List.length_nil, Nat.zero_add, reduceIte, Option.all_some, Bool.and_eq_true,
    decide_eq_true_eq, beq_iff_eq] at above
  obtain ⟨⟨holds, isResponse⟩, isMethod⟩ := above
  have answers : replace.Answers := fun _ _ _ own => ⟨_, own, rfl, rfl⟩
  obtain ⟨entry, isEntry, ends, -⟩ :=
    replacing_transparent rfl reached_computed
      (by rw [isMethod]; decide +kernel :
        replacing.env.methods.find? held.activation.method = some clock)
      (returns_of_requestReturn stands isResponse rfl holds :
        Returns answer computed (#[].push caller) held .long [0x2, 0x1])
      (leaves_of_requestOsr isResponse :
        LeavesForCompiled leave computed held)
      rfl answers (by intro profiled; cases profiled)
  obtain ⟨twinAfter, twinGives, agree⟩ := ends.gives
    (gives_of_toOption (by decide +kernel) :
      (Session.step replacing answer).Gives computed (.resumed 1 .methodResume) _)
  exact ⟨entry, _, twinAfter, isEntry, gives_of_toOption (by decide +kernel),
    twinGives, agree⟩

end Asking

end ManagedStack
