import ManagedStack.Proofs.Chaining
import ManagedStack.Proofs.Protocol

namespace ManagedStack

/-!
# The stack over whole runs

Between two calls the stack carries the chain of activations that the manager keeps:
top first, each one published and resting on its caller, down to the entry frame,
with the thread's anchor at the top.  Every call that succeeds keeps all of this,
for any engine that acts through its activation.
-/

open Operation FrameManager

namespace Session

/-- The stack carries the chain of the manager, and the anchor names its top. -/
structure Stacked
    (context : ManagerContext τ)
    (session : Session τ) :
    Prop where
  chained : ∀ entry ∈ session.manager.entry,
    Chained context session.machine.stack entry
      session.manager.activations.toList.reverse
  anchored : session.manager.entry.isSome = true →
    session.machine.thread.anchor = anchorFor context session.manager.top?
  /-- The arguments of a replaced callee are still on its caller's stack. -/
  pending : ∀ pending ∈ session.manager.pendingOsr,
    ∀ top ∈ session.manager.top?,
      top.stackTop.toNat + 8 * pending.parameterSlots ≤ top.monitorEnd.toNat

variable {context : ManagerContext τ} {before after : Session τ}
  {entry : EntryRecord} {rest : Array HeldActivation} {held : HeldActivation}

/-- A chain begins with its top. -/
theorem reverse_of_push
    {activations : Array HeldActivation}
    (stands : activations = rest.push held) :
    activations.toList.reverse = held :: rest.toList.reverse := by
  simp [stands]

/-- The activations of a manager are those of its chain. -/
theorem mem_activations_iff
    {activations : Array HeldActivation}
    {later : HeldActivation}
    (stands : activations = rest.push held) :
    later ∈ activations ↔ later ∈ held :: rest.toList.reverse := by
  rw [← reverse_of_push stands, List.mem_reverse, Array.mem_toList_iff]

/-- While nothing is in progress, there is nothing to carry. -/
theorem Stacked.of_noEntry
    {session : Session τ}
    (noEntry : session.manager.entry = none)
    (noPending : session.manager.pendingOsr = none) :
    Stacked context session where
  chained := by simp [noEntry]
  anchored := by simp [noEntry]
  pending := by simp [noPending]

/-- The activations of a session are a chain on the entry in progress. -/
theorem Stacked.exists_chained
    {session : Session τ}
    (stacked : Stacked context session)
    (follows : session.manager.FollowsProtocol)
    (stands : session.manager.activations = rest.push held) :
    ∃ entry, session.manager.entry = some entry ∧
      Chained context session.machine.stack entry (held :: rest.toList.reverse) := by
  obtain ⟨entry, isEntry⟩ := Option.isSome_iff_exists.mp (follows.entered_of_push stands)
  have chained := stacked.chained entry isEntry
  rw [reverse_of_push stands] at chained
  exact ⟨entry, isEntry, chained⟩

/-- A session that settled with a chain that its stack carries. -/
theorem Stacked.of_settles
    {manager : FrameManager}
    {stack : Stack}
    (settles : Settles context after manager stack)
    (isEntry : manager.entry = some entry)
    (noPending : manager.pendingOsr = none)
    (chained :
      Chained context stack entry manager.activations.toList.reverse) :
    Stacked context after where
  chained := by
    rw [settles.managed, settles.stacked, isEntry]
    intro other same
    obtain rfl := Option.some.inj same
    exact chained
  anchored := by
    intro _
    rw [settles.anchored, settles.managed]
  pending := by
    rw [settles.managed, noPending]
    exact nofun

/-- An activation of the chain that evolved is published as the top again. -/
theorem stacked_of_resumed
    {changed : Activation}
    {written stack : Stack}
    (x86 : context.env.layout = .x86_64)
    (isEntry : before.manager.entry = some entry)
    (noPending : before.manager.pendingOsr = none)
    (stands : before.manager.activations = rest.push held)
    (rests : Rests context before.machine.stack entry held
      rest.toList.reverse)
    (chained :
      Chained context before.machine.stack entry rest.toList.reverse)
    (evolves : Workspace.Evolves ⟨held.activation, before.machine.stack⟩
      ⟨changed, written⟩)
    (room : Workspace.KeepsRoom ⟨held.activation, before.machine.stack⟩
      ⟨changed, written⟩)
    (publishes : Publishes context changed written stack)
    (settles : Settles context after
      (before.manager.withActivation rest.size changed) stack) :
    Stacked context after := by
  obtain ⟨restsAfter, chainedAfter⟩ := rests.of_evolves chained evolves room
  have complete := restsAfter.chained_of_publishes chainedAfter x86 publishes
  rw [withActivation_of_push stands] at settles
  refine .of_settles settles isEntry noPending ?_
  rw [reverse_of_push rfl]
  exact complete

section Resuming

variable {caller : Nat} {waiting : Activation}

/-- A waiting activation that goes on is the top again. -/
theorem stacked_of_caller
    {changed : Activation}
    {written stack : Stack}
    (x86 : context.env.layout = .x86_64)
    (isEntry : before.manager.entry = some entry)
    (noPending : before.manager.pendingOsr = none)
    (atTop : predecessor? before.manager.activations.size = some caller)
    (found : before.manager.activation? caller = some waiting)
    (chained : Chained context before.machine.stack entry
      before.manager.activations.toList.reverse)
    (worked :
      Workspace.Worked ⟨waiting, before.machine.stack⟩ ⟨changed, written⟩)
    (publishes : Publishes context changed written stack)
    (settles : Settles context after
      (before.manager.withActivation caller changed) stack) :
    Stacked context after := by
  have topFound : before.manager.topIndex? = some caller := atTop
  obtain ⟨rest, held, stands, rfl⟩ := push_of_topIndex? topFound
  obtain rfl := Option.some.inj ((activation?_of_push stands).symm.trans found)
  rw [reverse_of_push stands] at chained
  obtain ⟨rests, -, callers⟩ := chained
  exact stacked_of_resumed x86 isEntry noPending stands rests callers
    (.ofWorked worked) (.ofWorked worked) publishes settles

/-- A result reaches a caller that still has the arguments on its stack. -/
theorem stacked_returnIntoCaller
    {parameters : Nat}
    {value : List Word}
    {outcome : StepOutcome}
    (x86 : context.env.layout = .x86_64)
    (gives : (returnIntoCaller context caller parameters value).Gives
      before outcome after)
    (isEntry : before.manager.entry = some entry)
    (noPending : before.manager.pendingOsr = none)
    (atTop : predecessor? before.manager.activations.size = some caller)
    (chained : Chained context before.machine.stack entry
      before.manager.activations.toList.reverse)
    (arguments : ∀ top ∈ before.manager.top?,
      top.stackTop.toNat + 8 * parameters ≤ top.monitorEnd.toNat) :
    Stacked context after := by
  obtain ⟨waiting, _, top, written, bcp, stack, found, -, -, topIs, enough,
    writes, publishes, settles, -⟩ := gives_returnIntoCaller gives
  have topFound : before.manager.topIndex? = some caller := atTop
  obtain ⟨rest, held, stands, rfl⟩ := push_of_topIndex? topFound
  obtain rfl := Option.some.inj ((activation?_of_push stands).symm.trans found)
  have roomy := arguments _ (top?_of_push stands)
  exact stacked_of_caller x86 isEntry noPending atTop found chained
    (Workspace.worked_returnedInto roomy topIs enough writes) publishes settles

end Resuming

/-- The entry frame goes when nothing is in progress any more. -/
theorem stacked_finishEntry
    {value : Unit}
    (gives : (finishEntry : Operation _ ProtocolError _).Gives
      before value after)
    (noPending : before.manager.pendingOsr = none) :
    Stacked context after := by
  rcases gives_finishEntry.mp gives with ⟨noEntry, rfl⟩ | ⟨entry, -, rfl⟩
  · exact .of_noEntry noEntry noPending
  · exact .of_noEntry rfl noPending

/-- The arguments of the top are still on the stack of the one below it. -/
theorem arguments_of_rests
    {stack : Stack}
    {manager : FrameManager}
    (rests : Rests context stack entry held manager.activations.toList.reverse) :
    ∀ top ∈ manager.top?,
      top.stackTop.toNat + 8 * held.parameterSlots ≤ top.monitorEnd.toNat := by
  intro top isTop
  obtain ⟨lower, caller, stands, rfl⟩ := push_of_top? isTop
  rw [reverse_of_push stands] at rests
  exact rests.arguments_le

/-- A successful push lays one activation out below its arguments. -/
theorem laysOut_of_pushActivation
    {method : Method}
    {top callerFp returnPc : Address}
    {link : Option Nat}
    {pushed : Nat}
    (x86 : context.env.layout = .x86_64)
    (gives : (pushActivation context method top callerFp returnPc link).Gives
      before pushed after)
    (topCovers : before.machine.stack.Covers top)
    (arguments : top.toNat + 8 * method.parameterSlots ≤
      before.machine.stack.base.toNat) :
    ∃ placement fresh,
      pushed = before.manager.activations.size ∧
        after.manager = { before.manager with
          activations :=
            before.manager.activations.push ⟨fresh, method.parameterSlots⟩ } ∧
        LaysOut method placement top callerFp returnPc before.machine.stack
          after.machine.stack ∧
        Activation.ofShape before.machine.thread.id
          (shapeAt method placement link) .x86_64 = .ok fresh := by
  obtain ⟨placement, stack, fresh, placed, headroom, headroomTop, written,
    shaped, rfl, rfl⟩ := gives_pushActivation gives
  rw [x86] at placed written shaped
  exact ⟨placement, fresh, rfl, rfl,
    ⟨placed, headroom, headroomTop, topCovers, arguments, written⟩, shaped⟩

/-- A callee laid out below arguments rests on what they belong to. -/
theorem rests_of_pushActivation
    {method : Method}
    {top callerFp returnPc : Address}
    {link : Option Nat}
    {word : Word}
    {pushed : Nat}
    {callers : List HeldActivation}
    (x86 : context.env.layout = .x86_64)
    (gives : (pushActivation context method top callerFp returnPc link).Gives
      before pushed after)
    (chained : Chained context before.machine.stack entry callers)
    (fpIs : callerFp = (footing context entry callers).fp)
    (pcIs : returnPc = (footing context entry callers).returnPc)
    (found : context.env.methods.find? word = some method)
    (topCovers : before.machine.stack.Covers top)
    (within : top.toNat + 8 * method.parameterSlots ≤
      (footing context entry callers).floor)
    (arguments : ∀ caller ∈ callers.head?, caller.activation.stackTop = top) :
    ∃ fresh,
      pushed = before.manager.activations.size ∧
        after.manager = { before.manager with
          activations :=
            before.manager.activations.push ⟨fresh, method.parameterSlots⟩ } ∧
        Rests context after.machine.stack entry
          ⟨fresh, method.parameterSlots⟩ callers ∧
        Chained context after.machine.stack entry callers := by
  have base : (footing context entry callers).floor ≤
      before.machine.stack.base.toNat :=
    chained.floor_le_base
  obtain ⟨placement, fresh, isPushed, managed, laysOut, shaped⟩ :=
    laysOut_of_pushActivation x86 gives topCovers (Nat.le_trans within base)
  rw [fpIs, pcIs] at laysOut
  obtain ⟨rests, waiting⟩ :=
    rests_of_layout chained laysOut shaped found within arguments
  exact ⟨fresh, isPushed, managed, rests, waiting⟩

/-- A callee that begins completes the chain that it was laid out on. -/
theorem stacked_of_begun
    {method : Method}
    {top callerFp returnPc : Address}
    {link : Option Nat}
    {word : Word}
    {pushed : Nat}
    {callers : List HeldActivation}
    {laid : Session τ}
    {fresh : Activation}
    {stack : Stack}
    (x86 : context.env.layout = .x86_64)
    (pushes : (pushActivation context method top callerFp returnPc link).Gives
      before pushed laid)
    (isEntry : before.manager.entry = some entry)
    (noPending : before.manager.pendingOsr = none)
    (waiting : before.manager.activations.toList.reverse = callers)
    (chained : Chained context before.machine.stack entry callers)
    (fpIs : callerFp = (footing context entry callers).fp)
    (pcIs : returnPc = (footing context entry callers).returnPc)
    (methodFound : context.env.methods.find? word = some method)
    (topCovers : before.machine.stack.Covers top)
    (within : top.toNat + 8 * method.parameterSlots ≤
      (footing context entry callers).floor)
    (arguments : ∀ caller ∈ callers.head?, caller.activation.stackTop = top)
    (found : laid.manager.activation? pushed = some fresh)
    (publishes : Publishes context (resumed fresh .methodEntry)
      laid.machine.stack stack)
    (settles : Settles context after
      (laid.manager.withActivation pushed (resumed fresh .methodEntry)) stack) :
    Stacked context after := by
  obtain ⟨made, rfl, managed, rests, chainedStill⟩ := rests_of_pushActivation x86
    pushes chained fpIs pcIs methodFound topCovers within arguments
  have stands : laid.manager.activations = before.manager.activations.push
      ⟨made, method.parameterSlots⟩ := by
    rw [managed]
  obtain rfl := Option.some.inj ((activation?_of_push stands).symm.trans found)
  have worked : Workspace.Worked ⟨made, laid.machine.stack⟩
      ⟨resumed made .methodEntry, laid.machine.stack⟩ :=
    Workspace.worked_resumed rfl
  rw [← waiting] at rests chainedStill
  refine stacked_of_resumed x86 ?_ ?_ stands rests chainedStill (.ofWorked worked)
    (.ofWorked worked) publishes settles
  · rw [managed]
    exact isEntry
  · rw [managed]
    exact noPending

section Services

variable {outcome : StepOutcome}

/-- Without the top there is a waiting top on the same entry. -/
theorem Poses.below
    {caller : Nat}
    (poses : Poses before.manager rest held)
    (isEntry : before.manager.entry = some entry)
    (callerOf : held.activation.caller = some caller) :
    (before.withActivations rest).manager.entry = some entry ∧
      (before.withActivations rest).manager.pendingOsr = none ∧
      predecessor? (before.withActivations rest).manager.activations.size =
        some caller :=
  ⟨isEntry, poses.noPending, poses.predecessor callerOf⟩

theorem stacked_serveCall
    (x86 : context.env.layout = .x86_64)
    (poses : Poses before.manager rest held)
    (isEntry : before.manager.entry = some entry)
    (chained : Chained context before.machine.stack entry
      (held :: rest.toList.reverse))
    (gives : (serveCall context rest.size).Gives before outcome after) :
    Stacked context after := by
  obtain ⟨caller, call, callee, depth, pushed, laid, fresh, stack, callerFound,
    -, found, counted, enough, pushedGives, freshFound, publishes, settles, -⟩ :=
    gives_serveCall gives
  obtain rfl := Option.some.inj
    ((activation?_of_push poses.stands).symm.trans callerFound)
  have sits := chained.1.sits
  exact stacked_of_begun x86 pushedGives isEntry poses.noPending
    (reverse_of_push poses.stands) chained rfl rfl found sits.covers_top
    (sits.arguments_le counted enough) (by simp) freshFound publishes settles

theorem stacked_serveReturn
    (x86 : context.env.layout = .x86_64)
    (poses : Poses before.manager rest held)
    (isEntry : before.manager.entry = some entry)
    (chained : Chained context before.machine.stack entry
      (held :: rest.toList.reverse))
    (gives : (serveReturn context rest.size).Gives before outcome after) :
    Stacked context after := by
  obtain ⟨kind, value, -, -, -, ⟨outermost, finished, -⟩ |
    ⟨caller, callerOf, delivered⟩⟩ := gives_serveReturn poses.stands gives
  · exact stacked_finishEntry finished poses.noPending
  · obtain ⟨entryBelow, noPending, atTop⟩ := poses.below isEntry callerOf
    exact stacked_returnIntoCaller x86 delivered entryBelow noPending atTop
      chained.2.2 (arguments_of_rests chained.1)

theorem stacked_serveMonitor
    (x86 : context.env.layout = .x86_64)
    (poses : Poses before.manager rest held)
    (isEntry : before.manager.entry = some entry)
    (chained : Chained context before.machine.stack entry
      (held :: rest.toList.reverse))
    (gives : (serveMonitor context rest.size).Gives before outcome after) :
    Stacked context after := by
  obtain ⟨monitor, made, activation, stack, grows, found, publishes, settles,
    -⟩ := gives_serveMonitor gives
  have topIs := activation?_of_push poses.stands
  obtain ⟨workspace, rfl, evolves, -, -, room⟩ :=
    evolves_of_growMonitors topIs grows
  have grownIs := activation?_withActivation topIs workspace.activation
  obtain rfl := Option.some.inj (grownIs.symm.trans found)
  obtain ⟨rests, -, waiting⟩ := chained
  have answers : Workspace.Worked workspace
      ⟨resumed workspace.activation .gotMonitors, workspace.stack⟩ :=
    Workspace.worked_resumed rfl
  have roomy := (room (by rw [x86]; rfl)).trans evolves (.ofWorked answers)
  rw [manager_withWorkspace, withActivation_withActivation] at settles
  exact stacked_of_resumed x86 isEntry poses.noPending poses.stands rests waiting
    (evolves.trans (.ofWorked answers)) roomy publishes settles

theorem stacked_serveThrow
    (x86 : context.env.layout = .x86_64)
    (poses : Poses before.manager rest held)
    (isEntry : before.manager.entry = some entry)
    (chained : Chained context before.machine.stack entry
      (held :: rest.toList.reverse))
    (gives : (serveThrow context rest.size).Gives before outcome after) :
    Stacked context after := by
  obtain ⟨exception, -, ⟨outermost, finished, -⟩ | ⟨caller, waiting, pushed,
    stack, callerOf, found, -, pushes, publishes, settles, -⟩⟩ :=
    gives_serveThrow poses.stands gives
  · exact stacked_finishEntry finished poses.noPending
  · obtain ⟨entryBelow, noPending, atTop⟩ := poses.below isEntry callerOf
    have worked := (Workspace.worked_push exception).of_gives pushes
    have answers : Workspace.Worked pushed
        ⟨resumed pushed.activation .rethrowException, pushed.stack⟩ :=
      Workspace.worked_resumed rfl
    have emptied : Workspace.Worked ⟨waiting, before.machine.stack⟩
        ⟨waiting.withEmptyStack, before.machine.stack⟩ :=
      Workspace.worked_withEmptyStack
    exact stacked_of_caller x86 entryBelow noPending atTop found chained.2.2
      (emptied.trans (worked.trans answers)) publishes settles

theorem stacked_servePop
    (x86 : context.env.layout = .x86_64)
    (poses : Poses before.manager rest held)
    (isEntry : before.manager.entry = some entry)
    (chained : Chained context before.machine.stack entry
      (held :: rest.toList.reverse))
    (gives : (servePop context rest.size).Gives before outcome after) :
    Stacked context after := by
  obtain ⟨caller, waiting, stack, callerOf, found, publishes, settles, -⟩ :=
    gives_servePop poses.stands gives
  obtain ⟨entryBelow, noPending, atTop⟩ := poses.below isEntry callerOf
  exact stacked_of_caller x86 entryBelow noPending atTop found chained.2.2
    (Workspace.worked_resumed rfl) publishes settles

theorem stacked_serveOsr
    (poses : Poses before.manager rest held)
    (isEntry : before.manager.entry = some entry)
    (chained : Chained context before.machine.stack entry
      (held :: rest.toList.reverse))
    (gives : (serveOsr context rest.size).Gives before outcome after) :
    Stacked context after := by
  obtain ⟨request, result, pending, -, callerOf, parameters, -, settles, -⟩ :=
    gives_serveOsr poses.stands gives
  obtain ⟨rests, -, waiting⟩ := chained
  constructor
  case chained =>
    rw [settles.managed, settles.stacked]
    intro other same
    obtain rfl := Option.some.inj (isEntry.symm.trans same)
    exact waiting
  case anchored =>
    intro _
    rw [settles.anchored, settles.managed]
  case pending =>
    rw [settles.managed]
    intro other same top isTop
    obtain rfl := Option.some.inj same
    rw [parameters]
    exact arguments_of_rests rests top isTop

/-- Whatever request the top poses, serving it leaves the chain on the stack. -/
theorem stacked_serve
    (x86 : context.env.layout = .x86_64)
    (poses : Poses before.manager rest held)
    (isEntry : before.manager.entry = some entry)
    (chained : Chained context before.machine.stack entry
      (held :: rest.toList.reverse))
    (gives : (serve context rest.size held.activation.message).Gives
      before outcome after) :
    Stacked context after := by
  rcases posted : held.activation.message <;> rw [posted] at gives
  case callMethod | callMethodHandle =>
    exact stacked_serveCall x86 poses isEntry chained gives
  case returnFromMethod =>
    exact stacked_serveReturn x86 poses isEntry chained gives
  case moreMonitors => exact stacked_serveMonitor x86 poses isEntry chained gives
  case throwingException =>
    exact stacked_serveThrow x86 poses isEntry chained gives
  case poppingFrame => exact stacked_servePop x86 poses isEntry chained gives
  case doOsr => exact stacked_serveOsr poses isEntry chained gives
  all_goals exact (gives_fail gives).elim

end Services

section Calls

variable {outcome : StepOutcome}

theorem stacked_step
    {engine : Engine τ}
    (x86 : context.env.layout = .x86_64)
    (follows : before.manager.FollowsProtocol)
    (stacked : Stacked context before)
    (acts : ActsThroughActivation engine)
    (gives : (step context engine).Gives before outcome after) :
    Stacked context after := by
  rw [step_eq] at gives
  obtain ⟨posted, ready, advanced, served⟩ := gives_bind.mp gives
  obtain ⟨rest, held, turn, stack, stands, isResponse, turned, -, publishes, rfl,
    -, managed, isStack⟩ := gives_advance advanced
  have poses := poses_of_turn follows acts stands isResponse turned
  rw [← managed] at poses
  obtain ⟨entry, isEntry⟩ := Option.isSome_iff_exists.mp poses.entry
  have chained := stacked.chained entry (by rw [managed] at isEntry; exact isEntry)
  rw [reverse_of_push stands] at chained
  obtain ⟨rests, -, waiting⟩ := chained
  have worked : Workspace.Worked ⟨held.activation, before.machine.stack⟩
      turn.workspace := .of_acts acts turned
  obtain ⟨restsAfter, waitingAfter⟩ :=
    rests.of_evolves waiting (.ofWorked worked) (.ofWorked worked)
  have complete :=
    restsAfter.chained_of_publishes waitingAfter x86 publishes
  rw [← isStack] at complete
  exact stacked_serve x86 poses isEntry complete served

theorem stacked_completeOsr
    {kind : ReturnKind}
    {value : List Word}
    (x86 : context.env.layout = .x86_64)
    (follows : before.manager.FollowsProtocol)
    (stacked : Stacked context before)
    (gives : (completeOsr context kind value).Gives before outcome after) :
    Stacked context after := by
  obtain ⟨pending, isPending, -, ⟨-, finished, -⟩ |
    ⟨caller, callerOf, delivered⟩⟩ := gives_completeOsr gives
  · exact stacked_finishEntry finished rfl
  · have topFound := follows.pending pending caller isPending callerOf
    obtain ⟨entry, isEntry⟩ :=
      Option.isSome_iff_exists.mp (follows.entered_of_pending isPending)
    have chained := stacked.chained entry isEntry
    have arguments := stacked.pending pending isPending
    exact stacked_returnIntoCaller x86 delivered isEntry rfl topFound chained
      arguments

theorem stacked_setUp
    {engine : Engine τ}
    {value : Unit}
    (follows : before.manager.FollowsProtocol)
    (stacked : Stacked context before)
    (gives : (setUp context engine).Gives before value after) :
    Stacked context after := by
  rcases gives_setUp gives with ⟨-, rfl⟩ | ⟨unset, managed⟩
  · exact stacked
  · have noEntry : before.manager.entry = none := by
      rcases isEntry : before.manager.entry with _ | entry
      · rfl
      · have started := follows.started (by rw [isEntry]; rfl)
        rw [unset] at started
        cases started
    have noPending := (follows.nothing_of_noEntry noEntry).2
    exact .of_noEntry (by rw [managed]; exact noEntry)
      (by rw [managed]; exact noPending)

/-- A start lays out an entry first, and on top of it the callee. -/
theorem stacked_start
    {methodWord : Word}
    {arguments handles : List Word}
    {value : Unit}
    (x86 : context.env.layout = .x86_64)
    (follows : before.manager.FollowsProtocol)
    (gives : (start context methodWord arguments handles).Gives
      before value after) :
    Stacked context after := by
  obtain ⟨callee, wrapper, fixed, words, argumentTop, entered, pushed, laid,
    fresh, stack, initialized, noEntry, found, count, wrapperIs, isFixed, isWords,
    isTop, written, pushedGives, freshFound, publishes, settles⟩ :=
    gives_start gives
  obtain ⟨empty, noPending⟩ := follows.nothing_of_noEntry noEntry
  rw [x86] at isFixed written
  have laysEntry : LaysEntry wrapper argumentTop methodWord
      before.machine.thread.anchor arguments handles before.machine.stack
      entered :=
    .of_start isFixed count isWords isTop wrapperIs written
  obtain ⟨chained, topCovers, place⟩ := stands_of_entry laysEntry
  rw [count] at place
  change Chained context entered ⟨wrapper, before.machine.thread.anchor⟩ []
    at chained
  exact stacked_of_begun x86 pushedGives rfl noPending (by simp [empty]) chained rfl
    rfl found topCovers (Nat.le_of_eq place) (by simp) freshFound publishes settles

/--
An activation restored from an image completes the chain that it rests on.  The
monitors are new ones, so that they lie in the block of the top.
-/
theorem chained_of_restoreImage
    {index : Nat}
    {made : Activation}
    {parameters : Nat}
    {callers : List HeldActivation}
    {bcp : Address}
    {image : DeoptimizedActivation}
    {value : Unit}
    (x86 : context.env.layout = .x86_64)
    (gives : (restoreImage context index bcp image).Gives before value after)
    (found : before.manager.activation? index = some made)
    (rests : Rests context before.machine.stack entry ⟨made, parameters⟩ callers)
    (chained : Chained context before.machine.stack entry callers) :
    ∃ top, after.manager = before.manager.withActivation index top ∧
      Chained context after.machine.stack entry
        (⟨top, parameters⟩ :: callers) := by
  obtain ⟨fresh, filled, stack, published, monitors, freshFound, evolves,
    publishes, owns, monitorPlaces, room, managed⟩ :=
    evolves_restoreImage gives
  obtain rfl := Option.some.inj (found.symm.trans freshFound)
  have worked : Workspace.Worked ⟨filled, stack⟩
      ⟨resumed { filled with bcp := bcp } .deoptResume, stack⟩ :=
    Workspace.worked_resumed_at rfl
  have whole := evolves.trans (.ofWorked worked)
  have roomKept := (room (by rw [x86]; rfl)).trans evolves (.ofWorked worked)
  obtain ⟨restsAfter, chainedAfter⟩ := rests.of_evolves chained whole roomKept
  have complete := restsAfter.chained_of_publishes chainedAfter x86 publishes
  have sameBase : filled.monitorBase.toNat = made.monitorBase.toNat := by
    have former := rests.sits.monitorBase
    have latter := (evolves.sits rests.sits).monitorBase
    have sameFp : filled.fp = made.fp := evolves.fp
    dsimp only at former latter
    rw [sameFp] at latter
    omega
  refine ⟨_, managed, complete.of_owners (fun monitor inside => ?_) owns⟩
  have below := (monitorPlaces rests.sits monitor inside).2
  have block := rests.sits.monitorEndLe
  change monitor.toNat + 16 ≤ filled.monitorBase.toNat
  rw [sameBase]
  exact Nat.le_trans below block

theorem stacked_pushDeoptimized
    {image : DeoptimizedActivation}
    {value : Unit}
    (x86 : context.env.layout = .x86_64)
    (follows : before.manager.FollowsProtocol)
    (stacked : Stacked context before)
    (gives : (pushDeoptimized context image).Gives before value after) :
    Stacked context after := by
  obtain ⟨callee, rest, held, depth, bcp, pushed, laid, restored, -, found,
    stands, isCall, counted, enough, pushedGives, restores, settles⟩ :=
    gives_pushDeoptimized gives
  obtain ⟨-, dropped⟩ := waits_of_isCall follows stands isCall
  rw [dropped] at pushedGives
  obtain ⟨entry, isEntry, chained⟩ := stacked.exists_chained follows stands
  have sits := chained.1.sits
  have roomy := sits.arguments_le counted enough
  obtain ⟨made, isPushed, laidManaged, rests, waiting⟩ :=
    rests_of_pushActivation x86 pushedGives chained rfl rfl found sits.covers_top
      roomy (by simp)
  have pushedIs : pushed = (rest.push held).size := by
    rw [isPushed, ← stands]
  have laidStands : laid.manager.activations =
      (rest.push held).push ⟨made, callee.parameterSlots⟩ := by
    rw [laidManaged, ← stands]
  obtain ⟨top, managed, complete⟩ := chained_of_restoreImage x86 restores
    (pushedIs ▸ activation?_of_push laidStands) rests waiting
  rw [pushedIs, withActivation_of_push laidStands, laidManaged] at managed
  refine .of_settles settles (?_ : _ = some entry) ?_ ?_
  · rw [managed]
    exact isEntry
  · rw [managed]
  · rw [managed, reverse_of_push rfl, reverse_of_push rfl]
    exact complete

end Calls

end Session

/-- Between two calls the stack carries the chain of activations. -/
theorem Reached.stacked
    {context : ManagerContext τ}
    {session : Session τ}
    (x86 : context.env.layout = .x86_64)
    (reached : Reached context session) :
    Session.Stacked context session := by
  induction reached with
  | fresh unused => exact .of_noEntry (by rw [unused]) (by rw [unused])
  | idle reached noEntry _ _ _ =>
      exact .of_noEntry noEntry
        (reached.followsProtocol.nothing_of_noEntry noEntry).2
  | call reached call acts performed stacked =>
      have follows := reached.followsProtocol
      cases call <;>
        obtain ⟨_, _, gives, ended⟩ := Operation.gives_bind.mp performed <;>
        obtain ⟨-, rfl⟩ := Operation.gives_pure.mp ended
      case setUp engine => exact Session.stacked_setUp follows stacked gives
      case start => exact Session.stacked_start x86 follows gives
      case step engine =>
        exact Session.stacked_step x86 follows stacked acts gives
      case completeOsr =>
        exact Session.stacked_completeOsr x86 follows stacked gives
      case pushDeoptimized =>
        exact Session.stacked_pushDeoptimized x86 follows stacked gives

end ManagedStack
