import ManagedStack.Proofs.Growing

namespace ManagedStack

/-!
# The protocol over whole runs

Between two calls every activation below the top waits on a call, and the top either
holds a response or, when its callee left for compiled code, waits on a call itself.
Caller links, the entry record and the pending replacement agree with the chain.
Every call that succeeds keeps all of this.
-/

/-- No response asks for a call. -/
theorem Message.isCall_of_isResponse
    {message : Message}
    (isResponse : message.isResponse = true) :
    message.isCall = false := by
  cases message <;> first | rfl | cases isResponse

namespace Activation

/-- The activation has a call pending that it carries the request of. -/
def Waits (activation : Activation) : Prop :=
  activation.message.isCall = true ∧ ∃ call, activation.payload = .call call

/-- The activation holds a response with which nothing travels. -/
def Responds (activation : Activation) : Prop :=
  activation.message.isResponse = true ∧ activation.payload = .empty

theorem Responds.fits
    {activation : Activation}
    (responds : activation.Responds) :
    activation.Fits := by
  unfold Fits
  rw [responds.2, Message.payloadForm_of_isResponse responds.1]
  rfl

end Activation

namespace FrameManager

/-- The position below a position of the chain. -/
def predecessor? (index : Nat) : Option Nat :=
  if index = 0 then none else some (index - 1)

/-- What holds of a manager between two calls. -/
structure FollowsProtocol (manager : FrameManager) : Prop where
  /-- Each activation is linked to the one below it. -/
  linked : ∀ index held, manager.activations[index]? = some held →
    held.activation.caller = predecessor? index
  /-- Each activation below the top waits on a call. -/
  waiting : ∀ index held, manager.activations[index]? = some held →
    index + 1 < manager.depth → held.activation.Waits
  /-- The top responds, or waits on a call that compiled code took over. -/
  top : ∀ activation, manager.top? = some activation →
    activation.Responds ∧ manager.pendingOsr = none ∨
      activation.Waits ∧
        ∃ pending, manager.pendingOsr = some pending ∧
          pending.caller = some (manager.depth - 1)
  /-- A pending replacement without caller is one without activations. -/
  orphan : ∀ pending, manager.pendingOsr = some pending →
    pending.caller = none → manager.depth = 0
  /-- A pending replacement with a caller names the top. -/
  pending : ∀ pending caller, manager.pendingOsr = some pending →
    pending.caller = some caller → manager.topIndex? = some caller
  /-- There is an entry frame as long as there is something above it. -/
  entry : manager.entry.isSome = true ↔
    manager.depth ≠ 0 ∨ manager.pendingOsr.isSome = true
  /-- Nothing is entered before the engine was set up. -/
  started : manager.entry.isSome = true → manager.initialized = true

/-- A chain whose activations are all linked and waiting. -/
structure WaitingChain (activations : Array HeldActivation) : Prop where
  linked : ∀ (index : Nat) held, activations[index]? = some held →
    held.activation.caller = predecessor? index
  waiting : ∀ (index : Nat) held, activations[index]? = some held →
    held.activation.Waits

section Chain

variable {rest : Array HeldActivation} {held : HeldActivation}

theorem WaitingChain.empty : WaitingChain #[] :=
  ⟨by simp, by simp⟩

/-- One more waiting activation on top of a waiting chain. -/
theorem WaitingChain.push
    (chain : WaitingChain rest)
    (caller : held.activation.caller = predecessor? rest.size)
    (waits : held.activation.Waits) :
    WaitingChain (rest.push held) := by
  constructor <;> intro index found inside <;>
    rw [Array.getElem?_push] at inside <;> split at inside
  · rename_i atTop
    obtain rfl := Option.some.inj inside
    rw [caller, atTop]
  · exact chain.linked index found inside
  · obtain rfl := Option.some.inj inside
    exact waits
  · exact chain.waiting index found inside

/-- Whatever lies below the top of a waiting chain waits as well. -/
theorem WaitingChain.below
    (chain : WaitingChain (rest.push held)) :
    WaitingChain rest := by
  have same (index : Nat) (found : HeldActivation)
      (inside : rest[index]? = some found) :
      (rest.push held)[index]? = some found := by
    have bounded : index < rest.size := by
      obtain ⟨bounded, -⟩ := Array.getElem?_eq_some_iff.mp inside
      exact bounded
    rw [Array.getElem?_push, if_neg (by omega), inside]
  exact ⟨fun index found inside => chain.linked index found (same _ _ inside),
    fun index found inside => chain.waiting index found (same _ _ inside)⟩

/-- Whatever is found in a waiting chain waits. -/
theorem WaitingChain.waits
    {manager : FrameManager}
    {index : Nat}
    {activation : Activation}
    (chain : WaitingChain manager.activations)
    (found : manager.activation? index = some activation) :
    activation.Waits := by
  obtain ⟨waiting, present, rfl⟩ := Option.map_eq_some_iff.mp found
  exact chain.waiting index waiting present

variable {manager : FrameManager}

/--
A linked activation on top of a waiting chain completes the protocol.  A replacement
that is pending has a caller here, and it is the new top.
-/
theorem FollowsProtocol.of_push
    (stands : manager.activations = rest.push held)
    (chain : WaitingChain rest)
    (caller : held.activation.caller = predecessor? rest.size)
    (top : held.activation.Responds ∧ manager.pendingOsr = none ∨
      held.activation.Waits ∧
        ∃ pending, manager.pendingOsr = some pending ∧
          pending.caller = some rest.size)
    (entry : manager.entry.isSome = true)
    (initialized : manager.initialized = true) :
    manager.FollowsProtocol := by
  have depth := depth_of_push stands
  constructor
  · intro index found inside
    rw [stands, Array.getElem?_push] at inside
    split at inside
    · rename_i atTop
      obtain rfl := Option.some.inj inside
      rw [caller, atTop]
    · exact chain.linked index found inside
  · intro index found inside below
    rw [stands, Array.getElem?_push, if_neg (by omega)] at inside
    exact chain.waiting index found inside
  · intro activation topIs
    rw [top?_of_push stands] at topIs
    obtain rfl := Option.some.inj topIs
    simpa [depth] using top
  · intro pending isPending noCaller
    rcases top with ⟨-, none⟩ | ⟨-, known, knownIs, names⟩
    · simp [none] at isPending
    · obtain rfl := Option.some.inj (knownIs.symm.trans isPending)
      simp [noCaller] at names
  · intro pending caller isPending callerIs
    rcases top with ⟨-, none⟩ | ⟨-, known, knownIs, names⟩
    · simp [none] at isPending
    · obtain rfl := Option.some.inj (knownIs.symm.trans isPending)
      simp [topIndex?, depth, ← callerIs, names]
  · simp [entry, depth]
  · exact fun _ => initialized

/-- Everything below the top of a chain that follows the protocol waits. -/
theorem FollowsProtocol.chain
    (follows : manager.FollowsProtocol)
    (stands : manager.activations = rest.push held) :
    WaitingChain rest := by
  have depth := depth_of_push stands
  have same (index : Nat) (found : HeldActivation)
      (inside : rest[index]? = some found) :
      index < rest.size ∧ manager.activations[index]? = some found := by
    obtain ⟨bounded, -⟩ := Array.getElem?_eq_some_iff.mp inside
    rw [stands, Array.getElem?_push, if_neg (by omega)]
    exact ⟨bounded, inside⟩
  constructor
  · intro index found inside
    exact follows.linked index found (same index found inside).2
  · intro index found inside
    obtain ⟨bounded, present⟩ := same index found inside
    exact follows.waiting index found present (by omega)

theorem FollowsProtocol.caller
    (follows : manager.FollowsProtocol)
    (stands : manager.activations = rest.push held) :
    held.activation.caller = predecessor? rest.size :=
  follows.linked rest.size held (by simp [stands])

/-- Activations stand on an entry frame. -/
theorem FollowsProtocol.entered_of_push
    (follows : manager.FollowsProtocol)
    (stands : manager.activations = rest.push held) :
    manager.entry.isSome = true :=
  follows.entry.mpr (.inl (by simp [depth_of_push stands]))

/-- Compiled code runs under an entry frame. -/
theorem FollowsProtocol.entered_of_pending
    {pending : PendingOsr}
    (follows : manager.FollowsProtocol)
    (isPending : manager.pendingOsr = some pending) :
    manager.entry.isSome = true :=
  follows.entry.mpr (.inr (by simp [isPending]))

/-- Once compiled code took over the top's call, the whole chain waits. -/
theorem FollowsProtocol.chain_of_pending
    {pending : PendingOsr}
    {caller : Nat}
    (follows : manager.FollowsProtocol)
    (isPending : manager.pendingOsr = some pending)
    (callerOf : pending.caller = some caller) :
    WaitingChain manager.activations := by
  have topFound := follows.pending pending caller isPending callerOf
  obtain ⟨rest, held, stands, rfl⟩ := push_of_topIndex? topFound
  rw [stands]
  refine (follows.chain stands).push (follows.caller stands) ?_
  rcases follows.top _ (top?_of_push stands) with ⟨-, none⟩ | ⟨waits, -⟩
  · simp [isPending] at none
  · exact waits

/-- Without an entry frame nothing is in progress. -/
theorem FollowsProtocol.nothing_of_noEntry
    (follows : manager.FollowsProtocol)
    (noEntry : manager.entry = none) :
    manager.activations = #[] ∧ manager.pendingOsr = none := by
  have entry := follows.entry
  rw [noEntry] at entry
  have nothing : manager.depth = 0 ∧ manager.pendingOsr = none := by
    simpa using entry
  exact ⟨Array.eq_empty_of_size_eq_zero nothing.1, nothing.2⟩

/-- A chain without activations and without an entry frame. -/
theorem FollowsProtocol.of_empty
    (empty : manager.activations = #[])
    (noEntry : manager.entry = none)
    (noPending : manager.pendingOsr = none) :
    manager.FollowsProtocol := by
  constructor <;> simp [top?, depth, empty, noEntry, noPending]

/-- A chain that left for compiled code altogether. -/
theorem FollowsProtocol.of_orphan
    {pending : PendingOsr}
    (empty : manager.activations = #[])
    (isPending : manager.pendingOsr = some pending)
    (noCaller : pending.caller = none)
    (entry : manager.entry.isSome = true)
    (initialized : manager.initialized = true) :
    manager.FollowsProtocol := by
  constructor
  case pending =>
    intro known caller knownIs callerIs
    obtain rfl := Option.some.inj (isPending.symm.trans knownIs)
    simp [noCaller] at callerIs
  all_goals simp [top?, depth, empty, isPending, entry, initialized]

/-- The top of a waiting chain goes on with a response. -/
theorem FollowsProtocol.of_resumed
    {index : Nat}
    {former activation : Activation}
    (chain : WaitingChain manager.activations)
    (atTop : predecessor? manager.activations.size = some index)
    (found : manager.activation? index = some former)
    (sameCaller : activation.caller = former.caller)
    (responds : activation.Responds)
    (noPending : manager.pendingOsr = none)
    (entry : manager.entry.isSome = true)
    (initialized : manager.initialized = true) :
    (manager.withActivation index activation).FollowsProtocol := by
  have topFound : manager.topIndex? = some index := atTop
  obtain ⟨rest, held, stands, rfl⟩ := push_of_topIndex? topFound
  have same := Option.some.inj
    ((activation?_of_push stands).symm.trans found)
  rw [withActivation_of_push stands]
  rw [stands] at chain
  refine .of_push rfl chain.below ?_ (.inl ⟨responds, noPending⟩) entry
    initialized
  dsimp only
  rw [sameCaller, ← same]
  exact chain.linked rest.size held (by simp)

end Chain

end FrameManager

namespace Session

open FrameManager Operation

variable {context : ManagerContext τ} {before after : Session τ}

/-- The state in which a request of the top is served. -/
structure Poses
    (manager : FrameManager)
    (rest : Array HeldActivation)
    (held : HeldActivation) :
    Prop where
  stands : manager.activations = rest.push held
  chain : WaitingChain rest
  caller : held.activation.caller = predecessor? rest.size
  fits : held.activation.Fits
  noPending : manager.pendingOsr = none
  entry : manager.entry.isSome = true
  initialized : manager.initialized = true

/-- The entry frame goes when nothing lies above it. -/
theorem followsProtocol_finishEntry
    {value : Unit}
    (empty : before.manager.activations = #[])
    (noPending : before.manager.pendingOsr = none)
    (gives : (finishEntry : Operation _ ProtocolError _).Gives
      before value after) :
    after.manager.FollowsProtocol := by
  rcases gives_finishEntry.mp gives with ⟨noEntry, rfl⟩ | ⟨entry, -, rfl⟩
  · exact .of_empty empty noEntry noPending
  · exact .of_empty empty rfl noPending

/-- A result delivered to the top of a waiting chain lets it go on. -/
theorem followsProtocol_returnIntoCaller
    {caller parameters : Nat}
    {value : List Word}
    {outcome : StepOutcome}
    (chain : WaitingChain before.manager.activations)
    (atTop : predecessor? before.manager.activations.size = some caller)
    (noPending : before.manager.pendingOsr = none)
    (entry : before.manager.entry.isSome = true)
    (initialized : before.manager.initialized = true)
    (gives : (returnIntoCaller context caller parameters value).Gives
      before outcome after) :
    after.manager.FollowsProtocol := by
  obtain ⟨waiting, _, top, _, bcp, _, found, -, -, -, -, -, -, settles, -⟩ :=
    gives_returnIntoCaller gives
  rw [settles.managed]
  exact .of_resumed chain atTop found rfl ⟨rfl, rfl⟩ noPending entry initialized

/-- A callee laid out over a waiting top responds and is linked to it. -/
theorem followsProtocol_pushActivation
    {method : Method}
    {top callerFp returnPc : Address}
    {caller : Option Nat}
    {pushed : Nat}
    {laid : Session τ}
    {fresh activation : Activation}
    (chain : WaitingChain before.manager.activations)
    (callerIs : caller = predecessor? before.manager.activations.size)
    (noPending : before.manager.pendingOsr = none)
    (entry : before.manager.entry.isSome = true)
    (initialized : before.manager.initialized = true)
    (gives : (pushActivation context method top callerFp returnPc caller).Gives
      before pushed laid)
    (found : laid.manager.activation? pushed = some fresh)
    (sameCaller : activation.caller = fresh.caller)
    (responds : activation.Responds) :
    (laid.manager.withActivation pushed activation).FollowsProtocol := by
  obtain ⟨placement, stack, made, -, -, -, -, shaped, rfl, rfl⟩ :=
    gives_pushActivation gives
  have stands : ({ before.manager with
      activations := before.manager.activations.push
        ⟨made, method.parameterSlots⟩ } : FrameManager).activations =
      before.manager.activations.push ⟨made, method.parameterSlots⟩ := rfl
  have freshIs := activation?_of_push stands
  obtain rfl : made = fresh := Option.some.inj (freshIs.symm.trans found)
  have madeCaller : made.caller = caller := by
    obtain ⟨_, _, -, rfl⟩ := Activation.ofShape_eq_ok shaped
    rfl
  change (FrameManager.withActivation _ before.manager.activations.size
    activation).FollowsProtocol
  rw [withActivation_of_push stands]
  refine .of_push rfl chain ?_ (.inl ⟨responds, noPending⟩) entry initialized
  rw [← callerIs, ← madeCaller]
  exact sameCaller

section Services

variable {rest : Array HeldActivation} {held : HeldActivation}
  {outcome : StepOutcome}

/-- A request that carries a call waits once the call is served. -/
theorem Poses.waits
    (poses : Poses before.manager rest held)
    (isCall : held.activation.message.isCall = true) :
    held.activation.Waits := by
  refine ⟨isCall, ?_⟩
  have fits := poses.fits
  unfold Activation.Fits at fits
  have form : held.activation.message.payloadForm = .call := by
    revert isCall
    cases held.activation.message <;> simp [Message.isCall, Message.payloadForm]
  rw [form] at fits
  cases carried : held.activation.payload with
  | call request => exact ⟨request, rfl⟩
  | _ => simp [carried, Payload.form] at fits

/-- The link of the top is the position of the one below. -/
theorem Poses.predecessor
    (poses : Poses before.manager rest held)
    {caller : Nat}
    (callerOf : held.activation.caller = some caller) :
    predecessor? rest.size = some caller :=
  poses.caller.symm.trans callerOf

/-- An activation without caller is the outermost. -/
theorem Poses.empty
    (poses : Poses before.manager rest held)
    (callerOf : held.activation.caller = none) :
    rest = #[] := by
  have outermost := poses.caller.symm.trans callerOf
  unfold predecessor? at outermost
  split at outermost
  · rename_i none
    exact Array.eq_empty_of_size_eq_zero none
  · cases outermost

theorem followsProtocol_serveCall
    (poses : Poses before.manager rest held)
    (isCall : held.activation.message.isCall = true)
    (gives : (serveCall context rest.size).Gives before outcome after) :
    after.manager.FollowsProtocol := by
  obtain ⟨caller, call, callee, depth, pushed, laid, fresh, _, callerFound, -,
    -, -, -, pushedGives, freshFound, -, settles, -⟩ := gives_serveCall gives
  have chain : WaitingChain before.manager.activations := by
    rw [poses.stands]
    exact poses.chain.push poses.caller (poses.waits isCall)
  rw [settles.managed]
  refine followsProtocol_pushActivation chain ?_ poses.noPending poses.entry
    poses.initialized pushedGives freshFound rfl ⟨rfl, rfl⟩
  simp [poses.stands, predecessor?]

theorem followsProtocol_serveReturn
    (poses : Poses before.manager rest held)
    (gives : (serveReturn context rest.size).Gives before outcome after) :
    after.manager.FollowsProtocol := by
  obtain ⟨kind, value, -, -, -, ⟨outermost, finished, -⟩ |
    ⟨caller, callerOf, delivered⟩⟩ := gives_serveReturn poses.stands gives
  · have empty : (before.withActivations rest).manager.activations = #[] :=
      poses.empty outermost
    exact followsProtocol_finishEntry empty poses.noPending finished
  · have chain :
        WaitingChain (before.withActivations rest).manager.activations :=
      poses.chain
    exact followsProtocol_returnIntoCaller chain (poses.predecessor callerOf)
      poses.noPending poses.entry poses.initialized delivered

theorem followsProtocol_serveMonitor
    (poses : Poses before.manager rest held)
    (gives : (serveMonitor context rest.size).Gives before outcome after) :
    after.manager.FollowsProtocol := by
  obtain ⟨monitor, made, activation, stack, grows, found, -, settles, -⟩ :=
    gives_serveMonitor gives
  obtain ⟨growing, lowered, workspace, growingFound, -, -, -, grew, rfl⟩ :=
    gives_growMonitors grows
  obtain ⟨_, shift, _, _, -, -, -, -, -, rfl⟩ :=
    gives_workspace_growMonitors grew
  have topIs := activation?_of_push poses.stands
  obtain rfl := Option.some.inj (topIs.symm.trans growingFound)
  have grownIs := activation?_withActivation topIs
    (grown held.activation shift)
  obtain rfl := Option.some.inj (grownIs.symm.trans found)
  rw [settles.managed, manager_withWorkspace, withActivation_withActivation,
    withActivation_of_push poses.stands]
  exact .of_push rfl poses.chain poses.caller (.inl ⟨⟨rfl, rfl⟩,
    poses.noPending⟩) poses.entry poses.initialized

theorem followsProtocol_serveThrow
    (poses : Poses before.manager rest held)
    (gives : (serveThrow context rest.size).Gives before outcome after) :
    after.manager.FollowsProtocol := by
  obtain ⟨exception, -, ⟨outermost, finished, -⟩ | ⟨caller, waiting, pushed,
    stack, callerOf, found, -, pushes, -, settles, -⟩⟩ :=
    gives_serveThrow poses.stands gives
  · have empty : (before.withActivations rest).manager.activations = #[] :=
      poses.empty outermost
    exact followsProtocol_finishEntry empty poses.noPending finished
  · have seat := ((Workspace.worked_push exception).of_gives pushes).seat
    rw [settles.managed]
    exact .of_resumed poses.chain (poses.predecessor callerOf) found
      seat.caller ⟨rfl, rfl⟩ poses.noPending poses.entry poses.initialized

theorem followsProtocol_servePop
    (poses : Poses before.manager rest held)
    (gives : (servePop context rest.size).Gives before outcome after) :
    after.manager.FollowsProtocol := by
  obtain ⟨caller, waiting, stack, callerOf, found, -, settles, -⟩ :=
    gives_servePop poses.stands gives
  rw [settles.managed]
  exact .of_resumed poses.chain (poses.predecessor callerOf) found rfl
    ⟨rfl, rfl⟩ poses.noPending poses.entry poses.initialized

theorem followsProtocol_serveOsr
    (poses : Poses before.manager rest held)
    (gives : (serveOsr context rest.size).Gives before outcome after) :
    after.manager.FollowsProtocol := by
  obtain ⟨request, result, pending, -, callerOf, -, -, settles, -⟩ :=
    gives_serveOsr poses.stands gives
  have names : pending.caller = predecessor? rest.size :=
    callerOf.trans poses.caller
  rw [settles.managed]
  by_cases outermost : rest.size = 0
  · obtain rfl := Array.eq_empty_of_size_eq_zero outermost
    exact .of_orphan rfl rfl names poses.entry poses.initialized
  · obtain ⟨lower, below, rfl⟩ := Array.eq_push_of_size_ne_zero outermost
    have waits : below.activation.Waits :=
      poses.chain.waiting lower.size below (by simp)
    have linked : below.activation.caller = predecessor? lower.size :=
      poses.chain.linked lower.size below (by simp)
    refine .of_push rfl poses.chain.below linked
      (.inr ⟨waits, pending, rfl, ?_⟩) poses.entry poses.initialized
    simp [names, predecessor?]

/-- Whatever request the top poses, serving it keeps the protocol. -/
theorem followsProtocol_serve
    (poses : Poses before.manager rest held)
    (gives : (serve context rest.size held.activation.message).Gives
      before outcome after) :
    after.manager.FollowsProtocol := by
  rcases posted : held.activation.message <;> rw [posted] at gives
  case callMethod | callMethodHandle =>
    exact followsProtocol_serveCall poses (by rw [posted]; rfl) gives
  case returnFromMethod => exact followsProtocol_serveReturn poses gives
  case moreMonitors => exact followsProtocol_serveMonitor poses gives
  case throwingException => exact followsProtocol_serveThrow poses gives
  case poppingFrame => exact followsProtocol_servePop poses gives
  case doOsr => exact followsProtocol_serveOsr poses gives
  all_goals exact (gives_fail gives).elim

end Services

section Calls

variable {outcome : StepOutcome}

/-- A top that holds a response has no replacement pending beside it. -/
theorem responds_of_top
    {rest : Array HeldActivation}
    {held : HeldActivation}
    (follows : before.manager.FollowsProtocol)
    (stands : before.manager.activations = rest.push held)
    (isResponse : held.activation.message.isResponse = true) :
    held.activation.Responds ∧ before.manager.pendingOsr = none := by
  rcases follows.top _ (top?_of_push stands) with responds | ⟨⟨isCall, -⟩, -⟩
  · exact responds
  · rw [Message.isCall_of_isResponse isResponse] at isCall
    cases isCall

/-- What the engine made of the top poses a request. -/
theorem poses_of_turn
    {engine : Engine τ}
    {rest : Array HeldActivation}
    {held : HeldActivation}
    {turn : Turn τ}
    (follows : before.manager.FollowsProtocol)
    (acts : ActsThroughActivation engine)
    (stands : before.manager.activations = rest.push held)
    (isResponse : held.activation.message.isResponse = true)
    (turned : engine.Gives
      ⟨before.own, held.activation, before.machine.stack⟩ () turn) :
    Poses
      { before.manager with
        activations := rest.push
          { held with activation := turn.workspace.activation } }
      rest { held with activation := turn.workspace.activation } := by
  obtain ⟨responds, noPending⟩ := responds_of_top follows stands isResponse
  have worked : Workspace.Worked ⟨held.activation, before.machine.stack⟩
      turn.workspace := Workspace.Worked.of_acts acts turned
  have entry := follows.entered_of_push stands
  exact {
    stands := rfl
    chain := follows.chain stands
    caller := worked.seat.caller.trans (follows.caller stands)
    fits := worked.fits responds.fits
    noPending := noPending
    entry := entry
    initialized := follows.started entry
  }

theorem followsProtocol_step
    {engine : Engine τ}
    (follows : before.manager.FollowsProtocol)
    (acts : ActsThroughActivation engine)
    (gives : (step context engine).Gives before outcome after) :
    after.manager.FollowsProtocol := by
  rw [step_eq] at gives
  obtain ⟨posted, ready, advanced, served⟩ := gives_bind.mp gives
  obtain ⟨rest, held, turn, stack, stands, isResponse, turned, -, -, rfl, -,
    managed, -⟩ := gives_advance advanced
  have poses := poses_of_turn follows acts stands isResponse turned
  rw [← managed] at poses
  exact followsProtocol_serve poses served

theorem followsProtocol_completeOsr
    {kind : ReturnKind}
    {value : List Word}
    (follows : before.manager.FollowsProtocol)
    (gives : (completeOsr context kind value).Gives before outcome after) :
    after.manager.FollowsProtocol := by
  obtain ⟨pending, isPending, -, ⟨noCaller, finished, -⟩ |
    ⟨caller, callerOf, delivered⟩⟩ := gives_completeOsr gives
  · have empty : before.manager.activations = #[] :=
      Array.eq_empty_of_size_eq_zero (follows.orphan pending isPending noCaller)
    refine followsProtocol_finishEntry ?_ ?_ finished
    · exact empty
    · rfl
  · have chain := follows.chain_of_pending isPending callerOf
    have topFound := follows.pending pending caller isPending callerOf
    have entry := follows.entered_of_pending isPending
    refine followsProtocol_returnIntoCaller ?_ ?_ ?_ ?_ ?_ delivered
    · exact chain
    · exact topFound
    · rfl
    · exact entry
    · exact follows.started entry

theorem followsProtocol_setUp
    {engine : Engine τ}
    {value : Unit}
    (follows : before.manager.FollowsProtocol)
    (gives : (setUp context engine).Gives before value after) :
    after.manager.FollowsProtocol := by
  rcases gives_setUp gives with ⟨-, rfl⟩ | ⟨-, managed⟩
  · exact follows
  · rw [managed]
    exact { follows with started := fun _ => rfl }

theorem followsProtocol_start
    {methodWord : Word}
    {arguments handles : List Word}
    {value : Unit}
    (follows : before.manager.FollowsProtocol)
    (gives : (start context methodWord arguments handles).Gives
      before value after) :
    after.manager.FollowsProtocol := by
  obtain ⟨callee, wrapper, fixed, words, argumentTop, entered, pushed, laid,
    fresh, stack, initialized, noEntry, -, -, -, -, -, -, -, pushedGives,
    freshFound, -, settles⟩ := gives_start gives
  obtain ⟨empty, noPending⟩ := follows.nothing_of_noEntry noEntry
  rw [settles.managed]
  refine followsProtocol_pushActivation ?_ ?_ ?_ ?_ ?_ pushedGives freshFound rfl
    ⟨rfl, rfl⟩
  · rw [empty]
    exact .empty
  · simp [empty, predecessor?]
  · exact noPending
  · rfl
  · exact initialized

/-- Compiled code that is gone had taken over the call of the waiting top. -/
theorem waits_of_isCall
    {rest : Array HeldActivation}
    {held : HeldActivation}
    (follows : before.manager.FollowsProtocol)
    (stands : before.manager.activations = rest.push held)
    (isCall : held.activation.message.isCall = true) :
    held.activation.Waits ∧
      withoutPendingOsr before.manager rest.size =
        { before.manager with pendingOsr := none } := by
  rcases follows.top _ (top?_of_push stands) with
    ⟨⟨isResponse, -⟩, -⟩ | ⟨waits, pending, isPending, names⟩
  · rw [Message.isCall_of_isResponse isResponse] at isCall
    cases isCall
  · have named : pending.caller = some rest.size := by
      rw [names, depth_of_push stands, Nat.add_sub_cancel]
    exact ⟨waits, by simp [withoutPendingOsr, isPending, named]⟩

theorem followsProtocol_pushDeoptimized
    {image : DeoptimizedActivation}
    {value : Unit}
    (follows : before.manager.FollowsProtocol)
    (gives : (pushDeoptimized context image).Gives before value after) :
    after.manager.FollowsProtocol := by
  obtain ⟨callee, rest, held, depth, bcp, pushed, laid, restored, initialized,
    -, stands, isCall, -, -, pushedGives, restores, settles⟩ :=
    gives_pushDeoptimized gives
  obtain ⟨fresh, filled, stack, published, monitors, freshFound, evolves, -, -,
    -, -, managed⟩ := evolves_restoreImage restores
  obtain ⟨waits, dropped⟩ := waits_of_isCall follows stands isCall
  have chain : WaitingChain before.manager.activations := by
    rw [stands]
    exact (follows.chain stands).push (follows.caller stands) waits
  have entry := follows.entered_of_push stands
  rw [settles.managed, managed]
  rw [dropped] at pushedGives
  refine followsProtocol_pushActivation ?_ ?_ ?_ ?_ ?_ pushedGives freshFound
    evolves.caller ⟨rfl, rfl⟩
  · exact chain
  · simp [stands, predecessor?]
  · rfl
  · exact entry
  · exact initialized

end Calls

end Session

/-- Between two calls the protocol is followed. -/
theorem Reached.followsProtocol
    {context : ManagerContext τ}
    {session : Session τ}
    (reached : Reached context session) :
    session.manager.FollowsProtocol := by
  induction reached with
  | fresh unused =>
      rw [unused]
      exact .of_empty rfl rfl rfl
  | idle _ _ _ _ inductionHypothesis => exact inductionHypothesis
  | call _ call acts performed follows =>
      cases call <;>
        obtain ⟨_, _, gives, ended⟩ := Operation.gives_bind.mp performed <;>
        obtain ⟨-, rfl⟩ := Operation.gives_pure.mp ended
      case setUp engine => exact Session.followsProtocol_setUp follows gives
      case start => exact Session.followsProtocol_start follows gives
      case step engine =>
        exact Session.followsProtocol_step follows acts gives
      case completeOsr =>
        exact Session.followsProtocol_completeOsr follows gives
      case pushDeoptimized =>
        exact Session.followsProtocol_pushDeoptimized follows gives

end ManagedStack
