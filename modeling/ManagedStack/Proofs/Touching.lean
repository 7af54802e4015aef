import ManagedStack.Proofs.Monitors
import ManagedStack.Proofs.Stacked

namespace ManagedStack

/-!
# What a call touches

Every call touches the chain from one position upward.  The activations below that
position stay as they are; one that is still at it is the one that was, in the same
place on the stack; and no word changes at or above a level that no activation from
the position on reaches over.  An activation that waits before a call and after it
lies below the position that the call touches.
-/

open Operation FrameManager

namespace HeldActivation

/-- The same activation at another time, in the same place. -/
structure SameFrame (before after : HeldActivation) : Prop where
  parameterSlots : after.parameterSlots = before.parameterSlots
  method : after.activation.method = before.activation.method
  locals : after.activation.locals = before.activation.locals
  maxLocals : after.activation.maxLocals = before.activation.maxLocals
  fp : after.activation.fp = before.activation.fp

namespace SameFrame

variable {before between after : HeldActivation}

theorem refl (held : HeldActivation) : SameFrame held held := by
  constructor <;> rfl

theorem trans
    (first : SameFrame before between)
    (second : SameFrame between after) :
    SameFrame before after where
  parameterSlots := second.parameterSlots.trans first.parameterSlots
  method := second.method.trans first.method
  locals := second.locals.trans first.locals
  maxLocals := second.maxLocals.trans first.maxLocals
  fp := second.fp.trans first.fp

theorem ceiling (same : SameFrame before after) :
    after.activation.ceiling = before.activation.ceiling := by
  simp only [Activation.ceiling, same.fp, same.maxLocals]

/-- An activation that evolves stays in its place. -/
theorem of_evolves
    {held : HeldActivation}
    {changed : Activation}
    {stack written : Stack}
    (evolves : Workspace.Evolves ⟨held.activation, stack⟩ ⟨changed, written⟩) :
    SameFrame held { held with activation := changed } where
  parameterSlots := rfl
  method := evolves.method
  locals := evolves.locals
  maxLocals := evolves.maxLocals
  fp := evolves.fp

end SameFrame

end HeldActivation

/-- Going down a chain the ceilings rise, and none is over the floor of the entry. -/
theorem Chained.ceilings
    {context : ManagerContext τ}
    {stack : Stack}
    {entry : EntryRecord}
    {chain : List HeldActivation}
    (chained : Chained context stack entry chain) :
    (chain.Pairwise fun upper lower =>
        upper.activation.ceiling ≤ lower.activation.ceiling) ∧
      ∀ held ∈ chain, held.activation.ceiling ≤ entry.floor := by
  induction chain with
  | nil => exact ⟨.nil, by simp⟩
  | cons held callers inductionHypothesis =>
      obtain ⟨rests, -, waiting⟩ := chained
      obtain ⟨ordered, bounded⟩ := inductionHypothesis waiting
      have within := rests.within
      cases callers with
      | nil =>
          simp only [footing] at within
          exact ⟨List.pairwise_singleton _ _, by simpa using within⟩
      | cons caller others =>
          have lower : held.activation.ceiling ≤ caller.activation.ceiling :=
            Nat.le_trans within waiting.1.sits.monitorEnd_le_ceiling
          have below : ∀ other ∈ caller :: others,
              held.activation.ceiling ≤ other.activation.ceiling := by
            intro other inside
            rcases List.mem_cons.mp inside with rfl | inOthers
            · exact lower
            · exact Nat.le_trans lower ((List.pairwise_cons.mp ordered).1 _ inOthers)
          refine ⟨List.pairwise_cons.mpr ⟨below, ordered⟩, fun other inside => ?_⟩
          rcases List.mem_cons.mp inside with rfl | inCallers
          · exact Nat.le_trans lower (bounded _ (by simp))
          · exact bounded other inCallers

namespace Session

variable {context : ManagerContext τ} {before ready after : Session τ}

/-- No activation from a position on reaches over a level. -/
def Caps
    (level position : Nat)
    (session : Session τ) :
    Prop :=
  ∀ (index : Nat) held, position ≤ index →
    session.manager.activations[index]? = some held →
      held.activation.ceiling ≤ level

/-- An activation caps all those above it. -/
theorem Stacked.caps
    {session : Session τ}
    {level position : Nat}
    (stacked : Stacked context session)
    (entered : session.manager.entry.isSome = true)
    (atPosition : ∀ held ∈ session.manager.activations[position]?,
      held.activation.ceiling ≤ level) :
    Caps level position session := by
  intro index held above found
  obtain ⟨entry, isEntry⟩ := Option.isSome_iff_exists.mp entered
  obtain ⟨ordered, -⟩ := (stacked.chained entry isEntry).ceilings
  rw [List.pairwise_reverse, List.pairwise_iff_getElem] at ordered
  obtain ⟨inside, rfl⟩ := Array.getElem?_eq_some_iff.mp found
  have present : position < session.manager.activations.size := by omega
  have atLevel := atPosition session.manager.activations[position]
    (by simp [present])
  rcases Nat.eq_or_lt_of_le above with rfl | higher
  · exact atLevel
  · have lower := ordered position index (by simpa using present)
      (by simpa using inside) higher
    simp only [Array.getElem_toList] at lower
    exact Nat.le_trans lower atLevel

/-- The entry frame caps all activations. -/
theorem Stacked.caps_floor
    {session : Session τ}
    {entry : EntryRecord}
    (stacked : Stacked context session)
    (isEntry : session.manager.entry = some entry) :
    Caps entry.floor 0 session := by
  intro index held _ found
  obtain ⟨-, bounded⟩ := (stacked.chained entry isEntry).ceilings
  obtain ⟨inside, rfl⟩ := Array.getElem?_eq_some_iff.mp found
  exact bounded _ (by simp)

/-- A call touched the chain from a position upward. -/
structure Touches
    (position : Nat)
    (before after : Session τ) :
    Prop where
  below : ∀ index < position,
    after.manager.activations[index]? = before.manager.activations[index]?
  /-- What is at the position stays in its place, and does not wait throughout. -/
  frame : ∀ former latter,
    before.manager.activations[position]? = some former →
      after.manager.activations[position]? = some latter →
        former.SameFrame latter ∧
          ¬(former.activation.message.isCall = true ∧
            latter.activation.message.isCall = true)
  /-- Before or after, the position is no lower than the top. -/
  edge : before.manager.depth ≤ position + 1 ∨
    after.manager.depth ≤ position + 1
  keeps : ∀ level, Caps level position before → Caps level position after →
    Stack.Keeps (level ≤ ·) before.machine.stack after.machine.stack
  /-- The entry frame is the same, or gone. -/
  entry : ∀ entry ∈ after.manager.entry, before.manager.entry = some entry

/-- The activation at a position waits on a call. -/
def Awaits
    (index : Nat)
    (session : Session τ) :
    Prop :=
  ∃ held, session.manager.activations[index]? = some held ∧
    held.activation.message.isCall = true

/-- What waits before and after a call lies below the position it touches. -/
theorem Touches.lt_of_awaits
    {index position : Nat}
    (touches : Touches position before after)
    (awaits : Awaits index before)
    (awaitsStill : Awaits index after) :
    index < position := by
  obtain ⟨former, found, isCall⟩ := awaits
  obtain ⟨latter, foundStill, isCallStill⟩ := awaitsStill
  obtain ⟨inBefore, -⟩ := Array.getElem?_eq_some_iff.mp found
  obtain ⟨inAfter, -⟩ := Array.getElem?_eq_some_iff.mp foundStill
  have edge := touches.edge
  unfold FrameManager.depth at edge
  rcases Nat.lt_or_ge index position with lower | higher
  · exact lower
  · obtain rfl : index = position := by omega
    exact ((touches.frame former latter found foundStill).2
      ⟨isCall, isCallStill⟩).elim

/-- An activation that is there before and after a call is the same one. -/
theorem Touches.sameFrame
    {index position : Nat}
    {former latter : HeldActivation}
    (touches : Touches position before after)
    (found : before.manager.activations[index]? = some former)
    (foundStill : after.manager.activations[index]? = some latter) :
    former.SameFrame latter := by
  obtain ⟨inBefore, -⟩ := Array.getElem?_eq_some_iff.mp found
  obtain ⟨inAfter, -⟩ := Array.getElem?_eq_some_iff.mp foundStill
  have edge := touches.edge
  unfold FrameManager.depth at edge
  rcases Nat.lt_or_ge index position with lower | higher
  · rw [touches.below index lower, found] at foundStill
    obtain rfl := Option.some.inj foundStill
    exact .refl _
  · obtain rfl : index = position := by omega
    exact (touches.frame former latter found foundStill).1

section Moves

variable {rest : Array HeldActivation} {held : HeldActivation}

/-- Dropping the top touches nothing but the top. -/
theorem touches_of_dropped
    (stands : before.manager.activations = rest.push held)
    (left : after.manager.activations = rest)
    (sameStack : after.machine.stack = before.machine.stack)
    (entry : ∀ entry ∈ after.manager.entry,
      before.manager.entry = some entry) :
    Touches rest.size before after where
  below := by
    intro index lower
    rw [left, stands, Array.getElem?_push, if_neg (by omega)]
  frame := by
    intro former latter _ there
    simp [left] at there
  edge := .inl (by simp [FrameManager.depth, stands])
  keeps := fun level _ _ => sameStack ▸ .refl _
  entry := entry

/-- Laying out a new top touches nothing below it. -/
theorem touches_of_laid
    (laid : after.manager.activations = before.manager.activations.push held)
    (keeps : Stack.Keeps (held.activation.ceiling ≤ ·)
      before.machine.stack after.machine.stack)
    (sameEntry : after.manager.entry = before.manager.entry) :
    Touches before.manager.activations.size before after where
  below := by
    intro index lower
    rw [laid, Array.getElem?_push, if_neg (by omega)]
  frame := by
    intro former latter there
    simp at there
  edge := .inl (Nat.le_succ _)
  keeps := by
    intro level _ capped
    have below := capped before.manager.activations.size held (Nat.le_refl _)
      (by simp [laid])
    exact keeps.mono fun place above => Nat.le_trans below above
  entry := by simp [sameEntry]

/-- Publishing writes between the monitors and the frame pointer. -/
theorem Publishes.keeps_beside
    {activation : Activation}
    {stack written : Stack}
    (publishes : Publishes context activation stack written)
    (x86 : context.env.layout = .x86_64)
    (sits : activation.Sits stack) :
    Stack.Keeps
      (fun place => place < activation.monitorBase.toNat ∨
        activation.fp.toNat ≤ place)
      stack written := by
  refine publishes.keeps.mono fun place beside slot same => ?_
  rw [x86] at same
  have distance := slot.distance
  have here := sits.toNat_slot (by omega : -9 ≤ slot.offset .x86_64) (by omega)
  have base := sits.monitorBase
  unfold PublishedSlot.address at same
  omega

/-- Work on an activation and its publication stay below its ceiling. -/
theorem keeps_of_published
    {former changed : Activation}
    {stack worked written : Stack}
    (x86 : context.env.layout = .x86_64)
    (sits : former.Sits stack)
    (evolves : Workspace.Evolves ⟨former, stack⟩ ⟨changed, worked⟩)
    (publishes : Publishes context changed worked written) :
    Stack.Keeps (former.ceiling ≤ ·) stack written := by
  have worksBelow := evolves.keeps sits
  have publishesBelow := publishes.keeps_beside x86 (evolves.sits sits)
  have lower := sits.monitorBase
  have monitors := sits.monitorEndLe
  have sameFp := evolves.fp
  dsimp only at worksBelow sameFp
  rw [sameFp] at publishesBelow
  refine (worksBelow.mono fun place above => ⟨?_, .inr above⟩).trans
    (publishesBelow.mono fun place above => .inr ?_) <;>
  · unfold Activation.ceiling at above
    omega

/-- A top, or what became the top, that goes on is all that is touched. -/
theorem touches_of_resumed
    {changed : Activation}
    {written stack : Stack}
    {manager : FrameManager}
    (x86 : context.env.layout = .x86_64)
    (below : ∀ index ≤ rest.size,
      before.manager.activations[index]? = (rest.push held)[index]?)
    (stands : manager.activations = rest.push held)
    (sameEntry : manager.entry = before.manager.entry)
    (sits : held.activation.Sits before.machine.stack)
    (evolves : Workspace.Evolves ⟨held.activation, before.machine.stack⟩
      ⟨changed, written⟩)
    (publishes : Publishes context changed written stack)
    (settles : Settles context after
      (manager.withActivation rest.size changed) stack)
    (goesOn : changed.message.isCall = false) :
    Touches rest.size before after := by
  have chain : after.manager.activations =
      rest.push { held with activation := changed } := by
    rw [settles.managed, withActivation_of_push stands]
  have former : before.manager.activations[rest.size]? = some held := by
    rw [below _ (Nat.le_refl _)]
    simp
  constructor
  case below =>
    intro index lower
    rw [chain, below index (by omega), Array.getElem?_push,
      Array.getElem?_push, if_neg (by omega), if_neg (by omega)]
  case frame =>
    intro one other found foundStill
    obtain rfl := Option.some.inj (former.symm.trans found)
    obtain rfl : { held with activation := changed } = other := by
      simpa [chain] using foundStill
    refine ⟨.of_evolves evolves, fun ⟨_, isCall⟩ => ?_⟩
    rw [goesOn] at isCall
    cases isCall
  case edge => exact .inr (by simp [FrameManager.depth, chain])
  case keeps =>
    intro level capped _
    have atMost := capped rest.size held (Nat.le_refl _) former
    rw [settles.stacked]
    exact (keeps_of_published x86 sits evolves publishes).mono
      fun place above => Nat.le_trans atMost above
  case entry =>
    rw [settles.managed]
    change ∀ entry ∈ manager.entry, _
    simp [sameEntry]

/-- Laying an activation out writes below its ceiling. -/
theorem keeps_of_pushActivation
    {method : Method}
    {top callerFp returnPc : Address}
    {link : Option Nat}
    {pushed : Nat}
    (x86 : context.env.layout = .x86_64)
    (gives : (pushActivation context method top callerFp returnPc link).Gives
      before pushed after)
    (topCovers : before.machine.stack.Covers top)
    (arguments : top.toNat + 8 * method.parameterSlots ≤
      before.machine.stack.base.toNat) :
    ∃ fresh,
      pushed = before.manager.activations.size ∧
        after.manager = { before.manager with
          activations :=
            before.manager.activations.push ⟨fresh, method.parameterSlots⟩ } ∧
        fresh.Sits after.machine.stack ∧
        fresh.ceiling = top.toNat + 8 * method.parameterSlots ∧
        Stack.Keeps (top.toNat ≤ ·) before.machine.stack
          after.machine.stack := by
  obtain ⟨placement, fresh, isPushed, managed, laysOut, shaped⟩ :=
    laysOut_of_pushActivation x86 gives topCovers arguments
  obtain ⟨sits, ceiling⟩ := sits_of_layout laysOut shaped
  exact ⟨fresh, isPushed, managed, sits, ceiling, keeps_of_layout laysOut⟩

/-- A callee that begins is the new top, and all above its locals is as it was. -/
theorem keeps_of_begun
    {method : Method}
    {top callerFp returnPc : Address}
    {link : Option Nat}
    {pushed : Nat}
    {laid : Session τ}
    {fresh : Activation}
    {stack : Stack}
    (x86 : context.env.layout = .x86_64)
    (pushes : (pushActivation context method top callerFp returnPc link).Gives
      before pushed laid)
    (topCovers : before.machine.stack.Covers top)
    (arguments : top.toNat + 8 * method.parameterSlots ≤
      before.machine.stack.base.toNat)
    (found : laid.manager.activation? pushed = some fresh)
    (publishes : Publishes context (resumed fresh .methodEntry)
      laid.machine.stack stack)
    (settles : Settles context after
      (laid.manager.withActivation pushed (resumed fresh .methodEntry)) stack) :
    after.manager = { before.manager with
        activations := before.manager.activations.push
          ⟨resumed fresh .methodEntry, method.parameterSlots⟩ } ∧
      fresh.ceiling = top.toNat + 8 * method.parameterSlots ∧
      Stack.Keeps (fresh.ceiling ≤ ·) before.machine.stack
        after.machine.stack := by
  obtain ⟨made, rfl, managed, sits, ceiling, keeps⟩ :=
    keeps_of_pushActivation x86 pushes topCovers arguments
  have stands : laid.manager.activations = before.manager.activations.push
      ⟨made, method.parameterSlots⟩ := by
    rw [managed]
  obtain rfl := Option.some.inj ((activation?_of_push stands).symm.trans found)
  have worked : Workspace.Worked ⟨made, laid.machine.stack⟩
      ⟨resumed made .methodEntry, laid.machine.stack⟩ :=
    Workspace.worked_resumed rfl
  have published : Stack.Keeps (made.ceiling ≤ ·) laid.machine.stack stack :=
    keeps_of_published x86 sits (.ofWorked worked) publishes
  refine ⟨?_, ceiling, ?_⟩
  · rw [settles.managed, withActivation_of_push stands, managed]
  · rw [settles.stacked]
    have below : top.toNat ≤ made.ceiling := by omega
    exact (keeps.mono fun place above => Nat.le_trans below above).trans published

end Moves

section Services

variable {entry : EntryRecord} {rest : Array HeldActivation}
  {held : HeldActivation} {outcome : StepOutcome} {middle : Session τ}

/-- A waiting activation that becomes the top and goes on is what is touched. -/
theorem touches_of_caller
    {caller : Nat}
    {waiting changed : Activation}
    {written stack : Stack}
    (x86 : context.env.layout = .x86_64)
    (same : ∀ index < middle.manager.activations.size,
      before.manager.activations[index]? = middle.manager.activations[index]?)
    (sameStack : middle.machine.stack = before.machine.stack)
    (sameEntry : middle.manager.entry = before.manager.entry)
    (atTop : predecessor? middle.manager.activations.size = some caller)
    (found : middle.manager.activation? caller = some waiting)
    (chained : Chained context middle.machine.stack entry
      middle.manager.activations.toList.reverse)
    (evolves : Workspace.Evolves ⟨waiting, middle.machine.stack⟩
      ⟨changed, written⟩)
    (publishes : Publishes context changed written stack)
    (settles : Settles context after
      (middle.manager.withActivation caller changed) stack)
    (goesOn : changed.message.isCall = false) :
    Touches caller before after := by
  have topFound : middle.manager.topIndex? = some caller := atTop
  obtain ⟨rest, held, stands, rfl⟩ := push_of_topIndex? topFound
  obtain rfl := Option.some.inj ((activation?_of_push stands).symm.trans found)
  rw [reverse_of_push stands] at chained
  rw [sameStack] at chained evolves
  refine touches_of_resumed x86 (fun index atMost => ?_) stands sameEntry
    chained.1.sits evolves publishes settles goesOn
  rw [same index (by simp [stands]; omega), stands]

theorem touches_returnIntoCaller
    {caller parameters : Nat}
    {value : List Word}
    (x86 : context.env.layout = .x86_64)
    (gives : (returnIntoCaller context caller parameters value).Gives
      middle outcome after)
    (same : ∀ index < middle.manager.activations.size,
      before.manager.activations[index]? = middle.manager.activations[index]?)
    (sameStack : middle.machine.stack = before.machine.stack)
    (sameEntry : middle.manager.entry = before.manager.entry)
    (atTop : predecessor? middle.manager.activations.size = some caller)
    (chained : Chained context middle.machine.stack entry
      middle.manager.activations.toList.reverse)
    (arguments : ∀ top ∈ middle.manager.top?,
      top.stackTop.toNat + 8 * parameters ≤ top.monitorEnd.toNat) :
    Touches caller before after := by
  obtain ⟨waiting, _, top, written, bcp, stack, found, -, -, topIs, enough,
    writes, publishes, settles, -⟩ := gives_returnIntoCaller gives
  have topFound : middle.manager.topIndex? = some caller := atTop
  obtain ⟨rest, held, stands, rfl⟩ := push_of_topIndex? topFound
  obtain rfl := Option.some.inj ((activation?_of_push stands).symm.trans found)
  have roomy := arguments _ (top?_of_push stands)
  exact touches_of_caller x86 same sameStack sameEntry atTop found chained
    (.ofWorked (Workspace.worked_returnedInto roomy topIs enough writes))
    publishes settles rfl

/-- What lies below the top is the same without the top. -/
theorem same_of_push
    (stands : before.manager.activations = rest.push held) :
    ∀ index < (before.withActivations rest).manager.activations.size,
      before.manager.activations[index]? =
        (before.withActivations rest).manager.activations[index]? := by
  intro index lower
  have inside : index < rest.size := lower
  rw [stands, Array.getElem?_push, if_neg (by omega)]
  rfl

/-- The entry frame goes without a change to the chain or to the stack. -/
theorem left_of_finishEntry
    {value : Unit}
    (gives : (finishEntry : Operation _ ProtocolError _).Gives
      before value after) :
    after.manager.activations = before.manager.activations ∧
      after.machine.stack = before.machine.stack ∧
      ∀ entry ∈ after.manager.entry, before.manager.entry = some entry := by
  rcases gives_finishEntry.mp gives with ⟨-, rfl⟩ | ⟨entry, -, rfl⟩
  · exact ⟨rfl, rfl, fun _ => id⟩
  · exact ⟨rfl, rfl, by simp [withThread]⟩

theorem touches_serveCall
    (x86 : context.env.layout = .x86_64)
    (poses : Poses before.manager rest held)
    (chained : Chained context before.machine.stack entry
      (held :: rest.toList.reverse))
    (gives : (serveCall context rest.size).Gives before outcome after) :
    Touches (rest.size + 1) before after := by
  obtain ⟨caller, call, callee, depth, pushed, laid, fresh, stack, callerFound,
    -, found, counted, enough, pushedGives, freshFound, publishes, settles, -⟩ :=
    gives_serveCall gives
  obtain rfl := Option.some.inj
    ((activation?_of_push poses.stands).symm.trans callerFound)
  have sits := chained.1.sits
  have roomy := sits.arguments_le counted enough
  obtain ⟨managed, -, keeps⟩ := keeps_of_begun x86 pushedGives sits.covers_top
    (Nat.le_trans roomy (Nat.le_trans sits.monitorEnd_le_ceiling sits.ceiling_le_base))
    freshFound publishes settles
  have laid : after.manager.activations = before.manager.activations.push
      ⟨resumed fresh .methodEntry, callee.parameterSlots⟩ := by
    rw [managed]
  have touches := touches_of_laid laid keeps (by rw [managed])
  rwa [poses.stands, Array.size_push] at touches

theorem touches_serveReturn
    (x86 : context.env.layout = .x86_64)
    (poses : Poses before.manager rest held)
    (isEntry : before.manager.entry = some entry)
    (chained : Chained context before.machine.stack entry
      (held :: rest.toList.reverse))
    (gives : (serveReturn context rest.size).Gives before outcome after) :
    ∃ position, Touches position before after := by
  obtain ⟨kind, value, -, -, -, ⟨outermost, finished, -⟩ |
    ⟨caller, callerOf, delivered⟩⟩ := gives_serveReturn poses.stands gives
  · obtain ⟨left, sameStack, entry⟩ := left_of_finishEntry finished
    exact ⟨_, touches_of_dropped poses.stands left sameStack entry⟩
  · obtain ⟨-, -, atTop⟩ := poses.below isEntry callerOf
    exact ⟨_, touches_returnIntoCaller x86 delivered (same_of_push poses.stands)
      rfl rfl atTop chained.2.2 (arguments_of_rests chained.1)⟩

theorem touches_serveMonitor
    (x86 : context.env.layout = .x86_64)
    (poses : Poses before.manager rest held)
    (chained : Chained context before.machine.stack entry
      (held :: rest.toList.reverse))
    (gives : (serveMonitor context rest.size).Gives before outcome after) :
    Touches rest.size before after := by
  obtain ⟨monitor, made, activation, stack, grows, found, publishes, settles,
    -⟩ := gives_serveMonitor gives
  have topIs := activation?_of_push poses.stands
  obtain ⟨workspace, rfl, evolves, -, -, -⟩ :=
    evolves_of_growMonitors topIs grows
  have grownIs := activation?_withActivation topIs workspace.activation
  obtain rfl := Option.some.inj (grownIs.symm.trans found)
  have answers : Workspace.Worked workspace
      ⟨resumed workspace.activation .gotMonitors, workspace.stack⟩ :=
    Workspace.worked_resumed rfl
  rw [manager_withWorkspace, withActivation_withActivation] at settles
  exact touches_of_resumed x86 (fun index _ => by rw [poses.stands])
    poses.stands rfl chained.1.sits (evolves.trans (.ofWorked answers))
    publishes settles rfl

theorem touches_serveThrow
    (x86 : context.env.layout = .x86_64)
    (poses : Poses before.manager rest held)
    (isEntry : before.manager.entry = some entry)
    (chained : Chained context before.machine.stack entry
      (held :: rest.toList.reverse))
    (gives : (serveThrow context rest.size).Gives before outcome after) :
    ∃ position, Touches position before after := by
  obtain ⟨exception, -, ⟨outermost, finished, -⟩ | ⟨caller, waiting, pushed,
    stack, callerOf, found, -, pushes, publishes, settles, -⟩⟩ :=
    gives_serveThrow poses.stands gives
  · obtain ⟨left, sameStack, entry⟩ := left_of_finishEntry finished
    exact ⟨_, touches_of_dropped poses.stands left sameStack entry⟩
  · obtain ⟨-, -, atTop⟩ := poses.below isEntry callerOf
    have worked := (Workspace.worked_push exception).of_gives pushes
    have answers : Workspace.Worked pushed
        ⟨resumed pushed.activation .rethrowException, pushed.stack⟩ :=
      Workspace.worked_resumed rfl
    have emptied : Workspace.Worked ⟨waiting, before.machine.stack⟩
        ⟨waiting.withEmptyStack, before.machine.stack⟩ :=
      Workspace.worked_withEmptyStack
    exact ⟨_, touches_of_caller x86 (same_of_push poses.stands) rfl rfl atTop
      found
      chained.2.2 (.ofWorked (emptied.trans (worked.trans answers))) publishes
      settles rfl⟩

theorem touches_servePop
    (x86 : context.env.layout = .x86_64)
    (poses : Poses before.manager rest held)
    (isEntry : before.manager.entry = some entry)
    (chained : Chained context before.machine.stack entry
      (held :: rest.toList.reverse))
    (gives : (servePop context rest.size).Gives before outcome after) :
    ∃ position, Touches position before after := by
  obtain ⟨caller, waiting, stack, callerOf, found, publishes, settles, -⟩ :=
    gives_servePop poses.stands gives
  obtain ⟨-, -, atTop⟩ := poses.below isEntry callerOf
  exact ⟨_, touches_of_caller x86 (same_of_push poses.stands) rfl rfl atTop
      found
    chained.2.2 (.ofWorked (Workspace.worked_resumed rfl)) publishes settles rfl⟩

theorem touches_serveOsr
    (poses : Poses before.manager rest held)
    (gives : (serveOsr context rest.size).Gives before outcome after) :
    Touches rest.size before after := by
  obtain ⟨request, result, pending, -, -, -, -, settles, -⟩ :=
    gives_serveOsr poses.stands gives
  exact touches_of_dropped poses.stands (by rw [settles.managed])
    settles.stacked (by simp [settles.managed])

/-- Whatever request the top poses, serving it touches the chain from a position. -/
theorem touches_serve
    (x86 : context.env.layout = .x86_64)
    (poses : Poses before.manager rest held)
    (isEntry : before.manager.entry = some entry)
    (chained : Chained context before.machine.stack entry
      (held :: rest.toList.reverse))
    (gives : (serve context rest.size held.activation.message).Gives
      before outcome after) :
    ∃ position, Touches position before after := by
  rcases posted : held.activation.message <;> rw [posted] at gives
  case callMethod | callMethodHandle =>
    exact ⟨_, touches_serveCall x86 poses chained gives⟩
  case returnFromMethod =>
    exact touches_serveReturn x86 poses isEntry chained gives
  case moreMonitors => exact ⟨_, touches_serveMonitor x86 poses chained gives⟩
  case throwingException =>
    exact touches_serveThrow x86 poses isEntry chained gives
  case poppingFrame => exact touches_servePop x86 poses isEntry chained gives
  case doOsr => exact ⟨_, touches_serveOsr poses gives⟩
  all_goals exact (gives_fail gives).elim

end Services

section Calls

variable {rest : Array HeldActivation} {held worked : HeldActivation}
  {outcome : StepOutcome}

/-- A session touches nothing of itself. -/
theorem touches_refl (session : Session τ) :
    Touches session.manager.activations.size session session where
  below := fun _ _ => rfl
  frame := by simp
  edge := .inl (Nat.le_succ _)
  keeps := fun _ _ _ => .refl _
  entry := fun _ => id

/--
Work on the top that precedes a service widens what is touched to the top.  The work
is done at the top, so that the lower position bounds both.
-/
theorem Touches.after_work
    {position : Nat}
    (touches : Touches position ready after)
    (stands : before.manager.activations = rest.push held)
    (standsReady : ready.manager.activations = rest.push worked)
    (sameEntry : ready.manager.entry = before.manager.entry)
    (same : held.SameFrame worked)
    (goesOn : held.activation.message.isCall = false)
    (keeps : Stack.Keeps (held.activation.ceiling ≤ ·)
      before.machine.stack ready.machine.stack) :
    Touches (min rest.size position) before after := by
  have lower : ∀ index < rest.size,
      ready.manager.activations[index]? = before.manager.activations[index]? := by
    intro index inside
    rw [stands, standsReady, Array.getElem?_push, Array.getElem?_push,
      if_neg (by omega), if_neg (by omega)]
  have atTop : before.manager.activations[rest.size]? = some held := by
    simp [stands]
  have atTopReady : ready.manager.activations[rest.size]? = some worked := by
    simp [standsReady]
  constructor
  case below =>
    intro index inside
    rw [touches.below index (by omega), lower index (by omega)]
  case frame =>
    intro former latter found foundStill
    rcases Nat.lt_or_ge position rest.size with below | above
    · rw [Nat.min_eq_right (by omega)] at found foundStill
      rw [← lower position below] at found
      exact touches.frame former latter found foundStill
    · rw [Nat.min_eq_left above] at found foundStill
      obtain rfl := Option.some.inj (atTop.symm.trans found)
      refine ⟨same.trans (touches.sameFrame atTopReady foundStill), fun both => ?_⟩
      rw [goesOn] at both
      cases both.1
  case edge =>
    have edge := touches.edge
    simp only [FrameManager.depth, stands, standsReady, Array.size_push] at edge ⊢
    omega
  case keeps =>
    intro level capped cappedAfter
    have atMost := capped rest.size held (Nat.min_le_left ..) atTop
    refine (keeps.mono fun place above => Nat.le_trans atMost above).trans
      (touches.keeps level ?_ ?_)
    · intro index other above found
      rcases Nat.lt_trichotomy index rest.size with below | rfl | outside
      · rw [lower index below] at found
        exact capped index other (by omega) found
      · obtain rfl := Option.some.inj (atTopReady.symm.trans found)
        rw [same.ceiling]
        exact atMost
      · obtain ⟨inside, -⟩ := Array.getElem?_eq_some_iff.mp found
        rw [standsReady, Array.size_push] at inside
        omega
    · intro index other above found
      exact cappedAfter index other (by omega) found
  case entry =>
    intro entry isEntry
    rw [← sameEntry]
    exact touches.entry entry isEntry

/-- What advancing did: the engine worked on the top, and that was published. -/
structure Advances
    (context : ManagerContext τ)
    (engine : Engine τ)
    (before ready : Session τ)
    (rest : Array HeldActivation)
    (held : HeldActivation)
    (turn : Turn τ) :
    Prop where
  stands : before.manager.activations = rest.push held
  isResponse : held.activation.message.isResponse = true
  turned : engine.Gives ⟨before.own, held.activation, before.machine.stack⟩ ()
    turn
  managed : ready.manager = { before.manager with
    activations := rest.push
      { held with activation := turn.workspace.activation } }
  publishes : Publishes context turn.workspace.activation turn.workspace.stack
    ready.machine.stack

theorem advances_of_gives
    {engine : Engine τ}
    {posted : Nat × Message}
    (gives : (advance context engine).Gives before posted ready) :
    ∃ (rest : Array HeldActivation) (held : HeldActivation) (turn : Turn τ),
      posted = (rest.size, turn.workspace.activation.message) ∧
        Advances context engine before ready rest held turn := by
  obtain ⟨rest, held, turn, stack, stands, isResponse, turned, -, publishes,
    isPosted, -, managed, rfl⟩ := gives_advance gives
  exact ⟨rest, held, turn, isPosted, stands, isResponse, turned, managed,
    publishes⟩

namespace Advances

variable {engine : Engine τ} {turn : Turn τ}

/-- The engine leaves the activation in its seat. -/
theorem works
    (advances : Advances context engine before ready rest held turn)
    (acts : ActsThroughActivation engine) :
    Workspace.Worked ⟨held.activation, before.machine.stack⟩ turn.workspace :=
  .of_acts acts advances.turned

theorem sameFrame
    (advances : Advances context engine before ready rest held turn)
    (acts : ActsThroughActivation engine) :
    held.SameFrame { held with activation := turn.workspace.activation } :=
  .of_evolves (.ofWorked (advances.works acts))

/-- What the engine posted is served next. -/
theorem poses
    (advances : Advances context engine before ready rest held turn)
    (follows : before.manager.FollowsProtocol)
    (acts : ActsThroughActivation engine) :
    Poses ready.manager rest
      { held with activation := turn.workspace.activation } := by
  rw [advances.managed]
  exact poses_of_turn follows acts advances.stands advances.isResponse
    advances.turned

section Stacked

variable {entry : EntryRecord}

/-- The top sits on the stack before the engine runs. -/
theorem rests
    (advances : Advances context engine before ready rest held turn)
    (stacked : Stacked context before)
    (isEntry : before.manager.entry = some entry) :
    Rests context before.machine.stack entry held rest.toList.reverse ∧
      Chained context before.machine.stack entry rest.toList.reverse := by
  have chained := stacked.chained entry isEntry
  rw [reverse_of_push advances.stands] at chained
  exact ⟨chained.1, chained.2.2⟩

/-- The work of the engine and its publication stay below the ceiling. -/
theorem keeps
    (advances : Advances context engine before ready rest held turn)
    (x86 : context.env.layout = .x86_64)
    (stacked : Stacked context before)
    (isEntry : before.manager.entry = some entry)
    (acts : ActsThroughActivation engine) :
    Stack.Keeps (held.activation.ceiling ≤ ·)
      before.machine.stack ready.machine.stack :=
  keeps_of_published x86 (advances.rests stacked isEntry).1.sits
    (.ofWorked (advances.works acts)) advances.publishes

/-- The chain stays on the stack. -/
theorem chained
    (advances : Advances context engine before ready rest held turn)
    (x86 : context.env.layout = .x86_64)
    (stacked : Stacked context before)
    (isEntry : before.manager.entry = some entry)
    (acts : ActsThroughActivation engine) :
    Chained context ready.machine.stack entry
      ({ held with activation := turn.workspace.activation } ::
        rest.toList.reverse) := by
  obtain ⟨rests, waiting⟩ := advances.rests stacked isEntry
  have worked := advances.works acts
  obtain ⟨restsAfter, waitingAfter⟩ :=
    rests.of_evolves waiting (.ofWorked worked) (.ofWorked worked)
  exact restsAfter.chained_of_publishes waitingAfter x86 advances.publishes

end Stacked

end Advances

theorem touches_step
    {engine : Engine τ}
    (x86 : context.env.layout = .x86_64)
    (follows : before.manager.FollowsProtocol)
    (stacked : Stacked context before)
    (acts : ActsThroughActivation engine)
    (gives : (step context engine).Gives before outcome after) :
    ∃ position, Touches position before after := by
  rw [step_eq] at gives
  obtain ⟨posted, ready, advanced, served⟩ := gives_bind.mp gives
  obtain ⟨rest, held, turn, rfl, advances⟩ := advances_of_gives advanced
  have poses := advances.poses follows acts
  obtain ⟨entry, isEntry⟩ := Option.isSome_iff_exists.mp poses.entry
  have isEntryBefore : before.manager.entry = some entry := by
    rw [advances.managed] at isEntry
    exact isEntry
  obtain ⟨position, touches⟩ := touches_serve x86 poses isEntry
    (advances.chained x86 stacked isEntryBefore acts) served
  exact ⟨_, touches.after_work advances.stands poses.stands
    (by rw [advances.managed]) (advances.sameFrame acts)
    (Message.isCall_of_isResponse advances.isResponse)
    (advances.keeps x86 stacked isEntryBefore acts)⟩

theorem touches_completeOsr
    {kind : ReturnKind}
    {value : List Word}
    (x86 : context.env.layout = .x86_64)
    (follows : before.manager.FollowsProtocol)
    (stacked : Stacked context before)
    (gives : (completeOsr context kind value).Gives before outcome after) :
    ∃ position, Touches position before after := by
  obtain ⟨pending, isPending, -, ⟨noCaller, finished, -⟩ |
    ⟨caller, callerOf, delivered⟩⟩ := gives_completeOsr gives
  · obtain ⟨left, sameStack, entry⟩ := left_of_finishEntry finished
    refine ⟨0, by simp, fun former latter found => ?_, .inl ?_,
      fun level _ _ => sameStack ▸ .refl _, entry⟩
    · have empty := follows.orphan pending isPending noCaller
      obtain ⟨inside, -⟩ := Array.getElem?_eq_some_iff.mp found
      unfold FrameManager.depth at empty
      omega
    · rw [follows.orphan pending isPending noCaller]
      omega
  · have topFound := follows.pending pending caller isPending callerOf
    obtain ⟨entry, isEntry⟩ :=
      Option.isSome_iff_exists.mp (follows.entered_of_pending isPending)
    have chained := stacked.chained entry isEntry
    have arguments := stacked.pending pending isPending
    exact ⟨caller, touches_returnIntoCaller x86 delivered (fun _ _ => rfl) rfl
      rfl topFound chained arguments⟩

/--
Filling a fresh activation from an image stays below its ceiling.  Owners are words of
monitors, and these end where the frame begins.
-/
theorem keeps_of_restoreImage
    {index : Nat}
    {fresh : Activation}
    {bcp : Address}
    {image : DeoptimizedActivation}
    {value : Unit}
    (x86 : context.env.layout = .x86_64)
    (gives : (restoreImage context index bcp image).Gives before value after)
    (found : before.manager.activation? index = some fresh)
    (sits : fresh.Sits before.machine.stack) :
    ∃ filled, after.manager = before.manager.withActivation index filled ∧
      filled.ceiling = fresh.ceiling ∧
      Stack.Keeps (fresh.ceiling ≤ ·) before.machine.stack
        after.machine.stack := by
  obtain ⟨_, filled, stack, published, monitors, sameFound, evolves, publishes,
    owns, monitorPlaces, -, managed⟩ := evolves_restoreImage gives
  obtain rfl := Option.some.inj (found.symm.trans sameFound)
  have answers : Workspace.Worked ⟨filled, stack⟩
      ⟨resumed { filled with bcp := bcp } .deoptResume, stack⟩ :=
    Workspace.worked_resumed_at rfl
  have whole := evolves.trans (.ofWorked answers)
  have filledKeeps := keeps_of_published x86 sits whole publishes
  obtain ⟨-, ownKeeps⟩ := writes_writeOwners _ _ _ _ owns
  refine ⟨_, managed, ?_, filledKeeps.trans (ownKeeps.mono ?_)⟩
  · have sameFp := evolves.fp
    have sameMax := evolves.maxLocals
    simp only [Activation.ceiling, resumed] at sameFp sameMax ⊢
    rw [sameFp, sameMax]
  · rintro place above _ ⟨owned, isOwned, rfl⟩ same
    have below := (monitorPlaces sits owned.1 (List.of_mem_zip isOwned).1).2
    have highest := sits.monitorEnd_le_ceiling
    have inside := sits.ceiling_le_base
    have small := before.machine.stack.base.toNat_lt
    have moved := Frame.toNat_monitorOwner owned.1 (by omega)
    omega

theorem touches_pushDeoptimized
    {image : DeoptimizedActivation}
    {value : Unit}
    (x86 : context.env.layout = .x86_64)
    (follows : before.manager.FollowsProtocol)
    (stacked : Stacked context before)
    (gives : (pushDeoptimized context image).Gives before value after) :
    Touches before.manager.activations.size before after := by
  obtain ⟨callee, rest, held, depth, bcp, pushed, laid, restored, -, found,
    stands, isCall, counted, enough, pushedGives, restores, settles⟩ :=
    gives_pushDeoptimized gives
  obtain ⟨-, dropped⟩ := waits_of_isCall follows stands isCall
  rw [dropped] at pushedGives
  obtain ⟨entry, -, chained⟩ := stacked.exists_chained follows stands
  have sits := chained.1.sits
  have roomy := sits.arguments_le counted enough
  have inside : held.activation.stackTop.toNat + 8 * callee.parameterSlots ≤
      before.machine.stack.base.toNat :=
    Nat.le_trans roomy
      (Nat.le_trans sits.monitorEnd_le_ceiling sits.ceiling_le_base)
  obtain ⟨made, isPushed, laidManaged, madeSits, ceiling, keeps⟩ :=
    keeps_of_pushActivation x86 pushedGives sits.covers_top inside
  have pushedIs : pushed = before.manager.activations.size := isPushed
  have laidStands : laid.manager.activations =
      before.manager.activations.push ⟨made, callee.parameterSlots⟩ := by
    rw [laidManaged]
  rw [pushedIs] at restores
  obtain ⟨filled, managed, sameCeiling, filledKeeps⟩ := keeps_of_restoreImage x86
    restores (activation?_of_push laidStands) madeSits
  have laidOn : after.manager.activations =
      before.manager.activations.push ⟨filled, callee.parameterSlots⟩ := by
    rw [settles.managed, managed, withActivation_of_push laidStands]
  have below : held.activation.stackTop.toNat ≤ made.ceiling := by omega
  refine touches_of_laid laidOn ?_ ?_
  · rw [settles.stacked]
    simp only [sameCeiling]
    exact (keeps.mono fun place above => Nat.le_trans below above).trans
      filledKeeps
  · rw [settles.managed, managed, withActivation_of_push laidStands, laidManaged]

/-- Every call that succeeds touches the chain from some position upward. -/
theorem touches_call
    {call : Call τ}
    {result : Option StepOutcome}
    (x86 : context.env.layout = .x86_64)
    (follows : before.manager.FollowsProtocol)
    (stacked : Stacked context before)
    (entered : before.manager.entry.isSome = true)
    (acts : call.Acts)
    (performed : (call.perform context).Gives before result after) :
    ∃ position, Touches position before after := by
  cases call <;>
    obtain ⟨_, _, gives, ended⟩ := gives_bind.mp performed <;>
    obtain ⟨-, rfl⟩ := gives_pure.mp ended
  case setUp engine =>
    rcases gives_setUp gives with ⟨-, rfl⟩ | ⟨unset, -⟩
    · exact ⟨_, touches_refl _⟩
    · rw [follows.started entered] at unset
      cases unset
  case start =>
    obtain ⟨_, _, _, _, _, _, _, _, _, _, -, noEntry, -⟩ := gives_start gives
    rw [noEntry] at entered
    cases entered
  case step engine => exact touches_step x86 follows stacked acts gives
  case completeOsr => exact touches_completeOsr x86 follows stacked gives
  case pushDeoptimized =>
    exact ⟨_, touches_pushDeoptimized x86 follows stacked gives⟩

end Calls

end Session

end ManagedStack
