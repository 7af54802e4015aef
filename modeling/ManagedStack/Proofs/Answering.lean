import ManagedStack.Proofs.Expecting

namespace ManagedStack

/-!
# What answers a call

A call lays out the method that it names, and an activation of that method answers it.  But
an activation can leave for compiled code, and an image that comes back in its place may be
of any method that the caller has arguments enough for.  How many words are taken from the
caller, and of which kind its result is, goes by the method that was laid out last.
-/

open Operation FrameManager

section Entries

variable {stack after : Stack} {activation : Activation} {entries now : List Word}

/-- Entries whose words are kept are the same at any later time. -/
theorem Activation.HoldsEntries.drop_eq_of_keeps
    {deep : Nat}
    (holds : activation.HoldsEntries stack entries)
    (holdsNow : activation.HoldsEntries after now)
    (sits : activation.Sits stack)
    (sitsNow : activation.Sits after)
    (keeps : Stack.Keeps (activation.stackTop.toNat + 8 * deep ≤ ·) stack after) :
    now.drop deep = entries.drop deep := by
  obtain ⟨extent, words⟩ := sits.holdsEntries_iff.mp holds
  obtain ⟨extentNow, wordsNow⟩ := sitsNow.holdsEntries_iff.mp holdsNow
  refine List.ext_getElem? fun index => ?_
  rw [List.getElem?_drop, List.getElem?_drop]
  by_cases inside : deep + index < entries.length
  · have insideNow : deep + index < now.length := by omega
    have kept := keeps.holds (words (deep + index) _ (List.getElem?_eq_getElem inside))
      (by rw [toNat_entry (by omega)]; omega)
    have found := wordsNow (deep + index) _ (List.getElem?_eq_getElem insideNow)
    rw [List.getElem?_eq_getElem inside, List.getElem?_eq_getElem insideNow,
      found.unique kept]
  · rw [List.getElem?_eq_none (by omega), List.getElem?_eq_none (by omega)]

/-- What sits in one place has as many entries at any time. -/
theorem Activation.HoldsEntries.length_eq
    (holds : activation.HoldsEntries stack entries)
    (holdsNow : activation.HoldsEntries after now)
    (sits : activation.Sits stack)
    (sitsNow : activation.Sits after) :
    now.length = entries.length := by
  have extent := (sits.holdsEntries_iff.mp holds).1
  have extentNow := (sitsNow.holdsEntries_iff.mp holdsNow).1
  omega

/-- Words that are read from the top on are the uppermost entries. -/
theorem Activation.HoldsEntries.eq_append_of_readAll
    {count : Nat}
    {value : List Word}
    (holds : activation.HoldsEntries stack entries)
    (sits : activation.Sits stack)
    (enough : count ≤ entries.length)
    (read : (stack.readAll activation.stackTop count).Gives value) :
    entries = value ++ entries.drop count := by
  obtain ⟨-, words⟩ := sits.holdsEntries_iff.mp holds
  have uppermost : (stack.readAll activation.stackTop count).Gives (entries.take count) := by
    refine Stack.gives_readAll.mpr ⟨List.length_take_of_le enough, fun index word found => ?_⟩
    have inside := (List.getElem?_eq_some_iff.mp found).1
    rw [List.length_take] at inside
    rw [List.getElem?_take_of_lt (by omega)] at found
    exact words index word found
  rw [read.unique uppermost, List.take_append_drop]

end Entries

namespace Session

variable {context : ManagerContext τ} {before after : Session τ}

/-- What goes on with a result, or was replaced, had asked for that. -/
theorem message_of_serve
    {rest : Array HeldActivation}
    {held : HeldActivation}
    {message : Message}
    {outcome : StepOutcome}
    (stands : before.manager.activations = rest.push held)
    (gives : (serve context rest.size message).Gives before outcome after) :
    (∀ depth, outcome = .resumed depth .methodResume → message = .returnFromMethod) ∧
      ∀ result, outcome = .onStackReplaced result → message = .doOsr := by
  cases message with
  | callMethod | callMethodHandle =>
      obtain ⟨_, _, _, _, _, _, _, _, -, -, -, -, -, -, -, -, -, rfl⟩ := gives_serveCall gives
      simp
  | returnFromMethod =>
      obtain ⟨_, _, -, -, -, ⟨-, -, rfl⟩ | ⟨_, -, returns⟩⟩ := gives_serveReturn stands gives
      · simp
      · rw [outcome_of_returnIntoCaller returns]
        simp
  | moreMonitors =>
      obtain ⟨_, _, _, _, -, -, -, -, rfl⟩ := gives_serveMonitor gives
      simp
  | throwingException =>
      obtain ⟨_, -, ⟨-, -, rfl⟩ | ⟨_, _, _, _, -, -, -, -, -, -, rfl⟩⟩ :=
        gives_serveThrow stands gives <;>
        simp
  | poppingFrame =>
      obtain ⟨_, _, _, -, -, -, -, rfl⟩ := gives_servePop stands gives
      simp
  | doOsr =>
      obtain ⟨_, _, _, -, -, -, -, -, rfl⟩ := gives_serveOsr stands gives
      simp
  | _ => exact (gives_fail gives).elim

end Session

section Answers

variable {context : ManagerContext τ} {before after : Session τ} {index : Nat}
  {method : Method} {call : Call τ} {outcome : Option StepOutcome}

/-- An activation that left for compiled code was the top, and its caller is on record. -/
theorem Call.replaces_of_gives
    {result : OsrResult}
    (reached : Reached context before)
    (acts : call.Acts)
    (performed : (call.perform context).Gives before (some (.onStackReplaced result))
      after) :
    ∃ (rest : Array HeldActivation) (held : HeldActivation) (method : Method),
      before.manager.activations = rest.push held ∧
        context.env.methods.find? held.activation.method = some method ∧
        after.manager.activations = rest ∧
        after.manager.pendingOsr = some
          ⟨predecessor? rest.size, held.parameterSlots, .ofType method.resultType⟩ := by
  rcases Call.step_or_completeOsr performed with ⟨engine, rfl, gives⟩ | ⟨_, _, rfl, gives⟩
  · rw [Session.step_eq] at gives
    obtain ⟨_, _, advanced, served⟩ := gives_bind.mp gives
    obtain ⟨rest, held, turn, rfl, advances⟩ := Session.advances_of_gives advanced
    have poses := advances.poses reached.followsProtocol acts
    have asked := (Session.message_of_serve poses.stands served).2 result rfl
    rw [asked] at served
    obtain ⟨_, _, ⟨caller, slots, kind⟩, -, callerOf, parameters, ⟨method, found, declared⟩,
      settles, -⟩ := Session.gives_serveOsr poses.stands served
    have same := (advances.sameFrame acts).method
    obtain rfl : caller = predecessor? rest.size := callerOf.trans poses.caller
    obtain rfl : slots = held.parameterSlots := parameters
    obtain rfl : kind = .ofType method.resultType := declared
    exact ⟨rest, held, method, advances.stands, same ▸ found, by rw [settles.managed],
      by rw [settles.managed]⟩
  · obtain ⟨_, -, -, ⟨-, -, impossible⟩ | ⟨_, -, returns⟩⟩ := Session.gives_completeOsr gives
    · cases impossible
    · cases Session.outcome_of_returnIntoCaller returns

/-- Every activation sits on the stack. -/
theorem Reached.sits
    {held : HeldActivation}
    (reached : Reached context before)
    (x86 : context.env.layout = .x86_64)
    (found : before.manager.activations[index]? = some held) :
    held.activation.Sits before.machine.stack := by
  obtain ⟨entry, isEntry⟩ := Option.isSome_iff_exists.mp (reached.entered found)
  exact ((reached.stacked x86).rests_at isEntry found).1.sits

/-- An activation takes as many words from its caller as its method has parameters. -/
theorem Reached.parameterSlots_eq
    {held : HeldActivation}
    (x86 : context.env.layout = .x86_64)
    (reached : Reached context before)
    (found : before.manager.activations[index]? = some held)
    (runs : context.env.methods.find? held.activation.method = some method) :
    held.parameterSlots = method.parameterSlots := by
  obtain ⟨entry, isEntry⟩ := Option.isSome_iff_exists.mp (reached.entered found)
  obtain ⟨other, otherFound, parameters, -⟩ :=
    ((reached.stacked x86).rests_at isEntry found).1.runs
  obtain rfl := Option.some.inj (runs.symm.trans otherFound)
  exact parameters

/--
What is to answer an activation: another one of the method, or compiled code that took the
place of such a one.
-/
inductive Session.AnsweredBy
    (context : ManagerContext τ)
    (index : Nat)
    (method : Method)
    (session : Session τ) :
    Prop where
  | activation
      {held : HeldActivation}
      (found : session.manager.activations[index + 1]? = some held)
      (runs : context.env.methods.find? held.activation.method = some method)
  | compiled
      (onTop : session.manager.depth = index + 1)
      (isPending : session.manager.pendingOsr =
        some ⟨some index, method.parameterSlots, .ofType method.resultType⟩)

namespace Session.AnsweredBy

/-- A waiting activation gives no more words away than what answers it takes. -/
theorem waitsFor
    {most : Nat}
    (answered : before.AnsweredBy context index method)
    (x86 : context.env.layout = .x86_64)
    (reached : Reached context before)
    (awaits : Awaits index before)
    (atMost : method.parameterSlots ≤ most) :
    WaitsFor index most before where
  awaits := awaits
  taken callee isCallee := by
    cases answered with
    | activation found runs =>
        obtain rfl := Option.some.inj (found.symm.trans isCallee)
        exact reached.parameterSlots_eq x86 found runs ▸ atMost
    | compiled onTop _ =>
        rw [Array.getElem?_eq_none (by simp [← onTop, depth])] at isCallee
        cases isCallee

/-- What answers an activation takes words that this one has. -/
theorem arguments_le
    {caller : HeldActivation}
    (answered : before.AnsweredBy context index method)
    (x86 : context.env.layout = .x86_64)
    (reached : Reached context before)
    (found : before.manager.activations[index]? = some caller) :
    caller.activation.stackTop.toNat + 8 * method.parameterSlots ≤
      caller.activation.monitorEnd.toNat := by
  have stacked := reached.stacked x86
  cases answered with
  | @activation held foundAbove runs =>
      obtain ⟨entry, isEntry⟩ := Option.isSome_iff_exists.mp (reached.entered found)
      have rests := (stacked.rests_at isEntry foundAbove).1
      rw [← Array.getElem?_toList] at found
      rw [List.take_add_one, found, Option.toList_some, List.reverse_concat] at rests
      rw [← reached.parameterSlots_eq x86 foundAbove runs]
      exact rests.arguments_le
  | compiled onTop isPending =>
      have isTop : before.manager.topIndex? = some index := by simp [topIndex?, onTop]
      obtain ⟨rest, top, stands, rfl⟩ := push_of_topIndex? isTop
      rw [stands, Array.getElem?_push_size] at found
      obtain rfl := Option.some.inj found
      exact stacked.pending _ isPending _ (top?_of_push stands)

/-- On a waiting top nothing is laid out, and compiled code answers it. -/
theorem exists_pending_of_top
    (reached : Reached context before)
    (awaits : Awaits index before)
    (onTop : before.manager.depth = index + 1) :
    ∃ pending, before.manager.pendingOsr = some pending ∧ pending.caller = some index := by
  obtain ⟨waiting, found, isCall⟩ := awaits
  have top : before.manager.top? = some waiting.activation := by
    rw [top?, Array.back?_eq_getElem?, show before.manager.activations.size - 1 = index by
      have := onTop
      unfold depth at this
      omega, found]
    rfl
  rcases reached.followsProtocol.top _ top with ⟨responds, -⟩ | ⟨-, pending, isPending, callerOf⟩
  · rw [Message.isCall_of_isResponse responds.1] at isCall
    cases isCall
  · exact ⟨pending, isPending, by rw [callerOf, onTop]; rfl⟩

/-- When an activation is gone and what it answers still waits, it left for compiled code. -/
theorem of_left
    {held : HeldActivation}
    (x86 : context.env.layout = .x86_64)
    (reached : Reached context before)
    (found : before.manager.activations[index + 1]? = some held)
    (runs : context.env.methods.find? held.activation.method = some method)
    (acts : call.Acts)
    (performed : (call.perform context).Gives before outcome after)
    (awaitsStill : Awaits index after)
    (left : after.manager.depth ≤ index + 1) :
    after.AnsweredBy context index method := by
  have inside := (Array.getElem?_eq_some_iff.mp found).1
  have onTop : after.manager.depth = index + 1 := by
    obtain ⟨_, waits, -⟩ := awaitsStill
    exact Nat.le_antisymm left (Array.getElem?_eq_some_iff.mp waits).1
  obtain ⟨pending, isPending, callerOf⟩ :=
    exists_pending_of_top (reached.call call acts performed) awaitsStill onTop
  rcases call.expectsOnlyReplaced context before with ⟨result, replaced, gives⟩ | leaves
  · obtain rfl : replaced = after := gives.2.symm.trans performed.2
    obtain ⟨rest, top, other, stands, runsToo, rfl, isRecord⟩ :=
      Call.replaces_of_gives reached acts gives
    change replaced.manager.activations.size = index + 1 at onTop
    rw [stands, ← onTop, Array.getElem?_push_size] at found
    obtain rfl := Option.some.inj found
    obtain rfl := Option.some.inj (runs.symm.trans runsToo)
    have parameters := reached.parameterSlots_eq x86
      (by rw [stands, Array.getElem?_push_size]) runs
    rw [onTop, parameters] at isRecord
    exact .compiled onTop isRecord
  · exfalso
    rcases leaves.of_gives performed with same | gone
    · rw [same] at isPending
      have isTop := reached.followsProtocol.pending pending index isPending callerOf
      obtain ⟨rest, _, stands, rfl⟩ := push_of_topIndex? isTop
      rw [stands, Array.size_push] at inside
      omega
    · rw [gone] at isPending
      cases isPending

/-- An activation that compiled code has answered waits no more. -/
theorem not_awaits_of_result
    {pending : PendingOsr}
    {value : List Word}
    (reached : Reached context before)
    (onTop : before.manager.depth = index + 1)
    (isPending : before.manager.pendingOsr = some pending)
    (callerOf : pending.caller = some index)
    (counted : value.length = pending.kind.words)
    (performed : ((Call.completeOsr pending.kind value).perform context).Gives before outcome
      after) :
    ¬Awaits index after := by
  intro awaits
  have gone := ((Call.Takes.result counted).leaves reached isPending).of_gives performed
  obtain ⟨_, _, gives, ended⟩ := gives_bind.mp performed
  obtain ⟨-, rfl⟩ := gives_pure.mp ended
  obtain ⟨_, isPendingToo, -, ended⟩ := gives_completeOsr gives
  obtain rfl := Option.some.inj (isPending.symm.trans isPendingToo)
  rcases ended with ⟨noCaller, -⟩ | ⟨_, -, returns⟩
  · rw [callerOf] at noCaller
    cases noCaller
  obtain ⟨_, _, _, _, _, _, -, -, -, -, -, -, -, settles, -⟩ := gives_returnIntoCaller returns
  have onTopStill : after.manager.depth = index + 1 := by
    rw [settles.managed, depth_withActivation]
    exact onTop
  obtain ⟨_, pendingStill, -⟩ := exists_pending_of_top
    (reached.call (.completeOsr pending.kind value) trivial performed) awaits onTopStill
  rw [gone] at pendingStill
  cases pendingStill

/-- What is to answer an activation stays the same while that waits and gets no image. -/
theorem of_call
    (answered : before.AnsweredBy context index method)
    (x86 : context.env.layout = .x86_64)
    (reached : Reached context before)
    (acts : call.Acts)
    (performed : (call.perform context).Gives before outcome after)
    (awaitsStill : Awaits index after)
    (noImage : before.manager.depth = index + 1 → ∀ image, call ≠ .pushDeoptimized image) :
    after.AnsweredBy context index method := by
  cases answered with
  | @activation held found runs =>
      rcases Nat.lt_or_ge (index + 1) after.manager.depth with stays | left
      · obtain ⟨_, touches⟩ := touches_call x86 reached.followsProtocol (reached.stacked x86)
          (reached.entered found) acts performed
        have foundStill : after.manager.activations[index + 1]? = some _ :=
          Array.getElem?_eq_getElem stays
        have same := (touches.sameFrame found foundStill).method
        exact .activation foundStill (same ▸ runs)
      · exact of_left x86 reached found runs acts performed awaitsStill left
  | compiled onTop isPending =>
      by_cases takes : call.Takes context
        ⟨some index, method.parameterSlots, .ofType method.resultType⟩ before
      · cases takes with
        | image admitted => exact absurd rfl (noImage onTop _)
        | result counted =>
            exact absurd awaitsStill
              (not_awaits_of_result reached onTop isPending rfl counted performed)
      · rcases call.leaves_of_not_takes reached isPending takes with ⟨-, same⟩ | declines
        · obtain rfl : before = after := same.2.symm.trans performed.2
          exact .compiled onTop isPending
        · exact absurd performed (declines.1 _ _)

/-- An image becomes an activation of its method. -/
theorem of_rebuilt
    {image : DeoptimizedActivation}
    (x86 : context.env.layout = .x86_64)
    (reached : Reached context before)
    (found : context.env.methods.find? image.method = some method)
    (performed : ((Call.pushDeoptimized image).perform context).Gives before outcome after)
    (onTop : before.manager.depth = index + 1) :
    index + 1 < after.manager.depth ∧ after.AnsweredBy context index method := by
  obtain ⟨_, _, rebuilds, ended⟩ := gives_bind.mp performed
  obtain ⟨-, rfl⟩ := gives_pure.mp ended
  obtain ⟨callee, rest, held, bcp, laid, restored, parts⟩ := exists_rebuildsFrom rebuilds
  obtain rfl := Option.some.inj (parts.found.symm.trans found)
  obtain ⟨placement, stack, fresh, -, shaped, laidIs⟩ :=
    parts.toSeatedFor.exists_layout x86 reached
  obtain ⟨made, filled, _, _, _, isMade, evolves, -, -, -, -, managed⟩ :=
    evolves_restoreImage parts.restores
  have laidStands : laid.manager.activations =
      before.manager.activations.push ⟨fresh, callee.parameterSlots⟩ := by
    rw [laidIs]
  obtain rfl := Option.some.inj ((activation?_of_push laidStands).symm.trans isMade)
  have runs : filled.method = callee.id := by
    obtain ⟨_, _, -, shape⟩ := Activation.ofShape_eq_ok shaped
    exact evolves.method.trans (congrArg Activation.method shape)
  have stands : after.manager.activations = before.manager.activations.push
      ⟨resumed { filled with bcp := bcp } .deoptResume, callee.parameterSlots⟩ := by
    rw [parts.managed, managed]
    exact congrArg FrameManager.activations (withActivation_of_push laidStands _)
  have isTop : after.manager.activations[index + 1]? =
      some ⟨resumed { filled with bcp := bcp } .deoptResume, callee.parameterSlots⟩ := by
    rw [stands, ← onTop]
    exact Array.getElem?_push_size
  refine ⟨(Array.getElem?_eq_some_iff.mp isTop).1, .activation isTop ?_⟩
  change context.env.methods.find? filled.method = some callee
  rw [runs]
  exact MethodTable.find?_id found

end Session.AnsweredBy

end Answers

/--
The methods that were laid out to answer the call of an activation, the last one first, while
the activation waits.
-/
inductive Answering
    (context : ManagerContext τ)
    (index : Nat)
    (caller : HeldActivation)
    (call : CallRequest)
    (posted : Session τ) :
    List Method → Session τ → Prop where
  /-- The call lays out the method that it names. -/
  | called
      {served : Session τ}
      {callee : Method}
      (calls : CallStep context index caller call posted served)
      (found : context.env.methods.find? call.callee = some callee) :
      Answering context index caller call posted [callee] served
  /-- The activation waits through another call to the manager. -/
  | later
      {methods : List Method}
      {before after : Session τ}
      {outcome : Option StepOutcome}
      (answering : Answering context index caller call posted methods before)
      (next : Call τ)
      (acts : next.Acts)
      (performed : (next.perform context).Gives before outcome after)
      (awaits : Session.Awaits index after)
      (noImage : before.manager.depth = index + 1 → ∀ image, next ≠ .pushDeoptimized image) :
      Answering context index caller call posted methods after
  /-- An image of some method is put on the activation. -/
  | rebuilt
      {methods : List Method}
      {before after : Session τ}
      {outcome : Option StepOutcome}
      {image : DeoptimizedActivation}
      {method : Method}
      (answering : Answering context index caller call posted methods before)
      (onTop : before.manager.depth = index + 1)
      (found : context.env.methods.find? image.method = some method)
      (performed : ((Call.pushDeoptimized image).perform context).Gives before outcome after) :
      Answering context index caller call posted (method :: methods) after

section Waiting

variable {context : ManagerContext τ} {index : Nat} {caller : HeldActivation}
  {call : CallRequest} {posted served session last : Session τ} {callee : Method}
  {methods : List Method}

/-- As long as an activation waits, some methods are laid out for its call. -/
theorem CallStep.exists_answering
    (calls : CallStep context index caller call posted served)
    (found : context.env.methods.find? call.callee = some callee)
    (leads : Leads context (Session.Awaits index) served last)
    (awaits : Session.Awaits index last) :
    ∃ methods, Answering context index caller call posted methods last := by
  induction leads with
  | refl => exact ⟨[callee], .called calls found⟩
  | @call before _ _ _ holds next acts performed inductionHypothesis =>
      obtain ⟨methods, answering⟩ := inductionHypothesis holds
      by_cases image : before.manager.depth = index + 1 ∧ ∃ image, next = .pushDeoptimized image
      · obtain ⟨onTop, image, rfl⟩ := image
        obtain ⟨_, _, rebuilds, -⟩ := gives_bind.mp performed
        obtain ⟨method, _, _, _, _, _, parts⟩ := Session.exists_rebuildsFrom rebuilds
        exact ⟨method :: methods, .rebuilt answering onTop parts.found performed⟩
      · exact ⟨methods, .later answering next acts performed awaits
          fun onTop other same => image ⟨onTop, other, same⟩⟩

/-- Whatever lies below another activation waits. -/
theorem Reached.awaits_of_lt
    (reached : Reached context session)
    (below : index + 1 < session.manager.depth) :
    Session.Awaits index session := by
  have found : session.manager.activations[index]? = some _ :=
    Array.getElem?_eq_getElem (Nat.lt_of_succ_lt below)
  exact ⟨_, found, (reached.followsProtocol.waiting index _ found below).1⟩

/-- What is known of a session in which an activation waits for methods that were laid out. -/
structure Session.Attended
    (context : ManagerContext τ)
    (index : Nat)
    (caller : HeldActivation)
    (methods : List Method)
    (posted session : Session τ) :
    Prop where
  reached : Reached context session
  awaits : Awaits index session
  /-- Neither the activation has changed since, nor those below it. -/
  below : ∀ position ≤ index,
    session.manager.activations[position]? = posted.manager.activations[position]?
  arguments : ∀ method ∈ methods,
    caller.activation.stackTop.toNat + 8 * method.parameterSlots ≤
      caller.activation.monitorEnd.toNat
  answered : ∃ method ∈ methods.head?, session.AnsweredBy context index method

/-- What an activation waits through does not touch it. -/
theorem Session.Attended.below_of_call
    {after : Session τ}
    {next : Call τ}
    {outcome : Option StepOutcome}
    (attended : Session.Attended context index caller methods posted session)
    (x86 : context.env.layout = .x86_64)
    (acts : next.Acts)
    (performed : (next.perform context).Gives session outcome after)
    (awaitsStill : Awaits index after) :
    ∀ position ≤ index,
      after.manager.activations[position]? = posted.manager.activations[position]? := by
  have reached := attended.reached
  obtain ⟨_, found, -⟩ := attended.awaits
  obtain ⟨_, touches⟩ := touches_call x86 reached.followsProtocol (reached.stacked x86)
    (reached.entered found) acts performed
  have above := touches.lt_of_awaits attended.awaits awaitsStill
  intro position atMost
  exact (touches.below position (Nat.lt_of_le_of_lt atMost above)).trans
    (attended.below position atMost)

namespace Answering

/-- The call was posted, and the method that it names was laid out. -/
theorem exists_callStep
    (answering : Answering context index caller call posted methods session) :
    ∃ served callee, CallStep context index caller call posted served ∧
      context.env.methods.find? call.callee = some callee := by
  induction answering with
  | called calls found => exact ⟨_, _, calls, found⟩
  | later _ _ _ _ _ _ calls => exact calls
  | rebuilt _ _ _ _ calls => exact calls

/-- While an activation waits, the method that was laid out last is to answer it. -/
theorem attended
    (answering : Answering context index caller call posted methods session)
    (x86 : context.env.layout = .x86_64) :
    Session.Attended context index caller methods posted session := by
  induction answering with
  | @called served callee calls found =>
      obtain ⟨lower, fresh, postedStands, rfl, stands, runs, -⟩ := calls.callee x86 found
      have isTop : served.manager.activations[lower.size + 1]? =
          some ⟨fresh, callee.parameterSlots⟩ := by
        rw [stands, ← Array.size_push caller, Array.getElem?_push_size]
      have below : ∀ position ≤ lower.size, served.manager.activations[position]? =
          posted.manager.activations[position]? := fun position atMost => by
        rw [stands, postedStands, Array.getElem?_push, if_neg (by simp; omega)]
      have answered : served.AnsweredBy context lower.size callee :=
        .activation isTop (runs ▸ MethodTable.find?_id found)
      have reached := calls.reached
      refine ⟨reached, reached.awaits_of_lt (Array.getElem?_eq_some_iff.mp isTop).1, below, ?_,
        callee, rfl, answered⟩
      rw [List.forall_mem_singleton]
      exact answered.arguments_le x86 reached
        ((below lower.size (Nat.le_refl _)).trans calls.found)
  | later _ next acts performed awaits noImage attended =>
      obtain ⟨method, isHead, answered⟩ := attended.answered
      exact ⟨attended.reached.call next acts performed, awaits,
        attended.below_of_call x86 acts performed awaits, attended.arguments, method, isHead,
        answered.of_call x86 attended.reached acts performed awaits noImage⟩
  | @rebuilt _ _ _ _ image method answering onTop found performed attended =>
      have acts : (Call.pushDeoptimized image : Call τ).Acts := trivial
      have reached := attended.reached.call _ acts performed
      obtain ⟨above, answered⟩ :=
        Session.AnsweredBy.of_rebuilt x86 attended.reached found performed onTop
      have awaits := reached.awaits_of_lt above
      have below := attended.below_of_call x86 acts performed awaits
      obtain ⟨_, _, calls, -⟩ := answering.exists_callStep
      refine ⟨reached, awaits, below, ?_, method, rfl, answered⟩
      refine List.forall_mem_cons.mpr ⟨?_, attended.arguments⟩
      exact answered.arguments_le x86 reached ((below index (Nat.le_refl _)).trans calls.found)

/-- The activation gives no more words away than the methods laid out for it take. -/
theorem waitsFor
    {most : Nat}
    (answering : Answering context index caller call posted methods session)
    (x86 : context.env.layout = .x86_64)
    (atMost : ∀ method ∈ methods, method.parameterSlots ≤ most) :
    session.WaitsFor index most := by
  have attended := answering.attended x86
  obtain ⟨method, isHead, answered⟩ := attended.answered
  exact answered.waitsFor x86 attended.reached attended.awaits
    (atMost method (List.mem_of_head? isHead))

/-- A call that the activation waits through keeps the words that are not given away. -/
theorem keeps_of_call
    {most : Nat}
    {after : Session τ}
    {next : Call τ}
    {outcome : Option StepOutcome}
    (answering : Answering context index caller call posted methods session)
    (x86 : context.env.layout = .x86_64)
    (acts : next.Acts)
    (performed : (next.perform context).Gives session outcome after)
    (waits : session.WaitsFor index most)
    (waitsStill : after.WaitsFor index most) :
    Stack.Keeps (caller.activation.stackTop.toNat + 8 * most ≤ ·) session.machine.stack
      after.machine.stack := by
  have attended := answering.attended x86
  obtain ⟨_, _, calls, -⟩ := answering.exists_callStep
  exact (Session.spares_of_leads x86 attended.reached
    ((attended.below index (Nat.le_refl _)).trans calls.found)
    ((Leads.refl _).call waits next acts performed) waitsStill).2

/-- No entry changes that none of the methods takes. -/
theorem keeps
    {most : Nat}
    (answering : Answering context index caller call posted methods session)
    (x86 : context.env.layout = .x86_64)
    (atMost : ∀ method ∈ methods, method.parameterSlots ≤ most) :
    Stack.Keeps (caller.activation.stackTop.toNat + 8 * most ≤ ·) posted.machine.stack
      session.machine.stack := by
  induction answering with
  | called calls found =>
      have waits := (Answering.called calls found).waitsFor x86 atMost
      obtain ⟨_, _, _, _, reached, acts, isCall, advanced, serves⟩ := calls.steps
      exact (Session.spares_of_called x86 reached acts advanced isCall serves calls.found
        waits).2.2
  | later answering next acts performed awaits noImage kept =>
      have still := Answering.later answering next acts performed awaits noImage
      exact (kept atMost).trans (answering.keeps_of_call x86 acts performed
        (answering.waitsFor x86 atMost) (still.waitsFor x86 atMost))
  | @rebuilt _ _ _ _ image _ answering onTop found performed kept =>
      have still := Answering.rebuilt answering onTop found performed
      have fewer := (List.forall_mem_cons.mp atMost).2
      have acts : (Call.pushDeoptimized image : Call τ).Acts := trivial
      exact (kept fewer).trans (answering.keeps_of_call x86 acts performed
        (answering.waitsFor x86 fewer) (still.waitsFor x86 atMost))

end Answering

end Waiting

section Delivering

variable {context : ManagerContext τ} {before after : Session τ}
  {rest lower : Array HeldActivation} {held caller : HeldActivation} {value : List Word}

/-- A caller whose result is delivered goes on behind its invoke with it. -/
theorem Session.goesOn_of_returnIntoCaller
    {call : CallRequest}
    {parameters : Nat}
    {entries : List Word}
    {outcome : StepOutcome}
    (x86 : context.env.layout = .x86_64)
    (stands : before.manager.activations = lower.push caller)
    (payload : caller.activation.payload = .call call)
    (sits : caller.activation.Sits before.machine.stack)
    (holds : caller.activation.HoldsEntries before.machine.stack entries)
    (enough : parameters ≤ entries.length)
    (gives : (returnIntoCaller context lower.size parameters value).Gives before outcome
      after) :
    ∃ resumed, after.manager.activations = lower.push resumed ∧
      caller.GoesOn before.machine.stack after.machine.stack
        (caller.activation.bcp + call.advance.toUInt64) (value ++ entries.drop parameters)
        resumed := by
  obtain ⟨waiting, other, top, written, bcp, stack, found, -, taken, rfl, roomy, writes,
    publishes, settles, position, -⟩ := gives_returnIntoCaller gives
  obtain rfl := Option.some.inj ((activation?_of_push stands).symm.trans found)
  rw [payload] at taken
  obtain rfl := Except.ok.inj taken
  obtain rfl := Except.ok.inj
    (position.symm.trans (Word.plus_of_fits (Word.plus_eq_ok.mp position).1))
  have extent := (sits.holdsEntries_iff.mp holds).1
  obtain ⟨exact, low, keeps⟩ := Workspace.places_of_result sits (by omega) rfl writes
  have hasRoom : caller.activation.HasRoomFor before.machine.stack parameters value.length :=
    ⟨by omega, by omega⟩
  have takes := hasRoom.takesResult sits holds enough
  have worked := takes.worked (caller.activation.bcp + call.advance.toUInt64) writes
  refine ⟨_, by rw [settles.managed, withActivation_of_push stands], ?_⟩
  rw [settles.stacked]
  exact goesOn_of_published x86 worked.seat (worked.sits sits) (takes.holdsEntries _ writes)
    (keeps.mono fun _ inside => Nat.le_trans (by omega) (sits.le_of_monitorOrLocal inside))
    publishes

/-- The ways in which a result comes to the manager. -/
inductive Call.Delivers (before : Session τ) : Call τ → ReturnKind → List Word → Prop where
  | returned
      {engine : Engine τ}
      {rest : Array HeldActivation}
      {held : HeldActivation}
      {kind : ReturnKind}
      {value : List Word}
      (returns : Returns engine before rest held kind value) :
      Delivers before (.step engine) kind value
  | compiled
      (kind : ReturnKind)
      (value : List Word) :
      Delivers before (.completeOsr kind value) kind value

/-- The result of a method on its way to the activation that waits for it. -/
structure Session.Hands
    (context : ManagerContext τ)
    (lower : Array HeldActivation)
    (caller : HeldActivation)
    (method : Method)
    (value : List Word)
    (before between after : Session τ) :
    Prop where
  counted : value.length = (ReturnKind.ofType method.resultType).words
  stands : between.manager.activations = lower.push caller
  sits : caller.activation.Sits before.machine.stack
  sitsStill : caller.activation.Sits between.machine.stack
  arguments : caller.activation.stackTop.toNat + 8 * method.parameterSlots ≤
    caller.activation.monitorEnd.toNat
  kept : Stack.Keeps (caller.activation.stackTop.toNat + 8 * method.parameterSlots ≤ ·)
    before.machine.stack between.machine.stack
  returns : (returnIntoCaller context lower.size method.parameterSlots value).Gives between
    (.resumed (lower.size + 1) .methodResume) after

/-- A payload that says what kind is returned carries nothing else. -/
theorem Payload.eq_returning
    {payload : Payload}
    {kind : ReturnKind}
    (isReturn : payload.toReturnKind = .ok kind) :
    payload = .returning kind := by
  cases payload <;> simp_all [Payload.toReturnKind]

/-- What a request to return has read is what the engine returns. -/
theorem Session.Advances.returns
    {ready : Session τ}
    {engine : Engine τ}
    {turn : Turn τ}
    {kind : ReturnKind}
    {depth : Word}
    (advances : Advances context engine before ready rest held turn)
    (x86 : context.env.layout = .x86_64)
    (reached : Reached context before)
    (acts : ActsThroughActivation engine)
    (asked : turn.workspace.activation.message = .returnFromMethod)
    (isReturn : turn.workspace.activation.payload.toReturnKind = .ok kind)
    (counted : turn.workspace.activation.stackDepth = .ok depth)
    (enough : kind.words ≤ depth.toNat)
    (read : (ready.machine.stack.readAll turn.workspace.activation.stackTop
      kind.words).Gives value) :
    Returns engine before rest held kind value where
  acts := acts
  stands := advances.stands
  isResponse := advances.isResponse
  counted := (Stack.gives_readAll.mp read).1
  posts := by
    have sits := sits_of_turned x86 reached acts advances.stands advances.turned
    have beside := advances.publishes.keeps_beside x86 sits
    obtain ⟨entries, holds⟩ := sits.exists_holdsEntries
    have holdsReady := holds.of_keeps sits beside fun _ _ below =>
      .inl (Nat.lt_of_lt_of_le below sits.monitorEndLe)
    have length : entries.length = depth.toNat := by
      obtain ⟨same, countedToo, readAll⟩ := holds
      obtain rfl := Except.ok.inj (counted.symm.trans countedToo)
      exact (Stack.gives_readAll.mp readAll).1
    have split := holdsReady.eq_append_of_readAll (sits.of_keeps beside) (by omega) read
    exact ⟨turn, entries.drop kind.words, advances.turned, asked,
      Payload.eq_returning isReturn, split ▸ holds⟩

/-- Chains of one length are the same if all the activations are. -/
theorem FrameManager.eq_push_of_below
    (sized : rest.size = lower.size + 1)
    (below : ∀ position ≤ lower.size, rest[position]? = (lower.push caller)[position]?) :
    rest = lower.push caller := by
  refine Array.ext_getElem? fun position => ?_
  rcases Nat.lt_or_ge lower.size position with above | atMost
  · rw [Array.getElem?_eq_none (by omega), Array.getElem?_eq_none (by
      rw [Array.size_push]
      omega)]
  · exact below position atMost

/--
An activation that is resumed by a step has been returned to by the one above it.  The
result comes from the activation right above it, below which nothing has changed.
-/
theorem Session.hands_of_step
    {engine : Engine τ}
    {method : Method}
    (x86 : context.env.layout = .x86_64)
    (reached : Reached context before)
    (acts : ActsThroughActivation engine)
    (below : ∀ position ≤ lower.size,
      before.manager.activations[position]? = (lower.push caller)[position]?)
    (answered : before.AnsweredBy context lower.size method)
    (gives : (step context engine).Gives before (.resumed (lower.size + 1) .methodResume)
      after) :
    ∃ value between, (Call.step engine).Delivers before (.ofType method.resultType) value ∧
      Hands context lower caller method value before between after := by
  rw [step_eq] at gives
  obtain ⟨_, ready, advanced, served⟩ := gives_bind.mp gives
  obtain ⟨rest, held, turn, rfl, advances⟩ := advances_of_gives advanced
  have poses := advances.poses reached.followsProtocol acts
  have asked := (message_of_serve poses.stands served).1 _ rfl
  simp only [asked] at served
  obtain ⟨kind, value, isReturn, ⟨other, depth, runs, rfl, counted, enough⟩, read, ended⟩ :=
    gives_serveReturn poses.stands served
  rcases ended with ⟨-, -, impossible⟩ | ⟨waiting, callerOf, returns⟩
  · cases impossible
  have sized : rest.size = lower.size + 1 :=
    (StepOutcome.resumed.inj (outcome_of_returnIntoCaller returns)).1.symm
  obtain rfl := eq_push_of_below sized fun position atMost => by
    rw [← below position atMost, advances.stands, Array.getElem?_push, if_neg (by omega)]
  obtain rfl : lower.size = waiting := Option.some.inj
    (((predecessor?_push lower caller).symm.trans poses.caller.symm).trans callerOf)
  have found : before.manager.activations[lower.size + 1]? = some held := by
    rw [advances.stands, ← sized, Array.getElem?_push_size]
  have runsTop : context.env.methods.find? held.activation.method = some other :=
    (advances.sameFrame acts).method ▸ runs
  obtain rfl : other = method := by
    cases answered with
    | activation foundToo runsToo =>
        obtain rfl := Option.some.inj (found.symm.trans foundToo)
        exact Option.some.inj (runsTop.symm.trans runsToo)
    | compiled onTop _ =>
        rw [depth_of_push advances.stands] at onTop
        omega
  have parameters := reached.parameterSlots_eq x86 found runsTop
  obtain ⟨entry, -, rests, callerRests, -, kept⟩ := advances.over_caller x86 reached acts
  have arguments := rests.arguments_le
  dsimp only at arguments returns
  rw [parameters] at kept arguments returns
  have callerFound : before.manager.activations[lower.size]? = some caller := by
    rw [below lower.size (Nat.le_refl _), Array.getElem?_push_size]
  refine ⟨value, ready.withActivations (lower.push caller), .returned
    (advances.returns x86 reached acts asked isReturn counted enough read), ?_⟩
  exact {
    counted := (Stack.gives_readAll.mp read).1
    stands := rfl
    sits := reached.sits x86 callerFound
    sitsStill := callerRests.sits
    arguments := arguments
    kept := kept
    returns := returns }

/-- One that is resumed by a result from outside has been the top, waiting for that. -/
theorem Session.hands_of_completeOsr
    {kind : ReturnKind}
    {method : Method}
    (x86 : context.env.layout = .x86_64)
    (reached : Reached context before)
    (below : ∀ position ≤ lower.size,
      before.manager.activations[position]? = (lower.push caller)[position]?)
    (answered : before.AnsweredBy context lower.size method)
    (gives : (completeOsr context kind value).Gives before
      (.resumed (lower.size + 1) .methodResume) after) :
    kind = .ofType method.resultType ∧
      Hands context lower caller method value before before.withoutPending after := by
  obtain ⟨pending, isPending, ⟨declared, counted⟩, ended⟩ := gives_completeOsr gives
  rcases ended with ⟨-, -, impossible⟩ | ⟨waiting, callerOf, returns⟩
  · cases impossible
  have sized : before.manager.activations.size = lower.size + 1 :=
    (StepOutcome.resumed.inj (outcome_of_returnIntoCaller returns)).1.symm
  have stands := eq_push_of_below sized below
  cases answered with
  | activation found _ =>
      have inside := (Array.getElem?_eq_some_iff.mp found).1
      omega
  | compiled onTop isPendingToo =>
      obtain rfl := Option.some.inj (isPending.symm.trans isPendingToo)
      obtain rfl := Option.some.inj callerOf
      have sits := reached.sits x86
        (show before.manager.activations[lower.size]? = some caller by
          rw [stands, Array.getElem?_push_size])
      exact ⟨declared, {
        counted := counted.trans (congrArg ReturnKind.words declared)
        stands := stands
        sits := sits
        sitsStill := sits
        arguments := (reached.stacked x86).pending _ isPending _ (top?_of_push stands)
        kept := .refl _
        returns := returns }⟩

/-- A call to the manager that resumes a waiting activation hands it a result. -/
theorem Call.exists_hands
    {answer : Call τ}
    {method : Method}
    (x86 : context.env.layout = .x86_64)
    (reached : Reached context before)
    (acts : answer.Acts)
    (below : ∀ position ≤ lower.size,
      before.manager.activations[position]? = (lower.push caller)[position]?)
    (answered : before.AnsweredBy context lower.size method)
    (performed : (answer.perform context).Gives before
      (some (.resumed (lower.size + 1) .methodResume)) after) :
    ∃ value between, answer.Delivers before (.ofType method.resultType) value ∧
      Session.Hands context lower caller method value before between after := by
  rcases Call.step_or_completeOsr performed with ⟨engine, rfl, gives⟩ | ⟨_, _, rfl, gives⟩
  · exact Session.hands_of_step x86 reached acts below answered gives
  · obtain ⟨rfl, hands⟩ := Session.hands_of_completeOsr x86 reached below answered gives
    exact ⟨_, _, .compiled _ _, hands⟩

end Delivering

/-- A waiting activation goes on with the result of a method, above the entries it has left. -/
structure Call.Answers
    (answer : Call τ)
    (caller : HeldActivation)
    (call : CallRequest)
    (method : Method)
    (value left : List Word)
    (posted before after : Session τ) :
    Prop where
  delivers : answer.Delivers before (.ofType method.resultType) value
  counted : value.length = (ReturnKind.ofType method.resultType).words
  goesOn : ∃ (lower : Array HeldActivation) (resumed : HeldActivation),
    posted.manager.activations = lower.push caller ∧
      after.manager.activations = lower.push resumed ∧
      caller.GoesOn posted.machine.stack after.machine.stack
        (caller.activation.bcp + call.advance.toUInt64) (value ++ left) resumed

section Law

variable {context : ManagerContext τ} {index : Nat} {caller : HeldActivation}
  {call : CallRequest} {posted before after : Session τ} {callee method : Method}
  {methods earlier : List Method} {entries : List Word} {answer : Call τ}

/--
The answer to a call is that of the method that was laid out last.  All the methods
take entries only, so that what lies above these is kept altogether.
-/
theorem Answering.answers
    (answering : Answering context index caller call posted (method :: earlier) before)
    (x86 : context.env.layout = .x86_64)
    (holds : caller.activation.HoldsEntries posted.machine.stack entries)
    (acts : answer.Acts)
    (performed : (answer.perform context).Gives before
      (some (.resumed (index + 1) .methodResume)) after) :
    ∃ value now : List Word,
      now.length = entries.length ∧ method.parameterSlots ≤ now.length ∧
        (∀ deep, (∀ other ∈ method :: earlier, other.parameterSlots ≤ deep) →
          now.drop deep = entries.drop deep) ∧
        answer.Answers caller call method value (now.drop method.parameterSlots) posted before
          after := by
  have attended := answering.attended x86
  obtain ⟨_, isHead, answered⟩ := attended.answered
  obtain rfl := Option.some.inj isHead
  obtain ⟨served, callee, calls, found⟩ := answering.exists_callStep
  obtain ⟨lower, _, postedStands, rfl, -, -, sits⟩ := calls.callee x86 found
  obtain ⟨value, between, delivers, hands⟩ := Call.exists_hands x86 attended.reached acts
    (fun position atMost => postedStands ▸ attended.below position atMost) answered performed
  obtain ⟨now, holdsNow⟩ := hands.sits.exists_holdsEntries
  obtain ⟨last, holdsLast⟩ := hands.sitsStill.exists_holdsEntries
  have length := holds.length_eq holdsNow sits hands.sits
  have extent := (sits.holdsEntries_iff.mp holds).1
  have extentLast := (hands.sitsStill.holdsEntries_iff.mp holdsLast).1
  have arguments := attended.arguments method List.mem_cons_self
  have left : last.drop method.parameterSlots = now.drop method.parameterSlots :=
    holdsNow.drop_eq_of_keeps holdsLast hands.sits hands.sitsStill hands.kept
  obtain ⟨resumed, stands, goesOn⟩ := Session.goesOn_of_returnIntoCaller x86 hands.stands
    calls.payload hands.sitsStill holdsLast (by omega) hands.returns
  rw [left] at goesOn
  have keptAbove : Stack.Keeps (caller.activation.stackTop.toNat + 8 * entries.length ≤ ·)
      posted.machine.stack before.machine.stack :=
    answering.keeps x86 fun other isOther => by
      have := attended.arguments other isOther
      omega
  refine ⟨value, now, length, by omega, fun deep atMost => holds.drop_eq_of_keeps holdsNow sits
    hands.sits (answering.keeps x86 atMost), delivers, hands.counted, lower, resumed,
    postedStands, stands, goesOn.since hands.sitsStill ?_⟩
  exact (keptAbove.mono fun _ above => by omega).trans
    (hands.kept.mono fun _ above => by omega)

end Law

open Session in
/-- What the calls of activations are answered with. -/
structure AnswersCalls (context : ManagerContext τ) : Prop where
  /-- As long as an activation waits, some methods were laid out for its call. -/
  laidOut :
    ∀ {index : Nat} {caller : HeldActivation} {call : CallRequest} {callee : Method}
      {posted served last : Session τ},
      CallStep context index caller call posted served →
      context.env.methods.find? call.callee = some callee →
      Leads context (Awaits index) served last →
      Awaits index last →
      ∃ methods, Answering context index caller call posted methods last
  /--
  The last of them answers: its result takes the place of as many words as it has parameters.
  The entries that none of the methods takes are those that the activation had when it called.
  -/
  answered :
    ∀ {index : Nat} {caller : HeldActivation} {call : CallRequest} {method : Method}
      {earlier : List Method} {posted before after : Session τ} {answer : Call τ}
      {entries : List Word},
      Answering context index caller call posted (method :: earlier) before →
      caller.activation.HoldsEntries posted.machine.stack entries →
      answer.Acts →
      (answer.perform context).Gives before (some (.resumed (index + 1) .methodResume))
        after →
      ∃ value now : List Word,
        now.length = entries.length ∧ method.parameterSlots ≤ now.length ∧
          (∀ deep, (∀ other ∈ method :: earlier, other.parameterSlots ≤ deep) →
            now.drop deep = entries.drop deep) ∧
          answer.Answers caller call method value (now.drop method.parameterSlots) posted
            before after
  /-- If all images were of the method that the call names, it gets what it asked for. -/
  named :
    ∀ {index : Nat} {caller : HeldActivation} {call : CallRequest} {callee : Method}
      {methods : List Method} {posted before after : Session τ} {answer : Call τ}
      {entries : List Word},
      Answering context index caller call posted methods before →
      (∀ method ∈ methods, method = callee) →
      caller.activation.HoldsEntries posted.machine.stack entries →
      answer.Acts →
      (answer.perform context).Gives before (some (.resumed (index + 1) .methodResume))
        after →
      callee.parameterSlots ≤ entries.length ∧ ∃ value,
        answer.Answers caller call callee value (entries.drop callee.parameterSlots) posted
          before after

/-- The method that was laid out last for a call answers it. -/
theorem answersCalls_of_x86_64
    {context : ManagerContext τ}
    (x86 : context.env.layout = .x86_64) :
    AnswersCalls context where
  laidOut calls found leads awaits := calls.exists_answering found leads awaits
  answered answering holds acts performed := answering.answers x86 holds acts performed
  named {_ _ _ callee methods _ _ _ _ entries} answering only holds acts performed := by
    obtain ⟨method, isHead, -⟩ := (answering.attended x86).answered
    obtain ⟨earlier, rfl⟩ := List.head?_eq_some_iff.mp isHead
    obtain rfl := only method List.mem_cons_self
    obtain ⟨value, now, length, enough, same, answers⟩ :=
      answering.answers x86 holds acts performed
    rw [same method.parameterSlots fun other isOther => by rw [only other isOther]] at answers
    exact ⟨length ▸ enough, value, answers⟩

open Session in
/-- Each call is answered with the result of the method that it names, for its arguments. -/
def AnswersAsNamed (context : ManagerContext τ) : Prop :=
  ∀ {index : Nat} {caller : HeldActivation} {call : CallRequest} {callee : Method}
    {posted served before after : Session τ} {answer : Call τ} {entries : List Word},
    CallStep context index caller call posted served →
    context.env.methods.find? call.callee = some callee →
    caller.activation.HoldsEntries posted.machine.stack entries →
    Leads context (Awaits index) served before →
    Awaits index before →
    answer.Acts →
    (answer.perform context).Gives before (some (.resumed (index + 1) .methodResume)) after →
    ∃ value, answer.Answers caller call callee value (entries.drop callee.parameterSlots)
      posted before after

/-!
A method passes two words to another one.  That one leaves for compiled code, and what comes
back in its place is a third one, which takes nothing and computes a long.
-/

namespace Mistaken

def caller : Method :=
  { Pair.caller with maxStack := 4 }

def clock : Method :=
  { Asking.clock with id := 0x500010, codeBase := 0x620000 }

def context : ManagerContext Unit :=
  { Asking.replacing with
    env := { Pair.context.env with methods := ⟨[caller, Pair.callee, clock]⟩ } }

/-- The call of the method that takes the words. -/
def request : CallRequest :=
  ⟨0x500008, 0x1200, 3⟩

/-- The third method, with its long computed. -/
def image : DeoptimizedActivation where
  method := 0x500010
  bci := 0
  locals := []
  expressions := [0x1, 0x2]
  monitors := []
  source := none

def calls : List (Call Unit) :=
  [.setUp Pair.idle, .start 0x500000 [] []]

theorem ran : (Call.runAll? context calls Pair.fresh).isSome = true := by
  decide +kernel

/-- The session in which the calling method has been entered. -/
def started : Session Unit :=
  (Call.runAll? context calls Pair.fresh).get ran

theorem reached_started : Reached context started :=
  (Reached.fresh rfl).of_runAll?
    (by simpa [calls, Call.Acts] using .probe _) (Option.some_get ran).symm

/-- The session in which it has posted its call. -/
def posted : Session Unit :=
  (Session.advance context Pair.invoke started).2

/-- The session in which the method that it called has been entered. -/
def served : Session Unit :=
  (Session.serve context 0 .callMethod posted).2

/-- The session in which that method has left. -/
def left : Session Unit :=
  ((Call.step Asking.leave).perform context served).2

/-- The session in which the third method has come in its place. -/
def rebuilt : Session Unit :=
  ((Call.pushDeoptimized image).perform context left).2

/-- The session in which that has returned its long. -/
def answered : Session Unit :=
  ((Call.step Asking.answer).perform context rebuilt).2

theorem calls_request : ∃ caller,
    CallStep context 0 caller request posted served ∧
      caller.activation.HoldsEntries posted.machine.stack [0x700008, 0x700000] := by
  obtain ⟨calling, found⟩ : ∃ calling, posted.manager.activations[0]? = some calling :=
    Option.isSome_iff_exists.mp (by decide +kernel)
  have posts : posted.manager.activations[0]?.all (fun calling =>
      calling.activation.payload == .call request &&
        decide (calling.activation.HoldsEntries posted.machine.stack
          [0x700008, 0x700000])) = true := by
    decide +kernel
  rw [found, Option.all_some, Bool.and_eq_true, beq_iff_eq, decide_eq_true_eq] at posts
  exact ⟨calling, {
    steps := ⟨started, Pair.invoke, .callMethod, .called 2, reached_started, Pair.acts_invoke,
      rfl, gives_of_toOption (by decide +kernel), gives_of_toOption (by decide +kernel)⟩
    found := found
    payload := posts.1 }, posts.2⟩

theorem performed_leave : ((Call.step Asking.leave).perform context).Gives served
    (some (.onStackReplaced ⟨0x5000, 0x5040⟩)) left :=
  gives_of_toOption (by decide +kernel)

theorem performed_image : ((Call.pushDeoptimized image).perform context).Gives left none
    rebuilt :=
  gives_of_toOption (by decide +kernel)

theorem performed_answer : ((Call.step Asking.answer).perform context).Gives rebuilt
    (some (.resumed 1 .methodResume)) answered :=
  gives_of_toOption (by decide +kernel)

theorem acts_leave : (Call.step Asking.leave).Acts :=
  .offered (.requestOsr _)

theorem acts_answer : (Call.step Asking.answer).Acts :=
  .offered (.requestReturn .long)

/-- The long of the third method comes onto the words that were passed to the other one. -/
theorem answers_mistaken :
    context.env.layout = .x86_64 ∧ ∃ (caller : HeldActivation) (value now : List Word),
      caller.activation.HoldsEntries posted.machine.stack [0x700008, 0x700000] ∧
        Answering context 0 caller request posted [clock, Pair.callee] rebuilt ∧
        value.length = 2 ∧ now.length = 2 ∧
        (Call.step Asking.answer).Answers caller request clock value now posted rebuilt
          answered := by
  obtain ⟨caller, calls, holds⟩ := calls_request
  have found : context.env.methods.find? request.callee = some Pair.callee := by
    decide +kernel
  have awaits : Session.WaitsFor 0 2 left := by decide +kernel
  have answering : Answering context 0 caller request posted [clock, Pair.callee] rebuilt :=
    .rebuilt (.later (.called calls found) _ acts_leave performed_leave awaits.awaits
      (fun _ _ => by simp)) (by decide +kernel) (by decide +kernel) performed_image
  obtain ⟨value, now, length, -, -, answers⟩ :=
    (answersCalls_of_x86_64 rfl).answered answering holds acts_answer performed_answer
  exact ⟨rfl, caller, value, now, holds, answering, answers.counted, length, answers⟩

/-- It gets a long that it did not ask for, and keeps words that it passed on. -/
theorem not_answersAsNamed : ¬AnswersAsNamed context := by
  intro named
  obtain ⟨caller, calls, holds⟩ := calls_request
  have waits : Session.WaitsFor 0 2 served ∧ Session.WaitsFor 0 2 left ∧
      Session.WaitsFor 0 2 rebuilt := by
    decide +kernel
  have leads : Leads context (Session.Awaits 0) served rebuilt :=
    ((Leads.refl served).call waits.1.awaits _ acts_leave performed_leave).call
      waits.2.1.awaits (.pushDeoptimized image) trivial performed_image
  have found : context.env.methods.find? request.callee = some Pair.callee := by
    decide +kernel
  obtain ⟨value, -, counted, lower, resumed, postedStands, stands, goesOn⟩ :=
    named calls found holds leads waits.2.2.awaits acts_answer performed_answer
  obtain rfl : value = [] := List.eq_nil_of_length_eq_zero counted
  have alone : lower = #[] := by
    have sized : posted.manager.depth = 1 := by decide +kernel
    rw [depth_of_push postedStands] at sized
    exact Array.eq_empty_of_size_eq_zero (by omega)
  have keeps : answered.manager.activations[0]?.all (fun resumed =>
      !decide (resumed.activation.HoldsEntries answered.machine.stack [])) = true := by
    decide +kernel
  rw [stands, alone] at keeps
  simp only [Array.getElem?_push, Array.size_empty, reduceIte, Option.all_some,
    Bool.not_eq_true', decide_eq_false_iff_not] at keeps
  exact keeps goesOn.entries

end Mistaken

end ManagedStack
