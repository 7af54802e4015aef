import ManagedStack.Proofs.Resuming

namespace ManagedStack

/-!
# Calls that return

A result takes the place of the arguments that the caller had pushed for the call, and
the caller goes on behind its invoke.  However long the callee runs, and whatever it
calls, the entries below the arguments are those that the caller had when it called.
-/

open Operation FrameManager

namespace Workspace

/-- Room for a result in the place of arguments, and the entries below these. -/
structure TakesResult
    (stack : Stack)
    (waiting : Activation)
    (parameters : Nat)
    (result below : List Word) :
    Prop where
  sits : waiting.Sits stack
  extent : waiting.stackTop.toNat + 8 * (parameters + below.length) =
    waiting.monitorEnd.toNat
  words : ∀ (index : Nat) word, below[index]? = some word →
    stack.Holds (waiting.stackTop.offset (parameters + index : Nat)) word
  low : stack.limit.toNat + 8 * result.length ≤
    waiting.stackTop.toNat + 8 * parameters
  room : waiting.stackLimit.toNat + 8 * result.length ≤
    waiting.stackTop.toNat + 8 * parameters

namespace TakesResult

variable {stack written : Stack} {waiting : Activation} {parameters : Nat}
  {result below : List Word} {bcp : Address}

/-- The result ends where the arguments ended. -/
theorem toNat_top
    (takes : TakesResult stack waiting parameters result below) :
    (waiting.stackTop.offset (parameters - result.length)).toNat +
        8 * result.length =
      waiting.stackTop.toNat + 8 * parameters := by
  have extent := takes.extent
  have low := takes.low
  have small := waiting.monitorEnd.toNat_lt
  have moved := Word.toNat_offset waiting.stackTop (parameters - result.length)
  omega

/-- The place of the result is on the stack. -/
theorem exists_writes (takes : TakesResult stack waiting parameters result below) :
    ∃ written,
      (Stack.writeAll (waiting.stackTop.offset (parameters - result.length))
        result).Gives stack () written := by
  have top := takes.toNat_top
  have extent := takes.extent
  have low := takes.low
  have aligned := takes.sits.topAligned
  have inStack := Nat.le_trans takes.sits.monitorEnd_le_ceiling
    takes.sits.ceiling_le_base
  have small := waiting.monitorEnd.toNat_lt
  refine Stack.exists_gives_writeAll fun index inside => ?_
  have place : ((waiting.stackTop.offset (parameters - result.length)).offset
      index).toNat =
        (waiting.stackTop.offset (parameters - result.length)).toNat +
          8 * index :=
    Word.toNat_offset_of_fits (by omega) (by omega)
  refine ⟨?_, ?_, ?_⟩ <;> omega

/-- Nothing but the arguments and what is below the old top is written. -/
theorem keeps
    (takes : TakesResult stack waiting parameters result below)
    (writes : (Stack.writeAll
      (waiting.stackTop.offset (parameters - result.length)) result).Gives stack
        () written) :
    Stack.Keeps (waiting.stackTop.toNat + 8 * parameters ≤ ·) stack written :=
  (places_of_result takes.sits (by have := takes.extent; omega) rfl writes).2.2

variable (bcp) in
/-- The resumed activation works on the waiting one. -/
theorem worked
    (takes : TakesResult stack waiting parameters result below)
    (writes : (Stack.writeAll
      (waiting.stackTop.offset (parameters - result.length)) result).Gives stack
        () written) :
    Worked ⟨waiting, stack⟩ ⟨Session.returnedInto waiting
      (waiting.stackTop.offset (parameters - result.length)) bcp, written⟩ := by
  have extent := takes.extent
  have room := takes.room
  have top := takes.toNat_top
  exact worked_returnedInto (by omega) rfl (by omega) writes

variable (bcp) in
/--
The result lies on the entries that are left.  The result is what was written, and the
entries below it end where the arguments ended.
-/
theorem holdsEntries
    (takes : TakesResult stack waiting parameters result below)
    (writes : (Stack.writeAll
      (waiting.stackTop.offset (parameters - result.length)) result).Gives stack
        () written) :
    (Session.returnedInto waiting
      (waiting.stackTop.offset (parameters - result.length)) bcp).HoldsEntries
        written (result ++ below) := by
  have worked := takes.worked bcp writes
  have top := takes.toNat_top
  have extent := takes.extent
  refine (worked.sits takes.sits).holdsEntries_iff.mpr ⟨?_, ?_⟩
  · rw [worked.seat.monitorEnd, List.length_append]
    change (waiting.stackTop.offset (parameters - result.length)).toNat + _ =
      waiting.monitorEnd.toNat
    omega
  · intro index word found
    change written.Holds
      ((waiting.stackTop.offset (parameters - result.length)).offset index) word
    by_cases inResult : index < result.length
    · rw [List.getElem?_append_left inResult] at found
      exact Stack.holds_of_gives_writeAll writes index word found
    · rw [List.getElem?_append_right (by omega)] at found
      have held := takes.words _ word found
      have lower := (List.getElem?_eq_some_iff.mp found).1
      have small := waiting.monitorEnd.toNat_lt
      have place : (waiting.stackTop.offset
          (parameters + (index - result.length) : Nat)).toNat =
            waiting.stackTop.toNat + 8 * (parameters + (index - result.length)) :=
        Word.toNat_offset_of_fits (by omega) (by omega)
      have sameAddress :
          (waiting.stackTop.offset (parameters - result.length)).offset index =
            waiting.stackTop.offset
              (parameters + (index - result.length) : Nat) := by
        rw [Word.offset_offset]
        congr 1
        omega
      rw [sameAddress]
      refine (takes.keeps writes).holds held ?_
      rw [place]
      omega

end TakesResult

end Workspace

namespace Session

variable {context : ManagerContext τ} {before ready : Session τ}
  {rest lower : Array HeldActivation} {held caller : HeldActivation}
  {parameters : Nat} {result below : List Word}

/-- A caller that has room for a result goes on behind its invoke with it. -/
theorem exists_gives_returnIntoCaller
    (before : Session τ)
    {call : CallRequest}
    (x86 : context.env.layout = .x86_64)
    (unprofiled : context.env.diagnostics.profileInterpreter = false)
    (interpreter : context.env.code.interpreterContains
      context.entryPoints.interpreterReturnPc = true)
    (stands : before.manager.activations = lower.push caller)
    (isCall : caller.activation.message.isCall = true)
    (payload : caller.activation.payload = .call call)
    (takes : Workspace.TakesResult before.machine.stack caller.activation
      parameters result below)
    (inside : caller.activation.bcp.toNat + call.advance.toNat < UInt64.size) :
    ∃ (after : Session τ) (resumed : HeldActivation),
      (returnIntoCaller context lower.size parameters result).Gives before
          (.resumed (lower.size + 1) .methodResume) after ∧
        after.manager.activations = lower.push resumed ∧
        caller.GoesOn before.machine.stack after.machine.stack
          (caller.activation.bcp + call.advance.toUInt64) (result ++ below)
          resumed ∧
        after.machine.thread.anchor =
          anchorFor context (some resumed.activation) := by
  have topIs := activation?_of_push stands
  obtain ⟨written, writes⟩ := takes.exists_writes
  have keeps := takes.keeps writes
  have position : caller.activation.bcp.plus call.advance.toUInt64 =
      .ok (caller.activation.bcp + call.advance.toUInt64) :=
    Word.plus_of_fits (by simpa using inside)
  have room : ¬caller.activation.stackTop.offset (parameters - result.length) <
      caller.activation.stackLimit := by
    have top := takes.toNat_top
    have room := takes.room
    rw [UInt64.lt_iff_toNat_lt]
    omega
  have worked := takes.worked
    (caller.activation.bcp + call.advance.toUInt64) writes
  have holds := takes.holdsEntries
    (caller.activation.bcp + call.advance.toUInt64) writes
  have delivers : (onMachine (Machine.onStack (Stack.writeAll
      (caller.activation.stackTop.offset (parameters - result.length))
        result))).Gives before () (before.withStack written) :=
    gives_onMachine.mpr ⟨_, Machine.gives_onStack.mpr ⟨_, writes, rfl⟩, rfl⟩
  obtain ⟨top, isTop⟩ : ∃ top, caller.activation.stackTop.offset
      (parameters - result.length) = top := ⟨_, rfl⟩
  obtain ⟨bcp, isBcp⟩ : ∃ bcp, caller.activation.bcp + call.advance.toUInt64 =
      bcp := ⟨_, rfl⟩
  rw [isTop] at delivers room worked holds
  rw [isBcp] at worked holds position ⊢
  have resumes : (onWorkspace lower.size (do
      Workspace.updateActivation fun activation =>
        { activation with stackTop := top }
      let bcp ← Operation.check
        (caller.activation.bcp.plus call.advance.toUInt64)
      Workspace.updateActivation fun activation => { activation with bcp := bcp }
      Workspace.resume .methodResume)).Gives (before.withStack written) ()
      ((before.withStack written).withWorkspace lower.size
        ⟨returnedInto caller.activation top bcp, written⟩) :=
    gives_onWorkspace.mpr ⟨_, _, topIs, gives_bind.mpr ⟨(), _,
      Workspace.gives_updateActivation.mpr rfl, gives_bind.mpr ⟨bcp, _,
        gives_check.mpr ⟨position, rfl⟩, gives_bind.mpr ⟨(), _,
          Workspace.gives_updateActivation.mpr rfl,
          Workspace.resume_of_accepts rfl isCall⟩⟩⟩, rfl⟩
  obtain ⟨after, published, chain, goesOn, anchored⟩ := exists_gives_publish_top
    before x86 unprofiled interpreter stands worked.seat (worked.sits takes.sits) holds
    (keeps.mono fun _ inside => Nat.le_trans (by have := takes.extent; omega)
      (takes.sits.le_of_monitorOrLocal inside)) .methodResume
  refine ⟨after, _, ?_, chain, goesOn, anchored⟩
  refine gives_bind.mpr ⟨_, _, gives_activation.mpr ⟨topIs, rfl⟩,
    gives_bind.mpr ⟨(), _, gives_expectAccepts.mpr ⟨isCall, rfl⟩,
      gives_bind.mpr ⟨call, _, gives_check.mpr ⟨by rw [payload]; rfl, rfl⟩,
        ?_⟩⟩⟩
  dsimp only
  rw [isTop, if_neg room]
  exact gives_bind.mpr ⟨(), _, delivers, gives_bind.mpr ⟨(), _, resumes,
    published⟩⟩

/-- Give a result to a caller, or to the outside. -/
def deliver
    (context : ManagerContext τ)
    (kind : ReturnKind)
    (value : List Word)
    (parameters : Nat) :
    Option Nat → Operation (Session τ) ProtocolError StepOutcome
  | none => do
      finishEntry
      return .returned kind value
  | some caller => returnIntoCaller context caller parameters value

/-- A result of the declared kind is delivered to the caller of the top. -/
theorem ending_serveReturn
    {kind : ReturnKind}
    {method : Method}
    (stands : ready.manager.activations = rest.push held)
    (payload : held.activation.payload = .returning kind)
    (found : context.env.methods.find? held.activation.method = some method)
    (declared : kind = .ofType method.resultType)
    (sits : held.activation.Sits ready.machine.stack)
    (holds : held.activation.HoldsEntries ready.machine.stack (result ++ below))
    (counted : result.length = kind.words) :
    (serveReturn context rest.size).ending ready =
      (deliver context kind result held.parameterSlots
        held.activation.caller).ending (ready.withActivations rest) := by
  have topIs := activation?_of_push stands
  obtain ⟨length, words⟩ := sits.holdsEntries_iff.mp holds
  obtain ⟨depth, depthIs, place⟩ := sits.stackDepth_eq
  rw [List.length_append] at length
  have read : (ready.machine.stack.readAll held.activation.stackTop
      kind.words).Gives result := by
    refine Stack.gives_readAll.mpr ⟨counted, fun index word isWord => ?_⟩
    refine words index word ?_
    rw [List.getElem?_append_left (List.getElem?_eq_some_iff.mp isWord).1, isWord]
  have reads : (onMachine (Machine.onStack (Operation.inspect fun stack =>
      stack.readAll held.activation.stackTop kind.words))).Gives ready result
        ready :=
    gives_onMachine.mpr ⟨_, Machine.gives_onStack.mpr
      ⟨_, gives_inspect.mpr ⟨read, rfl⟩, rfl⟩, rfl⟩
  have kindIs : held.activation.payload.toReturnKind = .ok kind := by
    rw [payload]
    rfl
  unfold serveReturn
  rw [ending_bind_of_gives (gives_activation.mpr ⟨topIs, rfl⟩),
    ending_bind_of_gives (gives_check.mpr ⟨kindIs, rfl⟩),
    ending_bind_of_gives (gives_method.mpr ⟨found, rfl⟩)]
  dsimp only
  rw [if_neg (Decidable.not_not.mpr declared),
    ending_bind_of_gives (gives_check.mpr ⟨depthIs, rfl⟩),
    if_neg (by omega : ¬depth.toNat < kind.words), ending_bind_of_gives reads,
    ending_bind_of_gives ((gives_popActivation_of_push stands).mpr ⟨rfl, rfl⟩)]
  cases held.activation.caller <;> rfl

section Staying

variable {first last : Session τ} {position index : Nat}
  {former latter : HeldActivation}

/-- What is never left keeps its frame. -/
theorem sameFrame_of_leads
    (x86 : context.env.layout = .x86_64)
    (reached : Reached context first)
    (found : first.manager.activations[position]? = some former)
    (leads : Leads context (position < ·.manager.depth) first last)
    (foundStill : last.manager.activations[position]? = some latter) :
    former.SameFrame latter := by
  induction leads generalizing latter with
  | refl =>
      obtain rfl := Option.some.inj (found.symm.trans foundStill)
      exact .refl _
  | @call before after _ leads stays call acts performed inductionHypothesis =>
      have reachedBefore := leads.reached reached
      have isBetween : before.manager.activations[position]? =
          some before.manager.activations[position] :=
        Array.getElem?_eq_getElem stays
      obtain ⟨_, touches⟩ := touches_call x86 reachedBefore.followsProtocol
        (reachedBefore.stacked x86) (reachedBefore.entered isBetween) acts performed
      exact (inductionHypothesis isBetween).trans
        (touches.sameFrame isBetween foundStill)

/-- An activation waits for what it called as long as that is not left. -/
theorem waitsFor_of_leads
    (x86 : context.env.layout = .x86_64)
    (reached : Reached context first)
    (found : first.manager.activations[index + 1]? = some former)
    (leads : Leads context (index + 1 < ·.manager.depth) first last)
    (stays : index + 1 < last.manager.depth) :
    WaitsFor index former.parameterSlots last := by
  have reachedLast := leads.reached reached
  have below : index < last.manager.activations.size := Nat.lt_of_succ_lt stays
  have isBelow : last.manager.activations[index]? =
      some last.manager.activations[index] :=
    Array.getElem?_eq_getElem below
  refine ⟨⟨_, isBelow, (reachedLast.followsProtocol.waiting index _ isBelow
    stays).1⟩, fun latter isLatter => ?_⟩
  exact Nat.le_of_eq
    (sameFrame_of_leads x86 reached found leads isLatter).parameterSlots

/-- So it does at all the calls that are made meanwhile. -/
theorem leads_waitsFor
    (x86 : context.env.layout = .x86_64)
    (reached : Reached context first)
    (found : first.manager.activations[index + 1]? = some former)
    (leads : Leads context (index + 1 < ·.manager.depth) first last) :
    Leads context (WaitsFor index former.parameterSlots) first last := by
  induction leads with
  | refl => exact .refl _
  | call leads stays call acts performed inductionHypothesis =>
      exact inductionHypothesis.call
        (waitsFor_of_leads x86 reached found leads stays) call acts performed

end Staying

end Session

/-- A step in which an activation posts a call, and the service of that call. -/
structure CallStep
    (context : ManagerContext τ)
    (index : Nat)
    (caller : HeldActivation)
    (call : CallRequest)
    (posted served : Session τ) :
    Prop where
  steps : ∃ (before : Session τ) (engine : Engine τ) (message : Message)
      (outcome : StepOutcome),
    Reached context before ∧ ActsThroughActivation engine ∧
      message.isCall = true ∧
      (Session.advance context engine).Gives before (index, message) posted ∧
      (Session.serve context index message).Gives posted outcome served
  found : posted.manager.activations[index]? = some caller
  payload : caller.activation.payload = .call call

/-- What a call leaves: the callee on its caller, which sits as it posted the call. -/
theorem CallStep.callee
    {context : ManagerContext τ}
    {index : Nat}
    {caller : HeldActivation}
    {call : CallRequest}
    {posted served : Session τ}
    {callee : Method}
    (calls : CallStep context index caller call posted served)
    (x86 : context.env.layout = .x86_64)
    (calleeFound : context.env.methods.find? call.callee = some callee) :
    ∃ (lower : Array HeldActivation) (fresh : Activation),
      posted.manager.activations = lower.push caller ∧ lower.size = index ∧
        served.manager.activations = (lower.push caller).push
          ⟨fresh, callee.parameterSlots⟩ ∧
        fresh.method = callee.id ∧
        caller.activation.Sits posted.machine.stack := by
  obtain ⟨before, engine, message, outcome, reached, acts, isCall, advanced,
    serves⟩ := calls.steps
  obtain ⟨rest, held, turn, posts, advances⟩ :=
    Session.advances_of_gives advanced
  obtain ⟨rfl, rfl⟩ := Prod.mk.inj posts
  have stands := (advances.poses reached.followsProtocol acts).stands
  have callerIs := calls.found
  rw [stands, Array.getElem?_push_size] at callerIs
  obtain rfl := Option.some.inj callerIs
  have callerStands : before.manager.activations[rest.size]? = some held := by
    rw [advances.stands, Array.getElem?_push_size]
  obtain ⟨entry, isEntry⟩ :=
    Option.isSome_iff_exists.mp (reached.entered callerStands)
  have sits := (advances.chained x86 (reached.stacked x86) isEntry acts).1.sits
  rw [Session.serve_of_isCall isCall] at serves
  obtain ⟨waiting, other, method, depth, pushed, laid, fresh, stack, waitingIs,
    isCallRequest, found, counted, enough, pushedGives, freshIs, -, settles, -⟩ :=
    Session.gives_serveCall serves
  obtain rfl := Option.some.inj ((activation?_of_push stands).symm.trans waitingIs)
  rw [calls.payload] at isCallRequest
  obtain rfl := Except.ok.inj isCallRequest
  obtain rfl := Option.some.inj (calleeFound.symm.trans found)
  have roomy := sits.arguments_le counted enough
  obtain ⟨placement, made, rfl, managed, -, shaped⟩ :=
    Session.laysOut_of_pushActivation x86 pushedGives sits.covers_top
      (Nat.le_trans roomy (Nat.le_trans sits.monitorEnd_le_ceiling
        sits.ceiling_le_base))
  have laidStands : laid.manager.activations = posted.manager.activations.push
      ⟨made, callee.parameterSlots⟩ := by
    rw [managed]
  obtain rfl := Option.some.inj
    ((activation?_of_push laidStands).symm.trans freshIs)
  obtain ⟨_, _, -, shape⟩ := Activation.ofShape_eq_ok shaped
  refine ⟨rest, Session.resumed made .methodEntry, stands, rfl, ?_, ?_, sits⟩
  · rw [settles.managed, withActivation_of_push laidStands, stands]
  · rw [shape]
    rfl

/-- A result has two words at most. -/
theorem ReturnKind.words_le (kind : ReturnKind) : kind.words ≤ 2 := by
  cases kind <;> decide

/-- An engine that runs on the top returns a result from it. -/
structure Returns
    (engine : Engine τ)
    (before : Session τ)
    (rest : Array HeldActivation)
    (held : HeldActivation)
    (kind : ReturnKind)
    (result : List Word) :
    Prop where
  acts : ActsThroughActivation engine
  stands : before.manager.activations = rest.push held
  isResponse : held.activation.message.isResponse = true
  counted : result.length = kind.words
  posts : ∃ (turn : Turn τ) (below : List Word),
    engine.Gives ⟨before.own, held.activation, before.machine.stack⟩ () turn ∧
      turn.workspace.activation.message = .returnFromMethod ∧
      turn.workspace.activation.payload = .returning kind ∧
      turn.workspace.activation.HoldsEntries turn.workspace.stack
        (result ++ below)

/-- Calls that are posted are made in sessions that are reached. -/
theorem CallStep.reached
    {context : ManagerContext τ}
    {index : Nat}
    {caller : HeldActivation}
    {call : CallRequest}
    {posted served : Session τ}
    (calls : CallStep context index caller call posted served) :
    Reached context served := by
  obtain ⟨before, engine, message, outcome, reached, acts, -, advanced, serves⟩ :=
    calls.steps
  refine reached.call (.step engine) acts
    (gives_bind.mpr ⟨outcome, served, ?_, gives_pure.mpr ⟨rfl, rfl⟩⟩)
  rw [Session.step_eq]
  exact gives_bind.mpr ⟨_, posted, advanced, serves⟩

/-- While what it called is there, a caller and its entries are left alone. -/
theorem CallStep.spares
    {context : ManagerContext τ}
    {index : Nat}
    {caller : HeldActivation}
    {call : CallRequest}
    {posted served last : Session τ}
    {callee : Method}
    (calls : CallStep context index caller call posted served)
    (x86 : context.env.layout = .x86_64)
    (calleeFound : context.env.methods.find? call.callee = some callee)
    (leads : Leads context (index + 1 < ·.manager.depth) served last)
    {rest : Array HeldActivation}
    {held : HeldActivation}
    (stands : last.manager.activations = rest.push held)
    (onCaller : rest.size = index + 1) :
    rest = posted.manager.activations ∧
      held.parameterSlots = callee.parameterSlots ∧
      held.activation.method = callee.id ∧
      Stack.Keeps
        (caller.activation.stackTop.toNat + 8 * callee.parameterSlots ≤ ·)
        posted.machine.stack last.machine.stack := by
  have reachedServed := calls.reached
  obtain ⟨lower, fresh, postedStands, rfl, servedStands, freshMethod, -⟩ :=
    calls.callee x86 calleeFound
  obtain ⟨before, engine, message, outcome, reached, acts, isCall, advanced,
    serves⟩ := calls.steps
  have calleeIs : served.manager.activations[lower.size + 1]? =
      some ⟨fresh, callee.parameterSlots⟩ := by
    rw [servedStands, ← Array.size_push caller, Array.getElem?_push_size]
  have callerIs : served.manager.activations[lower.size]? = some caller := by
    rw [servedStands, Array.getElem?_push, if_neg (by simp),
      Array.getElem?_push_size]
  have stays : lower.size + 1 < last.manager.depth := by
    rw [depth_of_push stands]
    omega
  have waits := Session.waitsFor_of_leads x86 reachedServed calleeIs (.refl _)
    (by rw [depth_of_push servedStands]; simp)
  have waitsLast := Session.waitsFor_of_leads x86 reachedServed calleeIs leads
    stays
  obtain ⟨-, sameCalled, keptCalled⟩ := Session.spares_of_called x86 reached acts
    advanced isCall serves calls.found waits
  obtain ⟨same, kept⟩ := Session.spares_of_leads x86 reachedServed callerIs
    (Session.leads_waitsFor x86 reachedServed calleeIs leads) waitsLast
  have heldIs : last.manager.activations[lower.size + 1]? = some held := by
    rw [stands, ← onCaller, Array.getElem?_push_size]
  have sameFrame :=
    Session.sameFrame_of_leads x86 reachedServed calleeIs leads heldIs
  refine ⟨Array.ext_getElem? fun position => ?_, sameFrame.parameterSlots,
    sameFrame.method.trans freshMethod, keptCalled.trans kept⟩
  rcases Nat.lt_or_ge lower.size position with above | atMost
  · rw [Array.getElem?_eq_none (by omega), Array.getElem?_eq_none (by
      rw [postedStands, Array.size_push]
      omega)]
  · rw [← sameCalled position atMost, ← same position atMost, stands,
      Array.getElem?_push, if_neg (by omega)]

section Law

variable {context : ManagerContext τ} {posted served last : Session τ}
  {engine : Engine τ} {index : Nat} {rest : Array HeldActivation}
  {caller held : HeldActivation} {call : CallRequest} {callee method : Method}
  {entries result : List Word}

/--
A call that returns is a call with a result in the place of its arguments.

The callee may have run for long and called others in the meantime, as long as it was
not left.
-/
theorem returns_into_caller
    (x86 : context.env.layout = .x86_64)
    (unprofiled : context.env.diagnostics.profileInterpreter = false)
    (calls : CallStep context index caller call posted served)
    (holds : caller.activation.HoldsEntries posted.machine.stack entries)
    (calleeFound : context.env.methods.find? call.callee = some callee)
    (callerFound : context.env.methods.find? caller.activation.method =
      some method)
    (sane : method.maxStack.toNat < 0x1000000000000000)
    (leads : Leads context (index + 1 < ·.manager.depth) served last)
    (onCaller : rest.size = index + 1)
    (returns : Returns engine last rest held (.ofType callee.resultType) result)
    (fits : entries.length - callee.parameterSlots + result.length ≤
      method.maxStack.toNat)
    (inside : caller.activation.bcp.toNat + call.advance.toNat < UInt64.size) :
    ∃ (after : Session τ) (lower : Array HeldActivation)
        (resumed : HeldActivation),
      (Session.step context engine).Gives last
          (.resumed (index + 1) .methodResume) after ∧
        posted.manager.activations = lower.push caller ∧
        after.manager.activations = lower.push resumed ∧
        caller.GoesOn posted.machine.stack after.machine.stack
          (caller.activation.bcp + call.advance.toUInt64)
          (result ++ entries.drop callee.parameterSlots) resumed ∧
        after.machine.thread.anchor =
          Session.anchorFor context (some resumed.activation) := by
  have reached := leads.reached calls.reached
  obtain ⟨rfl, parameters, sameMethod, kept⟩ :=
    calls.spares x86 calleeFound leads returns.stands onCaller
  obtain ⟨lower, fresh, postedStands, rfl, -, -, sits⟩ :=
    calls.callee x86 calleeFound
  have stands := returns.stands
  rw [postedStands] at stands
  obtain ⟨turn, below, turned, message, payload, holdsResult⟩ := returns.posts
  obtain ⟨ready, advanced, advances⟩ := Session.exists_gives_advance x86
    unprofiled reached returns.acts stands returns.isResponse turned
    (by rw [message]; rfl)
  obtain ⟨entry, waits, rests, callerRests, ceiling, keptOn⟩ :=
    advances.over_caller x86 reached returns.acts
  rw [parameters] at ceiling keptOn
  have keeps := kept.trans keptOn
  obtain ⟨length, words⟩ := sits.holdsEntries_iff.mp holds
  have poses := advances.poses reached.followsProtocol returns.acts
  have workedSits := Session.sits_of_turned x86 reached returns.acts stands turned
  have sameWorked : turn.workspace.activation.method = callee.id :=
    (advances.works returns.acts).seat.method.trans sameMethod
  have takes : Workspace.TakesResult ready.machine.stack caller.activation
      callee.parameterSlots result (entries.drop callee.parameterSlots) := by
    have arguments := rests.arguments_le
    dsimp only at arguments
    rw [parameters] at arguments
    have low := rests.sits.low
    rw [(advances.sameFrame returns.acts).ceiling] at low
    obtain ⟨other, otherFound, -, -, room⟩ := callerRests.runs
    obtain rfl := Option.some.inj (callerFound.symm.trans otherFound)
    have extent := (room sane).extent
    have counted := returns.counted
    have words_le := (ReturnKind.ofType callee.resultType).words_le
    refine ⟨callerRests.sits, ?_, fun position word found => ?_, ?_, ?_⟩
    · rw [List.length_drop]
      omega
    · rw [List.getElem?_drop] at found
      refine keeps.holds (words _ word found) ?_
      have shorter := (List.getElem?_eq_some_iff.mp found).1
      rw [Activation.toNat_entry (by omega)]
      omega
    · omega
    · omega
  obtain ⟨after, resumed, delivers, chain, goesOn, anchored⟩ :=
    Session.exists_gives_returnIntoCaller
      (ready.withActivations (lower.push caller)) x86 unprofiled
      advances.publishes.interpreter rfl waits.1 calls.payload takes inside
  refine ⟨after, lower, resumed, ?_, postedStands, chain,
    goesOn.since callerRests.sits (keeps.mono fun _ above => ?_), anchored⟩
  · rw [Session.step_eq]
    refine gives_bind.mpr ⟨_, ready, advanced, ?_⟩
    rw [message]
    have beside := advances.publishes.keeps_beside x86 workedSits
    rw [← parameters] at delivers
    have served := Session.ending_serveReturn poses.stands payload
      (sameWorked ▸ MethodTable.find?_id calleeFound) rfl rests.sits
      (holdsResult.of_keeps workedSits beside fun _ _ below => .inl
        (Nat.lt_of_lt_of_le below workedSits.monitorEndLe))
      returns.counted
    rw [poses.caller.trans (predecessor?_push lower caller)] at served
    exact gives_of_ending (served.trans (ending_of_gives delivers))
  · have extent := takes.extent
    omega

end Law

/-- An engine can return what is on top, if it was handed the activation. -/
theorem returns_of_requestReturn
    {before : Session τ}
    {rest : Array HeldActivation}
    {held : HeldActivation}
    {kind : ReturnKind}
    {result below : List Word}
    (stands : before.manager.activations = rest.push held)
    (isResponse : held.activation.message.isResponse = true)
    (counted : result.length = kind.words)
    (holds : held.activation.HoldsEntries before.machine.stack
      (result ++ below)) :
    Returns (Turn.onWorkspace (Workspace.requestReturn kind)) before rest held
      kind result where
  acts := .offered (.requestReturn kind)
  stands := stands
  isResponse := isResponse
  counted := counted
  posts := ⟨_, below, gives_onPart.mpr
    ⟨_, Workspace.post_of_response rfl isResponse, rfl⟩, rfl, rfl, holds⟩

/-!
A method that asks another one for a long, above an entry that it keeps.
-/

namespace Asking

/-- A method that computes a long. -/
def clock : Method where
  id := 0x500008
  name := "Clock.now"
  signature := ⟨[], .long⟩
  codeBase := 0x610000
  codeSize := 16
  maxStack := 2
  isStatic := true
  masks := [(0, ⟨[], []⟩)]

/-- A method that asks for it. -/
def asker : Method where
  id := 0x500000
  name := "Main.run"
  signature := ⟨[], .void⟩
  codeBase := 0x600000
  codeSize := 16
  maxStack := 3
  isStatic := true
  masks := [(0, ⟨[], []⟩)]
  invokes := [(0, ⟨⟨[], .long⟩, false, 3⟩)]

def context : ManagerContext Unit where
  env := { Pair.context.env with methods := ⟨[asker, clock]⟩ }
  entryPoints := Pair.context.entryPoints
  osrHandler := none

/-- Push an entry, and call the other method. -/
def ask : Engine Unit :=
  (Turn.onWorkspace (Workspace.push 0x700000)).andThen fun _ =>
    Turn.onWorkspace (Workspace.requestCall ⟨0x500008, 0x1200, 3⟩)

/-- Push the two words of a long, and ask for a monitor. -/
def work : Engine Unit :=
  (Turn.onWorkspace (Workspace.push 0x1)).andThen fun _ =>
    (Turn.onWorkspace (Workspace.push 0x2)).andThen fun _ =>
      Turn.onWorkspace Workspace.requestMonitor

/-- Return the long. -/
def answer : Engine Unit :=
  Turn.onWorkspace (Workspace.requestReturn .long)

theorem acts_ask : ActsThroughActivation ask :=
  .andThen (.offered (.push _)) fun _ => .offered (.requestCall _)

theorem acts_work : ActsThroughActivation work :=
  .andThen (.offered (.push _)) fun _ => .andThen (.offered (.push _)) fun _ =>
    .offered .requestMonitor

def calls : List (Call Unit) :=
  [.setUp Pair.idle, .start 0x500000 [] []]

theorem ran : (Call.runAll? context calls Pair.fresh).isSome = true := by
  decide +kernel

/-- The session in which the asking method has been entered. -/
def started : Session Unit :=
  (Call.runAll? context calls Pair.fresh).get ran

theorem reached_started : Reached context started :=
  (Reached.fresh rfl).of_runAll?
    (by simpa [calls, Call.Acts] using .probe _) (Option.some_get ran).symm

/-- The session in which it has posted its call. -/
def posted : Session Unit :=
  (Session.advance context ask started).2

/-- The session in which the other method has been entered. -/
def served : Session Unit :=
  (Session.serve context 0 .callMethod posted).2

/-- The session in which that method has its long and a monitor. -/
def worked : Session Unit :=
  (Session.step context work served).2

/-- The long comes onto the entry, although there were no arguments in its place. -/
theorem returns_long :
    context.env.layout = .x86_64 ∧
      ∃ (caller : HeldActivation) (after : Session Unit)
          (resumed : HeldActivation),
        caller.activation.HoldsEntries posted.machine.stack [0x700000] ∧
          (Session.step context answer).Gives worked (.resumed 1 .methodResume)
            after ∧
          caller.GoesOn posted.machine.stack after.machine.stack 0x600003
            [0x2, 0x1, 0x700000] resumed := by
  obtain ⟨caller, held, stands⟩ :=
    eq_push_of_size_two (by decide +kernel : worked.manager.activations.size = 2)
  obtain ⟨asking, found⟩ : ∃ asking, posted.manager.activations[0]? = some asking :=
    Option.isSome_iff_exists.mp (by decide +kernel)
  have below : posted.manager.activations[0]?.all (fun caller =>
      decide (caller.activation.HoldsEntries posted.machine.stack [0x700000]) &&
        caller.activation.payload == .call ⟨0x500008, 0x1200, 3⟩ &&
        caller.activation.bcp == 0x600000 &&
        caller.activation.method == 0x500000) = true := by
    decide +kernel
  have above : worked.manager.activations[1]?.all (fun held =>
      decide (held.activation.HoldsEntries worked.machine.stack [0x2, 0x1]) &&
        held.activation.message.isResponse) = true := by
    decide +kernel
  simp only [stands, found, Array.getElem?_push, Array.size_push,
    List.size_toArray, List.length_nil, Nat.zero_add, reduceIte, Option.all_some,
    Bool.and_eq_true, decide_eq_true_eq, beq_iff_eq] at below above
  obtain ⟨⟨⟨holds, payload⟩, bcp⟩, isMethod⟩ := below
  have calls : CallStep context 0 asking ⟨0x500008, 0x1200, 3⟩ posted served := {
    steps := ⟨started, ask, .callMethod, .called 2, reached_started, acts_ask, rfl,
      gives_of_toOption (by decide +kernel), gives_of_toOption (by decide +kernel)⟩
    found := found
    payload := payload }
  have workGives : (Session.step context work).Gives served
      (.resumed 2 .gotMonitors) worked :=
    gives_of_toOption (by decide +kernel)
  have leads : Leads context (0 + 1 < ·.manager.depth) served worked :=
    .call (.refl _) (by decide +kernel) (.step work) acts_work
      (gives_bind.mpr ⟨_, _, workGives, gives_pure.mpr ⟨rfl, rfl⟩⟩)
  have returns : Returns answer worked (#[].push caller) held .long [0x2, 0x1] :=
    returns_of_requestReturn stands above.2 rfl above.1
  obtain ⟨after, lower, resumed, stepped, -, -, goesOn, -⟩ :=
    returns_into_caller rfl rfl calls holds
      (by decide +kernel : context.env.methods.find? 0x500008 = some clock)
      (by rw [isMethod]; decide +kernel :
        context.env.methods.find? asking.activation.method = some asker)
      (by decide +kernel)
      leads rfl returns (by decide +kernel) (by rw [bcp]; decide)
  rw [bcp] at goesOn
  exact ⟨rfl, asking, after, resumed, holds, stepped, goesOn⟩

end Asking

end ManagedStack
