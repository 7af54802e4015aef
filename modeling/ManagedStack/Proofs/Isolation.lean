import ManagedStack.Proofs.Touching

namespace ManagedStack

/-!
# Isolation of those that wait

While an activation waits on a call, whatever is called does not reach it: neither
its registers change, nor any word at or above the arguments that it has passed on.
The arguments are the callee's to change, as its locals.  The same holds of the whole
chain and of what was on the stack before it was entered.
-/

open Operation FrameManager

/-- A chain goes on below any of its activations. -/
theorem Chained.of_append
    {context : ManagerContext τ}
    {stack : Stack}
    {entry : EntryRecord}
    {upper chain : List HeldActivation}
    (chained : Chained context stack entry (upper ++ chain)) :
    Chained context stack entry chain := by
  induction upper with
  | nil => exact chained
  | cons held rest inductionHypothesis => exact inductionHypothesis chained.2.2

namespace Session

variable {context : ManagerContext τ}

/-- An activation rests on those below it, and is published. -/
theorem Stacked.rests_at
    {session : Session τ}
    {entry : EntryRecord}
    {index : Nat}
    {held : HeldActivation}
    (stacked : Stacked context session)
    (isEntry : session.manager.entry = some entry)
    (found : session.manager.activations[index]? = some held) :
    Rests context session.machine.stack entry held
        (session.manager.activations.toList.take index).reverse ∧
      held.activation.Published session.machine.stack := by
  have chained := stacked.chained entry isEntry
  rw [← Array.getElem?_toList] at found
  obtain ⟨inside, rfl⟩ := List.getElem?_eq_some_iff.mp found
  have split := List.take_append_drop (index + 1)
    session.manager.activations.toList
  rw [← split, List.reverse_append, List.take_succ_eq_append_getElem inside,
    List.reverse_append] at chained
  obtain ⟨rests, published, -⟩ := chained.of_append
  exact ⟨rests, published⟩

/-- An activation ends as far above its caller's top as its parameters reach. -/
theorem Stacked.ceiling_eq
    {session : Session τ}
    {index : Nat}
    {caller held : HeldActivation}
    (stacked : Stacked context session)
    (entered : session.manager.entry.isSome = true)
    (callerFound : session.manager.activations[index]? = some caller)
    (found : session.manager.activations[index + 1]? = some held) :
    held.activation.ceiling =
      caller.activation.stackTop.toNat + 8 * held.parameterSlots := by
  obtain ⟨entry, isEntry⟩ := Option.isSome_iff_exists.mp entered
  obtain ⟨rests, -⟩ := stacked.rests_at isEntry found
  rw [← Array.getElem?_toList] at callerFound
  obtain ⟨inside, rfl⟩ := List.getElem?_eq_some_iff.mp callerFound
  have top := rests.arguments session.manager.activations.toList[index] (by
    rw [List.take_succ_eq_append_getElem inside]
    simp)
  rw [top, HeldActivation.toNat_argumentTop rests.sits rests.laid.parameters]

end Session

/-- Calls that all succeeded, each of them made while a property held. -/
inductive Leads
    (context : ManagerContext τ)
    (during : Session τ → Prop) :
    Session τ → Session τ → Prop where
  | refl (session : Session τ) : Leads context during session session
  | call
      {first before after : Session τ}
      {result : Option StepOutcome}
      (leads : Leads context during first before)
      (holds : during before)
      (call : Call τ)
      (acts : call.Acts)
      (performed : (call.perform context).Gives before result after) :
      Leads context during first after

/-- Calls lead from sessions that are reached to such sessions. -/
theorem Leads.reached
    {context : ManagerContext τ}
    {during : Session τ → Prop}
    {first last : Session τ}
    (leads : Leads context during first last)
    (reached : Reached context first) :
    Reached context last := by
  induction leads with
  | refl => exact reached
  | call _ _ call acts performed inductionHypothesis =>
      exact inductionHypothesis.call call acts performed

/-- Something is in progress wherever there is an activation. -/
theorem Reached.entered
    {context : ManagerContext τ}
    {session : Session τ}
    {index : Nat}
    {held : HeldActivation}
    (reached : Reached context session)
    (found : session.manager.activations[index]? = some held) :
    session.manager.entry.isSome = true := by
  obtain ⟨inside, -⟩ := Array.getElem?_eq_some_iff.mp found
  refine reached.followsProtocol.entry.mpr (.inl ?_)
  unfold FrameManager.depth
  omega

namespace Session

variable {context : ManagerContext τ} {first last : Session τ} {index : Nat}

/-- An activation waits, and what it called takes at most so many of its words. -/
structure WaitsFor
    (index parameters : Nat)
    (session : Session τ) :
    Prop where
  awaits : Awaits index session
  taken : ∀ callee ∈ session.manager.activations[index + 1]?,
    callee.parameterSlots ≤ parameters

instance
    (index parameters : Nat)
    (session : Session τ) :
    Decidable (WaitsFor index parameters session) :=
  decidable_of_iff
    (session.manager.activations[index]?.any
        (·.activation.message.isCall) = true ∧
      session.manager.activations[index + 1]?.all
        (decide <| ·.parameterSlots ≤ parameters) = true) (by
    rw [Option.any_eq_true, Option.all_eq_true]
    simp only [decide_eq_true_eq]
    exact ⟨fun ⟨awaits, taken⟩ => ⟨awaits, fun callee => taken callee⟩,
      fun waits => ⟨waits.awaits, fun callee => waits.taken callee⟩⟩)

/-- What a waiting activation called ends with the arguments at the latest. -/
theorem WaitsFor.caps
    {session : Session τ}
    {parameters : Nat}
    {caller : HeldActivation}
    (waits : WaitsFor index parameters session)
    (stacked : Stacked context session)
    (entered : session.manager.entry.isSome = true)
    (found : session.manager.activations[index]? = some caller) :
    Caps (caller.activation.stackTop.toNat + 8 * parameters) (index + 1)
      session := by
  refine stacked.caps entered fun callee isCallee => ?_
  have atMost := waits.taken callee isCallee
  rw [stacked.ceiling_eq entered found isCallee]
  omega

/-- As long as an activation waits, nothing of it and of those below it changes. -/
theorem spares_of_leads
    {parameters : Nat}
    {caller : HeldActivation}
    (x86 : context.env.layout = .x86_64)
    (reached : Reached context first)
    (found : first.manager.activations[index]? = some caller)
    (leads : Leads context (WaitsFor index parameters) first last)
    (waits : WaitsFor index parameters last) :
    (∀ position ≤ index,
        last.manager.activations[position]? =
          first.manager.activations[position]?) ∧
      Stack.Keeps
        (caller.activation.stackTop.toNat + 8 * parameters ≤ ·)
        first.machine.stack last.machine.stack := by
  induction leads with
  | refl => exact ⟨fun _ _ => rfl, .refl _⟩
  | @call before after _ leads holds call acts performed inductionHypothesis =>
      obtain ⟨same, keeps⟩ := inductionHypothesis holds
      have reachedBefore := leads.reached reached
      have reachedAfter := reachedBefore.call call acts performed
      have foundBefore : before.manager.activations[index]? = some caller := by
        rw [same index (Nat.le_refl _), found]
      have entered := reachedBefore.entered foundBefore
      have stacked := reachedBefore.stacked x86
      obtain ⟨position, touches⟩ := touches_call x86
        reachedBefore.followsProtocol stacked entered acts performed
      have above := touches.lt_of_awaits holds.awaits waits.awaits
      have foundAfter : after.manager.activations[index]? = some caller := by
        rw [touches.below index above, foundBefore]
      have capped := holds.caps stacked entered foundBefore
      have cappedAfter := waits.caps (reachedAfter.stacked x86)
        (reachedAfter.entered foundAfter) foundAfter
      refine ⟨fun lower atMost => ?_, keeps.trans (touches.keeps _ ?_ ?_)⟩
      · rw [touches.below lower (by omega), same lower atMost]
      · exact fun other held high => capped other held (by omega)
      · exact fun other held high => cappedAfter other held (by omega)

/-- What holds wherever the calls lead to held from the first on. -/
theorem holds_first_of_leads
    {during : Session τ → Prop}
    (leads : Leads context during first last)
    (holds : during last) :
    during first := by
  induction leads with
  | refl => exact holds
  | call _ holdsBefore _ _ _ inductionHypothesis =>
      exact inductionHypothesis holdsBefore

section Calling

variable {before ready : Session τ} {engine : Engine τ} {message : Message}
  {outcome : StepOutcome} {caller : HeldActivation} {parameters : Nat}

/-- Whatever way a call is asked for, it is served the same. -/
theorem serve_of_isCall (isCall : message.isCall = true) :
    serve context index message = serveCall context index := by
  revert isCall
  cases message <;> intro isCall <;> first | rfl | cases isCall

/--
Serving a call leaves the caller, and what it has beyond the arguments.  A call
touches nothing but the activation that it adds.
-/
theorem spares_of_called
    (x86 : context.env.layout = .x86_64)
    (reached : Reached context before)
    (acts : ActsThroughActivation engine)
    (advanced : (advance context engine).Gives before (index, message) ready)
    (isCall : message.isCall = true)
    (served : (serve context index message).Gives ready outcome first)
    (found : ready.manager.activations[index]? = some caller)
    (waits : WaitsFor index parameters first) :
    Reached context first ∧
      (∀ position ≤ index, first.manager.activations[position]? =
        ready.manager.activations[position]?) ∧
      Stack.Keeps
        (caller.activation.stackTop.toNat + 8 * parameters ≤ ·)
        ready.machine.stack first.machine.stack := by
  have stepped : (step context engine).Gives before outcome first := by
    rw [step_eq]
    exact gives_bind.mpr ⟨_, ready, advanced, served⟩
  have reachedFirst : Reached context first :=
    reached.call (.step engine) acts
      (gives_bind.mpr ⟨_, _, stepped, gives_pure.mpr ⟨rfl, rfl⟩⟩)
  obtain ⟨rest, held, turn, posted, advances⟩ := advances_of_gives advanced
  obtain ⟨rfl, rfl⟩ := Prod.mk.inj posted
  have poses := advances.poses reached.followsProtocol acts
  obtain ⟨entry, isEntry⟩ := Option.isSome_iff_exists.mp poses.entry
  rw [advances.managed] at isEntry
  have chained := advances.chained x86 (reached.stacked x86) isEntry acts
  have called : (serveCall context rest.size).Gives ready outcome first := by
    rwa [serve_of_isCall isCall] at served
  have touches := touches_serveCall x86 poses chained called
  have foundFirst : first.manager.activations[rest.size]? = some caller := by
    rw [touches.below _ (Nat.lt_succ_self _), found]
  have capped := waits.caps (reachedFirst.stacked x86)
    (reachedFirst.entered foundFirst) foundFirst
  refine ⟨reachedFirst, fun position atMost => touches.below _ (by omega),
    touches.keeps _ ?_ capped⟩
  intro other above high there
  obtain ⟨inside, -⟩ := Array.getElem?_eq_some_iff.mp there
  rw [poses.stands, Array.size_push] at inside
  omega

/--
The run of an engine above a waiting activation does not reach it.  The top is ready
to go on, so that it is not the one that waits.
-/
theorem spares_of_advance
    {posted : Nat × Message}
    (x86 : context.env.layout = .x86_64)
    (reached : Reached context before)
    (acts : ActsThroughActivation engine)
    (waits : WaitsFor index parameters before)
    (found : before.manager.activations[index]? = some caller)
    (advanced : (advance context engine).Gives before posted ready) :
    (∀ position ≤ index, ready.manager.activations[position]? =
        before.manager.activations[position]?) ∧
      Stack.Keeps
        (caller.activation.stackTop.toNat + 8 * parameters ≤ ·)
        before.machine.stack ready.machine.stack := by
  have stacked := reached.stacked x86
  obtain ⟨rest, held, turn, -, advances⟩ := advances_of_gives advanced
  have stands := advances.stands
  obtain ⟨entry, isEntry⟩ := Option.isSome_iff_exists.mp (reached.entered found)
  have keeps := advances.keeps x86 stacked isEntry acts
  obtain ⟨waiting, waitingFound, isCall⟩ := waits.awaits
  obtain ⟨inside, -⟩ := Array.getElem?_eq_some_iff.mp waitingFound
  rw [stands, Array.size_push] at inside
  have above : index < rest.size := by
    rcases Nat.lt_or_ge index rest.size with lower | higher
    · exact lower
    · obtain rfl : index = rest.size := by omega
      rw [stands, Array.getElem?_push_size] at waitingFound
      obtain rfl := Option.some.inj waitingFound
      rw [Message.isCall_of_isResponse advances.isResponse] at isCall
      cases isCall
  have atMost := waits.caps stacked (reached.entered found) found rest.size held
    above (by simp [stands])
  refine ⟨fun position lower => ?_, keeps.mono fun place high =>
    Nat.le_trans atMost high⟩
  rw [advances.managed, stands, Array.getElem?_push, Array.getElem?_push,
    if_neg (by omega), if_neg (by omega)]

end Calling

section Entry

variable {before : Session τ} {methodWord : Word}
  {arguments handles : List Word}

/-- Where a start begins to lay out: below the last managed frame, if there is one. -/
def startTop (machine : Machine) : Address :=
  if machine.thread.anchor.isEmpty then
    machine.stack.base
  else
    machine.thread.anchor.sp

/-- A start lays its entry out below where it begins, and all that follows below the entry. -/
theorem laysEntry_of_start
    {value : Unit}
    (x86 : context.env.layout = .x86_64)
    (gives : (start context methodWord arguments handles).Gives
      before value first) :
    ∃ wrapper argumentTop entered,
      first.manager.entry = some ⟨wrapper, before.machine.thread.anchor⟩ ∧
        wrapper = (startTop before.machine).offset
          (-(5 + handles.length : Nat)) ∧
        LaysEntry wrapper argumentTop methodWord before.machine.thread.anchor
          arguments handles before.machine.stack entered ∧
        Stack.Keeps
          (EntryRecord.floor ⟨wrapper, before.machine.thread.anchor⟩ ≤ ·)
          entered first.machine.stack := by
  obtain ⟨callee, wrapper, fixed, words, argumentTop, entered, pushed, laid,
    fresh, stack, -, -, -, count, wrapperIs, isFixed, isWords, isTop, written,
    pushedGives, freshFound, publishes, settles⟩ := gives_start gives
  rw [x86] at isFixed written
  have laysEntry : LaysEntry wrapper argumentTop methodWord
      before.machine.thread.anchor arguments handles before.machine.stack
      entered :=
    .of_start isFixed count isWords isTop wrapperIs written
  obtain ⟨stands, topCovers, place⟩ := stands_of_entry laysEntry
  have highest := stands.toNat_framePointer
  rw [count] at place
  have covered : entered.Covers argumentTop := topCovers
  have inside : argumentTop.toNat + 8 * callee.parameterSlots ≤
      entered.base.toNat := by
    obtain ⟨handleCount, -, above, -⟩ := stands.handles
    simp only [EntryRecord.floor] at place highest
    dsimp only at above
    omega
  obtain ⟨managed, ceiling, keeps⟩ := keeps_of_begun x86 pushedGives covered inside
    freshFound publishes settles
  refine ⟨wrapper, argumentTop, entered, ?_, wrapperIs, laysEntry, keeps.mono ?_⟩
  · rw [managed]
  · exact fun position above => by omega

/--
A start writes below where it begins, and so lies what the entry owns.  The last
handle is right below the place where the start begins.
-/
theorem keeps_of_start
    {value : Unit}
    (x86 : context.env.layout = .x86_64)
    (gives : (start context methodWord arguments handles).Gives
      before value first) :
    Stack.Keeps ((startTop before.machine).toNat ≤ ·)
        before.machine.stack first.machine.stack ∧
      ∀ entry ∈ first.manager.entry,
        entry.floor ≤ (startTop before.machine).toNat := by
  obtain ⟨wrapper, argumentTop, entered, isFirst, isWrapper, laysEntry, keeps⟩ :=
    laysEntry_of_start x86 gives
  obtain ⟨stands, -, -⟩ := stands_of_entry laysEntry
  have highest := stands.toNat_framePointer
  have frame : EntryRecord.floor ⟨wrapper, before.machine.thread.anchor⟩ + 64 =
      wrapper.toNat := by
    have low : entered.limit.toNat + 64 ≤ wrapper.toNat := stands.low
    simp only [EntryRecord.floor] at highest ⊢
    omega
  have topIs : (startTop before.machine).toNat =
      wrapper.toNat + 8 * (5 + handles.length) := by
    have last := toNat_offset_of_entry laysEntry (4 + handles.length) (by omega)
    obtain ⟨_, -, lastBelow⟩ := (covers_of_entry laysEntry).1
      (4 + handles.length) (by omega) (Int.le_refl _)
    have baseSmall := before.machine.stack.base_le
    have moved := Word.toNat_offset (startTop before.machine)
      (-(5 + handles.length : Nat))
    have small := (startTop before.machine).toNat_lt
    rw [← isWrapper] at moved
    omega
  rw [topIs]
  constructor
  · exact (keeps_of_entry laysEntry).trans
      (keeps.mono fun place above => by omega)
  · intro entry isEntry
    rw [isFirst] at isEntry
    obtain rfl := Option.some.inj isEntry
    omega

/-- As long as the entry frame is there, what it is laid out below stays. -/
theorem keeps_of_leads
    {level : Nat}
    (x86 : context.env.layout = .x86_64)
    (reached : Reached context first)
    (below : ∀ entry ∈ first.manager.entry, entry.floor ≤ level)
    (leads : Leads context (·.manager.entry.isSome = true) first last) :
    (∀ entry ∈ last.manager.entry, entry.floor ≤ level) ∧
      Stack.Keeps (level ≤ ·) first.machine.stack last.machine.stack := by
  induction leads with
  | refl => exact ⟨below, .refl _⟩
  | @call before after _ leads entered call acts performed inductionHypothesis =>
      obtain ⟨belowBefore, keeps⟩ := inductionHypothesis
      have reachedBefore := leads.reached reached
      have reachedAfter := reachedBefore.call call acts performed
      obtain ⟨position, touches⟩ := touches_call x86
        reachedBefore.followsProtocol (reachedBefore.stacked x86) entered acts
        performed
      have belowAfter : ∀ entry ∈ after.manager.entry, entry.floor ≤ level :=
        fun entry isEntry => belowBefore entry (touches.entry entry isEntry)
      have capped {session : Session τ}
          (reachable : Reached context session)
          (atMost : ∀ entry ∈ session.manager.entry, entry.floor ≤ level) :
          Caps level position session := by
        intro index held _ found
        obtain ⟨entry, isEntry⟩ :=
          Option.isSome_iff_exists.mp (reachable.entered found)
        have inEntry := (reachable.stacked x86).caps_floor isEntry index held
          (Nat.zero_le _) found
        exact Nat.le_trans inEntry (atMost entry isEntry)
      exact ⟨belowAfter, keeps.trans (touches.keeps level
        (capped reachedBefore belowBefore) (capped reachedAfter belowAfter))⟩

end Entry

end Session

open Session in
/-- What waits, and what was there before, is out of reach of what is called. -/
structure IsolatesCallers (context : ManagerContext τ) : Prop where
  /--
  From the service of an activation's call on, and until it goes on, no word at or
  above its top changes, the most words that a callee took from it excepted.
  -/
  waiting :
    ∀ {before ready first last : Session τ} {engine : Engine τ} {index : Nat}
      {message : Message} {outcome : StepOutcome} {caller : HeldActivation}
      {parameters : Nat},
      Reached context before →
      ActsThroughActivation engine →
      (advance context engine).Gives before (index, message) ready →
      message.isCall = true →
      (serve context index message).Gives ready outcome first →
      ready.manager.activations[index]? = some caller →
      Leads context (WaitsFor index parameters) first last →
      WaitsFor index parameters last →
      Stack.Keeps
          (caller.activation.stackTop.toNat + 8 * parameters ≤ ·)
          ready.machine.stack last.machine.stack ∧
        ∀ {engine : Engine τ} {posted : Nat × Message} {ran : Session τ},
          ActsThroughActivation engine →
          (advance context engine).Gives last posted ran →
          Stack.Keeps
            (caller.activation.stackTop.toNat + 8 * parameters ≤ ·)
            ready.machine.stack ran.machine.stack
  /--
  From a start on, through the call that ends what it began, no word at or above
  the address changes that it began to lay out from.
  -/
  entered :
    ∀ {before first last : Session τ} {methodWord : Word}
      {arguments handles : List Word},
      Reached context before →
      (start context methodWord arguments handles).Gives before () first →
      Leads context (·.manager.entry.isSome = true) first last →
      Stack.Keeps ((startTop before.machine).toNat ≤ ·)
        before.machine.stack last.machine.stack

/-- Whatever is called, nothing of it reaches those that wait for it. -/
theorem isolatesCallers_of_x86_64
    {context : ManagerContext τ}
    (x86 : context.env.layout = .x86_64) :
    IsolatesCallers context where
  waiting := by
    intro before ready first last engine index message outcome caller parameters
      reached acts advanced isCall served found leads waits
    obtain ⟨reachedFirst, same, called⟩ := Session.spares_of_called x86 reached
      acts advanced isCall served found
      (Session.holds_first_of_leads leads waits)
    have foundFirst : first.manager.activations[index]? = some caller := by
      rw [same index (Nat.le_refl _), found]
    obtain ⟨sameStill, kept⟩ :=
      Session.spares_of_leads x86 reachedFirst foundFirst leads waits
    have foundLast : last.manager.activations[index]? = some caller := by
      rw [sameStill index (Nat.le_refl _), foundFirst]
    refine ⟨called.trans kept, fun engineActs ran => ?_⟩
    obtain ⟨-, keptOn⟩ := Session.spares_of_advance x86
      (leads.reached reachedFirst) engineActs waits foundLast ran
    exact (called.trans kept).trans keptOn
  entered := by
    intro before first last methodWord arguments handles reached started leads
    have reachedFirst : Reached context first :=
      reached.call (.start methodWord arguments handles) trivial
        (gives_bind.mpr ⟨_, _, started, gives_pure.mpr ⟨rfl, rfl⟩⟩)
    obtain ⟨laid, below⟩ := Session.keeps_of_start x86 started
    exact laid.trans (Session.keeps_of_leads x86 reachedFirst below leads).2

namespace Pair

/-- The stack of the pair, below a frame that was managed before. -/
def sheltered : Session Unit :=
  { fresh with
    machine := { fresh.machine with
      thread := { id := 1, anchor := ⟨0x7fc0, 0x7fe0, 0x1100⟩ } } }

/-- Change the receiver that was passed on, and ask for a monitor. -/
def overwrite : Engine Unit :=
  (Turn.onWorkspace (Workspace.writeLocal 0 0x700018)).andThen fun _ =>
    Turn.onWorkspace Workspace.requestMonitor

theorem acts_overwrite : ActsThroughActivation overwrite :=
  .andThen (.offered (.writeLocal _ _)) fun _ => .offered .requestMonitor

theorem acts_invoke : ActsThroughActivation invoke :=
  acts (.step invoke) (by simp [calls])

theorem ran_sheltered :
    (Call.runAll? context [.setUp idle] sheltered).isSome = true := by
  decide +kernel

/-- The session in which the pair can be started. -/
def set : Session Unit :=
  (Call.runAll? context [.setUp idle] sheltered).get ran_sheltered

theorem reached_set : Reached context set :=
  (Reached.fresh rfl).of_runAll? (by simpa [Call.Acts] using .probe _)
    (Option.some_get ran_sheltered).symm

/-- The session in which the caller has been started. -/
def started : Session Unit :=
  (Session.start context 0x500000 [] [] set).2

/-- The session in which the caller has posted its call. -/
def posted : Session Unit :=
  (Session.advance context invoke started).2

/-- The session in which the callee has been entered. -/
def called : Session Unit :=
  (Session.serve context 0 .callMethod posted).2

/-- The session in which the callee has worked and got its monitor. -/
def overwritten : Session Unit :=
  (Session.step context overwrite called).2

/--
While the callee overwrites what it was passed and gets a monitor, the caller keeps all
from the word above its two arguments on, and the former frame keeps all it has.
-/
theorem isolatesCallers_of_overwritten :
    context.env.layout = .x86_64 ∧ Reached context started ∧
      (Session.advance context invoke).Gives started (0, .callMethod) posted ∧
      Session.WaitsFor 0 2 overwritten ∧
      Stack.Keeps (0x7f00 ≤ ·) posted.machine.stack
        overwritten.machine.stack ∧
      Stack.Keeps (0x7fc0 ≤ ·) set.machine.stack overwritten.machine.stack := by
  have startGives : (Session.start context 0x500000 [] []).Gives set () started :=
    gives_of_toOption (by decide +kernel)
  have reached : Reached context started :=
    reached_set.call (.start 0x500000 [] []) trivial
      (gives_bind.mpr ⟨_, _, startGives, gives_pure.mpr ⟨rfl, rfl⟩⟩)
  have advanced :
      (Session.advance context invoke).Gives started (0, .callMethod) posted :=
    gives_of_toOption (by decide +kernel)
  have served :
      (Session.serve context 0 .callMethod).Gives posted (.called 2) called :=
    gives_of_toOption (by decide +kernel)
  have stepped : (Session.step context overwrite).Gives called
      (.resumed 2 .gotMonitors) overwritten :=
    gives_of_toOption (by decide +kernel)
  have performed : (Call.perform context (.step overwrite)).Gives called
      (some (.resumed 2 .gotMonitors)) overwritten :=
    gives_bind.mpr ⟨_, _, stepped, gives_pure.mpr ⟨rfl, rfl⟩⟩
  have waits : Session.WaitsFor 0 2 overwritten := by decide +kernel
  have leads : Leads context (Session.WaitsFor 0 2) called overwritten :=
    .call (.refl _) (by decide +kernel) (.step overwrite) acts_overwrite
      performed
  have firstPerformed : (Call.perform context (.step invoke)).Gives started
      (some (.called 2)) called := by
    refine gives_bind.mpr ⟨_, _, ?_, gives_pure.mpr ⟨rfl, rfl⟩⟩
    rw [Session.step_eq]
    exact gives_bind.mpr ⟨_, _, advanced, served⟩
  have leadsOn : Leads context (·.manager.entry.isSome = true) started
      overwritten :=
    .call (.call (.refl _) (by decide +kernel) (.step invoke) acts_invoke
      firstPerformed) (by decide +kernel) (.step overwrite) acts_overwrite
      performed
  obtain ⟨caller, found⟩ : ∃ caller,
      posted.manager.activations[0]? = some caller :=
    Option.isSome_iff_exists.mp (by decide +kernel)
  have top : caller.activation.stackTop = 0x7ef0 := by
    have atTop : posted.manager.activations[0]?.all
        (·.activation.stackTop == 0x7ef0) = true := by
      decide +kernel
    rw [found] at atTop
    exact eq_of_beq atTop
  have isolates := isolatesCallers_of_x86_64 (rfl : context.env.layout = .x86_64)
  have waiting := (isolates.waiting reached acts_invoke advanced rfl served found
    leads waits).1
  rw [top] at waiting
  exact ⟨rfl, reached, advanced, waits, waiting,
    isolates.entered reached_set startGives leadsOn⟩

end Pair

end ManagedStack
