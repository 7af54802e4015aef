import ManagedStack.Engine
import ManagedStack.Proofs.Seating

namespace ManagedStack

/-!
# What an engine can do to its activation

An engine that acts through its activation works by offered operations only, so
that whatever each of these does to activation and stack, a whole run does.  Two
things follow.  The activation goes on sitting where it sat, and the stack changes
only below its monitors and in its locals.  And what travels with the message of
the activation goes on fitting that message, whatever requests the engine posts and
withdraws.
-/

/-- A run keeps to a relation that every offered operation keeps to. -/
theorem ActsThroughActivation.respects
    {relation : Workspace → Workspace → Prop}
    (reflexive : ∀ a, relation a a)
    (transitive : ∀ {a b c}, relation a b → relation b c → relation a c)
    (offered : ∀ {α : Type} {operation : Operation Workspace ProtocolError α},
      Offered operation → operation.Respects relation)
    {operation : Operation (Turn τ) ProtocolError α}
    (acts : ActsThroughActivation operation) :
    operation.Respects fun before after =>
      relation before.workspace after.workspace := by
  induction acts with
  | offered isOffered =>
      exact fun before => offered isOffered before.workspace
  | own operation =>
      exact fun before => reflexive before.workspace
  | probe probe =>
      exact fun before => reflexive before.workspace
  | andThen _ _ firstRespects nextRespects =>
      exact firstRespects.andThen transitive nextRespects
  | attempt _ inductionHypothesis =>
      exact inductionHypothesis.attempt

/-- The form of what travels with a message. -/
def Message.payloadForm : Message → PayloadForm
  | .callMethod => .call
  | .callMethodHandle => .call
  | .returnFromMethod => .returning
  | .doOsr => .osrRequest
  | _ => .empty

/-- Nothing travels with a response. -/
theorem Message.payloadForm_of_isResponse
    {message : Message}
    (isResponse : message.isResponse = true) :
    message.payloadForm = .empty := by
  cases message <;> first | rfl | cases isResponse

/-- What travels with the message of an activation has the form for it. -/
def Activation.Fits (activation : Activation) : Prop :=
  activation.payload.form = activation.message.payloadForm

namespace Workspace

/-- What the engine cannot change: where the activation is and who called it. -/
structure SameSeat (before after : Activation) : Prop where
  thread : after.thread = before.thread
  method : after.method = before.method
  locals : after.locals = before.locals
  maxLocals : after.maxLocals = before.maxLocals
  constants : after.constants = before.constants
  stackBase : after.stackBase = before.stackBase
  stackLimit : after.stackLimit = before.stackLimit
  monitorBase : after.monitorBase = before.monitorBase
  monitorWords : after.monitorWords = before.monitorWords
  fp : after.fp = before.fp
  caller : after.caller = before.caller

theorem SameSeat.refl (activation : Activation) :
    SameSeat activation activation := by
  constructor <;> rfl

theorem SameSeat.trans
    {before between after : Activation}
    (first : SameSeat before between)
    (second : SameSeat between after) :
    SameSeat before after where
  thread := second.thread.trans first.thread
  method := second.method.trans first.method
  locals := second.locals.trans first.locals
  maxLocals := second.maxLocals.trans first.maxLocals
  constants := second.constants.trans first.constants
  stackBase := second.stackBase.trans first.stackBase
  stackLimit := second.stackLimit.trans first.stackLimit
  monitorBase := second.monitorBase.trans first.monitorBase
  monitorWords := second.monitorWords.trans first.monitorWords
  fp := second.fp.trans first.fp
  caller := second.caller.trans first.caller

theorem SameSeat.monitorEnd
    {before after : Activation}
    (same : SameSeat before after) :
    after.monitorEnd = before.monitorEnd := by
  simp [Activation.monitorEnd, same.stackBase]

/-- Places that are not the activation's to write: monitors, slots, and callers. -/
def Foreign
    (activation : Activation)
    (place : Nat) :
    Prop :=
  activation.monitorEnd.toNat ≤ place ∧
    (place < activation.fp.toNat + 16 ∨ activation.ceiling ≤ place)

theorem SameSeat.foreign
    {before after : Activation}
    (same : SameSeat before after) :
    Foreign after = Foreign before := by
  funext place
  simp [Foreign, Activation.ceiling, same.monitorEnd, same.fp, same.maxLocals]

/-- What work on an activation leads to. -/
structure Worked (before after : Workspace) : Prop where
  seat : SameSeat before.activation after.activation
  fits : before.activation.Fits → after.activation.Fits
  sits :
    before.activation.Sits before.stack → after.activation.Sits after.stack
  keeps :
    before.activation.Sits before.stack →
      Stack.Keeps (Foreign before.activation) before.stack after.stack
  inRoom :
    before.activation.Sits before.stack →
      before.activation.InRoom → after.activation.InRoom

namespace Worked

theorem refl (workspace : Workspace) : Worked workspace workspace :=
  ⟨SameSeat.refl _, id, id, fun _ => Stack.Keeps.refl _, fun _ => id⟩

theorem trans
    {before between after : Workspace}
    (first : Worked before between)
    (second : Worked between after) :
    Worked before after where
  seat := first.seat.trans second.seat
  fits := second.fits ∘ first.fits
  sits := second.sits ∘ first.sits
  keeps := fun sits =>
    (first.keeps sits).trans (first.seat.foreign ▸ second.keeps (first.sits sits))
  inRoom := fun sits => second.inRoom (first.sits sits) ∘ first.inRoom sits

/-- A write below the monitors or to a local is the activation's own. -/
theorem put
    {workspace : Workspace}
    {address : Address}
    {word : Word}
    (own : workspace.activation.Sits workspace.stack →
      ¬Foreign workspace.activation address.toNat) :
    Worked workspace
      { workspace with stack := workspace.stack.put address word } where
  seat := SameSeat.refl _
  fits := id
  sits := fun sits => sits.of_keeps (Stack.Keeps.put _ word (own sits))
  keeps := fun sits => Stack.Keeps.put _ word (own sits)
  inRoom := fun _ => id

/-- Changed registers leave the activation where it sits. -/
theorem ofRegisters
    {workspace : Workspace}
    (changed : Activation)
    (seat : SameSeat workspace.activation changed)
    (fits : workspace.activation.Fits → changed.Fits)
    (inside : workspace.activation.Sits workspace.stack →
      changed.stackTop.toNat % 8 = 0 ∧
        changed.stackTop.toNat ≤ workspace.activation.monitorEnd.toNat ∧
        workspace.stack.limit.toNat ≤ changed.stackTop.toNat)
    (inRoom : workspace.activation.Sits workspace.stack →
      workspace.activation.InRoom → changed.InRoom) :
    Worked workspace ⟨changed, workspace.stack⟩ where
  seat := seat
  fits := fits
  sits := fun sits => {
    fpAligned := by simpa [seat.fp] using sits.fpAligned
    monitorWords := by simpa [seat.monitorWords] using sits.monitorWords
    monitorBase := by simpa [seat.fp, seat.monitorBase] using sits.monitorBase
    monitorEndLe := by
      simpa [seat.monitorEnd, seat.monitorBase] using sits.monitorEndLe
    wholeMonitors := by
      simpa [seat.monitorEnd, seat.monitorBase] using sits.wholeMonitors
    topAligned := (inside sits).1
    topLe := by simpa [seat.monitorEnd] using (inside sits).2.1
    limitLe := (inside sits).2.2
    locals := by
      simpa [seat.locals, seat.fp, seat.maxLocals] using sits.locals
    localsLe := by simpa [seat.fp, seat.maxLocals] using sits.localsLe
  }
  keeps := fun _ => Stack.Keeps.refl _
  inRoom := inRoom

/-- Registers that keep the top leave the activation where it sits. -/
theorem ofQuiet
    {workspace : Workspace}
    {changed : Activation}
    (seat : SameSeat workspace.activation changed)
    (fits : workspace.activation.Fits → changed.Fits)
    (sameTop : changed.stackTop = workspace.activation.stackTop) :
    Worked workspace ⟨changed, workspace.stack⟩ :=
  ofRegisters changed seat fits
    (fun sits =>
      ⟨sameTop ▸ sits.topAligned, sameTop ▸ sits.topLe, sameTop ▸ sits.limitLe⟩)
    fun _ inRoom => by
      unfold Activation.InRoom at inRoom ⊢
      rw [seat.stackLimit, sameTop]
      exact inRoom

end Worked

section Offered

variable {workspace : Workspace} {property : Workspace → Prop}

@[simp] theorem gives_current
    {before after : Workspace}
    {activation : Activation} :
    (current : Operation Workspace ε Activation).Gives before activation after ↔
      activation = before.activation ∧ after = before := by
  simp [current]

/-- What begins with the activation goes on with it. -/
theorem leaves_current_bind
    {next : Activation → Operation Workspace ε α} :
    (current >>= next).Leaves workspace property ↔
      (next workspace.activation).Leaves workspace property :=
  Iff.rfl

/-- What begins by writing a word leaves the stack as it was or the word put. -/
theorem leaves_writeWord_bind
    {address : Address}
    {value : Word}
    {next : Unit → Operation Workspace ProtocolError α}
    (unwritten : property workspace)
    (written : workspace.stack.Covers address →
      (next ()).Leaves
        { workspace with stack := workspace.stack.put address value } property) :
    (writeWord address value >>= next).Leaves workspace property := by
  simp only [writeWord, onStack, Operation.leaves_bind, Operation.gives_onPart,
    Operation.gives_mapError, Stack.gives_write, Operation.leaves_onPart,
    Operation.leaves_mapError]
  refine ⟨?_, ?_⟩
  · rintro _ _ ⟨_, ⟨covers, rfl⟩, rfl⟩
    exact written covers
  · intro noWrite
    unfold Operation.Leaves Stack.write
    rcases found : workspace.stack.index? address with cause | index
    · exact unwritten
    · exact (noWrite () _
        ⟨_, ⟨Stack.covers_of_index? found, rfl⟩, rfl⟩).elim

/-- What begins by reading a word goes on with the stack as it was. -/
theorem leaves_readWord_bind
    {address : Address}
    {next : Word → Operation Workspace ProtocolError α}
    (unread : property workspace)
    (read : ∀ word, (next word).Leaves workspace property) :
    (readWord address >>= next).Leaves workspace property := by
  simp only [readWord, onStack, Operation.leaves_bind, Operation.gives_onPart,
    Operation.gives_mapError, Operation.gives_inspect]
  refine ⟨?_, fun _ => unread⟩
  rintro word _ ⟨_, ⟨-, rfl⟩, rfl⟩
  exact read word

/-- What begins by checking a value goes on with it or stops. -/
theorem leaves_check_bind
    {checked : Except Abort α}
    {next : α → Operation Workspace ε β}
    (stopped : property workspace)
    (goesOn : ∀ value, checked = .ok value →
      (next value).Leaves workspace property) :
    (Operation.check checked >>= next).Leaves workspace property := by
  simp only [Operation.leaves_bind, Operation.gives_check,
    Operation.leaves_check]
  refine ⟨?_, fun _ => stopped⟩
  rintro value _ ⟨checkedOk, rfl⟩
  exact goesOn value checkedOk

/--
An entry is pushed right below the top, and only inside the stack.  The word lands
right below the old top, where nothing foreign lies.
-/
theorem worked_push (value : Word) :
    (push value).Leaves workspace (Worked workspace) := by
  unfold push
  rw [leaves_current_bind]
  dsimp only
  split
  · exact .refl _
  · rename_i enough
    refine leaves_writeWord_bind (.refl _) fun covers => ?_
    obtain ⟨aligned, above, below⟩ := covers
    have lowered := Word.toNat_offset workspace.activation.stackTop (-1)
    have room := workspace.stack.base_le
    have topSmall := workspace.activation.stackTop.toNat_lt
    have wrote : Worked workspace { workspace with
        stack := workspace.stack.put
          (workspace.activation.stackTop.offset (-1)) value } := by
      refine .put fun sits => ?_
      have topLe := sits.topLe
      unfold Foreign
      omega
    refine wrote.trans (.ofRegisters
      { workspace.activation with
        stackTop := workspace.activation.stackTop.offset (-1) }
      (by constructor <;> rfl) ?_ ?_ fun _ _ => ?_)
    · unfold Activation.Fits
      exact id
    · intro sits
      have topLe : workspace.activation.stackTop.toNat ≤
          workspace.activation.monitorEnd.toNat := sits.topLe
      refine ⟨aligned, ?_, ?_⟩
      · change (workspace.activation.stackTop.offset (-1)).toNat ≤
          workspace.activation.monitorEnd.toNat
        omega
      · rw [Stack.limit_put]
        exact above
    · rw [UInt64.lt_iff_toNat_lt] at enough
      exact Nat.le_of_not_lt enough

/--
The top entry is popped only when there is one.  A stack that is not empty has its top
at least one word below the monitors.
-/
theorem worked_pop : pop.Leaves workspace (Worked workspace) := by
  unfold pop
  rw [leaves_current_bind]
  refine leaves_check_bind (.refl _) fun depth counted => ?_
  split
  · exact .refl _
  · rename_i notEmpty
    refine leaves_readWord_bind (.refl _) fun _ => ?_
    refine Worked.ofRegisters
      { workspace.activation with
        stackTop := workspace.activation.stackTop.offset 1 }
      (by constructor <;> rfl) id (fun sits => ?_) fun sits inRoom => ?_
    all_goals
      obtain ⟨_, countedAgain, exact⟩ := sits.stackDepth_eq
      obtain rfl : depth = _ := Except.ok.inj (counted.symm.trans countedAgain)
      have positive : depth.toNat ≠ 0 := fun none =>
        notEmpty (UInt64.toNat_inj.mp none)
      have small := workspace.activation.monitorEnd.toNat_lt
      have raised : (workspace.activation.stackTop.offset 1).toNat =
          workspace.activation.stackTop.toNat + 8 :=
        Word.toNat_offset_of_fits (by omega) (by omega)
      have aligned := sits.topAligned
      have limitLe := sits.limitLe
    · dsimp only
      omega
    · unfold Activation.InRoom at inRoom ⊢
      dsimp only
      omega

/-- Looking at an entry changes nothing. -/
theorem leaves_peek
    (unchanged : property workspace)
    (depth : Nat) :
    (peek depth).Leaves workspace property := by
  unfold peek
  rw [leaves_current_bind]
  refine leaves_check_bind unchanged fun entries _ => ?_
  split
  · exact unchanged
  · exact unchanged

/-- What begins with the address of a local goes on with it or stops. -/
theorem leaves_localSlot_bind
    {index : Nat}
    {next : Address → Operation Workspace ProtocolError α}
    (stopped : property workspace)
    (goesOn : index < workspace.activation.maxLocals →
      (next (workspace.activation.locals.offset (-index))).Leaves
        workspace property) :
    (localSlot index >>= next).Leaves workspace property := by
  unfold localSlot
  rw [bind_assoc, leaves_current_bind]
  unfold Activation.localSlot
  by_cases inside : index < workspace.activation.maxLocals
  · rw [if_pos inside]
    exact goesOn inside
  · rw [if_neg inside]
    exact stopped

/-- A local that is written belongs to the activation. -/
theorem worked_writeLocal
    (index : Nat)
    (value : Word) :
    (writeLocal index value).Leaves workspace (Worked workspace) := by
  unfold writeLocal
  refine leaves_localSlot_bind (.refl _) fun inside => ?_
  rw [← bind_pure (writeWord _ _)]
  refine leaves_writeWord_bind (.refl _) fun _ => .put fun sits => ?_
  have place := sits.toNat_local inside
  unfold Foreign
  unfold Activation.ceiling at place ⊢
  omega

/-- What begins by posting a request goes on with its payload or stops. -/
theorem leaves_post_bind
    {request : Message}
    {payload : Payload}
    {next : Unit → Operation Workspace ProtocolError α}
    (refused : property workspace)
    (posted : (next ()).Leaves
      { workspace with
        activation := { workspace.activation with
          message := request, payload := payload } } property) :
    (post request payload >>= next).Leaves workspace property := by
  unfold post
  rw [bind_assoc, leaves_current_bind]
  split
  · exact refused
  · split
    · exact refused
    · exact posted

/-- A response that is accepted takes what was pending away. -/
theorem leaves_resume
    {response : Message}
    (refused : property workspace)
    (resumed : response.isResponse = true →
      property { workspace with
        activation := { workspace.activation with
          message := response, payload := .empty } }) :
    (resume response).Leaves workspace property := by
  unfold resume
  rw [leaves_current_bind]
  split
  · exact refused
  · rename_i isResponse
    split
    · exact refused
    · exact resumed (by simpa using isResponse)

end Offered

/--
Whatever is offered works on the activation.  Registers other than the top are no part
of the seat, and a post writes no word.
-/
theorem Offered.worked
    {operation : Operation Workspace ProtocolError α}
    (offered : Offered operation) :
    operation.Respects Worked := by
  intro workspace
  have quiet
      (changed : Activation)
      (seat : SameSeat workspace.activation changed)
      (fits : workspace.activation.Fits → changed.Fits)
      (sameTop : changed.stackTop = workspace.activation.stackTop) :
      Worked workspace ⟨changed, workspace.stack⟩ :=
    .ofQuiet seat fits sameTop
  have posted
      (request : Message)
      (payload : Payload)
      (form : payload.form = request.payloadForm) :
      (post request payload).Leaves workspace (Worked workspace) := by
    rw [← bind_pure (post _ _)]
    exact leaves_post_bind (.refl _)
      (quiet _ (by constructor <;> rfl) (fun _ => form) rfl)
  cases offered with
  | current => exact .refl _
  | push value => exact worked_push value
  | pop => exact worked_pop
  | peek depth => exact leaves_peek (.refl _) depth
  | readLocal index =>
      exact leaves_localSlot_bind (.refl _) fun _ => .refl _
  | writeLocal index value => exact worked_writeLocal index value
  | setBcp | setMdx | setOopTemp | setScratch =>
      exact quiet _ (by constructor <;> rfl) id rfl
  | requestCall | requestMethodHandleCall | requestReturn | requestMonitor
  | requestPop | requestOsr =>
      exact posted _ _ rfl
  | requestThrow exception =>
      exact leaves_post_bind (.refl _)
        (quiet _ (by constructor <;> rfl) (fun _ => rfl) rfl)
  | resume response =>
      refine leaves_resume (.refl _) fun isResponse => ?_
      refine quiet _ (by constructor <;> rfl) (fun _ => ?_) rfl
      exact (Message.payloadForm_of_isResponse isResponse).symm

/-- A run of an acting engine works on its activation. -/
theorem Worked.of_acts
    {engine : Operation (Turn τ) ProtocolError α}
    {before after : Turn τ}
    {value : α}
    (acts : ActsThroughActivation engine)
    (gives : engine.Gives before value after) :
    Worked before.workspace after.workspace :=
  (acts.respects Worked.refl Worked.trans Offered.worked).of_gives gives

end Workspace

end ManagedStack
