import ManagedStack.Proofs.Fitting
import ManagedStack.Proofs.Rebuilding

namespace ManagedStack

/-!
# What an activation takes

An activation has room for the locals that its method declares, for the entries between
its limit and its monitors, and for monitors as far as the stack reaches.  Filling it goes
well exactly for what it has room for.
-/

open Operation

namespace Activation

/-- Every local of the activation is on the stack. -/
theorem Sits.covers_local
    {stack : Stack}
    {activation : Activation}
    {index : Nat}
    (sits : activation.Sits stack)
    (inside : index < activation.maxLocals) :
    stack.Covers (activation.locals.offset (-index)) := by
  have place := sits.toNat_local inside
  have aligned := sits.fpAligned
  have limitLe := Nat.le_trans sits.limitLe (Nat.le_trans sits.topLe sits.monitorEndLe)
  have fixed := sits.monitorBase
  have localsLe := sits.localsLe
  unfold ceiling at place
  refine ⟨?_, ?_, ?_⟩ <;> omega

/-- The activation was laid out, and nothing was done to it yet. -/
structure Untouched
    (stack : Stack)
    (activation : Activation) :
    Prop where
  sits : activation.Sits stack
  noEntries : activation.stackTop = activation.monitorEnd
  message : activation.message = .noRequest
  unprofiled : stack.Holds (activation.fp.offset (-4)) 0
  low : stack.limit.toNat ≤ activation.stackLimit.toNat

/-- An image does not hold more than an activation that was just laid out has room for. -/
structure Takes
    (stack : Stack)
    (activation : Activation)
    (image : DeoptimizedActivation) :
    Prop where
  locals : image.locals.length ≤ activation.maxLocals
  monitors : stack.limit.toNat + 16 * image.monitors.length ≤
    min activation.stackLimit.toNat activation.monitorEnd.toNat
  expressions : 8 * image.expressions.length ≤
    activation.monitorEnd.toNat - activation.stackLimit.toNat

end Activation

namespace Workspace

variable {before : Workspace} {first : Nat}

/-- Locals are written exactly if the activation has that many. -/
theorem exists_gives_writeLocals_iff
    (before : Workspace)
    (values : List Word)
    (sits : before.activation.Sits before.stack)
    (inside : first ≤ before.activation.maxLocals) :
    (∃ after, (writeLocals first values).Gives before () after) ↔
      first + values.length ≤ before.activation.maxLocals := by
  induction values generalizing first before with
  | nil => simpa [writeLocals] using inside
  | cons value rest inductionHypothesis =>
      have writes (isLocal : first < before.activation.maxLocals) :
          (writeLocal first value).Gives before () _ :=
        gives_writeLocal.mpr ⟨isLocal, sits.covers_local isLocal, rfl⟩
      have goesOn (isLocal : first < before.activation.maxLocals) :
          (∃ after, (writeLocals (first + 1) rest).Gives _ () after) ↔ _ :=
        inductionHypothesis _
          (((worked_writeLocal first value).of_gives (writes isLocal)).sits sits) isLocal
      rw [List.length_cons]
      constructor
      · rintro ⟨after, gives⟩
        obtain ⟨_, _, written, others⟩ := gives_bind.mp gives
        obtain ⟨isLocal, -, rfl⟩ := gives_writeLocal.mp written
        have fits := (goesOn isLocal).mp ⟨after, others⟩
        dsimp only at fits
        omega
      · intro fits
        have isLocal : first < before.activation.maxLocals := by omega
        obtain ⟨after, others⟩ := (goesOn isLocal).mpr (by dsimp only; omega)
        exact ⟨after, gives_bind.mpr ⟨(), _, writes isLocal, others⟩⟩

/--
Entries are pushed exactly if they fit between the top and the limit.  One push takes
one word of the room, and what is left decides on the others.
-/
theorem exists_gives_pushAll_iff
    (before : Workspace)
    (values : List Word)
    (sits : before.activation.Sits before.stack)
    (low : before.stack.limit.toNat ≤ before.activation.stackLimit.toNat) :
    (∃ after, (pushAll values).Gives before () after) ↔
      8 * values.length ≤
        before.activation.stackTop.toNat - before.activation.stackLimit.toNat := by
  induction values generalizing before with
  | nil => simp [pushAll]
  | cons value rest inductionHypothesis =>
      have goesOn {between : Workspace} (pushes : (push value).Gives before () between) :
          between.activation.stackTop.toNat + 8 = before.activation.stackTop.toNat ∧
            before.activation.stackLimit.toNat ≤ between.activation.stackTop.toNat ∧
            ((∃ after, (pushAll rest).Gives between () after) ↔
              8 * rest.length ≤
                between.activation.stackTop.toNat - before.activation.stackLimit.toNat) := by
        have worked := (worked_push value).of_gives pushes
        have limitIs := worked.seat.stackLimit
        have place := toNat_top_of_gives_push sits pushes
        obtain ⟨admitted, -, isBetween⟩ := gives_push.mp pushes
        have topIs : between.activation.stackTop = before.activation.stackTop.offset (-1) := by
          rw [isBetween]
        have stackIs : between.stack =
            before.stack.put (before.activation.stackTop.offset (-1)) value := by
          rw [isBetween]
        rw [← topIs, UInt64.lt_iff_toNat_lt, Nat.not_lt] at admitted
        have others := inductionHypothesis between (worked.sits sits)
          (by rw [stackIs, Stack.limit_put, limitIs]; exact low)
        rw [limitIs] at others
        exact ⟨place, admitted, others⟩
      rw [List.length_cons]
      constructor
      · rintro ⟨after, gives⟩
        obtain ⟨_, between, pushes, others⟩ := gives_bind.mp gives
        obtain ⟨place, admitted, fits⟩ := goesOn pushes
        have room := fits.mp ⟨after, others⟩
        omega
      · intro room
        have moved := Word.toNat_offset before.activation.stackTop (-1)
        have small := before.activation.stackTop.toNat_lt
        have covers : before.stack.Covers (before.activation.stackTop.offset (-1)) := by
          have aligned := sits.topAligned
          have inStack := sits.covers_top.2.2
          refine ⟨?_, ?_, ?_⟩ <;> omega
        obtain ⟨between, pushes⟩ : ∃ between, (push value).Gives before () between :=
          ⟨_, gives_push.mpr ⟨by rw [UInt64.lt_iff_toNat_lt]; omega, covers, rfl⟩⟩
        obtain ⟨place, -, fits⟩ := goesOn pushes
        obtain ⟨after, others⟩ := fits.mpr (by omega)
        exact ⟨after, gives_bind.mpr ⟨(), between, pushes, others⟩⟩

/-- Copying the entries and clearing the monitor is all there is to growing. -/
theorem growMonitors_of_gives
    {depth : Word}
    {shift : Int}
    {copied cleared : Stack}
    (counted : before.activation.stackDepth = .ok depth)
    (negated : negateSigned before.activation.monitorWords.signed = .ok shift)
    (copies : (Stack.copyWords before.activation.stackTop
      (before.activation.stackTop.offset shift) depth.toNat).Gives before.stack () copied)
    (zeroes : (Stack.zeroWords (Session.grown before.activation shift).monitorEnd
      before.activation.monitorWords.toNat).Gives copied () cleared) :
    growMonitors.Gives before (Session.grown before.activation shift).monitorEnd
      ⟨Session.grown before.activation shift, cleared⟩ := by
  simp only [growMonitors, gives_bind, gives_current, gives_check, gives_onStack,
    gives_updateActivation, gives_pure, and_assoc, exists_and_left, exists_eq_left,
    exists_const]
  exact ⟨depth, counted, shift, negated, (), _, ⟨copied, copies, rfl⟩, (), _,
    ⟨cleared, zeroes, rfl⟩, rfl, rfl⟩

/--
An activation grows where the stack has two words below its top.  The moved entries
and the new monitor are the words from two below the top upward.
-/
theorem exists_gives_growMonitors
    {entries : List Word}
    (before : Workspace)
    (sits : before.activation.Sits before.stack)
    (holds : before.activation.HoldsEntries before.stack entries)
    (room : before.stack.limit.toNat + 16 ≤ before.activation.stackTop.toNat) :
    ∃ monitor after, growMonitors.Gives before monitor after := by
  obtain ⟨length, -⟩ := sits.holdsEntries_iff.mp holds
  obtain ⟨depth, counted, read⟩ := holds
  have aligned := sits.topAligned
  have inStack := sits.covers_top.2.2
  have below := Nat.le_trans sits.monitorEnd_le_ceiling sits.ceiling_le_base
  have limitAligned := before.stack.limit_aligned
  have small := before.activation.monitorEnd.toNat_lt
  have endIs : before.activation.monitorEnd =
      before.activation.stackTop.offset entries.length :=
    Word.eq_offset (by omega)
  have covers (words : Nat) (inside : words < entries.length + 2) :
      before.stack.Covers ((before.activation.stackTop.offset (-2)).offset words) := by
    have moved := Word.toNat_offset before.activation.stackTop (-2 + words)
    rw [Word.offset_offset]
    refine ⟨?_, ?_, ?_⟩ <;> omega
  obtain ⟨copied, writes⟩ := Stack.exists_gives_writeAll
    fun index inside => covers index (Nat.lt_add_right 2 inside)
  have copies : (Stack.copyWords before.activation.stackTop
      (before.activation.stackTop.offset (-2)) depth.toNat).Gives before.stack () copied :=
    gives_bind.mpr ⟨entries, before.stack, gives_inspect.mpr ⟨read, rfl⟩, writes⟩
  obtain ⟨-, keeps⟩ := Stack.writes_writeAll _ _ _ _ _ writes
  obtain ⟨cleared, clears⟩ : ∃ cleared, (Stack.writeAll
      (before.activation.monitorEnd.offset (-2)) (List.replicate 2 0)).Gives copied () cleared := by
    refine Stack.exists_gives_writeAll fun index inside => keeps.covers_iff.mpr ?_
    rw [List.length_replicate] at inside
    have here := covers (entries.length + index) (by omega)
    rw [Word.offset_offset] at here
    rw [endIs, Word.offset_offset, Word.offset_offset]
    rwa [show (entries.length : Int) + (-2 + index) = -2 + (entries.length + index : Nat) by
      omega]
  rw [← Stack.zeroWords_eq, ← monitorEnd_grown] at clears
  have negated : negateSigned before.activation.monitorWords.signed = .ok (-2) := by
    rw [sits.monitorWords]
    rfl
  exact ⟨_, _, growMonitors_of_gives counted negated copies (by
    rw [sits.monitorWords]
    exact clears)⟩

/-- However it ends, the operation leaves the message alone. -/
def KeepsMessage (operation : Operation Workspace ε α) : Prop :=
  operation.Respects fun before after =>
    after.activation.message = before.activation.message

namespace KeepsMessage

theorem bind
    {first : Operation Workspace ε α}
    {next : α → Operation Workspace ε β}
    (firstKeeps : KeepsMessage first)
    (nextKeeps : ∀ value, KeepsMessage (next value)) :
    KeepsMessage (first >>= next) :=
  Respects.andThen (fun first second => second.trans first) firstKeeps nextKeeps

theorem inspect (look : Workspace → Probe ε α) : KeepsMessage (Operation.inspect look) :=
  fun _ => rfl

theorem onStack (operation : Operation Stack FrameError α) :
    KeepsMessage (Workspace.onStack operation) :=
  fun _ => rfl

theorem updateActivation
    {change : Activation → Activation}
    (keeps : ∀ activation, (change activation).message = activation.message) :
    KeepsMessage (Workspace.updateActivation change : Operation Workspace ε Unit) :=
  fun before => keeps before.activation

theorem push (word : Word) : KeepsMessage (Workspace.push word) := by
  refine .bind (inspect _) fun _ => ?_
  dsimp only
  split
  · exact inspect _
  · exact .bind (onStack _) fun _ => updateActivation fun _ => rfl

theorem pushAll (words : List Word) : KeepsMessage (Workspace.pushAll words) := by
  induction words with
  | nil => exact inspect _
  | cons word rest inductionHypothesis => exact .bind (push word) fun _ => inductionHypothesis

theorem localSlot (index : Nat) : KeepsMessage (Workspace.localSlot index) := by
  refine .bind (inspect _) fun _ => ?_
  split <;> exact inspect _

theorem writeLocals
    (first : Nat)
    (words : List Word) :
    KeepsMessage (Workspace.writeLocals first words) := by
  induction words generalizing first with
  | nil => exact inspect _
  | cons word rest inductionHypothesis =>
      exact .bind (.bind (localSlot first) fun _ => onStack _) fun _ => inductionHypothesis _

theorem growMonitors : KeepsMessage Workspace.growMonitors := by
  intro before
  change Workspace.growMonitors.Leaves before fun after =>
    after.activation.message = before.activation.message
  refine leaves_bind.mpr ⟨fun activation _ looks => ?_, fun _ => rfl⟩
  obtain ⟨rfl, rfl⟩ := gives_current.mp looks
  refine leaves_bind.mpr ⟨fun depth _ counts => ?_, fun _ => rfl⟩
  obtain ⟨-, rfl⟩ := gives_check.mp counts
  refine leaves_bind.mpr ⟨fun shift _ negates => ?_, fun _ => rfl⟩
  obtain ⟨-, rfl⟩ := gives_check.mp negates
  refine leaves_bind.mpr ⟨fun _ copied copies => ?_, fun _ => rfl⟩
  obtain ⟨stack, -, rfl⟩ := gives_onStack.mp copies
  refine leaves_bind.mpr ⟨fun _ _ moves => ?_, fun _ => rfl⟩
  obtain rfl := gives_updateActivation.mp moves
  exact bind (onStack _) (fun _ => inspect _) ⟨_, stack⟩

end KeepsMessage

/-- A response that is not sent changes nothing. -/
theorem eq_of_raises_resume
    {response : Message}
    {cause : ProtocolError}
    {after : Workspace}
    (raises : (resume response).Raises before cause after) :
    after = before := by
  rcases raises_bind.mp raises with ⟨⟨⟩, -⟩ | ⟨activation, _, looks, answers⟩
  obtain ⟨rfl, rfl⟩ := gives_current.mp looks
  rcases raises_ite.mp answers with ⟨-, fails⟩ | ⟨-, decides⟩
  · exact (raises_fail.mp fails).2
  rcases raises_ite.mp decides with ⟨-, refuses⟩ | ⟨-, updates⟩
  · rcases raises_bind.mp refuses with reports | ⟨_, _, reports, fails⟩
    · exact (raises_report reports).elim
    · obtain rfl := gives_report.mp reports
      exact (raises_fail.mp fails).2
  · exact (raises_update updates).elim

/-- An activation that does not get its entries, or its response, is sent nothing. -/
theorem message_of_raises_pushAll
    {words : List Word}
    {bcp : Address}
    {response : Message}
    {cause : ProtocolError}
    {after : Workspace}
    (raises : (do
      pushAll words
      updateActivation fun activation => { activation with bcp := bcp }
      resume response : Operation Workspace ProtocolError Unit).Raises before cause after) :
    after.activation.message = before.activation.message := by
  rcases raises_bind.mp raises with stops | ⟨_, pushed, pushes, sends⟩
  · exact (KeepsMessage.pushAll words).of_raises stops
  have same := (KeepsMessage.pushAll words).of_gives pushes
  rcases raises_bind.mp sends with updates | ⟨_, moved, moves, resumes⟩
  · exact (raises_update updates).elim
  obtain rfl := gives_updateActivation.mp moves
  rw [eq_of_raises_resume resumes]
  exact same

end Workspace

namespace Session

variable {context : ManagerContext τ} {before after : Session τ} {index : Nat}
  {fresh : Activation}

/-- Where its profiling slot is zero, what sits on the stack is published. -/
theorem exists_gives_commit_of_zero
    (x86 : context.env.layout = .x86_64)
    (interpreter : context.env.code.interpreterContains
      context.entryPoints.interpreterReturnPc = true)
    (found : before.manager.activation? index = some fresh)
    (sits : fresh.Sits before.machine.stack)
    (unused : before.machine.stack.Holds (fresh.fp.offset (-4)) 0) :
    ∃ after, (commit context index).Gives before () after := by
  refine exists_gives_commit_of_setBcx x86 interpreter found sits fun frame kind fp => ?_
  have covers : before.machine.stack.Covers (frame.slot (-7)) := by
    rw [Frame.slot, fp]
    exact sits.covers_slot (by decide) (by decide)
  obtain ⟨former, held⟩ := Stack.exists_holds covers
  have slotIs : frame.slot (-4) = fresh.fp.offset (-4) := by rw [Frame.slot, fp]
  have keepsProfiling : frame.KeepsProfiling context.env before.machine.stack fresh.bcp :=
    fun _ => ⟨former, 0, held, slotIs ▸ unused, .inl rfl⟩
  exact ⟨_, (Frame.gives_setBcx_iff x86).mpr ⟨kind, covers, .inl ⟨keepsProfiling, rfl⟩⟩⟩

/-- An activation that grew has the room that is left, and no entries still. -/
theorem grows_of_gives_growMonitors
    {monitor : Address}
    (x86 : context.env.layout = .x86_64)
    (found : before.manager.activation? index = some fresh)
    (sits : fresh.Sits before.machine.stack)
    (noEntries : fresh.stackTop = fresh.monitorEnd)
    (gives : (growMonitors context index).Gives before monitor after) :
    ∃ next, after.manager.activation? index = some next ∧
      next.Sits after.machine.stack ∧ next.stackTop = next.monitorEnd ∧
        next.stackLimit.toNat + 16 = fresh.stackLimit.toNat ∧
        next.monitorEnd.toNat + 16 = fresh.monitorEnd.toNat ∧
        after.machine.stack.limit = before.machine.stack.limit ∧
        after.machine.stack.limit.toNat ≤ next.stackLimit.toNat := by
  obtain ⟨_, lowered, workspace, sameFound, lowers, headroom, ordered, grew, rfl⟩ :=
    gives_growMonitors gives
  obtain rfl := Option.some.inj (found.symm.trans sameFound)
  obtain ⟨evolves, -, place⟩ := Workspace.evolves_growMonitors grew
  have lower := place sits
  obtain ⟨isGrown, -⟩ := Workspace.grown_of_gives_growMonitors sits.monitorWords grew
  have limitIs : workspace.activation.stackLimit = lowered := by
    rw [x86] at lowers
    rw [isGrown, Word.below_eq_ok lowers]
    rfl
  have moved := Word.toNat_offset fresh.stackLimit (-2)
  have small := fresh.stackLimit.toNat_lt
  have sameLimit := (evolves.keeps sits).limit
  have movedIs : (lowered).toNat = (fresh.stackLimit.offset (-2)).toNat := by
    rw [← limitIs, isGrown]
    rfl
  refine ⟨workspace.activation, FrameManager.activation?_withActivation found _,
    evolves.sits sits, ?_, ?_, lower, sameLimit, ?_⟩
  · rw [isGrown, Workspace.monitorEnd_grown, ← noEntries]
    rfl
  · rw [limitIs]
    omega
  · rw [limitIs]
    exact sameLimit ▸ headroom

/--
Room is made for monitors exactly as far as the stack reaches.  One monitor lowers the
limit and the end by two words each.
-/
theorem exists_gives_growAll_iff
    {count : Nat}
    (x86 : context.env.layout = .x86_64)
    (found : before.manager.activation? index = some fresh)
    (sits : fresh.Sits before.machine.stack)
    (noEntries : fresh.stackTop = fresh.monitorEnd)
    (low : before.machine.stack.limit.toNat ≤ fresh.stackLimit.toNat) :
    (∃ monitors after, (growAll context index count).Gives before monitors after) ↔
      before.machine.stack.limit.toNat + 16 * count ≤
        min fresh.stackLimit.toNat fresh.monitorEnd.toNat := by
  induction count generalizing before fresh with
  | zero =>
      have limitLe := sits.limitLe
      rw [noEntries] at limitLe
      refine iff_of_true ⟨[], before, gives_pure.mpr ⟨rfl, rfl⟩⟩ ?_
      omega
  | succ count inductionHypothesis =>
      have goesOn {monitor : Address} {between : Session τ}
          (gives : (growMonitors context index).Gives before monitor between) :
          (∃ monitors after, (growAll context index count).Gives between monitors after) ↔
            before.machine.stack.limit.toNat + 16 * (count + 1) ≤
              min fresh.stackLimit.toNat fresh.monitorEnd.toNat := by
        obtain ⟨next, nextFound, nextSits, nextEntries, limitPlace, endPlace, sameLimit,
          nextLow⟩ := grows_of_gives_growMonitors x86 found sits noEntries gives
        rw [inductionHypothesis nextFound nextSits nextEntries nextLow, sameLimit]
        omega
      constructor
      · rintro ⟨monitors, after, gives⟩
        simp only [growAll, gives_bind] at gives
        obtain ⟨first, between, grows, rest, last, others, -⟩ := gives
        exact (goesOn grows).mp ⟨rest, last, others⟩
      · intro room
        have holdsNone : fresh.HoldsEntries before.machine.stack [] :=
          sits.holdsEntries_iff.mpr ⟨by simp [noEntries], by simp⟩
        obtain ⟨monitor, workspace, grew⟩ := Workspace.exists_gives_growMonitors
          ⟨fresh, before.machine.stack⟩ sits holdsNone (by dsimp only; rw [noEntries]; omega)
        have moved := Word.toNat_offset fresh.stackLimit (-2)
        have small := fresh.stackLimit.toNat_lt
        have lowers : fresh.stackLimit.below context.env.layout.monitorWords =
            .ok (fresh.stackLimit.offset (-2)) := by
          rw [x86]
          rfl
        have grows : (growMonitors context index).Gives before monitor
            (before.withWorkspace index workspace) :=
          gives_bind.mpr ⟨_, _, gives_activation.mpr ⟨found, rfl⟩, gives_bind.mpr
            ⟨_, _, gives_check.mpr ⟨lowers, rfl⟩, gives_bind.mpr ⟨(), _,
              gives_checkHeadroom.mpr ⟨by omega, by omega, rfl⟩,
              gives_onWorkspace.mpr ⟨_, _, found, grew, rfl⟩⟩⟩⟩
        obtain ⟨rest, last, others⟩ := (goesOn grows).mpr room
        exact ⟨_, _, gives_bind.mpr ⟨_, _, grows, gives_bind.mpr ⟨_, _, others,
          gives_pure.mpr ⟨rfl, rfl⟩⟩⟩⟩

/-- A callee that was laid out is untouched. -/
theorem LaysOut.untouched
    {stack laid : Stack}
    {callee : Method}
    {placement : Placement}
    {top callerFp returnPc : Address}
    {thread : ThreadId}
    {caller : Option Nat}
    (laysOut : LaysOut callee placement top callerFp returnPc stack laid)
    (shaped : Activation.ofShape thread (shapeAt callee placement caller) .x86_64 =
      .ok fresh) :
    fresh.Untouched laid := by
  have sits := (sits_of_layout laysOut shaped).1
  have unused := laysOut.holds (-4, 0) (by simp [fields])
  have limitIs := laysOut.stackLimit shaped
  obtain ⟨_, _, -, rfl⟩ := Activation.ofShape_eq_ok shaped
  exact {
    sits := sits
    noEntries := by simp [Activation.monitorEnd]
    message := rfl
    unprofiled := unused
    low := by
      rw [(keeps_of_layout laysOut).limit, limitIs]
      exact laysOut.headroom }

/-- Growing moves the room for entries as far as the monitors. -/
theorem room_grown
    {count : Nat}
    {filled grew : Stack}
    (clears : Clears fresh count filled grew)
    (room : filled.limit.toNat + 16 * count ≤ fresh.stackLimit.toNat)
    (noEntries : fresh.stackTop = fresh.monitorEnd) :
    grew.limit.toNat ≤ (grown fresh (-(2 * count : Nat))).stackLimit.toNat ∧
      (grown fresh (-(2 * count : Nat))).stackTop.toNat -
          (grown fresh (-(2 * count : Nat))).stackLimit.toNat =
        fresh.monitorEnd.toNat - fresh.stackLimit.toNat := by
  have place := clears.place
  have moved := Word.toNat_offset fresh.stackLimit (-(2 * count : Nat))
  have small := fresh.stackLimit.toNat_lt
  have limitIs : (grown fresh (-(2 * count : Nat))).stackLimit.toNat + 16 * count =
      fresh.stackLimit.toNat := by
    change (fresh.stackLimit.offset (-(2 * count : Nat))).toNat + _ = _
    omega
  have topIs : (grown fresh (-(2 * count : Nat))).stackTop =
      (grown fresh (-(2 * count : Nat))).monitorEnd := by
    rw [Workspace.monitorEnd_grown, ← noEntries]
    rfl
  rw [topIs, clears.keeps.limit]
  omega

section FillingUp

variable {image : DeoptimizedActivation}

/-- Where its locals have been written, an activation grows as it did before. -/
theorem exists_gives_growAll_filled_iff
    {filled : Stack}
    {count : Nat}
    (x86 : context.env.layout = .x86_64)
    (found : before.manager.activation? index = some fresh)
    (untouched : fresh.Untouched before.machine.stack)
    (fills : (Workspace.writeLocals 0 image.locals).Gives
      ⟨fresh, before.machine.stack⟩ () ⟨fresh, filled⟩) :
    (∃ monitors after, (growAll context index count).Gives
        (before.withWorkspace index ⟨fresh, filled⟩) monitors after) ↔
      before.machine.stack.limit.toNat + 16 * count ≤
        min fresh.stackLimit.toNat fresh.monitorEnd.toNat := by
  obtain ⟨-, -, keeps⟩ := Workspace.holds_of_gives_writeLocals untouched.sits fills
  have filledFound : (before.withWorkspace index ⟨fresh, filled⟩).manager.activation? index =
      some fresh :=
    FrameManager.activation?_withActivation found fresh
  have low : filled.limit.toNat ≤ fresh.stackLimit.toNat := by
    rw [keeps.limit]
    exact untouched.low
  rw [← keeps.limit]
  exact exists_gives_growAll_iff x86 filledFound (untouched.sits.of_keeps keeps)
    untouched.noEntries low

/-- What an untouched activation was filled up with, it had room for. -/
theorem FillsUp.takes
    {filled grew : Stack}
    {pushed : Workspace}
    (x86 : context.env.layout = .x86_64)
    (found : before.manager.activation? index = some fresh)
    (untouched : fresh.Untouched before.machine.stack)
    (fillsUp : FillsUp context image index fresh before filled grew pushed) :
    fresh.Takes before.machine.stack image := by
  obtain ⟨-, -, keeps⟩ :=
    Workspace.holds_of_gives_writeLocals untouched.sits fillsUp.writesLocals
  have sameLimit : filled.limit = before.machine.stack.limit := keeps.limit
  have locals := (Workspace.exists_gives_writeLocals_iff ⟨fresh, before.machine.stack⟩
    image.locals untouched.sits (Nat.zero_le _)).mp ⟨_, fillsUp.writesLocals⟩
  have monitors := (exists_gives_growAll_filled_iff x86 found untouched
    fillsUp.writesLocals).mp ⟨_, _, fillsUp.grows⟩
  have room : filled.limit.toNat + 16 * image.monitors.length ≤ fresh.stackLimit.toNat := by
    rw [sameLimit]
    omega
  obtain ⟨low, same⟩ := room_grown fillsUp.clears room untouched.noEntries
  have expressions := (Workspace.exists_gives_pushAll_iff
    ⟨grown fresh (-(2 * image.monitors.length : Nat)), grew⟩ image.expressions
    fillsUp.clears.sits low).mp ⟨_, fillsUp.pushes⟩
  exact ⟨by rwa [Nat.zero_add] at locals, monitors, same ▸ expressions⟩

/-- It is filled up with all that it has room for. -/
theorem exists_fillsUp
    (x86 : context.env.layout = .x86_64)
    (found : before.manager.activation? index = some fresh)
    (untouched : fresh.Untouched before.machine.stack)
    (takes : fresh.Takes before.machine.stack image) :
    ∃ filled grew pushed, FillsUp context image index fresh before filled grew pushed := by
  obtain ⟨⟨activation, filled⟩, fills⟩ := (Workspace.exists_gives_writeLocals_iff
    ⟨fresh, before.machine.stack⟩ image.locals untouched.sits (Nat.zero_le _)).mpr
      (by rw [Nat.zero_add]; exact takes.locals)
  obtain ⟨sameActivation, -, keeps⟩ :=
    Workspace.holds_of_gives_writeLocals untouched.sits fills
  obtain rfl : activation = fresh := sameActivation
  have sameLimit : filled.limit = before.machine.stack.limit := keeps.limit
  have monitors := takes.monitors
  obtain ⟨made, roomy, grows⟩ := (exists_gives_growAll_filled_iff x86 found untouched
    fills).mpr monitors
  obtain ⟨grew, rfl, rfl, clears⟩ := clears_of_gives_growAll
    (FrameManager.activation?_withActivation found activation)
    untouched.sits.monitorWords grows
  rw [withWorkspace_withWorkspace] at grows
  have room : filled.limit.toNat + 16 * image.monitors.length ≤
      activation.stackLimit.toNat := by
    rw [sameLimit]
    omega
  have cleared := clears (untouched.sits.of_keeps keeps)
  obtain ⟨low, same⟩ := room_grown cleared room untouched.noEntries
  obtain ⟨pushed, pushes⟩ := (Workspace.exists_gives_pushAll_iff
    ⟨grown activation (-(2 * image.monitors.length : Nat)), grew⟩ image.expressions
    cleared.sits low).mpr (same ▸ takes.expressions)
  exact ⟨filled, grew, pushed, fills, grows, cleared, pushes⟩

section Filled

variable {filled grew : Stack} {pushed : Workspace}

/-- Nothing has been sent to an activation that was filled up. -/
theorem FillsUp.message
    (untouched : fresh.Untouched before.machine.stack)
    (fillsUp : FillsUp context image index fresh before filled grew pushed) :
    pushed.activation.message = .noRequest :=
  ((Workspace.KeepsMessage.pushAll image.expressions).of_gives fillsUp.pushes).trans
    untouched.message

/-- Filling an activation up leaves its profiling slot alone. -/
theorem FillsUp.unprofiled
    (untouched : fresh.Untouched before.machine.stack)
    (fillsUp : FillsUp context image index fresh before filled grew pushed) :
    pushed.stack.Holds (fresh.fp.offset (-4)) 0 := by
  have clears := fillsUp.clears
  have place := untouched.sits.toNat_slot (by decide : -9 ≤ (-4 : Int)) (by decide)
  have base := untouched.sits.monitorBase
  have monitors := untouched.sits.monitorEndLe
  have lower := clears.place
  have inSlots : Workspace.Foreign fresh (fresh.fp.offset (-4)).toNat :=
    ⟨by omega, .inl (by omega)⟩
  have filledHolds := ((Workspace.worked_writeLocals fillsUp.writesLocals).keeps
    untouched.sits).holds untouched.unprofiled inSlots
  have grewHolds := clears.keeps.holds filledHolds inSlots.1
  refine ((Workspace.worked_pushAll fillsUp.pushes).keeps clears.sits).holds grewHolds
    ⟨?_, inSlots.2⟩
  dsimp only
  omega

/-- The monitors of an activation that was filled up take their owners. -/
theorem FillsUp.exists_gives_writeOwners
    {kept : Nat → Prop}
    {published : Stack}
    (fillsUp : FillsUp context image index fresh before filled grew pushed)
    (keeps : Stack.Keeps kept pushed.stack published) :
    ∃ owned, (writeOwners ((monitorsBelow fresh.monitorEnd image.monitors.length).zip
      image.monitors)).Gives published () owned := by
  have pushKeeps := (Workspace.worked_pushAll fillsUp.pushes).keeps fillsUp.clears.sits
  rw [writeOwners_eq]
  refine Stack.exists_gives_writeEach fun pair inside => ?_
  obtain ⟨entry, isEntry, rfl⟩ := List.mem_map.mp inside
  have held := (fillsUp.clears.cleared entry.1 (List.of_mem_zip isEntry).1).2
  exact keeps.covers_iff.mpr (pushKeeps.covers_iff.mpr held.covers)

/-- An activation that was filled up resumes at its position, where it sits. -/
theorem FillsUp.exists_resumes
    (untouched : fresh.Untouched before.machine.stack)
    (fillsUp : FillsUp context image index fresh before filled grew pushed)
    (bcp : Address) :
    ∃ last : Activation,
      (do
        Workspace.pushAll image.expressions
        Workspace.updateActivation fun activation => { activation with bcp := bcp }
        Workspace.resume .deoptResume : Operation Workspace ProtocolError Unit).Gives
          ⟨grown fresh (-(2 * image.monitors.length : Nat)), grew⟩ () ⟨last, pushed.stack⟩ ∧
        last.Sits pushed.stack ∧ last.fp = fresh.fp := by
  have pushWorked := Workspace.worked_pushAll fillsUp.pushes
  have accepts : ({ pushed.activation with bcp := bcp } : Activation).accepts .deoptResume =
      true := by
    simp [Activation.accepts, fillsUp.message untouched]
  have worked : Workspace.Worked pushed
      ⟨resumed { pushed.activation with bcp := bcp } .deoptResume, pushed.stack⟩ :=
    Workspace.worked_resumed_at rfl
  exact ⟨_, gives_bind.mpr ⟨(), pushed, fillsUp.pushes, gives_bind.mpr ⟨(), _,
    Workspace.gives_updateActivation.mpr rfl, Workspace.resume_of_accepts rfl accepts⟩⟩,
    worked.sits (pushWorked.sits fillsUp.clears.sits), pushWorked.seat.fp⟩

/-- An activation that was filled up is the restored one, once it is published. -/
theorem FillsUp.exists_gives_restoreImage
    (x86 : context.env.layout = .x86_64)
    (interpreter : context.env.code.interpreterContains
      context.entryPoints.interpreterReturnPc = true)
    (found : before.manager.activation? index = some fresh)
    (untouched : fresh.Untouched before.machine.stack)
    (fillsUp : FillsUp context image index fresh before filled grew pushed)
    (bcp : Address) :
    ∃ after, (restoreImage context index bcp image).Gives before () after := by
  obtain ⟨last, resumes, lastSits, sameFp⟩ := fillsUp.exists_resumes untouched bcp
  have unused : pushed.stack.Holds (last.fp.offset (-4)) 0 := by
    rw [sameFp]
    exact fillsUp.unprofiled untouched
  have roomyFound := FrameManager.activation?_withActivation found
    (grown fresh (-(2 * image.monitors.length : Nat)))
  have lastFound : ((before.withWorkspace index
      ⟨grown fresh (-(2 * image.monitors.length : Nat)), grew⟩).withWorkspace index
        ⟨last, pushed.stack⟩).manager.activation? index = some last :=
    FrameManager.activation?_withActivation roomyFound last
  obtain ⟨committed, commits⟩ :=
    exists_gives_commit_of_zero x86 interpreter lastFound lastSits unused
  obtain ⟨_, published, -, publishes, isCommitted⟩ := gives_commit commits
  have sameManager : committed.manager.activation? index = some last := by
    rw [isCommitted]
    exact lastFound
  obtain ⟨frame, framed, -⟩ := exists_gives_frameOf interpreter committed last
  obtain ⟨owned, owns⟩ := fillsUp.exists_gives_writeOwners publishes.keeps
  have writes : (onMachine (Machine.onStack (writeOwners ((monitorsBelow fresh.monitorEnd
      image.monitors.length).zip image.monitors))) : Operation (Session τ) _ _).Gives
        committed () _ :=
    gives_onMachine.mpr ⟨_, Machine.gives_onStack.mpr
      ⟨owned, by rw [isCommitted]; exact owns, rfl⟩, rfl⟩
  exact ⟨_, gives_bind.mpr ⟨(), _, gives_onWorkspace.mpr
    ⟨fresh, _, found, fillsUp.writesLocals, rfl⟩, gives_bind.mpr ⟨_, _, fillsUp.grows,
      gives_bind.mpr ⟨(), _, gives_onWorkspace.mpr ⟨_, _, roomyFound, resumes, rfl⟩,
        gives_bind.mpr ⟨(), _, commits, gives_bind.mpr ⟨_, _,
          gives_activation.mpr ⟨sameManager, rfl⟩, gives_bind.mpr ⟨_, _, framed, writes⟩⟩⟩⟩⟩⟩⟩

end Filled

/-- An untouched activation is restored from an image exactly if it takes the image. -/
theorem exists_gives_restoreImage_iff
    {bcp : Address}
    (x86 : context.env.layout = .x86_64)
    (interpreter : context.env.code.interpreterContains
      context.entryPoints.interpreterReturnPc = true)
    (found : before.manager.activation? index = some fresh)
    (untouched : fresh.Untouched before.machine.stack) :
    (∃ after, (restoreImage context index bcp image).Gives before () after) ↔
      fresh.Takes before.machine.stack image := by
  constructor
  · rintro ⟨after, gives⟩
    obtain ⟨_, _, _, pushed, _, _, _, _, sameFound, fills, grows, grownFound, pushes, -⟩ :=
      gives_restoreImage gives
    obtain rfl := Option.some.inj (found.symm.trans sameFound)
    obtain ⟨_, _, -, -, fillsUp⟩ :=
      exists_fillsUp_of_gives found untouched.sits fills grows grownFound pushes
    exact fillsUp.takes x86 found untouched
  · intro takes
    obtain ⟨_, _, _, fillsUp⟩ := exists_fillsUp x86 found untouched takes
    exact fillsUp.exists_gives_restoreImage x86 interpreter found untouched bcp

end FillingUp

section Failing

variable {image : DeoptimizedActivation} {cause : ProtocolError}

/-- However it ends, the operation leaves the message of an activation alone. -/
def KeepsMessageAt
    (index : Nat)
    (operation : Operation (Session τ) ε α) :
    Prop :=
  operation.Respects fun before after =>
    (after.manager.activation? index).map Activation.message =
      (before.manager.activation? index).map Activation.message

namespace KeepsMessageAt

theorem bind
    {first : Operation (Session τ) ε α}
    {next : α → Operation (Session τ) ε β}
    (firstKeeps : KeepsMessageAt index first)
    (nextKeeps : ∀ value, KeepsMessageAt index (next value)) :
    KeepsMessageAt index (first >>= next) :=
  Respects.andThen (fun first second => second.trans first) firstKeeps nextKeeps

theorem inspect (look : Session τ → Probe ε α) :
    KeepsMessageAt index (Operation.inspect look) :=
  fun _ => rfl

theorem onWorkspace
    {operation : Operation Workspace ProtocolError α}
    (keeps : Workspace.KeepsMessage operation) :
    KeepsMessageAt index (Session.onWorkspace index operation :
      Operation (Session τ) _ α) := by
  intro before
  unfold Session.onWorkspace onActivation
  rcases found : before.manager.activation? index with _ | former
  · simp only [found]
  · have changed := FrameManager.activation?_withActivation found
      (operation ⟨former, before.machine.stack⟩).2.activation
    have same := keeps ⟨former, before.machine.stack⟩
    simp only [Turn.onWorkspace, onPart]
    rw [changed]
    exact congrArg some same

theorem growMonitors : KeepsMessageAt index (Session.growMonitors context index) := by
  refine .bind (.bind (inspect _) fun _ => ?_) fun _ => .bind (inspect _) fun _ =>
    .bind (.bind (inspect _) fun _ => ?_) fun _ => onWorkspace .growMonitors <;>
  · split <;> exact inspect _

theorem growAll (count : Nat) : KeepsMessageAt index (Session.growAll context index count) := by
  induction count with
  | zero => exact inspect _
  | succ count inductionHypothesis =>
      exact .bind growMonitors fun _ => .bind inductionHypothesis fun _ => inspect _

end KeepsMessageAt

/-- Work on an activation of the chain that fails leaves what the work left. -/
theorem exists_raises_of_onWorkspace
    {operation : Operation Workspace ProtocolError α}
    (found : before.manager.activation? index = some fresh)
    (raises : (onWorkspace index operation).Raises before cause after) :
    ∃ workspace, operation.Raises ⟨fresh, before.machine.stack⟩ cause workspace ∧
      after = before.withWorkspace index workspace := by
  obtain ⟨failed, rfl⟩ := raises
  refine ⟨(operation ⟨fresh, before.machine.stack⟩).2, ⟨?_, rfl⟩, ?_⟩
  · simpa only [onWorkspace, onActivation, found, Turn.onWorkspace, onPart] using failed
  · simp only [onWorkspace, onActivation, found, Turn.onWorkspace, onPart]
    rfl

/--
An activation that could not be restored had no room, and was sent nothing.  Whichever
step stops, the response at the end has not been given.
-/
theorem takes_not_of_raises_restoreImage
    {bcp : Address}
    (x86 : context.env.layout = .x86_64)
    (interpreter : context.env.code.interpreterContains
      context.entryPoints.interpreterReturnPc = true)
    (found : before.manager.activation? index = some fresh)
    (untouched : fresh.Untouched before.machine.stack)
    (raises : (restoreImage context index bcp image).Raises before cause after) :
    ¬fresh.Takes before.machine.stack image ∧
      (after.manager.activation? index).map Activation.message = some .noRequest := by
  have refused : ¬fresh.Takes before.machine.stack image := by
    intro takes
    obtain ⟨_, gives⟩ :=
      (exists_gives_restoreImage_iff x86 interpreter found untouched).mpr takes
    exact gives.not_raises raises
  refine ⟨refused, ?_⟩
  have waits : (before.manager.activation? index).map Activation.message =
      some .noRequest := by
    rw [found, Option.map_some, untouched.message]
  rcases raises_bind.mp raises with stops | ⟨_, written, writes, raises⟩
  · have same := (KeepsMessageAt.onWorkspace (.writeLocals 0 image.locals)).of_raises stops
    exact same.trans waits
  have writtenWaits := ((KeepsMessageAt.onWorkspace (.writeLocals 0 image.locals)).of_gives
    writes).trans waits
  rcases raises_bind.mp raises with stops | ⟨monitors, roomy, grows, raises⟩
  · exact ((KeepsMessageAt.growAll _).of_raises stops).trans writtenWaits
  have roomyWaits := ((KeepsMessageAt.growAll _).of_gives grows).trans writtenWaits
  rcases raises_bind.mp raises with stops | ⟨_, last, pushes, -⟩
  · obtain ⟨grownTop, grownFound, isMessage⟩ := Option.map_eq_some_iff.mp roomyWaits
    obtain ⟨workspace, fails, rfl⟩ := exists_raises_of_onWorkspace grownFound stops
    have changed := FrameManager.activation?_withActivation grownFound workspace.activation
    rw [manager_withWorkspace, changed, Option.map_some,
      Workspace.message_of_raises_pushAll fails, isMessage]
  · obtain ⟨_, filled, sameFound, fills, rfl⟩ := gives_onWorkspace.mp writes
    obtain rfl := Option.some.inj (found.symm.trans sameFound)
    obtain ⟨grownTop, _, grownFound, sends, -⟩ := gives_onWorkspace.mp pushes
    obtain ⟨_, pushed, entries, -⟩ := gives_bind.mp sends
    obtain ⟨_, _, -, -, fillsUp⟩ :=
      exists_fillsUp_of_gives found untouched.sits fills grows grownFound entries
    exact (refused (fillsUp.takes x86 found untouched)).elim

end Failing

end Session

end ManagedStack
