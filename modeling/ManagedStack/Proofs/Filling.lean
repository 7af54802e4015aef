import ManagedStack.Proofs.Resuming

namespace ManagedStack

/-!
# What an activation is filled with

Locals are written into their places, entries go onto the expression stack one above the
other, and a new monitor is cleared below the ones that are there.  Each of these keeps
what the others have filled: locals lie above the frame pointer, monitors between the
fixed slots and the entries, and entries are pushed below all of them.
-/

open Operation

/-- Clearing words is writing as many zeros. -/
theorem Stack.zeroWords_eq
    (start : Address)
    (count : Nat) :
    zeroWords start count = writeAll start (List.replicate count 0) := by
  induction count generalizing start with
  | zero => rfl
  | succ count inductionHypothesis =>
      rw [List.replicate_succ]
      exact bind_congr fun _ => inductionHypothesis _

namespace Activation

variable {stack after : Stack} {activation : Activation} {index : Nat} {word : Word}

/-- A local of the activation has this word. -/
def HoldsLocal
    (stack : Stack)
    (activation : Activation)
    (index : Nat)
    (word : Word) :
    Prop :=
  (Workspace.readLocal index).Gives ⟨activation, stack⟩ word ⟨activation, stack⟩

/-- A monitor, counted from the highest, is not locked and has this owner. -/
def HoldsMonitor
    (stack : Stack)
    (activation : Activation)
    (index : Nat)
    (owner : Word) :
    Prop :=
  ∃ monitor, activation.monitorAt? index = .ok (some monitor) ∧
    stack.Holds monitor 0 ∧ stack.Holds (Frame.monitorOwner monitor) owner

end Activation

namespace Workspace

variable {before after : Workspace} {index first : Nat} {word : Word} {values : List Word}

theorem gives_localSlot {address : Address} :
    (localSlot index).Gives before address after ↔
      index < before.activation.maxLocals ∧
        address = before.activation.locals.offset (-index) ∧ after = before := by
  unfold localSlot Activation.localSlot
  simp only [gives_bind, gives_current, and_assoc, exists_and_left, exists_eq_left]
  by_cases inside : index < before.activation.maxLocals <;> simp [inside]

/-- A local is read where its place is on the stack. -/
theorem holdsLocal_iff
    {stack : Stack}
    {activation : Activation} :
    activation.HoldsLocal stack index word ↔ index < activation.maxLocals ∧
      stack.Holds (activation.locals.offset (-index)) word := by
  unfold Activation.HoldsLocal readLocal readWord
  simp only [gives_bind, gives_localSlot, gives_onStack, gives_inspect, Stack.gives_read,
    and_assoc, exists_and_left, exists_eq_left, and_true]

theorem gives_writeLocal {value : Unit} :
    (writeLocal index word).Gives before value after ↔
      index < before.activation.maxLocals ∧
        before.stack.Covers (before.activation.locals.offset (-index)) ∧
          after = { before with
            stack := before.stack.put (before.activation.locals.offset (-index)) word } := by
  unfold writeLocal writeWord
  simp only [gives_bind, gives_localSlot, gives_onStack, Stack.gives_write, and_assoc,
    exists_and_left, exists_eq_left]

/-- The argument that lies so many entries below the top. -/
theorem gives_peek {depth : Nat} :
    (peek depth).Gives before word after ↔
      ∃ entries, before.activation.stackDepth = .ok entries ∧ depth < entries.toNat ∧
        before.stack.Holds (before.activation.stackTop.offset depth) word ∧
          after = before := by
  unfold peek readWord
  simp only [gives_bind, gives_current, gives_check, gives_ite, gives_fail, gives_onStack,
    gives_inspect, Stack.gives_read, and_assoc, exists_and_left, exists_eq_left, and_false,
    false_or, Nat.not_le]

/-- Where locals with ascending indices are. -/
def LocalPlaces
    (activation : Activation)
    (first count : Nat)
    (place : Nat) :
    Prop :=
  ∃ index < count, (activation.locals.offset (-(first + index : Nat))).toNat = place

/--
Locals that were written are held, and nothing else was written.  A later local is at
another address, so that none is written twice.
-/
theorem holds_of_gives_writeLocals
    (sits : before.activation.Sits before.stack)
    (gives : (writeLocals first values).Gives before () after) :
    after.activation = before.activation ∧
      (∀ index word, values[index]? = some word →
        before.activation.HoldsLocal after.stack (first + index) word) ∧
      Stack.Keeps (fun place => ¬LocalPlaces before.activation first values.length place)
        before.stack after.stack := by
  induction values generalizing first before with
  | nil =>
      obtain ⟨-, rfl⟩ := gives_pure.mp gives
      exact ⟨rfl, by simp, .refl _⟩
  | cons value rest inductionHypothesis =>
      obtain ⟨_, between, written, others⟩ := gives_bind.mp gives
      obtain ⟨inside, covers, isBetween⟩ := gives_writeLocal.mp written
      have sitsBetween := ((worked_writeLocal first value).of_gives written).sits sits
      obtain ⟨same, holds, keeps⟩ := inductionHypothesis sitsBetween others
      subst isBetween
      refine ⟨same, fun index word found => ?_, ?_⟩
      · cases index with
        | zero =>
            obtain rfl : value = word := by simpa using found
            refine holdsLocal_iff.mpr ⟨inside, keeps.holds (Stack.holds_put_same covers) ?_⟩
            rintro ⟨later, inRest, place⟩
            obtain ⟨laterInside, -⟩ :=
              holdsLocal_iff.mp (holds later rest[later] (by simp [inRest]))
            have here := sits.toNat_local inside
            have there := sits.toNat_local laterInside
            simp only [Nat.add_zero] at laterInside place
            omega
        | succ index =>
            have next := holds index word (by simpa using found)
            rwa [Nat.add_assoc, Nat.add_comm 1 index] at next
      · refine (Stack.Keeps.put _ _ ?_).trans (keeps.mono ?_)
        · exact fun kept => kept ⟨0, by simp, rfl⟩
        · rintro place kept ⟨index, inRest, isPlace⟩
          refine kept ⟨index + 1, by simpa using inRest, ?_⟩
          rw [← isPlace, Nat.add_assoc, Nat.add_comm 1 index]

theorem gives_push {value : Unit} :
    (push word).Gives before value after ↔
      ¬before.activation.stackTop.offset (-1) < before.activation.stackLimit ∧
        before.stack.Covers (before.activation.stackTop.offset (-1)) ∧
          after = {
            activation := { before.activation with
              stackTop := before.activation.stackTop.offset (-1) }
            stack := before.stack.put (before.activation.stackTop.offset (-1)) word } := by
  unfold push writeWord
  simp only [gives_bind, gives_current, gives_ite, gives_fail, gives_onStack,
    gives_updateActivation, Stack.gives_write, and_assoc, exists_and_left, exists_eq_left,
    and_false, false_or]
  simp

/-- The top moves down by one word. -/
theorem toNat_top_of_gives_push
    (sits : before.activation.Sits before.stack)
    (gives : (push word).Gives before () after) :
    after.activation.stackTop.toNat + 8 = before.activation.stackTop.toNat := by
  obtain ⟨-, covers, rfl⟩ := gives_push.mp gives
  have moved := sits.covers_top.toNat_offset covers (by omega) (by omega)
  dsimp only
  omega

/-- An entry that was pushed is the top entry. -/
theorem holdsEntries_of_gives_push
    {entries : List Word}
    (sits : before.activation.Sits before.stack)
    (holds : before.activation.HoldsEntries before.stack entries)
    (gives : (push word).Gives before () after) :
    after.activation.HoldsEntries after.stack (word :: entries) ∧
      Stack.Keeps (before.activation.stackTop.toNat ≤ ·) before.stack after.stack := by
  have worked := (worked_push word).of_gives gives
  have lower := toNat_top_of_gives_push sits gives
  obtain ⟨-, covers, isAfter⟩ := gives_push.mp gives
  have topIs : after.activation.stackTop = before.activation.stackTop.offset (-1) := by
    rw [isAfter]
  have stackIs : after.stack = before.stack.put
      (before.activation.stackTop.offset (-1)) word := by
    rw [isAfter]
  obtain ⟨length, words⟩ := sits.holdsEntries_iff.mp holds
  have keeps : Stack.Keeps (before.activation.stackTop.toNat ≤ ·) before.stack
      after.stack := by
    rw [stackIs]
    exact .put _ _ fun above => by rw [topIs] at lower; omega
  refine ⟨(worked.sits sits).holdsEntries_iff.mpr ⟨?_, fun index other found => ?_⟩,
    keeps⟩
  · rw [worked.seat.monitorEnd, List.length_cons]
    omega
  · rw [topIs]
    cases index with
    | zero =>
        obtain rfl : word = other := by simpa using found
        rw [stackIs]
        simpa using Stack.holds_put_same covers
    | succ index =>
        have there := words index other (by simpa using found)
        have inside := (List.getElem?_eq_some_iff.mp found).1
        rw [List.length_cons] at inside
        have place := Activation.toNat_entry (by omega :
          before.activation.stackTop.toNat + 8 * index ≤
            before.activation.monitorEnd.toNat)
        have sameWord : (before.activation.stackTop.offset (-1)).offset
            (index + 1 : Nat) = before.activation.stackTop.offset index := by
          rw [Word.offset_offset]
          congr 1
          omega
        rw [sameWord]
        exact keeps.holds there (by omega)

/-- Entries that were pushed in order lie above the ones that were there. -/
theorem holdsEntries_of_gives_pushAll
    {entries : List Word}
    (sits : before.activation.Sits before.stack)
    (holds : before.activation.HoldsEntries before.stack entries)
    (gives : (pushAll values).Gives before () after) :
    after.activation.HoldsEntries after.stack (values.reverse ++ entries) ∧
      Stack.Keeps (before.activation.stackTop.toNat ≤ ·) before.stack after.stack := by
  induction values generalizing before entries with
  | nil =>
      obtain ⟨-, rfl⟩ := gives_pure.mp gives
      exact ⟨holds, .refl _⟩
  | cons value rest inductionHypothesis =>
      obtain ⟨_, between, pushes, others⟩ := gives_bind.mp gives
      have sitsBetween := ((worked_push value).of_gives pushes).sits sits
      obtain ⟨top, keeps⟩ := holdsEntries_of_gives_push sits holds pushes
      obtain ⟨all, keepsOthers⟩ := inductionHypothesis sitsBetween top others
      have lower := toNat_top_of_gives_push sits pushes
      rw [List.reverse_cons, List.append_assoc]
      exact ⟨all, keeps.trans (keepsOthers.mono fun place above => by omega)⟩

/-- The registers move by the words of a monitor. -/
theorem grown_of_gives_growMonitors
    {monitor : Address}
    (two : before.activation.monitorWords = 2)
    (gives : growMonitors.Gives before monitor after) :
    after.activation = Session.grown before.activation (-2) ∧
      monitor = before.activation.monitorEnd.offset (-2) := by
  obtain ⟨depth, shift, copied, stack, -, negated, -, rfl, -, rfl⟩ :=
    Session.gives_workspace_growMonitors gives
  rw [two] at negated
  obtain rfl : -2 = shift := Except.ok.inj negated
  exact ⟨rfl, monitorEnd_grown ..⟩

/-- One more monitor is cleared below the ones that are there. -/
theorem clears_of_gives_growMonitors
    {monitor : Address}
    (sits : before.activation.Sits before.stack)
    (gives : growMonitors.Gives before monitor after) :
    after.stack.Holds monitor 0 ∧ after.stack.Holds (Frame.monitorOwner monitor) 0 ∧
      Stack.Keeps (fun place => place < after.activation.stackTop.toNat ∨
        before.activation.monitorEnd.toNat ≤ place) before.stack after.stack := by
  obtain ⟨depth, shift, copied, stack, counted, negated, copies, rfl, zeroes, rfl⟩ :=
    Session.gives_workspace_growMonitors gives
  rw [sits.monitorWords] at negated zeroes
  obtain rfl : -2 = shift := Except.ok.inj negated
  rw [monitorEnd_grown] at zeroes ⊢
  obtain ⟨-, -, keeps⟩ := places_of_growMonitors sits counted copies zeroes
  rw [Stack.zeroWords_eq] at zeroes
  have cleared := Stack.holds_of_gives_writeAll zeroes
  have lock := cleared 0 0 (by decide)
  rw [Int.natCast_zero, Word.offset_zero] at lock
  exact ⟨lock, cleared 1 0 (by decide), keeps⟩

/--
The entries are the same below the new monitor, though they were copied over each
other.  Every word is read before the first one is written.
-/
theorem holdsEntries_of_gives_growMonitors
    {monitor : Address}
    {entries : List Word}
    (sits : before.activation.Sits before.stack)
    (holds : before.activation.HoldsEntries before.stack entries)
    (gives : growMonitors.Gives before monitor after) :
    after.activation.HoldsEntries after.stack entries := by
  have sitsAfter := (evolves_growMonitors gives).1.sits sits
  obtain ⟨depth, shift, copied, stack, counted, negated, copies, rfl, zeroes, rfl⟩ :=
    Session.gives_workspace_growMonitors gives
  rw [sits.monitorWords] at negated zeroes
  obtain rfl : -2 = shift := Except.ok.inj negated
  rw [monitorEnd_grown] at zeroes
  obtain ⟨⟨endPlace, topPlace⟩, -, -⟩ := places_of_growMonitors sits counted copies zeroes
  have newEnd := congrArg UInt64.toNat (monitorEnd_grown before.activation (-2))
  obtain ⟨length, -⟩ := sits.holdsEntries_iff.mp holds
  obtain ⟨_, countedAgain, read⟩ := holds
  obtain rfl := Except.ok.inj (counted.symm.trans countedAgain)
  simp only [Stack.copyWords, gives_bind, gives_inspect] at copies
  obtain ⟨words, _, ⟨readAlso, rfl⟩, writes⟩ := copies
  obtain rfl := read.unique readAlso
  obtain ⟨-, keeps⟩ := Stack.writes_zeroWords _ _ _ _ _ zeroes
  refine sitsAfter.holdsEntries_iff.mpr ⟨?_, fun index word found => ?_⟩
  · change (before.activation.stackTop.offset (-2)).toNat + _ = _
    rw [newEnd]
    omega
  have inside := (List.getElem?_eq_some_iff.mp found).1
  refine keeps.holds (Stack.holds_of_gives_writeAll writes index word found) ?_
  rintro _ ⟨cleared, few, rfl⟩ same
  change cleared < 2 at few
  change _ = ((before.activation.stackTop.offset (-2)).offset index).toNat at same
  have small := before.activation.monitorEnd.toNat_lt
  have entryPlace : ((before.activation.stackTop.offset (-2)).offset index).toNat =
      (before.activation.stackTop.offset (-2)).toNat + 8 * index :=
    Word.toNat_offset_of_fits (by omega) (by omega)
  have clearedPlace : ((before.activation.monitorEnd.offset (-2)).offset cleared).toNat =
      (before.activation.monitorEnd.offset (-2)).toNat + 8 * cleared :=
    Word.toNat_offset_of_fits (by omega) (by omega)
  omega

end Workspace

namespace Session

variable {context : ManagerContext τ} {before after : Session τ}

theorem monitorWords_grown
    (activation : Activation)
    (shift : Int) :
    (grown activation shift).monitorWords = activation.monitorWords :=
  rfl

theorem grown_grown
    (activation : Activation)
    (first second : Int) :
    grown (grown activation first) second = grown activation (second + first) := by
  simp only [grown, Word.offset_offset, Int.add_comm second]

/-- So many monitors right below an address, the highest first. -/
def monitorsBelow
    (address : Address)
    (count : Nat) :
    List Address :=
  (List.range count).map fun index => address.offset (-(2 * (index + 1) : Nat))

theorem monitorsBelow_succ
    (address : Address)
    (count : Nat) :
    monitorsBelow address (count + 1) =
      address.offset (-2) :: monitorsBelow (address.offset (-2)) count := by
  unfold monitorsBelow
  rw [List.range_succ_eq_map, List.map_cons, List.map_map]
  refine congrArg _ (List.map_congr_left fun index _ => ?_)
  rw [Function.comp_apply, Word.offset_offset]
  congr 1
  omega

/-- The monitors that were made are cleared, and what lay above them stays. -/
structure Clears
    (former : Activation)
    (count : Nat)
    (before after : Stack) :
    Prop where
  place : (grown former (-(2 * count : Nat))).monitorEnd.toNat + 16 * count =
    former.monitorEnd.toNat
  cleared : ∀ monitor ∈ monitorsBelow former.monitorEnd count,
    after.Holds monitor 0 ∧ after.Holds (Frame.monitorOwner monitor) 0
  sits : (grown former (-(2 * count : Nat))).Sits after
  keeps : Stack.Keeps (former.monitorEnd.toNat ≤ ·) before after

/--
Growing several times moves the registers by the words of as many monitors.  The
others are grown from an activation that has the first monitor already.
-/
theorem clears_of_gives_growAll
    {index count : Nat}
    {former : Activation}
    {monitors : List Address}
    (found : before.manager.activation? index = some former)
    (two : former.monitorWords = 2)
    (gives : (growAll context index count).Gives before monitors after) :
    ∃ stack,
      after = before.withWorkspace index ⟨grown former (-(2 * count : Nat)), stack⟩ ∧
        monitors = monitorsBelow former.monitorEnd count ∧
        (former.Sits before.machine.stack →
          Clears former count before.machine.stack stack) := by
  induction count generalizing before former monitors with
  | zero =>
      obtain ⟨rfl, rfl⟩ := gives_pure.mp gives
      have same : grown former (-(2 * 0 : Nat)) = former := by
        simp [grown, Word.offset_zero]
      refine ⟨after.machine.stack, ?_, by simp [monitorsBelow],
        fun sits => ⟨?_, by simp [monitorsBelow], ?_, .refl _⟩⟩
      · rw [same]
        simp only [withWorkspace, withTurn, FrameManager.withActivation_self found]
      · rw [same]
        simp
      · rw [same]
        exact sits
  | succ count inductionHypothesis =>
      simp only [growAll, gives_bind, gives_pure] at gives
      obtain ⟨first, between, grows, others, _, restGrows, rfl, rfl⟩ := gives
      obtain ⟨_, _, middle, sameFound, -, -, -, grew, rfl⟩ := gives_growMonitors grows
      obtain rfl := Option.some.inj (found.symm.trans sameFound)
      obtain ⟨middleIs, rfl⟩ := Workspace.grown_of_gives_growMonitors two grew
      obtain ⟨stack, rfl, rfl, clears⟩ := inductionHypothesis
        (FrameManager.activation?_withActivation found middle.activation)
        (by rw [middleIs, monitorWords_grown, two]) restGrows
      have endIs : middle.activation.monitorEnd = former.monitorEnd.offset (-2) := by
        rw [middleIs, Workspace.monitorEnd_grown]
      have movedIs : grown middle.activation (-(2 * count : Nat)) =
          grown former (-(2 * (count + 1) : Nat)) := by
        rw [middleIs, grown_grown]
        congr 1
        omega
      refine ⟨stack, ?_, ?_, fun sits => ?_⟩
      · rw [withWorkspace_withWorkspace, movedIs]
      · rw [monitorsBelow_succ, endIs]
      · obtain ⟨lock, owner, keepsOutside⟩ := Workspace.clears_of_gives_growMonitors sits grew
        have keeps := keepsOutside.mono fun _ => Or.inr
        obtain ⟨evolves, -, place⟩ := Workspace.evolves_growMonitors grew
        have middlePlace := place sits
        obtain ⟨restPlace, cleared, restSits, restKeeps⟩ := clears (evolves.sits sits)
        rw [movedIs] at restPlace restSits
        dsimp only at middlePlace
        refine ⟨by omega, fun monitor inside => ?_, restSits,
          keeps.trans (restKeeps.mono ?_)⟩
        · rw [monitorsBelow_succ] at inside
          rcases List.mem_cons.mp inside with rfl | inRest
          · rw [← endIs] at lock owner ⊢
            have small := former.monitorEnd.toNat_lt
            have ownerPlace : (Frame.monitorOwner middle.activation.monitorEnd).toNat =
                middle.activation.monitorEnd.toNat + 8 * 1 :=
              Word.toNat_offset_of_fits (by omega) (by omega)
            exact ⟨restKeeps.holds lock (Nat.le_refl _),
              restKeeps.holds owner (by omega)⟩
          · rw [← endIs] at inRest
            exact cleared monitor inRest
        · intro place above
          dsimp only at above middlePlace
          omega

end Session

end ManagedStack
