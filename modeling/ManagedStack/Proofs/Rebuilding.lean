import ManagedStack.Proofs.Filling
import ManagedStack.Proofs.Localized
import ManagedStack.Proofs.Neutrality

namespace ManagedStack

/-!
# Rebuilding an activation

An activation that is rebuilt from an image is laid out like a callee over the arguments
of the waiting caller, grown by a monitor for each owner, and filled.  Locals that the
image leaves out are what a call would have made them: the arguments that the caller
pushed, and zero beyond them.
-/

open Operation FrameManager

namespace DeoptRecords

/-- The record of one frame is gone, and no other one. -/
structure ForgetsOne
    (before after : DeoptRecords)
    (unitStart frameId : Address) :
    Prop where
  entry : after.displacedPc? unitStart frameId = none
  others : after.displacedPcs =
    before.displacedPcs.filter fun entry => !isAbout unitStart frameId entry
  marked : after.marked = before.marked

theorem forgetsOne_forget
    (records : DeoptRecords)
    (unitStart frameId : Address) :
    records.ForgetsOne (records.forget unitStart frameId) unitStart frameId where
  entry := displacedPc?_forget_same ..
  others := rfl
  marked := rfl

end DeoptRecords

/-- A position above the byte code indices is the one that its address was taken of. -/
theorem Method.bciOfBcx?_bcpOf
    {method : Method}
    {bci : UInt32}
    {bcp : Address}
    (above : 65535 < method.codeBase.toNat)
    (position : method.bcpOf bci = .ok bcp)
    (known : (method.bciOfBcx? bcp).isSome = true) :
    method.bciOfBcx? bcp = some bci := by
  obtain ⟨fits, sum⟩ := Word.plus_eq_ok.mp position
  have notIndex := isBytecodeIndex_eq_false (by omega : 65535 < bcp.toNat)
  have low : method.codeBase ≤ bcp := UInt64.le_iff_toNat_le.mpr (by omega)
  have distance : (bcp - method.codeBase).toUInt32 = bci := by
    apply UInt32.toNat_inj.mp
    have taken := UInt64.toNat_sub_of_le _ _ low
    have small := bci.toNat_lt
    rw [UInt64.toNat_toUInt32, taken, sum]
    simp only [UInt32.toNat_toUInt64]
    omega
  obtain ⟨index, isIndex⟩ := Option.isSome_iff_exists.mp known
  have found := isIndex
  unfold bciOfBcx? at found
  rw [notIndex] at found
  have inside : method.bciOf? bcp = some index := (Option.filter_eq_some_iff.mp found).1
  unfold bciOf? Word.sub? at inside
  rw [if_pos low] at inside
  obtain ⟨-, rfl⟩ : bcp - method.codeBase < max method.codeSize 1 ∧
      (bcp - method.codeBase).toUInt32 = index := by
    simpa using inside
  rw [isIndex, distance]

namespace Session

section Layout

variable {before after : Stack} {method : Method} {placement : Placement}
  {top callerFp returnPc : Address} {thread : ThreadId} {caller : Option Nat}
  {fresh : Activation}

/-- Clearing locals leaves a zero where there is one. -/
theorem holds_zero_of_clearLocals
    {locals address : Address}
    {first count : Nat}
    (gives : (clearLocals locals first count).Gives before () after)
    (held : before.Holds address 0) :
    after.Holds address 0 := by
  induction count generalizing first before with
  | zero =>
      obtain ⟨-, rfl⟩ := gives_pure.mp gives
      exact held
  | succ count inductionHypothesis =>
      obtain ⟨_, between, written, others⟩ := gives_bind.mp gives
      obtain ⟨covers, rfl⟩ := Stack.gives_write.mp written
      refine inductionHypothesis others ?_
      by_cases same : address = locals.offset (-first)
      · rw [same]
        exact Stack.holds_put_same covers
      · exact (Stack.holds_put_of_ne same).mpr held

/-- Locals that were cleared are zero. -/
theorem holds_of_gives_clearLocals
    {locals : Address}
    {first count index : Nat}
    (gives : (clearLocals locals first count).Gives before () after)
    (inside : index < count) :
    after.Holds (locals.offset (-(first + index : Nat))) 0 := by
  induction count generalizing first index before with
  | zero => omega
  | succ count inductionHypothesis =>
      obtain ⟨_, between, written, others⟩ := gives_bind.mp gives
      cases index with
      | zero =>
          obtain ⟨covers, rfl⟩ := Stack.gives_write.mp written
          exact holds_zero_of_clearLocals others (Stack.holds_put_same covers)
      | succ index =>
          have cleared := inductionHypothesis others (by omega : index < count)
          rwa [Nat.add_assoc, Nat.add_comm 1 index] at cleared

/-- The fields of a fresh activation lie below its locals. -/
theorem fields_below_locals
    (laysOut : LaysOut method placement top callerFp returnPc before after)
    {field : Int × Word}
    (isField : field ∈ fields method placement top callerFp returnPc) :
    (placement.fp.offset field.1).toNat +
      8 * (method.maxLocals - method.parameterSlots + 1) ≤ top.toNat := by
  obtain ⟨extra, total, fpIs, covers⟩ := covers_of_layout laysOut
  have distance := distance_of_field isField
  have place := Stack.toNat_offset_of_covers covers (by omega) (Int.le_refl _)
    (by omega : -(extra + 11 : Nat) ≤ -(extra + 2 : Nat) + field.1) (by omega)
  rw [fpIs, Word.offset_offset]
  omega

/-- The locals of a fresh activation are those of its method, at their place. -/
theorem locals_of_layout
    (laysOut : LaysOut method placement top callerFp returnPc before after)
    (shaped : Activation.ofShape thread (shapeAt method placement caller)
      .x86_64 = .ok fresh) :
    fresh.maxLocals = method.maxLocals ∧
      fresh.locals = top.offset (method.parameterSlots - 1) := by
  obtain ⟨-, -, localWords, locals, -⟩ := place_eq_ok laysOut.placed
  obtain ⟨stackLimit, scratch, -, rfl⟩ := Activation.ofShape_eq_ok shaped
  exact ⟨localWords, locals⟩

/-- A fresh activation has zero in the locals that no argument was pushed for. -/
theorem LaysOut.holdsLocal_zero
    (laysOut : LaysOut method placement top callerFp returnPc before after)
    (shaped : Activation.ofShape thread (shapeAt method placement caller)
      .x86_64 = .ok fresh)
    {index : Nat}
    (above : method.parameterSlots ≤ index)
    (inside : index < method.maxLocals) :
    fresh.HoldsLocal after index 0 := by
  obtain ⟨extra, total, fpIs, covers⟩ := covers_of_layout laysOut
  obtain ⟨-, -, localWords, locals, -⟩ := place_eq_ok laysOut.placed
  obtain ⟨freshMax, freshLocals⟩ := locals_of_layout laysOut shaped
  obtain ⟨cleared, clears, fills⟩ := laysOut.runs
  obtain ⟨-, keeps⟩ := Stack.writes_writeEach _ _ _ _ fills
  have zero := holds_of_gives_clearLocals clears
    (by omega : index - method.parameterSlots < _)
  rw [Nat.add_sub_cancel' above, locals, ← freshLocals] at zero
  refine Workspace.holdsLocal_iff.mpr ⟨by omega, keeps.holds zero ?_⟩
  rintro address ⟨_, isWritten, rfl⟩ same
  obtain ⟨field, isField, rfl⟩ := List.mem_map.mp isWritten
  have below := fields_below_locals laysOut isField
  have place := Stack.toNat_offset_of_covers covers (by omega) (Int.le_refl _)
    (by omega : -(extra + 11 : Nat) ≤ (method.parameterSlots : Int) - 1 + -index)
    (by omega)
  rw [freshLocals, Word.offset_offset] at same
  dsimp only at same
  omega

/-- A fresh activation has the arguments that were pushed as its first locals. -/
theorem LaysOut.holdsLocal_argument
    (laysOut : LaysOut method placement top callerFp returnPc before after)
    (shaped : Activation.ofShape thread (shapeAt method placement caller)
      .x86_64 = .ok fresh)
    {index : Nat}
    {word : Word}
    (inside : index < method.parameterSlots)
    (held : before.Holds (top.offset (method.parameterSlots - 1 - index : Nat)) word) :
    fresh.HoldsLocal after index word := by
  obtain ⟨freshMax, freshLocals⟩ := locals_of_layout laysOut shaped
  have arguments := laysOut.arguments
  have small := before.base.toNat_lt
  have more : method.parameterSlots ≤ method.maxLocals := Nat.le_max_right ..
  have placeIs : fresh.locals.offset (-index) =
      top.offset (method.parameterSlots - 1 - index : Nat) := by
    rw [freshLocals, Word.offset_offset]
    congr 1
    omega
  have place : (top.offset (method.parameterSlots - 1 - index : Nat)).toNat =
      top.toNat + 8 * (method.parameterSlots - 1 - index) :=
    Word.toNat_offset_of_fits (by omega) (by omega)
  refine Workspace.holdsLocal_iff.mpr ⟨by omega, ?_⟩
  rw [placeIs]
  exact (keeps_of_layout laysOut).holds held (by omega)

end Layout

section Filling

variable {context : ManagerContext τ} {before after : Session τ} {image : DeoptimizedActivation}

/-- Owners are written one after the other. -/
theorem writeOwners_eq (owned : List (Address × Word)) :
    writeOwners owned = Stack.writeEach
      (owned.map fun entry => (Frame.monitorOwner entry.1, entry.2)) := by
  induction owned with
  | nil => rfl
  | cons entry rest inductionHypothesis =>
      exact bind_congr fun _ => inductionHypothesis

/-- Where the monitors below an address are. -/
theorem toNat_monitorsBelow
    {address : Address}
    {count index : Nat}
    (fits : 16 * count ≤ address.toNat)
    (inside : index < count) :
    (address.offset (-(2 * (index + 1) : Nat))).toNat + 16 * (index + 1) = address.toNat ∧
      (Frame.monitorOwner (address.offset (-(2 * (index + 1) : Nat)))).toNat +
        16 * (index + 1) = address.toNat + 8 := by
  have small := address.toNat_lt
  have place := Word.toNat_offset address (-(2 * (index + 1) : Nat))
  have owner := Word.toNat_offset (address.offset (-(2 * (index + 1) : Nat))) 1
  unfold Frame.monitorOwner
  omega

/--
Owners that were written are held, and the locks are as they were.  The block does not
wrap around, so that no two monitors are at one address.
-/
theorem holds_of_gives_writeOwners
    {address : Address}
    {owners : List Word}
    {stack owned : Stack}
    (fits : 16 * owners.length ≤ address.toNat)
    (gives : (writeOwners ((monitorsBelow address owners.length).zip owners)).Gives
      stack () owned) :
    (∀ index owner, owners[index]? = some owner →
        owned.Holds (Frame.monitorOwner (address.offset (-(2 * (index + 1) : Nat)))) owner) ∧
      Stack.Keeps
        (fun place => ∀ index < owners.length, place + 16 * (index + 1) ≠ address.toNat + 8)
        stack owned := by
  rw [writeOwners_eq] at gives
  have entry (index : Nat) (inside : index < owners.length) :
      (((monitorsBelow address owners.length).zip owners).map fun entry =>
        (Frame.monitorOwner entry.1, entry.2))[index]? =
          some (Frame.monitorOwner (address.offset (-(2 * (index + 1) : Nat))),
            owners[index]) := by
    simp [monitorsBelow, inside]
  have apart : (((monitorsBelow address owners.length).zip owners).map fun entry =>
      (Frame.monitorOwner entry.1, entry.2)).Pairwise
        fun first second => first.1 ≠ second.1 := by
    rw [List.pairwise_iff_getElem]
    intro first second firstInside secondInside before same
    simp only [monitorsBelow, List.length_map, List.length_zip, List.length_range,
      Nat.min_self] at firstInside secondInside
    have firstPlace := (toNat_monitorsBelow fits firstInside).2
    have secondPlace := (toNat_monitorsBelow fits secondInside).2
    simp only [monitorsBelow, List.getElem_map, List.getElem_zip, List.getElem_range] at same
    rw [same] at firstPlace
    omega
  constructor
  · intro index owner found
    obtain ⟨inside, rfl⟩ := List.getElem?_eq_some_iff.mp found
    have held := Stack.holds_of_gives_writeEach apart gives _
      (List.mem_of_getElem? (entry index inside))
    exact held
  · obtain ⟨-, keeps⟩ := Stack.writes_writeEach _ _ _ _ gives
    refine keeps.mono ?_
    rintro place outside _ ⟨pair, isPair, rfl⟩ same
    obtain ⟨index, isInside, rfl⟩ := List.getElem_of_mem isPair
    simp only [monitorsBelow, List.length_map, List.length_zip, List.length_range,
      Nat.min_self] at isInside
    have place := (toNat_monitorsBelow fits isInside).2
    simp only [monitorsBelow, List.getElem_map, List.getElem_zip, List.getElem_range] at same
    exact outside index isInside (by omega)

/-- The stacks that an activation goes through when an image is put into it. -/
structure FillsUp
    (context : ManagerContext τ)
    (image : DeoptimizedActivation)
    (index : Nat)
    (fresh : Activation)
    (before : Session τ)
    (filled grew : Stack)
    (pushed : Workspace) :
    Prop where
  writesLocals : (Workspace.writeLocals 0 image.locals).Gives
    ⟨fresh, before.machine.stack⟩ () ⟨fresh, filled⟩
  grows : (growAll context index image.monitors.length).Gives
    (before.withWorkspace index ⟨fresh, filled⟩)
      (monitorsBelow fresh.monitorEnd image.monitors.length)
    (before.withWorkspace index ⟨grown fresh (-(2 * image.monitors.length : Nat)), grew⟩)
  clears : Clears fresh image.monitors.length filled grew
  pushes : (Workspace.pushAll image.expressions).Gives
    ⟨grown fresh (-(2 * image.monitors.length : Nat)), grew⟩ () pushed

/-- What was written, grown and pushed in a session filled the activation up. -/
theorem exists_fillsUp_of_gives
    {index : Nat}
    {fresh grownTop : Activation}
    {filled pushed : Workspace}
    {monitors : List Address}
    {roomy : Session τ}
    (found : before.manager.activation? index = some fresh)
    (sits : fresh.Sits before.machine.stack)
    (fills : (Workspace.writeLocals 0 image.locals).Gives ⟨fresh, before.machine.stack⟩ ()
      filled)
    (grows : (growAll context index image.monitors.length).Gives
      (before.withWorkspace index filled) monitors roomy)
    (grownFound : roomy.manager.activation? index = some grownTop)
    (pushes : (Workspace.pushAll image.expressions).Gives ⟨grownTop, roomy.machine.stack⟩ ()
      pushed) :
    ∃ written grew,
      monitors = monitorsBelow fresh.monitorEnd image.monitors.length ∧
        roomy = before.withWorkspace index
          ⟨grown fresh (-(2 * image.monitors.length : Nat)), grew⟩ ∧
        FillsUp context image index fresh before written grew pushed := by
  obtain ⟨activation, written⟩ := filled
  obtain ⟨sameActivation, -, keeps⟩ := Workspace.holds_of_gives_writeLocals sits fills
  obtain rfl : activation = fresh := sameActivation
  have filledFound := FrameManager.activation?_withActivation found activation
  obtain ⟨grew, rfl, rfl, clears⟩ :=
    clears_of_gives_growAll filledFound sits.monitorWords grows
  have grewFound := FrameManager.activation?_withActivation filledFound
    (grown activation (-(2 * image.monitors.length : Nat)))
  obtain rfl := Option.some.inj (grewFound.symm.trans grownFound)
  rw [withWorkspace_withWorkspace] at grows
  exact ⟨written, grew, rfl, withWorkspace_withWorkspace ..,
    fills, grows, clears (sits.of_keeps keeps), pushes⟩

/-- The stacks that filling an activation from an image goes through. -/
structure FilledBy
    (context : ManagerContext τ)
    (image : DeoptimizedActivation)
    (fresh top : Activation)
    (before filled grew pushed published after : Stack) :
    Prop where
  writesLocals : (Workspace.writeLocals 0 image.locals).Gives ⟨fresh, before⟩ ()
    ⟨fresh, filled⟩
  clears : Clears fresh image.monitors.length filled grew
  pushes : ∃ activation bcp, (Workspace.pushAll image.expressions).Gives
      ⟨grown fresh (-(2 * image.monitors.length : Nat)), grew⟩ () ⟨activation, pushed⟩ ∧
    top = resumed { activation with bcp := bcp } .deoptResume
  publishes : Publishes context top pushed published
  writesOwners : (writeOwners ((monitorsBelow fresh.monitorEnd
    image.monitors.length).zip image.monitors)).Gives published () after

theorem filledBy_of_restoreImage
    {index : Nat}
    {bcp : Address}
    {fresh : Activation}
    (found : before.manager.activation? index = some fresh)
    (sits : fresh.Sits before.machine.stack)
    (gives : (restoreImage context index bcp image).Gives before () after) :
    ∃ top filled grew pushed published,
      top.bcp = bcp ∧ after.manager = before.manager.withActivation index top ∧
        FilledBy context image fresh top before.machine.stack filled grew pushed published
          after.machine.stack := by
  obtain ⟨_, _, _, pushed, _, _, published, owned, sameFound, fills, grows, grownFound,
    pushes, publishes, owns, managed, rfl⟩ := gives_restoreImage gives
  obtain rfl := Option.some.inj (found.symm.trans sameFound)
  obtain ⟨filled, grew, rfl, rfl, fillsUp⟩ :=
    exists_fillsUp_of_gives found sits fills grows grownFound pushes
  refine ⟨_, filled, grew, pushed.stack, published, rfl, ?_, {
    writesLocals := fillsUp.writesLocals
    clears := fillsUp.clears
    pushes := ⟨pushed.activation, bcp, fillsUp.pushes, rfl⟩
    publishes := publishes
    writesOwners := owns }⟩
  rw [managed, manager_withWorkspace, FrameManager.withActivation_withActivation]

end Filling

namespace FilledBy

variable {context : ManagerContext τ} {image : DeoptimizedActivation}
  {fresh top : Activation} {before filled grew pushed published after : Stack}

theorem message
    (filledBy : FilledBy context image fresh top before filled grew pushed published after) :
    top.message = .deoptResume := by
  obtain ⟨activation, bcp, -, rfl⟩ := filledBy.pushes
  rfl

/-- Pushing and resuming are work on the activation that has room for the monitors. -/
theorem worked
    (filledBy : FilledBy context image fresh top before filled grew pushed published after) :
    Workspace.Worked ⟨grown fresh (-(2 * image.monitors.length : Nat)), grew⟩
      ⟨top, pushed⟩ := by
  obtain ⟨activation, bcp, pushes, rfl⟩ := filledBy.pushes
  exact (Workspace.worked_pushAll pushes).trans (Workspace.worked_resumed_at rfl)

theorem sits
    (filledBy : FilledBy context image fresh top before filled grew pushed published after) :
    top.Sits pushed :=
  filledBy.worked.sits filledBy.clears.sits

/-- The expression stack is the image's, and lies below the monitors. -/
theorem entries
    (filledBy : FilledBy context image fresh top before filled grew pushed published after)
    (noEntries : fresh.stackTop = fresh.monitorEnd) :
    top.HoldsEntries pushed image.expressions.reverse ∧
      Stack.Keeps (top.monitorEnd.toNat ≤ ·) grew pushed := by
  have seat := filledBy.worked.seat
  have sits := filledBy.sits
  obtain ⟨activation, bcp, pushes, topIs⟩ := filledBy.pushes
  have grownSits := filledBy.clears.sits
  have topEnd : (grown fresh (-(2 * image.monitors.length : Nat))).stackTop =
      (grown fresh (-(2 * image.monitors.length : Nat))).monitorEnd := by
    rw [Workspace.monitorEnd_grown, ← noEntries]
    rfl
  have empty : (grown fresh (-(2 * image.monitors.length : Nat))).HoldsEntries grew [] :=
    grownSits.holdsEntries_iff.mpr ⟨by rw [topEnd]; rfl, by simp⟩
  obtain ⟨holds, keeps⟩ := @Workspace.holdsEntries_of_gives_pushAll
    ⟨grown fresh (-(2 * image.monitors.length : Nat)), grew⟩ _ _ _ grownSits empty pushes
  have workedSits := (Workspace.worked_pushAll pushes).sits grownSits
  have sameTop : top.stackTop = activation.stackTop := by
    rw [topIs]
    rfl
  have sameEnd : top.monitorEnd = activation.monitorEnd :=
    seat.monitorEnd.trans (Workspace.worked_pushAll pushes).seat.monitorEnd.symm
  rw [List.append_nil, workedSits.holdsEntries_iff] at holds
  refine ⟨sits.holdsEntries_iff.mpr ?_, ?_⟩
  · rw [sameTop, sameEnd]
    exact holds
  · rw [seat.monitorEnd, ← topEnd]
    exact keeps

/-- The parts of the activation are where those of the fresh one are. -/
theorem places
    (filledBy : FilledBy context image fresh top before filled grew pushed published after) :
    top.fp = fresh.fp ∧ top.locals = fresh.locals ∧ top.maxLocals = fresh.maxLocals ∧
      top.monitorBase = fresh.monitorBase ∧
      top.monitorEnd.toNat + 16 * image.monitors.length = fresh.monitorEnd.toNat := by
  have seat := filledBy.worked.seat
  have place := filledBy.clears.place
  rw [← seat.monitorEnd] at place
  exact ⟨seat.fp, seat.locals, seat.maxLocals, seat.monitorBase, place⟩

/-- Publishing keeps all but the fixed slots, and the owners lie below these. -/
theorem keeps
    (filledBy : FilledBy context image fresh top before filled grew pushed published after)
    (x86 : context.env.layout = .x86_64) :
    Stack.Keeps
      (fun place => (place < top.monitorBase.toNat ∨ top.fp.toNat ≤ place) ∧
        ∀ index < image.monitors.length,
          place + 16 * (index + 1) ≠ fresh.monitorEnd.toNat + 8)
      pushed after := by
  obtain ⟨-, -, -, -, place⟩ := filledBy.places
  obtain ⟨-, keeps⟩ := holds_of_gives_writeOwners (by omega) filledBy.writesOwners
  exact ((filledBy.publishes.keeps_beside x86 filledBy.sits).mono
    fun place outside => outside.1).trans (keeps.mono fun place outside => outside.2)

/-- What a local has once the image's are written, it goes on having. -/
theorem holdsLocal
    {index : Nat}
    {word : Word}
    (filledBy : FilledBy context image fresh top before filled grew pushed published after)
    (x86 : context.env.layout = .x86_64)
    (sits : fresh.Sits before)
    (noEntries : fresh.stackTop = fresh.monitorEnd)
    (holds : fresh.HoldsLocal filled index word) :
    top.HoldsLocal after index word := by
  obtain ⟨sameFp, sameLocals, sameMax, sameBase, place⟩ := filledBy.places
  obtain ⟨inside, held⟩ := Workspace.holdsLocal_iff.mp holds
  have high := sits.toNat_local inside
  have base := sits.monitorBase
  have monitors := sits.monitorEndLe
  unfold Activation.ceiling at high
  refine Workspace.holdsLocal_iff.mpr ⟨sameMax ▸ inside, ?_⟩
  rw [sameLocals]
  have grown := filledBy.clears.keeps.holds held (by omega)
  have entered := (filledBy.entries noEntries).2.holds grown (by omega)
  refine (filledBy.keeps x86).holds entered ⟨.inr (by rw [sameFp]; omega), ?_⟩
  intro index inside same
  omega

/-- The entries are those of the image. -/
theorem holdsEntries
    (filledBy : FilledBy context image fresh top before filled grew pushed published after)
    (x86 : context.env.layout = .x86_64)
    (noEntries : fresh.stackTop = fresh.monitorEnd) :
    top.HoldsEntries after image.expressions.reverse := by
  obtain ⟨-, -, -, -, place⟩ := filledBy.places
  have monitors := filledBy.sits.monitorEndLe
  refine (filledBy.entries noEntries).1.of_keeps filledBy.sits (filledBy.keeps x86) ?_
  intro place above below
  exact ⟨.inl (by omega), fun index inside same => by omega⟩

/-- Each owner of the image has a monitor that is not locked. -/
theorem holdsMonitor
    {index : Nat}
    {owner : Word}
    (filledBy : FilledBy context image fresh top before filled grew pushed published after)
    (x86 : context.env.layout = .x86_64)
    (noMonitors : fresh.monitorEnd = fresh.monitorBase)
    (noEntries : fresh.stackTop = fresh.monitorEnd)
    (isOwner : image.monitors[index]? = some owner) :
    top.HoldsMonitor after index owner := by
  obtain ⟨inside, -⟩ := List.getElem?_eq_some_iff.mp isOwner
  obtain ⟨sameFp, -, -, sameBase, place⟩ := filledBy.places
  have sits := filledBy.sits
  obtain ⟨count, counted, countPlace⟩ := sits.monitorCount_eq
  rw [sameBase, ← noMonitors] at countPlace
  obtain ⟨owners, -⟩ := holds_of_gives_writeOwners (by omega) filledBy.writesOwners
  obtain ⟨monitorPlace, -⟩ := toNat_monitorsBelow (by omega :
    16 * image.monitors.length ≤ fresh.monitorEnd.toNat) inside
  obtain ⟨lock, -⟩ := filledBy.clears.cleared
    (fresh.monitorEnd.offset (-(2 * (index + 1) : Nat)))
    (List.mem_map.mpr ⟨index, List.mem_range.mpr inside, rfl⟩)
  have entered := (filledBy.entries noEntries).2.holds lock (by omega)
  refine ⟨fresh.monitorEnd.offset (-(2 * (index + 1) : Nat)), ?_, ?_, owners index owner isOwner⟩
  · rw [sits.monitorAt?_eq counted, if_pos (by omega), sameBase, noMonitors]
  · refine (filledBy.keeps x86).holds entered ⟨.inl ?_, fun other otherInside same => ?_⟩
    · rw [sameBase, ← noMonitors]
      omega
    · omega

end FilledBy

section Parts

variable {context : ManagerContext τ} {before after : Session τ} {image : DeoptimizedActivation}

/-- The records after the frame that an image stands for was replaced. -/
def Released
    (code : CodeCache)
    (source : Option DeoptSource)
    (before after : DeoptRecords) :
    Prop :=
  match source with
  | none => after = before
  | some source =>
      match (code.find? source.pc).filter Blob.isCompiled with
      | none => after = before
      | some blob => before.ForgetsOne after blob.start source.frameId

/-- Check that an image can be put on the waiting top. -/
def examine
    (context : ManagerContext τ)
    (image : DeoptimizedActivation) :
    Operation (Session τ) ProtocolError (Method × Nat × Activation × Address) := do
  let manager ← readManager
  if !manager.initialized then
    Operation.fail .notInitialized
  let callee ← method context image.method
  let caller ← Operation.demand manager.topIndex? .noActivation
  let waiting ← activation caller
  if !waiting.message.isCall then
    Operation.fail (.incompatibleResume waiting.message .deoptResume)
  let depth ← Operation.check waiting.stackDepth
  if depth.toNat < callee.parameterSlots then
    Operation.fail (.argumentCount callee.parameterSlots depth.toNat)
  let bcp ← Operation.check (callee.bcpOf image.bci)
  if (callee.bciOfBcx? bcp).isNone then
    Operation.fail (.frame (.invalidBcx callee.name bcp))
  return (callee, caller, waiting, bcp)

/-- Lay the callee of an image out over the waiting top. -/
def layOutFor
    (context : ManagerContext τ)
    (image : DeoptimizedActivation) :
    Operation (Session τ) ProtocolError (Nat × Address) := do
  let (callee, caller, waiting, bcp) ← examine context image
  dropPendingOsr caller
  let index ←
    pushActivation context callee waiting.stackTop waiting.fp
      context.entryPoints.interpreterReturnPc (some caller)
  return (index, bcp)

/-- An image is put on the top by laying its callee out and then filling it. -/
theorem pushDeoptimized_eq
    (context : ManagerContext τ)
    (image : DeoptimizedActivation) :
    pushDeoptimized context image = (do
      let (index, bcp) ← layOutFor context image
      restoreImage context index bcp image
      commitAnchor context
      match image.source with
      | some source => releaseSource context source
      | none => return ()) := by
  simp only [layOutFor, examine, bind_assoc, ite_bind, fail_bind, pure_bind]
  rfl

/-- An image can be put on the waiting top. -/
structure Admitted
    (context : ManagerContext τ)
    (image : DeoptimizedActivation)
    (before : Session τ)
    (callee : Method)
    (rest : Array HeldActivation)
    (held : HeldActivation)
    (bcp : Address) :
    Prop where
  initialized : before.manager.initialized = true
  found : context.env.methods.find? image.method = some callee
  stands : before.manager.activations = rest.push held
  isCall : held.activation.message.isCall = true
  enough : ∃ depth, held.activation.stackDepth = .ok depth ∧
    callee.parameterSlots ≤ depth.toNat
  position : callee.bcpOf image.bci = .ok bcp
  known : (callee.bciOfBcx? bcp).isSome = true

theorem admitted_of_gives
    {checked : Method × Nat × Activation × Address}
    (gives : (examine context image).Gives before checked after) :
    after = before ∧ ∃ callee rest held bcp,
      checked = (callee, rest.size, held.activation, bcp) ∧
        Admitted context image before callee rest held bcp := by
  simp only [examine, gives_bind, gives_readManager, gives_method, gives_demand,
    gives_activation, gives_check, fail_bind, gives_guard, gives_pure, and_assoc,
    exists_and_left, exists_eq_left] at gives
  obtain ⟨initialized, callee, found, caller, topFound, waiting, waitingFound, isCall, depth,
    counted, enough, bcp, position, known, rfl, rfl⟩ := gives
  obtain ⟨rest, held, stands, rfl⟩ := push_of_topIndex? topFound
  obtain rfl := Option.some.inj ((activation?_of_push stands).symm.trans waitingFound)
  exact ⟨rfl, callee, rest, held, bcp, rfl, {
    initialized := by simpa using initialized
    found := found
    stands := stands
    isCall := by simpa using isCall
    enough := ⟨depth, counted, by omega⟩
    position := position
    known := Option.isSome_iff_ne_none.mpr (by simpa using known) }⟩

/-- The callee of an image is laid out over the waiting top. -/
structure SeatedFor
    (context : ManagerContext τ)
    (image : DeoptimizedActivation)
    (before : Session τ)
    (callee : Method)
    (rest : Array HeldActivation)
    (held : HeldActivation)
    (bcp : Address)
    (laid : Session τ) :
    Prop extends Admitted context image before callee rest held bcp where
  laysOut : (pushActivation context callee held.activation.stackTop held.activation.fp
    context.entryPoints.interpreterReturnPc (some rest.size)).Gives
      { before with manager := withoutPendingOsr before.manager rest.size }
      before.manager.depth laid

theorem seatedFor_of_gives
    {index : Nat}
    {bcp : Address}
    {laid : Session τ}
    (gives : (layOutFor context image).Gives before (index, bcp) laid) :
    index = before.manager.depth ∧
      ∃ callee rest held, SeatedFor context image before callee rest held bcp laid := by
  obtain ⟨_, checked, examines, lays⟩ := gives_bind.mp gives
  obtain ⟨isBefore, callee, rest, held, bcp, rfl, admitted⟩ := admitted_of_gives examines
  subst checked
  obtain ⟨_, _, drops, pushes⟩ := gives_bind.mp lays
  obtain rfl := gives_updateManager.mp drops
  obtain ⟨index, _, laysOut, ended⟩ := gives_bind.mp pushes
  obtain ⟨made, rfl⟩ := gives_pure.mp ended
  obtain ⟨rfl, rfl⟩ := Prod.mk.inj made
  obtain ⟨_, _, _, -, -, -, -, -, rfl, -⟩ := gives_pushActivation laysOut
  have sameDepth : (withoutPendingOsr before.manager rest.size).depth =
      before.manager.depth := by
    rw [withoutPendingOsr_eq]
    rfl
  refine ⟨sameDepth, callee, rest, held, { toAdmitted := admitted, laysOut := ?_ }⟩
  rw [← sameDepth]
  exact laysOut

/-- The parts of a run that rebuilds an activation. -/
structure RebuildsFrom
    (context : ManagerContext τ)
    (image : DeoptimizedActivation)
    (before after : Session τ)
    (callee : Method)
    (rest : Array HeldActivation)
    (held : HeldActivation)
    (bcp : Address)
    (laid restored : Session τ) :
    Prop extends SeatedFor context image before callee rest held bcp laid where
  restores : (restoreImage context before.manager.depth bcp image).Gives laid () restored
  managed : after.manager = restored.manager
  stacked : after.machine.stack = restored.machine.stack
  released : Released context.env.code image.source restored.machine.records
    after.machine.records

theorem released_of_gives
    {source : DeoptSource}
    (gives : (releaseSource context source).Gives before () after) :
    Released context.env.code (some source) before.machine.records
      after.machine.records := by
  simp only [releaseSource, gives_bind, gives_onMachine] at gives
  obtain ⟨_, _, ⟨machine, releases, rfl⟩, reported⟩ := gives
  have same : after.machine = machine := by
    rcases gives_ite.mp reported with ⟨-, ended⟩ | ⟨-, ended⟩
    · obtain rfl := gives_report.mp ended
      rfl
    · obtain ⟨-, rfl⟩ := gives_pure.mp ended
      rfl
  rw [same]
  unfold DeoptSource.release at releases
  unfold Released
  split at releases
  · rename_i unknown
    obtain ⟨-, rfl⟩ := gives_pure.mp releases
    simp only [unknown]
  · rename_i blob known
    simp only [gives_bind, gives_state, Machine.updateRecords, gives_update,
      gives_pure, and_assoc, exists_and_left, exists_eq_left, exists_const] at releases
    obtain ⟨-, rfl⟩ := releases
    simp only [known]
    exact before.machine.records.forgetsOne_forget blob.start source.frameId

/-- A run that rebuilds an activation has these parts. -/
theorem exists_rebuildsFrom
    (gives : (pushDeoptimized context image).Gives before () after) :
    ∃ callee rest held bcp laid restored,
      RebuildsFrom context image before after callee rest held bcp laid restored := by
  rw [pushDeoptimized_eq] at gives
  obtain ⟨⟨index, bcp⟩, laid, seats, settles⟩ := gives_bind.mp gives
  obtain ⟨_, restored, restores, publishes⟩ := gives_bind.mp settles
  obtain ⟨_, anchored, anchors, ended⟩ := gives_bind.mp publishes
  obtain rfl := gives_commitAnchor.mp anchors
  obtain ⟨rfl, callee, rest, held, seated⟩ := seatedFor_of_gives seats
  have ends : after.manager = restored.manager ∧
      after.machine.stack = restored.machine.stack ∧
      Released context.env.code image.source restored.machine.records
        after.machine.records := by
    rcases sourced : image.source with _ | source <;> simp only [sourced] at ended
    · obtain ⟨-, rfl⟩ := gives_pure.mp ended
      exact ⟨rfl, rfl, rfl⟩
    · obtain ⟨sameManager, sameStack, -⟩ := gives_releaseSource ended
      have released := released_of_gives ended
      exact ⟨sameManager, sameStack, released⟩
  exact ⟨callee, rest, held, bcp, laid, restored, {
    toSeatedFor := seated
    restores := restores
    managed := ends.1
    stacked := ends.2.1
    released := ends.2.2 }⟩

end Parts

/-- The activation of an image, over the arguments of a caller. -/
structure Restored
    (image : DeoptimizedActivation)
    (callee : Method)
    (caller : Activation)
    (before : Stack)
    (top : Activation)
    (after : Stack) :
    Prop where
  method : top.method = image.method
  message : top.message = .deoptResume
  position : callee.bcpOf image.bci = .ok top.bcp
  locals : ∀ index word, image.locals[index]? = some word → top.HoldsLocal after index word
  /-- Where the image has no local, a parameter is what the caller pushed for it. -/
  arguments : ∀ index, image.locals.length ≤ index → index < callee.parameterSlots →
    ∃ word, (Workspace.peek (callee.parameterSlots - 1 - index)).Gives ⟨caller, before⟩ word
        ⟨caller, before⟩ ∧
      top.HoldsLocal after index word
  zeros : ∀ index, image.locals.length ≤ index → callee.parameterSlots ≤ index →
    index < callee.maxLocals → top.HoldsLocal after index 0
  entries : top.HoldsEntries after image.expressions.reverse
  count : ∃ count, top.monitorCount = .ok count ∧ count.toNat = image.monitors.length
  monitors : ∀ index owner, image.monitors[index]? = some owner →
    top.HoldsMonitor after index owner

/-- The parts of two activations, their entries apart, lie in the same places. -/
structure SamePlaces (activation twin : Activation) : Prop where
  fp : activation.fp = twin.fp
  locals : activation.locals = twin.locals
  maxLocals : activation.maxLocals = twin.maxLocals
  monitorBase : activation.monitorBase = twin.monitorBase
  monitorWords : activation.monitorWords = twin.monitorWords
  stackBase : activation.stackBase = twin.stackBase
  stackLimit : activation.stackLimit = twin.stackLimit

/-- A method was called over a caller's top, and room was made for monitors. -/
def CalledAndGrown
    (context : ManagerContext τ)
    (methodWord : Word)
    (top : Address)
    (count : Nat)
    (activation : Activation) :
    Prop :=
  ∃ (before called grown : Session τ) (index : Nat) (caller : Activation)
      (call : CallRequest) (outcome : StepOutcome) (monitors : List Address),
    before.manager.activation? index = some caller ∧ caller.stackTop = top ∧
      caller.payload.toCall = .ok call ∧ call.callee = methodWord ∧
      (serveCall context index).Gives before outcome called ∧
      (growAll context before.manager.depth count).Gives called monitors grown ∧
      grown.manager.activation? before.manager.depth = some activation

section Rebuilt

variable {context : ManagerContext τ} {before after : Session τ} {image : DeoptimizedActivation}
  {callee : Method} {top : Address} {placement : Placement}

/-- Activations of one shape differ in no place. -/
theorem samePlaces_of_shaped
    {thread other : ThreadId}
    {caller link : Option Nat}
    {fresh twin activation : Activation}
    {shift : Int}
    {response : Message}
    (shaped : Activation.ofShape thread (shapeAt callee placement caller) .x86_64 = .ok fresh)
    (shapedTwin : Activation.ofShape other (shapeAt callee placement link) .x86_64 = .ok twin)
    (seat : Workspace.SameSeat (grown fresh shift) activation) :
    SamePlaces activation (grown (resumed twin response) shift) := by
  obtain ⟨limit, _, limited, rfl⟩ := Activation.ofShape_eq_ok shaped
  obtain ⟨limitTwin, _, limitedTwin, rfl⟩ := Activation.ofShape_eq_ok shapedTwin
  obtain rfl : limit = limitTwin := Except.ok.inj (limited.symm.trans limitedTwin)
  exact ⟨seat.fp, seat.locals, seat.maxLocals, seat.monitorBase, seat.monitorWords,
    seat.stackBase, seat.stackLimit⟩

/-- Where a callee goes depends on its method and on its caller's top only. -/
theorem exists_shaped_of_calledAndGrown
    {count : Nat}
    {twin : Activation}
    (x86 : context.env.layout = .x86_64)
    (found : context.env.methods.find? image.method = some callee)
    (placed : place .x86_64 callee top = .ok placement)
    (called : CalledAndGrown context image.method top count twin) :
    ∃ thread link fresh,
      Activation.ofShape thread (shapeAt callee placement link) .x86_64 = .ok fresh ∧
        twin = grown (resumed fresh .methodEntry) (-(2 * count : Nat)) := by
  obtain ⟨session, between, last, index, caller, call, outcome, monitors, callerFound, rfl,
    isCall, isMethod, serves, grows, twinFound⟩ := called
  obtain ⟨_, _, _, depth, pushed, laid, _, stack, sameCaller, sameCall, sameFound, -, -,
    pushes, freshFound, -, settles, -⟩ := gives_serveCall serves
  obtain rfl := Option.some.inj (callerFound.symm.trans sameCaller)
  obtain rfl := Except.ok.inj (isCall.symm.trans sameCall)
  rw [isMethod] at sameFound
  obtain rfl := Option.some.inj (found.symm.trans sameFound)
  obtain ⟨_, _, fresh, samePlaced, -, -, -, shaped, rfl, laidIs⟩ :=
    gives_pushActivation pushes
  rw [x86] at samePlaced shaped
  obtain rfl := Except.ok.inj (placed.symm.trans samePlaced)
  have laidStands : laid.manager.activations =
      session.manager.activations.push ⟨fresh, callee.parameterSlots⟩ := by
    rw [laidIs]
  obtain rfl := Option.some.inj ((activation?_of_push laidStands).symm.trans freshFound)
  have two : (resumed fresh .methodEntry).monitorWords = 2 := by
    obtain ⟨_, _, -, rfl⟩ := Activation.ofShape_eq_ok shaped
    rfl
  have servedFound : between.manager.activation? session.manager.depth =
      some (resumed fresh .methodEntry) := by
    rw [settles.managed]
    exact activation?_withActivation freshFound _
  obtain ⟨_, rfl, -, -⟩ := clears_of_gives_growAll servedFound two grows
  have grownFound := activation?_withActivation servedFound
    (grown (resumed fresh .methodEntry) (-(2 * count : Nat)))
  exact ⟨_, _, fresh, shaped, Option.some.inj (twinFound.symm.trans grownFound)⟩

/-- The frame of a published top is at the position of its activation. -/
theorem exists_topFrame_of_published
    {rest : Array HeldActivation}
    {held : HeldActivation}
    {bci : UInt32}
    (x86 : context.env.layout = .x86_64)
    (interpreter : context.env.code.interpreterContains
      context.entryPoints.interpreterReturnPc = true)
    (stands : after.manager.activations = rest.push held)
    (published : held.activation.Published after.machine.stack)
    (method : after.machine.stack.Holds (held.activation.fp.offset (-3))
      held.activation.method)
    (found : context.env.methods.find? held.activation.method = some callee)
    (position : callee.bciOfBcx? held.activation.bcp = some bci) :
    ∃ frame, (topFrame context).Gives after (some frame) after ∧
      (frame.bci (after.machine.view context.env)).Gives bci := by
  have kind : (Frame.unresolved (after.machine.view context.env)
      held.activation.stackTop held.activation.stackTop held.activation.fp
        context.entryPoints.interpreterReturnPc).kind = .interpreted :=
    Frame.interpreted_of_contains interpreter rfl
  obtain ⟨frame, framed, sameFp, interpreted⟩ : ∃ frame,
      (Frame.plain (after.machine.view context.env) held.activation.stackTop
        held.activation.fp context.entryPoints.interpreterReturnPc :
          Probe FrameError Frame).Gives frame ∧
        frame.fp = held.activation.fp ∧ frame.kind = .interpreted :=
    ⟨_, Frame.gives_resolve_of_interpreted kind, rfl, kind⟩
  have topFramed : (topFrame context).Gives after (some frame) after := by
    refine gives_bind.mpr ⟨_, _, gives_readManager.mpr ⟨rfl, rfl⟩, ?_⟩
    rw [FrameManager.top?_of_push stands]
    exact gives_bind.mpr
      ⟨_, _, gives_frameOf.mpr ⟨framed, rfl⟩, gives_pure.mpr ⟨rfl, rfl⟩⟩
  refine ⟨frame, topFramed, (Frame.gives_bci x86).mpr ⟨held.activation.bcp, callee, ?_,
    (Frame.gives_method x86).mpr ⟨interpreted, held.activation.method, ?_, found⟩,
    position⟩⟩ <;>
    rw [Frame.slot, sameFp]
  · exact published .bcx
  · exact method

/--
What a fresh activation is filled with is the image, over the caller's arguments.  The
image fills its own locals only; the others are as layout left them.
-/
theorem restored_of_filledBy
    {callerFp returnPc : Address}
    {caller fresh activation : Activation}
    {stack laid filled grew pushed published last : Stack}
    {thread : ThreadId}
    {link : Option Nat}
    {depth : Word}
    (x86 : context.env.layout = .x86_64)
    (found : context.env.methods.find? image.method = some callee)
    (counted : caller.stackDepth = .ok depth)
    (enough : callee.parameterSlots ≤ depth.toNat)
    (laysOut : LaysOut callee placement caller.stackTop callerFp returnPc stack laid)
    (shaped : Activation.ofShape thread (shapeAt callee placement link) .x86_64 = .ok fresh)
    (position : callee.bcpOf image.bci = .ok activation.bcp)
    (filledBy : FilledBy context image fresh activation laid filled grew pushed published
      last) :
    Restored image callee caller stack activation last := by
  have sits := (sits_of_layout laysOut shaped).1
  have sameMethod : fresh.method = callee.id := by
    obtain ⟨_, _, -, rfl⟩ := Activation.ofShape_eq_ok shaped
    rfl
  have noMonitors : fresh.monitorEnd = fresh.monitorBase := by
    obtain ⟨_, _, -, rfl⟩ := Activation.ofShape_eq_ok shaped
    exact (Word.offset_offset ..).trans (Word.offset_zero _)
  have noEntries : fresh.stackTop = fresh.monitorEnd := by
    rw [noMonitors]
    obtain ⟨_, _, -, rfl⟩ := Activation.ofShape_eq_ok shaped
    rfl
  obtain ⟨sameActivation, localsHeld, keeps⟩ :=
    Workspace.holds_of_gives_writeLocals sits filledBy.writesLocals
  have untouched {index : Nat} {word : Word} (above : image.locals.length ≤ index)
      (holds : fresh.HoldsLocal laid index word) :
      activation.HoldsLocal last index word := by
    obtain ⟨inside, held⟩ := Workspace.holdsLocal_iff.mp holds
    refine filledBy.holdsLocal x86 sits noEntries
      (Workspace.holdsLocal_iff.mpr ⟨inside, keeps.holds held ?_⟩)
    rintro ⟨other, isOther, same⟩
    obtain ⟨otherInside, -⟩ := Workspace.holdsLocal_iff.mp
      (localsHeld other image.locals[other] (by simp [isOther]))
    have here := sits.toNat_local inside
    have there := sits.toNat_local otherInside
    dsimp only at same
    omega
  have isId : (callee.id == image.method) = true :=
    List.find?_some (p := fun method : Method => method.id == image.method) found
  constructor
  case method => rw [filledBy.worked.seat.method, ← eq_of_beq isId, ← sameMethod]; rfl
  case message => exact filledBy.message
  case position => exact position
  case locals =>
    intro index word isLocal
    have held := localsHeld index word isLocal
    rw [Nat.zero_add] at held
    exact filledBy.holdsLocal x86 sits noEntries held
  case arguments =>
    intro index above inside
    obtain ⟨aligned, low, -⟩ := laysOut.topCovers
    have arguments := laysOut.arguments
    have small := stack.base.toNat_lt
    have place : (caller.stackTop.offset (callee.parameterSlots - 1 - index : Nat)).toNat =
        caller.stackTop.toNat + 8 * (callee.parameterSlots - 1 - index) :=
      Word.toNat_offset_of_fits (by omega) (by omega)
    have covers : stack.Covers
        (caller.stackTop.offset (callee.parameterSlots - 1 - index : Nat)) :=
      ⟨by omega, by omega, by omega⟩
    obtain ⟨word, held⟩ := Stack.exists_holds covers
    exact ⟨word, Workspace.gives_peek.mpr ⟨depth, counted, by omega, held, rfl⟩,
      untouched above (laysOut.holdsLocal_argument shaped inside held)⟩
  case zeros =>
    intro index above beyond inside
    exact untouched above (laysOut.holdsLocal_zero shaped beyond inside)
  case entries => exact filledBy.holdsEntries x86 noEntries
  case count =>
    obtain ⟨-, -, -, sameBase, place⟩ := filledBy.places
    obtain ⟨count, isCount, countPlace⟩ := filledBy.sits.monitorCount_eq
    rw [sameBase, ← noMonitors] at countPlace
    exact ⟨count, isCount, by omega⟩
  case monitors =>
    intro index owner isOwner
    exact filledBy.holdsMonitor x86 noMonitors noEntries isOwner

/-- A run has rebuilt the activation of an image on top of the chain. -/
structure Rebuilds
    (context : ManagerContext τ)
    (image : DeoptimizedActivation)
    (before after : Session τ)
    (callee : Method)
    (caller top : Activation) :
    Prop where
  found : context.env.methods.find? image.method = some callee
  waits : before.manager.top? = some caller ∧ caller.message.isCall = true
  chain : after.manager.activations =
    before.manager.activations.push ⟨top, callee.parameterSlots⟩
  depth : after.manager.depth = before.manager.depth + 1
  restored : Restored image callee caller before.machine.stack top after.machine.stack
  position : ∃ frame, (topFrame context).Gives after (some frame) after ∧
    (frame.bci (after.machine.view context.env)).Gives image.bci
  /-- They are where a call of the method puts them that is then grown as far. -/
  places : ∀ twin, CalledAndGrown context image.method caller.stackTop
    image.monitors.length twin → SamePlaces top twin
  released : Released context.env.code image.source before.machine.records
    after.machine.records

end Rebuilt

end Session

namespace Session.SeatedFor

variable {context : ManagerContext τ} {image : DeoptimizedActivation}
  {before laid : Session τ} {callee : Method} {rest : Array HeldActivation}
  {held : HeldActivation} {bcp : Address}

/-- Where the callee of an image is laid out in a session that is reached. -/
theorem exists_layout
    (x86 : context.env.layout = .x86_64)
    (reached : Reached context before)
    (seated : SeatedFor context image before callee rest held bcp laid) :
    ∃ placement stack fresh,
      LaysOut callee placement held.activation.stackTop held.activation.fp
          context.entryPoints.interpreterReturnPc before.machine.stack stack ∧
        Activation.ofShape before.machine.thread.id
          (shapeAt callee placement (some rest.size)) .x86_64 = .ok fresh ∧
        laid = { before.withStack stack with
          manager := { before.manager with
            activations := before.manager.activations.push ⟨fresh, callee.parameterSlots⟩
            pendingOsr := none } } := by
  obtain ⟨depth, counted, enough⟩ := seated.enough
  have follows := reached.followsProtocol
  have stands := seated.stands
  obtain ⟨entry, -, chained⟩ := (reached.stacked x86).exists_chained follows stands
  have callerSits := chained.1.sits
  have roomy := callerSits.arguments_le counted enough
  have base := Nat.le_trans callerSits.monitorEnd_le_ceiling callerSits.ceiling_le_base
  obtain ⟨-, dropped⟩ := waits_of_isCall follows stands seated.isCall
  have laysOut := seated.laysOut
  rw [dropped] at laysOut
  obtain ⟨placement, stack, fresh, placed, headroom, headroomTop, written, shaped, -, laidIs⟩ :=
    gives_pushActivation laysOut
  rw [x86] at placed written shaped
  exact ⟨placement, stack, fresh, ⟨placed, headroom, headroomTop, callerSits.covers_top,
    Nat.le_trans roomy base, written⟩, shaped, laidIs⟩

end Session.SeatedFor

/--
An image that is accepted becomes the top activation, with all that the image holds, in
the places that a call of its method would have given it.
-/
theorem Reached.rebuilds
    {context : ManagerContext τ}
    {before after : Session τ}
    {image : DeoptimizedActivation}
    (x86 : context.env.layout = .x86_64)
    (reached : Reached context before)
    (addressed : ∀ method ∈ context.env.methods.find? image.method,
      65535 < method.codeBase.toNat)
    (gives : (Session.pushDeoptimized context image).Gives before () after) :
    ∃ callee caller top,
      Session.Rebuilds context image before after callee caller top := by
  have reachedAfter : Reached context after :=
    reached.call (.pushDeoptimized image) trivial
      (gives_bind.mpr ⟨(), after, gives, gives_pure.mpr ⟨rfl, rfl⟩⟩)
  have stackedAfter := reachedAfter.stacked x86
  obtain ⟨callee, rest, held, bcp, laid, restored, parts⟩ :=
    Session.exists_rebuildsFrom gives
  obtain ⟨depth, counted, enough⟩ := parts.enough
  obtain ⟨placement, stack, fresh, layout, shaped, laidIs⟩ :=
    parts.toSeatedFor.exists_layout x86 reached
  have laidStack : laid.machine.stack = stack := by rw [laidIs]; rfl
  have laidStands : laid.manager.activations =
      before.manager.activations.push ⟨fresh, callee.parameterSlots⟩ := by
    rw [laidIs]
  have freshFound : laid.manager.activation? before.manager.depth = some fresh :=
    activation?_of_push laidStands
  rw [← laidStack] at layout
  obtain ⟨top, filled, grew, pushed, published, rfl, managed, filledBy⟩ :=
    Session.filledBy_of_restoreImage freshFound
      (Session.sits_of_layout layout shaped).1 parts.restores
  have chainAfter : after.manager.activations =
      before.manager.activations.push ⟨top, callee.parameterSlots⟩ := by
    rw [parts.managed, managed]
    exact congrArg FrameManager.activations (withActivation_of_push laidStands top)
  have restoredTop := Session.restored_of_filledBy x86 parts.found counted enough layout
    shaped parts.position filledBy
  rw [← parts.stacked] at restoredTop
  have sameRecords : restored.machine.records = before.machine.records := by
    obtain ⟨workspace, isRestored⟩ :=
      (Session.Localized.restoreImage _ image).of_gives parts.restores fresh freshFound
    rw [isRestored, laidIs]
    rfl
  have someAfter : after.manager.entry.isSome = true :=
    reachedAfter.followsProtocol.entry.mpr (.inl (by simp [depth_of_push chainAfter]))
  obtain ⟨entryAfter, isEntryAfter⟩ := Option.isSome_iff_exists.mp someAfter
  have chainedAfter := stackedAfter.chained entryAfter isEntryAfter
  rw [Session.reverse_of_push chainAfter] at chainedAfter
  obtain ⟨rests, isPublished, -⟩ := chainedAfter
  refine ⟨callee, held.activation, top, {
    found := parts.found
    waits := ⟨top?_of_push parts.stands, parts.isCall⟩
    chain := chainAfter
    depth := depth_of_push chainAfter
    restored := restoredTop
    position := ?_
    places := ?_
    released := sameRecords ▸ parts.released }⟩
  · exact Session.exists_topFrame_of_published x86 filledBy.publishes.interpreter chainAfter
      isPublished rests.laid.method (by rw [restoredTop.method]; exact parts.found)
      (Method.bciOfBcx?_bcpOf (addressed callee parts.found) parts.position parts.known)
  · intro twin called
    obtain ⟨thread, link, other, shapedTwin, rfl⟩ :=
      Session.exists_shaped_of_calledAndGrown x86 parts.found layout.placed called
    exact Session.samePlaces_of_shaped shaped shapedTwin filledBy.worked.seat

/-!
A callee with two more locals than it has parameters has left for compiled code, which is
sent back.
-/

namespace Sinking

def sink : Method :=
  { Pair.callee with declaredLocals := 4 }

def unit : CompiledUnit where
  method := 0x500008
  deoptHandler := 0x5800
  methodHandleDeoptHandler := 0x5900

def replace : OsrHandler Unit :=
  fun _ _ _ => Operation.ofProbe (.answer ⟨0x5000, 0x5040⟩)

def context : ManagerContext Unit where
  env := { Pair.context.env with
    code := ⟨Pair.context.env.code.blobs ++
      [.ofRange "compiled" 0x5000 0x6000 (.compiled unit)]⟩
    methods := ⟨[Pair.caller, sink]⟩ }
  entryPoints := Pair.context.entryPoints
  osrHandler := some replace

/-- Two frames of the unit have been redirected. -/
def fresh : Session Unit :=
  { Pair.fresh with
    machine := { Pair.fresh.machine with
      records := { displacedPcs := [⟨0x5000, 0x7e00, 0x5010⟩, ⟨0x5000, 0x7e08, 0x5020⟩] } } }

def leave : Engine Unit :=
  Turn.onWorkspace (Workspace.requestOsr ⟨0x610000, 0x5000⟩)

def calls : List (Call Unit) :=
  [.setUp Pair.idle, .start 0x500000 [] [], .step Pair.invoke, .step leave]

theorem acts : ∀ call ∈ calls, call.Acts := by
  simp only [calls, List.mem_cons, List.not_mem_nil, or_false, forall_eq_or_imp,
    forall_eq, Call.Acts, true_and]
  exact ⟨.probe _, .andThen (.offered (.push _)) fun _ =>
    .andThen (.offered (.push _)) fun _ => .offered (.requestCall _),
    .offered (.requestOsr _)⟩

theorem ran : (Call.runAll? context calls fresh).isSome = true := by
  decide +kernel

/-- The session in which the caller waits for compiled code. -/
def waiting : Session Unit :=
  (Call.runAll? context calls fresh).get ran

theorem reached_waiting : Reached context waiting :=
  (Reached.fresh rfl).of_runAll? acts (Option.some_get ran).symm

/-- The receiver is another one, and the rest of the arguments as they were passed. -/
def image : DeoptimizedActivation where
  method := 0x500008
  bci := 6
  locals := [0x700020]
  expressions := [0x11, 0x22]
  monitors := [0x700030, 0x700038]
  source := some ⟨0x7e00, 0x5010⟩

/-- The session after the caller's pending call was served in the interpreter. -/
def called : Session Unit :=
  (Session.serveCall context 0 waiting).2

theorem calledAndGrown_called :
    ∃ caller twin, waiting.manager.top? = some caller ∧
      Session.CalledAndGrown context image.method caller.stackTop 2 twin := by
  obtain ⟨caller, isTop⟩ : ∃ caller, waiting.manager.top? = some caller :=
    Option.isSome_iff_exists.mp (by decide +kernel)
  have sameTop : waiting.manager.activation? 0 = waiting.manager.top? := by
    decide +kernel
  have isCall : waiting.manager.top?.all (·.payload ==
      .call ⟨0x500008, 0x1200, 3⟩) = true := by
    decide +kernel
  rw [isTop, Option.all_some, beq_iff_eq] at isCall
  have serves : (Session.serveCall context 0).Gives waiting (.called 2) called :=
    gives_of_toOption (by decide +kernel)
  obtain ⟨monitors, grows⟩ := Option.isSome_iff_exists.mp (by decide +kernel :
    (Session.growAll context waiting.manager.depth 2 called).1.outcome.toOption.isSome =
      true)
  obtain ⟨twin, isTwin⟩ := Option.isSome_iff_exists.mp (by decide +kernel :
    ((Session.growAll context waiting.manager.depth 2 called).2.manager.activation?
      waiting.manager.depth).isSome = true)
  exact ⟨caller, twin, isTop, waiting, called, _, 0, caller, ⟨0x500008, 0x1200, 3⟩,
    .called 2, monitors, sameTop.trans isTop, rfl, by rw [isCall]; rfl, rfl, serves,
    gives_of_toOption grows, isTwin⟩

/-- The image is rebuilt where the interpreter would have entered the callee. -/
theorem rebuilds_image :
    context.env.layout = .x86_64 ∧ Reached context waiting ∧
      (∀ method ∈ context.env.methods.find? image.method,
        65535 < method.codeBase.toNat) ∧
      ∃ after, (Session.pushDeoptimized context image).Gives waiting () after ∧
        ∃ callee caller top twin,
          Session.Rebuilds context image waiting after callee caller top ∧
            Session.CalledAndGrown context image.method caller.stackTop 2 twin ∧
              Session.SamePlaces top twin := by
  have addressed : ∀ method ∈ context.env.methods.find? image.method,
      65535 < method.codeBase.toNat := by
    decide +kernel
  have gives : (Session.pushDeoptimized context image).Gives waiting () _ :=
    gives_of_toOption (by decide +kernel)
  obtain ⟨callee, caller, top, rebuilds⟩ :=
    Reached.rebuilds rfl reached_waiting addressed gives
  obtain ⟨_, twin, isTop, called⟩ := calledAndGrown_called
  obtain rfl := Option.some.inj (rebuilds.waits.1.symm.trans isTop)
  exact ⟨rfl, reached_waiting, addressed, _, gives, callee, caller, top, twin, rebuilds,
    called, rebuilds.places twin called⟩

end Sinking

end ManagedStack
