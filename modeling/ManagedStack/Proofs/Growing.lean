import ManagedStack.Proofs.Calls

namespace ManagedStack

/-!
# How an activation grows

Making room for monitors moves the expression stack down and puts cleared monitors
below the ones already there.  Together with what an engine does to its activation,
this is all the work there is on one: the activation *evolves*.  Whatever the work,
the activation stays the one of its method and caller, goes on sitting where it sat,
and touches nothing but its locals and what lies below its monitors.
-/

open Operation

namespace Workspace

/-- What work on an activation leads to, more monitors included. -/
structure Evolves (before after : Workspace) : Prop where
  method : after.activation.method = before.activation.method
  locals : after.activation.locals = before.activation.locals
  maxLocals : after.activation.maxLocals = before.activation.maxLocals
  fp : after.activation.fp = before.activation.fp
  caller : after.activation.caller = before.activation.caller
  sits :
    before.activation.Sits before.stack → after.activation.Sits after.stack
  lowered :
    before.activation.Sits before.stack →
      after.activation.monitorEnd.toNat ≤ before.activation.monitorEnd.toNat
  keeps :
    before.activation.Sits before.stack →
      Stack.Keeps (Foreign before.activation) before.stack after.stack

namespace Evolves

theorem trans
    {before between after : Workspace}
    (first : Evolves before between)
    (second : Evolves between after) :
    Evolves before after where
  method := second.method.trans first.method
  locals := second.locals.trans first.locals
  maxLocals := second.maxLocals.trans first.maxLocals
  fp := second.fp.trans first.fp
  caller := second.caller.trans first.caller
  sits := second.sits ∘ first.sits
  lowered := fun sits =>
    Nat.le_trans (second.lowered (first.sits sits)) (first.lowered sits)
  keeps := by
    intro sits
    refine (first.keeps sits).trans ((second.keeps (first.sits sits)).mono ?_)
    intro place foreign
    have lower := first.lowered sits
    unfold Foreign Activation.ceiling at foreign ⊢
    rw [first.fp, first.maxLocals]
    omega

/-- Whatever an engine does, the activation evolves. -/
theorem ofWorked
    {before after : Workspace}
    (worked : Worked before after) :
    Evolves before after where
  method := worked.seat.method
  locals := worked.seat.locals
  maxLocals := worked.seat.maxLocals
  fp := worked.seat.fp
  caller := worked.seat.caller
  sits := worked.sits
  lowered := fun _ => Nat.le_of_eq (by rw [worked.seat.monitorEnd])
  keeps := worked.keeps

end Evolves

/-- As many bytes of room as before lie below the monitors, and none is left. -/
def KeepsRoom (before after : Workspace) : Prop :=
  before.activation.Sits before.stack → ∀ bytes,
    before.activation.HasRoom bytes → after.activation.HasRoom bytes

/-- An engine leaves the room as it is. -/
theorem KeepsRoom.ofWorked
    {before after : Workspace}
    (worked : Worked before after) :
    KeepsRoom before after := by
  intro sits bytes room
  constructor
  · rw [worked.seat.monitorEnd, worked.seat.stackLimit]
    exact room.extent
  · exact worked.inRoom sits room.inside

theorem KeepsRoom.trans
    {before between after : Workspace}
    (first : KeepsRoom before between)
    (evolves : Evolves before between)
    (second : KeepsRoom between after) :
    KeepsRoom before after :=
  fun sits bytes room =>
    second (evolves.sits sits) bytes (first sits bytes room)

section Growing

variable {before after : Workspace} {monitor : Address}

/--
Where the words of one more monitor and the moved entries are.  The moved entries, the
new monitor and the old end are one run of neighbours.
-/
theorem places_of_growMonitors
    {depth : Word}
    {copied stack : Stack}
    (sits : before.activation.Sits before.stack)
    (counted : before.activation.stackDepth = .ok depth)
    (copies : (Stack.copyWords before.activation.stackTop
      (before.activation.stackTop.offset (-2)) depth.toNat).Gives
        before.stack () copied)
    (zeroes : (Stack.zeroWords (before.activation.monitorEnd.offset (-2)) 2).Gives
      copied () stack) :
    ((before.activation.monitorEnd.offset (-2)).toNat + 16 =
        before.activation.monitorEnd.toNat ∧
      (before.activation.stackTop.offset (-2)).toNat + 16 =
        before.activation.stackTop.toNat) ∧
      before.stack.limit.toNat ≤
        (before.activation.stackTop.offset (-2)).toNat ∧
      Stack.Keeps (fun place => place < (before.activation.stackTop.offset (-2)).toNat ∨
        before.activation.monitorEnd.toNat ≤ place) before.stack stack := by
  have fixed := sits.monitorBase
  have fpAligned := sits.fpAligned
  have whole := sits.wholeMonitors
  have endLe := sits.monitorEndLe
  have limitLe := sits.limitLe
  have localsLe := sits.localsLe
  obtain ⟨_, countedAgain, exact⟩ := sits.stackDepth_eq
  obtain rfl := Except.ok.inj (counted.symm.trans countedAgain)
  have topIs : before.activation.stackTop =
      before.activation.monitorEnd.offset (-depth.toNat) :=
    Word.eq_offset (by omega)
  obtain ⟨copyCovers, copyKeeps⟩ := Stack.writes_copyWords _ _ _ _ _ _ copies
  obtain ⟨zeroCovers, zeroKeeps⟩ := Stack.writes_zeroWords _ _ _ _ _ zeroes
  have endCovers : before.stack.Covers before.activation.monitorEnd :=
    ⟨by omega, by omega, by omega⟩
  have covers : ∀ words : Int, -(2 + depth.toNat : Int) ≤ words → words ≤ 0 →
      before.stack.Covers (before.activation.monitorEnd.offset words) := by
    intro words above below
    by_cases atEnd : words = 0
    · simpa [atEnd] using endCovers
    by_cases inMonitor : -2 ≤ words
    · refine copyKeeps.covers_iff.mp (zeroCovers _ ⟨(words + 2).toNat, ?_, ?_⟩)
      · omega
      · rw [Word.offset_offset]
        congr 1
        omega
    · refine copyCovers _ ⟨(words + 2 + depth.toNat).toNat, ?_, ?_⟩
      · omega
      · rw [topIs, Word.offset_offset, Word.offset_offset]
        congr 1
        omega
  have places (words : Int) (above : -(2 + depth.toNat : Int) ≤ words)
      (below : words ≤ 0) :
      ((before.activation.monitorEnd.offset words).toNat : Int) =
        before.activation.monitorEnd.toNat + 8 * words :=
    Stack.toNat_offset_of_covers covers (by omega) (by omega) above below
  have newTopIs : before.activation.stackTop.offset (-2) =
      before.activation.monitorEnd.offset (-(2 + depth.toNat : Int)) := by
    rw [topIs, Word.offset_offset]
    congr 1
    omega
  have monitorPlace := places (-2) (by omega) (by omega)
  have topPlace := places _ (Int.le_refl _) (by omega)
  have topCovers := covers _ (Int.le_refl _) (by omega)
  rw [← newTopIs] at topPlace topCovers
  refine ⟨⟨by omega, by omega⟩, topCovers.2.1, ?_⟩
  refine (copyKeeps.mono ?_).trans (zeroKeeps.mono ?_)
  · rintro place outside _ ⟨index, inside, rfl⟩ same
    have written := places (-(2 + depth.toNat : Int) + index) (by omega)
      (by omega)
    rw [← Word.offset_offset, ← newTopIs] at written
    omega
  · rintro place outside _ ⟨index, inside, rfl⟩ same
    have written := places (-2 + index) (by omega) (by omega)
    rw [← Word.offset_offset] at written
    omega

/-- The block of monitors reaches as far down as the expression stack moved. -/
theorem monitorEnd_grown
    (activation : Activation)
    (shift : Int) :
    (Session.grown activation shift).monitorEnd =
      activation.monitorEnd.offset shift := by
  unfold Activation.monitorEnd Session.grown
  rw [Word.offset_offset, Word.offset_offset, Int.add_comm]

/--
An activation that made room for one more monitor evolved.  The shift is two words
down for an activation that sits in its stack.
-/
theorem evolves_growMonitors
    (gives : growMonitors.Gives before monitor after) :
    Evolves before after ∧ monitor = after.activation.monitorEnd ∧
      (before.activation.Sits before.stack →
        after.activation.monitorEnd.toNat + 16 =
          before.activation.monitorEnd.toNat) := by
  obtain ⟨depth, shift, copied, stack, counted, negated, copies, rfl, zeroes,
    rfl⟩ := Session.gives_workspace_growMonitors gives
  rw [monitorEnd_grown] at zeroes ⊢
  have spec (sits : before.activation.Sits before.stack) :
      ((before.activation.monitorEnd.offset shift).toNat + 16 =
          before.activation.monitorEnd.toNat ∧
        (before.activation.stackTop.offset shift).toNat + 16 =
          before.activation.stackTop.toNat) ∧
        before.stack.limit.toNat ≤
          (before.activation.stackTop.offset shift).toNat ∧
        Stack.Keeps (before.activation.monitorEnd.toNat ≤ ·)
          before.stack stack := by
    rw [sits.monitorWords] at negated zeroes
    obtain rfl : -2 = shift := Except.ok.inj negated
    obtain ⟨places, inStack, keeps⟩ := places_of_growMonitors sits counted copies zeroes
    exact ⟨places, inStack, keeps.mono fun _ => .inr⟩
  refine ⟨?_, rfl, fun sits => ?_⟩
  · constructor <;> try rfl
    case lowered =>
      intro sits
      obtain ⟨⟨monitorPlace, -⟩, -⟩ := spec sits
      rw [monitorEnd_grown]
      omega
    case keeps =>
      intro sits
      exact (spec sits).2.2.mono fun place foreign => foreign.1
    case sits =>
      intro sits
      obtain ⟨⟨monitorPlace, topPlace⟩, limitLe, keeps⟩ := spec sits
      have newEnd := congrArg UInt64.toNat
        (monitorEnd_grown before.activation shift)
      have endLe := sits.monitorEndLe
      have whole := sits.wholeMonitors
      have aligned := sits.topAligned
      have topLe := sits.topLe
      constructor <;> dsimp only
      case fpAligned => exact sits.fpAligned
      case monitorWords => exact sits.monitorWords
      case monitorBase => exact sits.monitorBase
      case monitorEndLe =>
        change _ ≤ before.activation.monitorBase.toNat
        omega
      case wholeMonitors =>
        change (before.activation.monitorBase.toNat - _) % 16 = 0
        omega
      case topAligned =>
        change (before.activation.stackTop.offset shift).toNat % 8 = 0
        omega
      case topLe =>
        change (before.activation.stackTop.offset shift).toNat ≤ _
        omega
      case limitLe =>
        rw [keeps.limit]
        exact limitLe
      case locals => exact sits.locals
      case localsLe =>
        rw [keeps.base]
        exact sits.localsLe
  · exact (spec sits).1.1

/-- Where there is room for one more monitor, the room moves with it. -/
theorem keepsRoom_growMonitors
    (gives : growMonitors.Gives before monitor after)
    (headroom :
      (before.activation.stackLimit.offset (-2)).toNat ≤
        before.activation.stackLimit.toNat) :
    KeepsRoom before after := by
  obtain ⟨-, -, lowered⟩ := evolves_growMonitors gives
  obtain ⟨depth, shift, copied, stack, -, negated, -, -, -, rfl⟩ :=
    Session.gives_workspace_growMonitors gives
  intro sits bytes room
  rw [sits.monitorWords] at negated
  have two : -2 = shift := Except.ok.inj negated
  rw [two] at headroom
  have monitorPlace := lowered sits
  have moved := Word.toNat_offset before.activation.stackLimit shift
  have small := before.activation.stackLimit.toNat_lt
  have topMoved := Word.toNat_offset before.activation.stackTop shift
  have extent := room.extent
  have inside : before.activation.stackLimit.toNat ≤
    before.activation.stackTop.toNat := room.inside
  have topSmall := before.activation.stackTop.toNat_lt
  have monitorSmall := before.activation.monitorEnd.toNat_lt
  constructor
  · change (before.activation.stackLimit.offset shift).toNat + bytes = _
    dsimp only at monitorPlace ⊢
    omega
  · change (before.activation.stackLimit.offset shift).toNat ≤
      (before.activation.stackTop.offset shift).toNat
    omega

/-- Several entries pushed one after the other are work on the activation. -/
theorem worked_pushAll
    {values : List Word}
    {value : Unit}
    (gives : (pushAll values).Gives before value after) :
    Worked before after := by
  induction values generalizing before with
  | nil =>
      obtain ⟨-, rfl⟩ := gives_pure.mp gives
      exact .refl _
  | cons word rest inductionHypothesis =>
      obtain ⟨_, between, pushed, restPushed⟩ := gives_bind.mp gives
      exact ((worked_push word).of_gives pushed).trans
        (inductionHypothesis restPushed)

/-- Several locals written one after the other are work on the activation. -/
theorem worked_writeLocals
    {first : Nat}
    {values : List Word}
    {value : Unit}
    (gives : (writeLocals first values).Gives before value after) :
    Worked before after := by
  induction values generalizing first before with
  | nil =>
      obtain ⟨-, rfl⟩ := gives_pure.mp gives
      exact .refl _
  | cons word rest inductionHypothesis =>
      obtain ⟨_, between, written, restWritten⟩ := gives_bind.mp gives
      exact ((worked_writeLocal first word).of_gives written).trans
        (inductionHypothesis restWritten)

end Growing

end Workspace

/-- Putting an activation where it already is changes nothing. -/
theorem FrameManager.withActivation_self
    {manager : FrameManager}
    {index : Nat}
    {activation : Activation}
    (found : manager.activation? index = some activation) :
    manager.withActivation index activation = manager := by
  obtain ⟨held, heldFound, rfl⟩ := Option.map_eq_some_iff.mp found
  unfold withActivation
  congr 1
  apply Array.ext_getElem?
  intro position
  rw [Array.getElem?_modify]
  split
  · rename_i same
    rw [← same, heldFound]
    rfl
  · rfl

namespace Session

variable {context : ManagerContext τ} {before after : Session τ}

/-- Work on one activation done twice is the later work. -/
theorem withWorkspace_withWorkspace
    (session : Session τ)
    (index : Nat)
    (first second : Workspace) :
    (session.withWorkspace index first).withWorkspace index second =
      session.withWorkspace index second := by
  simp only [withWorkspace, withTurn,
    FrameManager.withActivation_withActivation]

/-- The manager makes room for one more monitor where there is headroom. -/
theorem evolves_of_growMonitors
    {index : Nat}
    {former : Activation}
    {monitor : Address}
    (found : before.manager.activation? index = some former)
    (gives : (growMonitors context index).Gives before monitor after) :
    ∃ workspace,
      after = before.withWorkspace index workspace ∧
        Workspace.Evolves ⟨former, before.machine.stack⟩ workspace ∧
        monitor = workspace.activation.monitorEnd ∧
        (former.Sits before.machine.stack →
          workspace.activation.monitorEnd.toNat + 16 =
            former.monitorEnd.toNat) ∧
        (context.env.layout.monitorWords = 2 →
          Workspace.KeepsRoom ⟨former, before.machine.stack⟩ workspace) := by
  obtain ⟨_, lower, workspace, sameFound, lowers, -, headroom, grew, rfl⟩ :=
    gives_growMonitors gives
  obtain rfl := Option.some.inj (found.symm.trans sameFound)
  obtain ⟨evolves, isEnd, place⟩ := Workspace.evolves_growMonitors grew
  refine ⟨workspace, rfl, evolves, isEnd, place, fun two => ?_⟩
  have lowerIs : lower = former.stackLimit.offset (-2) := by
    rw [two] at lowers
    simpa using Word.below_eq_ok lowers
  rw [lowerIs] at headroom
  exact Workspace.keepsRoom_growMonitors grew headroom

/--
Growing several times, the new monitors lie right below the old ones.  The first
monitor lies highest, and all further ones between it and the new end.
-/
theorem gives_growAll
    {index count : Nat}
    {former : Activation}
    {monitors : List Address}
    (found : before.manager.activation? index = some former)
    (gives : (growAll context index count).Gives before monitors after) :
    ∃ workspace,
      after = before.withWorkspace index workspace ∧
        Workspace.Evolves ⟨former, before.machine.stack⟩ workspace ∧
        (former.Sits before.machine.stack → ∀ monitor ∈ monitors,
          workspace.activation.monitorEnd.toNat ≤ monitor.toNat ∧
            monitor.toNat + 16 ≤ former.monitorEnd.toNat) ∧
        (context.env.layout.monitorWords = 2 →
          Workspace.KeepsRoom ⟨former, before.machine.stack⟩ workspace) := by
  induction count generalizing before former monitors with
  | zero =>
      obtain ⟨rfl, rfl⟩ := gives_pure.mp gives
      refine ⟨⟨former, after.machine.stack⟩, ?_, .ofWorked (.refl _), ?_, ?_⟩
      · simp only [withWorkspace, withTurn,
          FrameManager.withActivation_self found]
      · simp
      · exact fun _ => .ofWorked (.refl _)
  | succ count inductionHypothesis =>
      simp only [growAll, gives_bind, gives_pure] at gives
      obtain ⟨first, between, grows, others, _, restGrows, rfl, rfl⟩ := gives
      obtain ⟨middle, rfl, firstEvolves, firstIs, firstPlace, firstRoom⟩ :=
        evolves_of_growMonitors found grows
      obtain ⟨workspace, rfl, restEvolves, restPlaces, restRoom⟩ :=
        inductionHypothesis
          (FrameManager.activation?_withActivation found middle.activation)
          restGrows
      refine ⟨workspace, withWorkspace_withWorkspace .., firstEvolves.trans
        restEvolves, fun sits monitor inside => ?_,
        fun two => (firstRoom two).trans firstEvolves (restRoom two)⟩
      · have atFirst := firstPlace sits
        have middleSits := firstEvolves.sits sits
        rcases List.mem_cons.mp inside with rfl | inRest
        · have lower := restEvolves.lowered middleSits
          rw [firstIs]
          exact ⟨lower, Nat.le_of_eq atFirst⟩
        · obtain ⟨above, below⟩ := restPlaces middleSits monitor inRest
          have lower : former.monitorEnd.toNat =
              middle.activation.monitorEnd.toNat + 16 := atFirst.symm
          exact ⟨above, by omega⟩

/-- Owners are written into the monitors that they are given for. -/
theorem writes_writeOwners (owned : List (Address × Word)) :
    Stack.Writes
      (fun place => ∃ entry ∈ owned, place = Frame.monitorOwner entry.1)
      (writeOwners owned) := by
  induction owned with
  | nil => exact (Stack.Writes.ofPure ()).congr (by simp)
  | cons entry rest inductionHypothesis =>
      exact ((Stack.Writes.ofWrite _ entry.2).andThen fun _ =>
        inductionHypothesis).congr (by simp)

/--
An activation filled from an image is the fresh one evolved, and published.  Locals,
monitors and entries are filled in one after the other.
-/
theorem evolves_restoreImage
    {index : Nat}
    {bcp : Address}
    {image : DeoptimizedActivation}
    {value : Unit}
    (gives : (restoreImage context index bcp image).Gives before value after) :
    ∃ (fresh filled : Activation) (stack published : Stack)
        (monitors : List Address),
      before.manager.activation? index = some fresh ∧
        Workspace.Evolves ⟨fresh, before.machine.stack⟩ ⟨filled, stack⟩ ∧
        Publishes context (resumed { filled with bcp := bcp } .deoptResume)
          stack published ∧
        (writeOwners (monitors.zip image.monitors)).Gives
          published () after.machine.stack ∧
        (fresh.Sits before.machine.stack → ∀ monitor ∈ monitors,
          filled.monitorEnd.toNat ≤ monitor.toNat ∧
            monitor.toNat + 16 ≤ fresh.monitorEnd.toNat) ∧
        (context.env.layout.monitorWords = 2 →
          Workspace.KeepsRoom ⟨fresh, before.machine.stack⟩ ⟨filled, stack⟩) ∧
        after.manager = before.manager.withActivation index
          (resumed { filled with bcp := bcp } .deoptResume) := by
  obtain ⟨fresh, grownTop, filled, pushed, monitors, roomy, stack, owned,
    freshFound, fills, grows, grownFound, pushes, publishes, owns, managed,
    rfl⟩ := gives_restoreImage gives
  have fillWorked := Workspace.worked_writeLocals fills
  have pushWorked := Workspace.worked_pushAll pushes
  have filledFound := FrameManager.activation?_withActivation freshFound
    filled.activation
  obtain ⟨workspace, rfl, evolves, places, room⟩ :=
    gives_growAll filledFound grows
  have roomyFound := FrameManager.activation?_withActivation filledFound
    workspace.activation
  obtain rfl := Option.some.inj (roomyFound.symm.trans grownFound)
  refine ⟨fresh, pushed.activation, pushed.stack, stack, monitors, freshFound,
    ?_, publishes, owns, fun sits monitor inside => ?_, fun two => ?_, ?_⟩
  · exact ((Workspace.Evolves.ofWorked fillWorked).trans evolves).trans
      (.ofWorked pushWorked)
  · obtain ⟨above, below⟩ := places (fillWorked.sits sits) monitor inside
    rw [pushWorked.seat.monitorEnd, ← fillWorked.seat.monitorEnd]
    exact ⟨above, below⟩
  · exact (Workspace.KeepsRoom.ofWorked fillWorked).trans (.ofWorked fillWorked)
      ((room two).trans evolves (.ofWorked pushWorked))
  · rw [managed, manager_withWorkspace, manager_withWorkspace,
      FrameManager.withActivation_withActivation,
      FrameManager.withActivation_withActivation]

end Session

end ManagedStack
