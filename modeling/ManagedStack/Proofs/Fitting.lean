import ManagedStack.Proofs.Resuming

namespace ManagedStack

/-!
# Callees that fit

A callee needs room below its arguments: for the locals that are not parameters, for
the eleven words of its frame, and for the entries that its method declares.  Where
the stack has that much room, the callee is laid out and the call succeeds.
-/

open Operation FrameManager

namespace Stack

/-- Words are written to all addresses that the stack covers. -/
theorem exists_gives_writeEach
    {pairs : List (Address × Word)}
    {stack : Stack}
    (covers : ∀ pair ∈ pairs, stack.Covers pair.1) :
    ∃ after, (writeEach pairs).Gives stack () after := by
  induction pairs generalizing stack with
  | nil => exact ⟨stack, gives_pure.mpr ⟨rfl, rfl⟩⟩
  | cons pair rest inductionHypothesis =>
      have others : ∀ other ∈ rest,
          (stack.put pair.1 pair.2).Covers other.1 := by
        intro other inRest
        rw [covers_put]
        exact covers other (List.mem_cons_of_mem _ inRest)
      obtain ⟨after, written⟩ := inductionHypothesis others
      exact ⟨after, gives_bind.mpr ⟨(), _,
        gives_write.mpr ⟨covers pair (List.mem_cons_self ..), rfl⟩, written⟩⟩

end Stack

namespace Session

/-- Locals are cleared wherever the stack covers them. -/
theorem exists_gives_clearLocals
    {locals : Address}
    {first count : Nat}
    {stack : Stack}
    (covers : ∀ index < count,
      stack.Covers (locals.offset (-(first + index : Nat)))) :
    ∃ after, (clearLocals locals first count).Gives stack () after := by
  induction count generalizing first stack with
  | zero => exact ⟨stack, gives_pure.mpr ⟨rfl, rfl⟩⟩
  | succ count inductionHypothesis =>
      have others : ∀ index < count,
          (stack.put (locals.offset (-first)) 0).Covers
            (locals.offset (-(first + 1 + index : Nat))) := by
        intro index inside
        rw [Stack.covers_put, Nat.add_assoc, Nat.add_comm 1 index]
        exact covers (index + 1) (by omega)
      obtain ⟨after, cleared⟩ := inductionHypothesis others
      exact ⟨after, gives_bind.mpr ⟨(), _,
        Stack.gives_write.mpr ⟨covers 0 (by omega), rfl⟩, cleared⟩⟩

/-- What a callee needs fits between the stack limit and its arguments. -/
structure Fits
    (stack : Stack)
    (method : Method)
    (top : Address) :
    Prop where
  covers : stack.Covers top
  arguments : top.toNat + 8 * method.parameterSlots ≤ stack.base.toNat
  room : stack.limit.toNat + 8 * (method.maxLocals - method.parameterSlots + 11 +
    method.maxStack.toNat) ≤ top.toNat

/--
The check of the headroom lets a callee pass, and there is room for its frame.

The check counts the bytes of frame and entries modulo the size of the address space.
Two numbers of entries have no lower bound that can be computed.
-/
structure Admits
    (stack : Stack)
    (method : Method)
    (top : Address) :
    Prop where
  covers : stack.Covers top
  arguments : top.toNat + 8 * method.parameterSlots ≤ stack.base.toNat
  frame : stack.limit.toNat + 8 * (method.maxLocals - method.parameterSlots + 11) ≤
    top.toNat
  counted : stack.limit.toNat + 8 * ((method.maxLocals - method.parameterSlots + 11 +
    method.maxStack.toNat) % 0x2000000000000000) ≤ top.toNat
  negatable : method.maxStack.toNat ≠ 0x8000000000000000
  boundable : method.maxStack.toNat ≠ 0x8000000000000001

variable {stack : Stack} {method : Method} {top : Address}

/-- What fits is admitted. -/
theorem Fits.admits (fits : Fits stack method top) : Admits stack method top where
  covers := fits.covers
  arguments := fits.arguments
  frame := by
    have room := fits.room
    omega
  counted := by
    have room := fits.room
    have small := top.toNat_lt
    omega
  negatable := by
    have room := fits.room
    have small := top.toNat_lt
    omega
  boundable := by
    have room := fits.room
    have small := top.toNat_lt
    omega

/-- A callee with a reasonable number of locals has a place, wherever that is. -/
theorem exists_place
    (method : Method)
    (top : Address)
    (few : method.maxLocals < 0x8000000000000000)
    (negatable : method.maxStack.toNat ≠ 0x8000000000000000) :
    ∃ placement,
      place .x86_64 method top = .ok placement ∧
        placement.fp = top.offset
          (-(method.maxLocals - method.parameterSlots + 2 : Nat)) ∧
        placement.lowest = top.offset (-(method.maxLocals - method.parameterSlots +
          11 + method.maxStack.toNat : Nat)) := by
  have more : method.parameterSlots ≤ method.maxLocals := Nat.le_max_right ..
  have locals : max method.maxLocals method.parameterSlots = method.maxLocals :=
    Nat.max_eq_left more
  have signed := Word.signed_eq (UInt64.ofNat method.maxLocals)
  have reading : (UInt64.ofNat method.maxLocals).toNat = method.maxLocals := by
    rw [UInt64.toNat_ofNat']
    omega
  rw [reading, if_pos (by omega)] at signed
  have subtracted : subtractSigned 1 (Word.signed (UInt64.ofNat method.maxLocals)) =
      .ok (1 - method.maxLocals) := by
    rw [signed]
    exact if_pos (by simp [fitsSigned]; omega)
  obtain ⟨placement, placed⟩ : ∃ placement,
      place .x86_64 method top = .ok placement := by
    simp only [place, locals]
    exact ⟨_, bind_eq_ok.mpr ⟨_, subtracted, bind_eq_ok.mpr
      ⟨_, Word.below_of_ne negatable, rfl⟩⟩⟩
  obtain ⟨down, downIs, -, -, returnSlot, fp, monitorBase, lowered⟩ :=
    place_eq_ok placed
  obtain rfl := Except.ok.inj (subtracted.symm.trans downIs)
  have fpIs : placement.fp = top.offset
      (-(method.maxLocals - method.parameterSlots + 2 : Nat)) := by
    rw [fp, returnSlot, Word.offset_offset]
    congr 1
    omega
  refine ⟨placement, placed, fpIs, ?_⟩
  have bottom : FrameLayout.x86_64.monitorBlockBottom = -9 := rfl
  rw [Word.below_eq_ok lowered, monitorBase, fpIs, Word.offset_offset,
    Word.offset_offset, bottom]
  congr 1
  omega

namespace Admits

/-- So many locals fit a stack that their number is its own signed reading. -/
theorem few (admits : Admits stack method top) :
    method.maxLocals < 0x8000000000000000 := by
  have frame := admits.frame
  have arguments := admits.arguments
  have baseSmall := stack.base.toNat_lt
  have more : method.parameterSlots ≤ method.maxLocals := Nat.le_max_right ..
  omega

/--
A callee that is admitted is laid out.  All that is written lies between the top and
eleven words below the locals, and clearing the locals leaves the extent alone.
-/
theorem exists_laysOut
    (admits : Admits stack method top)
    (callerFp returnPc : Address) :
    ∃ placement after, LaysOut method placement top callerFp returnPc stack after := by
  have frame := admits.frame
  have counted := admits.counted
  have arguments := admits.arguments
  have baseSmall := stack.base.toNat_lt
  obtain ⟨topAligned, -, topLow⟩ := admits.covers
  have more : method.parameterSlots ≤ method.maxLocals := Nat.le_max_right ..
  obtain ⟨placement, placed, fpIs, lowestIs⟩ :=
    exists_place method top admits.few admits.negatable
  obtain ⟨-, -, localWords, locals, -⟩ := place_eq_ok placed
  have lowest := Word.toNat_offset top (-(method.maxLocals - method.parameterSlots +
    11 + method.maxStack.toNat : Nat))
  rw [← lowestIs] at lowest
  have covers (words : Int)
      (above : -(method.maxLocals - method.parameterSlots + 11 : Nat) ≤ words)
      (below : words ≤ 0) :
      stack.Covers (top.offset words) := by
    have place := Word.toNat_offset top words
    have limitAligned := stack.limit_aligned
    refine ⟨?_, ?_, ?_⟩ <;> omega
  obtain ⟨cleared, clears⟩ : ∃ cleared,
      (clearLocals placement.locals method.parameterSlots
        (placement.localWords - method.parameterSlots)).Gives
          stack () cleared := by
    refine exists_gives_clearLocals fun index inside => ?_
    rw [locals, Word.offset_offset]
    exact covers _ (by omega) (by omega)
  obtain ⟨-, keeps⟩ := writes_clearLocals _ _ _ _ _ _ clears
  obtain ⟨after, fills⟩ : ∃ after, (writeFields .x86_64 method placement top
      callerFp returnPc).Gives cleared () after := by
    rw [writeFields_eq (returnSlot_of_place placed)]
    refine Stack.exists_gives_writeEach fun pair inside => ?_
    obtain ⟨field, isField, rfl⟩ := List.mem_map.mp inside
    have distance := distance_of_field isField
    refine keeps.covers_iff.mpr ?_
    rw [fpIs, Word.offset_offset]
    exact covers _ (by omega) (by omega)
  exact ⟨placement, after, {
    placed := placed
    headroom := by omega
    headroomTop := by omega
    topCovers := admits.covers
    arguments := arguments
    written := gives_bind.mpr ⟨(), cleared, clears, fills⟩ }⟩

/-- A callee that is admitted is a fresh activation on the stack. -/
theorem exists_gives_pushActivation
    {context : ManagerContext τ}
    {before : Session τ}
    (admits : Admits before.machine.stack method top)
    (x86 : context.env.layout = .x86_64)
    (callerFp returnPc : Address)
    (caller : Option Nat) :
    ∃ after, (pushActivation context method top callerFp returnPc caller).Gives
      before before.manager.depth after := by
  obtain ⟨placement, stack, laysOut⟩ := admits.exists_laysOut callerFp returnPc
  have limited : Activation.limitFor (placement.monitorBase.offset (-1))
      method.maxStack = .ok _ :=
    map_eq_ok.mpr ⟨_, subtractSigned_one admits.negatable admits.boundable, rfl⟩
  obtain ⟨fresh, shaped⟩ : ∃ fresh,
      Activation.ofShape before.machine.thread.id
        (shapeAt method placement caller) .x86_64 = .ok fresh :=
    ⟨_, bind_eq_ok.mpr ⟨_, limited, rfl⟩⟩
  simp only [pushActivation, x86, gives_bind, gives_check, gives_checkHeadroom,
    gives_onMachine, Machine.gives_onStack, gives_readThread,
    gives_readManager, gives_updateManager, gives_pure, and_assoc,
    exists_and_left, exists_eq_left, exists_const]
  exact ⟨_, placement, laysOut.placed, laysOut.headroom, laysOut.headroomTop,
    (), _, ⟨_, ⟨stack, gives_bind.mp laysOut.written, rfl⟩, rfl⟩, fresh, shaped,
    rfl, rfl⟩

end Admits

/-- A call of an interpreted method whose callee fits succeeds, and enters it. -/
theorem Fits.exists_gives_serveCall
    {context : ManagerContext τ}
    {before : Session τ}
    {rest : Array HeldActivation}
    {held : HeldActivation}
    {call : CallRequest}
    {depth : Word}
    (fits : Fits before.machine.stack method held.activation.stackTop)
    (x86 : context.env.layout = .x86_64)
    (unprofiled : context.env.diagnostics.profileInterpreter = false)
    (interpreter : context.env.code.interpreterContains
      context.entryPoints.interpreterReturnPc = true)
    (stands : before.manager.activations = rest.push held)
    (payload : held.activation.payload = .call call)
    (interpreted :
      context.env.code.interpreterContains call.entryPoint = true)
    (found : context.env.methods.find? call.callee = some method)
    (counted : held.activation.stackDepth = .ok depth)
    (enough : method.parameterSlots ≤ depth.toNat) :
    ∃ placement laid fresh outcome after,
      LaysOut method placement held.activation.stackTop held.activation.fp
          context.entryPoints.interpreterReturnPc before.machine.stack laid ∧
        Activation.ofShape before.machine.thread.id
          (shapeAt method placement (some rest.size)) .x86_64 = .ok fresh ∧
        (serveCall context rest.size).Gives before outcome after ∧
        after.manager.activations = before.manager.activations.push
          ⟨resumed fresh .methodEntry, method.parameterSlots⟩ := by
  obtain ⟨laid, pushed⟩ := fits.admits.exists_gives_pushActivation x86
    held.activation.fp context.entryPoints.interpreterReturnPc (some rest.size)
  obtain ⟨placement, fresh, -, managed, laysOut, shaped⟩ :=
    laysOut_of_pushActivation x86 pushed fits.covers fits.arguments
  have laidStands : laid.manager.activations = before.manager.activations.push
      ⟨fresh, method.parameterSlots⟩ := by
    rw [managed]
  have freshFound := activation?_of_push laidStands
  have accepts : fresh.accepts .methodEntry = true := by
    obtain ⟨_, _, -, shape⟩ := Activation.ofShape_eq_ok shaped
    rw [shape]
    rfl
  have worked : Workspace.Worked ⟨fresh, laid.machine.stack⟩
      ⟨resumed fresh .methodEntry, laid.machine.stack⟩ :=
    Workspace.worked_resumed rfl
  have sits := worked.sits (sits_of_layout laysOut shaped).1
  obtain ⟨committed, commits⟩ : ∃ committed,
      (commit context before.manager.depth).Gives
        (laid.withWorkspace before.manager.depth
          ⟨resumed fresh .methodEntry, laid.machine.stack⟩) () committed :=
    exists_gives_commit x86 unprofiled interpreter
      (activation?_withActivation freshFound _) sits
  have isCall : held.activation.payload.toCall = .ok call := by
    rw [payload]
    rfl
  have published : (do
      onWorkspace before.manager.depth (Workspace.resume .methodEntry)
      commit context before.manager.depth
      commitAnchor context
      let manager ← readManager
      return StepOutcome.called manager.depth :
        Operation _ ProtocolError _).Gives
        laid _ _ :=
    gives_bind.mpr ⟨(), _, gives_onWorkspace.mpr ⟨fresh, _, freshFound,
      Workspace.resume_of_accepts rfl accepts, rfl⟩, gives_bind.mpr
        ⟨(), committed, commits, gives_bind.mpr ⟨(), _,
          gives_commitAnchor.mpr rfl, gives_bind.mpr ⟨_, _,
            gives_readManager.mpr ⟨rfl, rfl⟩, gives_pure.mpr ⟨rfl, rfl⟩⟩⟩⟩⟩
  refine ⟨placement, _, fresh, _, _, laysOut, shaped, gives_bind.mpr ⟨_, _,
    gives_activation.mpr ⟨activation?_of_push stands, rfl⟩, gives_bind.mpr
      ⟨_, _, gives_check.mpr ⟨isCall, rfl⟩, gives_guard_report.mpr
        ⟨by simpa using interpreted, gives_bind.mpr ⟨_, _,
          gives_method.mpr ⟨found, rfl⟩, gives_bind.mpr ⟨_, _,
            gives_check.mpr ⟨counted, rfl⟩, gives_guard.mpr
              ⟨by omega, gives_bind.mpr ⟨_, _, pushed, published⟩⟩⟩⟩⟩⟩⟩, ?_⟩
  obtain ⟨_, stack, -, -, rfl⟩ := gives_commit commits
  exact congrArg FrameManager.activations (withActivation_of_push laidStands _)

end Session

end ManagedStack
