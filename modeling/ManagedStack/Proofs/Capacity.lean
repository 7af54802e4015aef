import ManagedStack.Proofs.Isolation
import ManagedStack.Proofs.Starting

namespace ManagedStack

/-!
# The check of the capacity

Whether there is room for a callee is decided by one comparison: the lowest address that
the callee may use must lie between the stack limit and the top of its caller.  That
address is computed in words that wrap around.  As long as the callee needs less than all
words that there are, the check is exact: the callee is pushed if it fits, and if it does
not the call is refused, with nothing written where the callee would have been.  A callee
that declares more entries than that is measured by what is left of its need after
wrapping around.
-/

open Operation FrameManager

namespace Method

/-- Words below the arguments for locals, return address, link and fixed slots. -/
def frameWords (method : Method) : Nat :=
  method.maxLocals - method.parameterSlots + 11

/-- Words below the arguments for the frame and for all entries. -/
def neededWords (method : Method) : Nat :=
  method.frameWords + method.maxStack.toNat

end Method

/-- So many words fit between the limit of the stack and a place, counted without bound. -/
def Stack.HasWords
    (stack : Stack)
    (words : Nat)
    (top : Int) :
    Prop :=
  (stack.limit.toNat : Int) + 8 * words ≤ top

namespace Session

variable {context : ManagerContext τ} {before between : Session τ} {callee : Method}
  {top : Address} {callerFp returnPc : Address} {link : Option Nat}

/-- A place below the stack limit or above the top is refused. -/
theorem raises_checkHeadroom
    {lowest : Address}
    (outside : lowest.toNat < before.machine.stack.limit.toNat ∨ top.toNat < lowest.toNat) :
    (checkHeadroom lowest top).Raises before
      (.stackOverflow lowest before.machine.stack.limit) before := by
  have refused : (lowest < before.machine.stack.limit || top < lowest) = true := by
    simpa [UInt64.lt_iff_toNat_lt] using outside
  refine raises_bind.mpr (.inr ⟨_, before, gives_readStack.mpr ⟨rfl, rfl⟩, ?_⟩)
  rw [if_pos refused]
  exact raises_fail.mpr ⟨rfl, rfl⟩

section Admission

variable {stack : Stack}

/-- A callee is admitted if its frame fits, and what it needs fits after wrapping around. -/
theorem admits_iff
    (covers : stack.Covers top)
    (arguments : top.toNat + 8 * callee.parameterSlots ≤ stack.base.toNat) :
    Admits stack callee top ↔
      stack.HasWords callee.frameWords top.toNat ∧
        stack.HasWords (callee.neededWords % 0x2000000000000000) top.toNat ∧
        callee.maxStack.toNat ≠ 0x8000000000000000 ∧
        callee.maxStack.toNat ≠ 0x8000000000000001 := by
  unfold Stack.HasWords Method.neededWords Method.frameWords
  constructor
  · rintro ⟨-, -, frame, counted, negatable, boundable⟩
    exact ⟨by omega, by omega, negatable, boundable⟩
  · rintro ⟨frame, counted, negatable, boundable⟩
    exact ⟨covers, arguments, by omega, by omega, negatable, boundable⟩

/-- What can be counted without wrapping around is admitted if it fits. -/
theorem admits_iff_of_few
    (covers : stack.Covers top)
    (arguments : top.toNat + 8 * callee.parameterSlots ≤ stack.base.toNat)
    (few : callee.neededWords < 0x2000000000000000) :
    Admits stack callee top ↔ stack.HasWords callee.neededWords top.toNat := by
  have total : callee.neededWords = callee.frameWords + callee.maxStack.toNat := rfl
  rw [admits_iff covers arguments, Nat.mod_eq_of_lt few]
  unfold Stack.HasWords
  omega

/-- A callee that was laid out had been admitted. -/
theorem admits_of_layout
    {placement : Placement}
    {thread : ThreadId}
    {fresh : Activation}
    {after : Stack}
    (laysOut : LaysOut callee placement top callerFp returnPc stack after)
    (shaped : Activation.ofShape thread (shapeAt callee placement link) .x86_64 =
      .ok fresh) :
    Admits stack callee top := by
  obtain ⟨extra, total, fpIs, covers⟩ := covers_of_layout laysOut
  obtain ⟨-, -, -, -, -, -, monitorBase, lowered⟩ := place_eq_ok laysOut.placed
  obtain ⟨_, _, limited, -⟩ := Activation.ofShape_eq_ok shaped
  obtain ⟨_, subtracted, -⟩ := map_eq_ok.mp limited
  have bottom : FrameLayout.x86_64.monitorBlockBottom = -9 := rfl
  have extraIs : extra = callee.maxLocals - callee.parameterSlots := by omega
  have lowestFrame := Stack.toNat_offset_of_covers covers (by omega) (Int.le_refl _)
    (Int.le_refl _) (by omega)
  obtain ⟨-, limitLe, -⟩ := covers _ (Int.le_refl _) (by omega)
  have lowest := Word.toNat_offset top (-(extra + 11 + callee.maxStack.toNat : Nat))
  have lowestIs : placement.lowest =
      top.offset (-(extra + 11 + callee.maxStack.toNat : Nat)) := by
    rw [Word.below_eq_ok lowered, monitorBase, fpIs, Word.offset_offset,
      Word.offset_offset, bottom]
    congr 1
    omega
  rw [← lowestIs] at lowest
  have headroom := laysOut.headroom
  have headroomTop := laysOut.headroomTop
  have topSmall := top.toNat_lt
  exact {
    covers := laysOut.topCovers
    arguments := laysOut.arguments
    frame := by omega
    counted := by omega
    negatable := Word.ne_of_below_eq_ok lowered
    boundable := ne_of_subtractSigned_one subtracted }

/-- A callee is pushed if and only if it is admitted. -/
theorem exists_gives_pushActivation_iff
    (x86 : context.env.layout = .x86_64)
    (covers : before.machine.stack.Covers top)
    (arguments : top.toNat + 8 * callee.parameterSlots ≤ before.machine.stack.base.toNat) :
    (∃ index after, (pushActivation context callee top callerFp returnPc link).Gives
        before index after) ↔
      Admits before.machine.stack callee top := by
  constructor
  · rintro ⟨_, _, gives⟩
    obtain ⟨_, _, -, -, laysOut, shaped⟩ :=
      laysOut_of_pushActivation x86 gives covers arguments
    exact admits_of_layout laysOut shaped
  · intro admits
    exact ⟨_, admits.exists_gives_pushActivation x86 callerFp returnPc link⟩

/--
What can be counted and does not fit is refused before anything is written.  The place
lies below the limit, or it has wrapped around to above the top.
-/
theorem raises_pushActivation_of_few
    (x86 : context.env.layout = .x86_64)
    (arguments : top.toNat + 8 * callee.parameterSlots ≤ before.machine.stack.base.toNat)
    (few : callee.neededWords < 0x2000000000000000)
    (unfit : ¬before.machine.stack.HasWords callee.neededWords top.toNat) :
    ∃ lowest, (pushActivation context callee top callerFp returnPc link).Raises before
      (.stackOverflow lowest before.machine.stack.limit) before := by
  have topSmall := top.toNat_lt
  have baseSmall := before.machine.stack.base.toNat_lt
  unfold Stack.HasWords at unfit
  unfold Method.neededWords Method.frameWords at few unfit
  obtain ⟨placement, placed, -, lowestIs⟩ :=
    exists_place callee top (by omega) (by omega)
  have lowest := Word.toNat_offset top (-(callee.maxLocals - callee.parameterSlots + 11 +
    callee.maxStack.toNat : Nat))
  rw [← lowestIs] at lowest
  refine ⟨placement.lowest, raises_bind.mpr (.inr ⟨placement, before,
    gives_check.mpr ⟨x86 ▸ placed, rfl⟩,
    raises_bind.mpr (.inl (raises_checkHeadroom ?_))⟩)⟩
  omega

end Admission

section Depth

/-- However it ends, there are as many activations after it as before. -/
def KeepsDepth (operation : Operation (Session τ) ε α) : Prop :=
  operation.Respects fun before after => after.manager.depth = before.manager.depth

namespace KeepsDepth

theorem bind
    {first : Operation (Session τ) ε α}
    {next : α → Operation (Session τ) ε β}
    (firstKeeps : KeepsDepth first)
    (nextKeeps : ∀ value, KeepsDepth (next value)) :
    KeepsDepth (first >>= next) :=
  Respects.andThen (fun first second => second.trans first) firstKeeps nextKeeps

theorem inspect (look : Session τ → Probe ε α) : KeepsDepth (Operation.inspect look) :=
  fun _ => rfl

theorem onMachine (operation : Operation Machine FrameError α) :
    KeepsDepth (Session.onMachine operation : Operation (Session τ) _ α) :=
  fun _ => rfl

theorem updateThread (change : Thread → Thread) :
    KeepsDepth (Session.updateThread change : Operation (Session τ) ε Unit) :=
  fun _ => rfl

theorem onWorkspace
    (index : Nat)
    (operation : Operation Workspace ProtocolError α) :
    KeepsDepth (Session.onWorkspace index operation : Operation (Session τ) _ α) := by
  intro before
  unfold Session.onWorkspace onActivation
  split
  · rfl
  · exact depth_withActivation _ _ _

theorem commit (index : Nat) : KeepsDepth (Session.commit context index) := by
  refine .bind (.bind (inspect _) fun _ => ?_) fun _ => .bind (onMachine _) fun _ => onMachine _
  split <;> exact inspect _

theorem commitAnchor :
    KeepsDepth (Session.commitAnchor context : Operation (Session τ) ε Unit) := by
  refine .bind (inspect _) fun _ => ?_
  split <;> exact updateThread _

theorem beginAt (index : Nat) : KeepsDepth (Session.beginAt context index) :=
  .bind (onWorkspace _ _) fun _ => .bind (commit _) fun _ =>
    .bind commitAnchor fun _ => updateThread _

end KeepsDepth

/-- Lay a callee out, as far as anything can fail. -/
def layOutCallee
    (context : ManagerContext τ)
    (method : Method)
    (top callerFp returnPc : Address)
    (caller : Option Nat) :
    Operation (Session τ) ProtocolError Activation := do
  let layout := context.env.layout
  let placement ← Operation.check (place layout method top)
  checkHeadroom placement.lowest top
  let parameters := method.parameterSlots
  onMachine <| Machine.onStack do
    clearLocals placement.locals parameters
      (placement.localWords - parameters)
    writeFields layout method placement top callerFp returnPc
  let thread ← readThread
  Operation.check (Activation.ofShape thread.id (shapeAt method placement caller) layout)

/-- A callee that was laid out is put on the chain. -/
theorem pushActivation_eq
    (context : ManagerContext τ)
    (method : Method)
    (top callerFp returnPc : Address)
    (caller : Option Nat) :
    pushActivation context method top callerFp returnPc caller = (do
      let fresh ← layOutCallee context method top callerFp returnPc caller
      let manager ← readManager
      updateManager fun manager =>
        { manager with
          activations := manager.activations.push ⟨fresh, method.parameterSlots⟩ }
      return manager.depth) := by
  simp only [pushActivation, layOutCallee, bind_assoc]

theorem OnlyWrites.layOutCallee :
    OnlyWrites (Session.layOutCallee context callee top callerFp returnPc link) :=
  .bind (inspect _) fun _ => .bind (checkHeadroom _ _) fun _ =>
    .bind (onStack _) fun _ => .bind (inspect _) fun _ => inspect _

/-- There is one activation more exactly if the callee was pushed, whatever follows. -/
theorem leaves_deeper_iff
    {next : Nat → Operation (Session τ) ProtocolError α}
    (keeps : ∀ index, KeepsDepth (next index)) :
    (pushActivation context callee top callerFp returnPc link >>= next).Leaves before
        (·.manager.depth = before.manager.depth + 1) ↔
      ∃ index after, (pushActivation context callee top callerFp returnPc link).Gives
        before index after := by
  constructor
  · intro deeper
    by_contra never
    push Not at never
    have stopped := (leaves_bind.mp deeper).2 never
    rw [pushActivation_eq] at stopped never
    have unlaid : ∀ fresh laid, ¬(layOutCallee context callee top callerFp returnPc link).Gives
        before fresh laid := by
      intro fresh laid gives
      exact never _ _ (gives_bind.mpr ⟨fresh, laid, gives, gives_bind.mpr ⟨_, _,
        gives_readManager.mpr ⟨rfl, rfl⟩, gives_bind.mpr ⟨(), _,
          gives_updateManager.mpr rfl, gives_pure.mpr ⟨rfl, rfl⟩⟩⟩⟩)
    have left := (leaves_bind.mp stopped).2 unlaid
    unfold Leaves at left
    rw [OnlyWrites.layOutCallee before] at left
    exact absurd left (Nat.ne_of_lt (Nat.lt_succ_self _))
  · rintro ⟨index, laid, gives⟩
    obtain ⟨_, _, fresh, -, -, -, -, -, -, isLaid⟩ := gives_pushActivation gives
    have deeper : laid.manager.depth = before.manager.depth + 1 := by
      rw [isLaid]
      exact Array.size_push ..
    refine leaves_bind.mpr ⟨fun other left givesAlso => ?_, fun never =>
      (never _ _ gives).elim⟩
    obtain rfl := gives.2.symm.trans givesAlso.2
    exact (keeps other laid).trans deeper

end Depth

/--
One activation is pushed exactly if something fits.

If it does not, the call is refused, and no activation changes and no word below the top.
-/
structure PushesIf
    (operation : Operation (Session τ) ProtocolError α)
    (before : Session τ)
    (top : Int)
    (fits : Prop) :
    Prop where
  pushes : operation.Leaves before (·.manager.depth = before.manager.depth + 1) ↔ fits
  refuses : ¬fits → ∃ lowest after,
    operation.Raises before (.stackOverflow lowest before.machine.stack.limit) after ∧
      after.manager.activations = before.manager.activations ∧
      Stack.Keeps (fun place => (place : Int) < top) before.machine.stack after.machine.stack

/-- What is checked before a callee is pushed below the top of its caller. -/
structure ChecksCapacity
    (operation : Operation (Session τ) ProtocolError α)
    (before : Session τ)
    (callee : Method)
    (top : Int) :
    Prop where
  /-- A need that can be counted in words is checked exactly. -/
  exact : callee.neededWords < 0x2000000000000000 →
    PushesIf operation before top (before.machine.stack.HasWords callee.neededWords top)
  /-- Any need is counted modulo all words; the frame itself must fit in any case. -/
  wrapping : operation.Leaves before (·.manager.depth = before.manager.depth + 1) ↔
    before.machine.stack.HasWords callee.frameWords top ∧
      before.machine.stack.HasWords (callee.neededWords % 0x2000000000000000) top ∧
      callee.maxStack.toNat ≠ 0x8000000000000000 ∧
      callee.maxStack.toNat ≠ 0x8000000000000001

namespace ChecksCapacity

variable {place : Int}

/-- Pushing checks the capacity, and what follows leaves the chain as deep as it is. -/
theorem of_push
    {next : Nat → Operation (Session τ) ProtocolError α}
    (x86 : context.env.layout = .x86_64)
    (covers : before.machine.stack.Covers top)
    (arguments : top.toNat + 8 * callee.parameterSlots ≤ before.machine.stack.base.toNat)
    (keeps : ∀ index, KeepsDepth (next index)) :
    ChecksCapacity (pushActivation context callee top callerFp returnPc link >>= next)
      before callee top.toNat where
  exact few := {
    pushes := by
      rw [leaves_deeper_iff keeps, exists_gives_pushActivation_iff x86 covers arguments,
        admits_iff_of_few covers arguments few]
    refuses := by
      intro unfit
      obtain ⟨lowest, raises⟩ := raises_pushActivation_of_few x86 arguments few unfit
      exact ⟨lowest, before, raises_bind.mpr (.inl raises), rfl, .refl _⟩ }
  wrapping := by
    rw [leaves_deeper_iff keeps, exists_gives_pushActivation_iff x86 covers arguments,
      admits_iff covers arguments]

/-- What ends as another call, after no more than words above the top changed. -/
theorem of_ending
    {operation later : Operation (Session τ) ProtocolError α}
    (same : operation.ending before = later.ending between)
    (chain : between.manager.activations = before.manager.activations)
    (keeps : Stack.Keeps (fun word => (word : Int) < place) before.machine.stack
      between.machine.stack)
    (checks : ChecksCapacity later between callee place) :
    ChecksCapacity operation before callee place := by
  unfold ending at same
  obtain ⟨outcome, left⟩ := Prod.mk.inj same
  have depth : between.manager.depth = before.manager.depth := congrArg Array.size chain
  have leaves : operation.Leaves before (·.manager.depth = before.manager.depth + 1) ↔
      later.Leaves between (·.manager.depth = between.manager.depth + 1) := by
    unfold Leaves
    rw [left, depth]
  have room (words : Nat) : between.machine.stack.HasWords words place ↔
      before.machine.stack.HasWords words place := by
    unfold Stack.HasWords
    rw [keeps.limit]
  constructor
  case exact =>
    intro few
    obtain ⟨pushes, refuses⟩ := checks.exact few
    refine ⟨leaves.trans (pushes.trans (room _)), fun unfit => ?_⟩
    obtain ⟨lowest, after, ⟨fails, isAfter⟩, sameChain, keepsAfter⟩ :=
      refuses (unfit ∘ (room _).mp)
    rw [keeps.limit] at fails
    exact ⟨lowest, after, ⟨outcome.trans fails, left.trans isAfter⟩,
      sameChain.trans chain, keeps.trans keepsAfter⟩
  case wrapping =>
    rw [leaves, checks.wrapping, room, room]

/-- Where there is no room above the top already, nothing at all is done. -/
theorem of_raises
    {operation : Operation (Session τ) ProtocolError α}
    {lowest : Address}
    (raises : operation.Raises before (.stackOverflow lowest before.machine.stack.limit) before)
    (full : place < before.machine.stack.limit.toNat) :
    ChecksCapacity operation before callee place := by
  have unfit (words : Nat) : ¬before.machine.stack.HasWords words place := by
    unfold Stack.HasWords
    omega
  have undeeper : ¬operation.Leaves before (·.manager.depth = before.manager.depth + 1) := by
    unfold Leaves
    rw [raises.2]
    omega
  exact {
    exact := fun _ => ⟨by simp only [undeeper, unfit], fun _ =>
      ⟨lowest, before, raises, rfl, .refl _⟩⟩
    wrapping := by simp only [undeeper, unfit, false_and] }

end ChecksCapacity

section Callers

/-- An entry that does not fit is refused before anything is written. -/
theorem raises_layOutEntry
    {methodWord : Word}
    {arguments handles : List Word}
    (x86 : context.env.layout = .x86_64)
    (initialized : before.manager.initialized = true)
    (noEntry : before.manager.entry = none)
    (found : context.env.methods.find? methodWord = some callee)
    (counted : arguments.length = callee.parameterSlots)
    (few : 13 + handles.length + callee.parameterSlots < 0x2000000000000000)
    (full : (startTop before.machine).toNat < before.machine.stack.limit.toNat +
      8 * (13 + handles.length + callee.parameterSlots)) :
    ∃ lowest, (layOutEntry context methodWord arguments handles).Raises before
      (.stackOverflow lowest before.machine.stack.limit) before := by
  have topSmall := (startTop before.machine).toNat_lt
  have size : CallWrapper.sizeWords handles.length = 5 + handles.length := rfl
  obtain ⟨wrapper, isWrapper⟩ : ∃ wrapper, (startTop before.machine).offset
      (-CallWrapper.sizeWords handles.length) = wrapper := ⟨_, rfl⟩
  obtain ⟨words, isWords, lowered⟩ := exists_argumentTop wrapper
    (by omega : callee.parameterSlots < 0x2000000000000000)
  have lowest := Word.toNat_offset (startTop before.machine)
    (-CallWrapper.sizeWords handles.length + -(8 + callee.parameterSlots : Nat))
  rw [← Word.offset_offset, isWrapper] at lowest
  refine ⟨wrapper.offset (-(8 + callee.parameterSlots : Nat)), ?_⟩
  subst isWrapper
  simp only [layOutEntry, fail_bind]
  refine raises_bind.mpr (.inr ⟨_, before, gives_readManager.mpr ⟨rfl, rfl⟩, ?_⟩)
  rw [if_neg (by simp [initialized]), if_neg (by simp [noEntry])]
  refine raises_bind.mpr (.inr ⟨callee, before, gives_method.mpr ⟨found, rfl⟩, ?_⟩)
  rw [if_neg (not_not_intro counted)]
  refine raises_bind.mpr (.inr ⟨_, before, gives_readThread.mpr ⟨rfl, rfl⟩, ?_⟩)
  refine raises_bind.mpr (.inr ⟨_, before, gives_readStack.mpr ⟨rfl, rfl⟩, ?_⟩)
  refine raises_bind.mpr (.inr ⟨6, before, gives_check.mpr ⟨by rw [x86]; rfl, rfl⟩, ?_⟩)
  refine raises_bind.mpr (.inr ⟨words, before, gives_check.mpr ⟨isWords, rfl⟩, ?_⟩)
  refine raises_bind.mpr (.inr ⟨_, before, gives_check.mpr ⟨lowered, rfl⟩, ?_⟩)
  refine raises_bind.mpr (.inl (raises_checkHeadroom ?_))
  change _ ∨ (startTop before.machine).toNat < _
  omega

variable {place : Int}

/--
The operations that lay a callee out once their other checks have passed, each with the
caller's top that it leads to.

A start on a thread without a managed frame takes its entry and the arguments from the
base of the stack; its lists lie in memory.  A call takes over the top of the activation
that posted it.
-/
inductive LaysBelow
    (context : ManagerContext τ)
    (before : Session τ)
    (callee : Method) :
    (α : Type) → Int → Operation (Session τ) ProtocolError α → Prop where
  | start
      {methodWord : Word}
      {arguments handles : List Word}
      (initialized : before.manager.initialized = true)
      (noEntry : before.manager.entry = none)
      (found : context.env.methods.find? methodWord = some callee)
      (counted : arguments.length = callee.parameterSlots)
      (unanchored : before.machine.thread.anchor.isEmpty = true)
      (inMemory : handles.length + arguments.length < 0x1000000000000000) :
      LaysBelow context before callee Unit
        (before.machine.stack.base.toNat - 8 * (13 + handles.length + arguments.length))
        (start context methodWord arguments handles)
  | call
      {earlier : Session τ}
      {engine : Engine τ}
      {index : Nat}
      {message : Message}
      {caller : Activation}
      {call : CallRequest}
      {depth : Word}
      (reached : Reached context earlier)
      (acts : ActsThroughActivation engine)
      (advanced : (advance context engine).Gives earlier (index, message) before)
      (isCall : message.isCall = true)
      (posted : before.manager.activation? index = some caller)
      (payload : caller.payload.toCall = .ok call)
      (interpreted : context.env.code.interpreterContains call.entryPoint = true)
      (found : context.env.methods.find? call.callee = some callee)
      (counted : caller.stackDepth = .ok depth)
      (enough : callee.parameterSlots ≤ depth.toNat) :
      LaysBelow context before callee StepOutcome caller.stackTop.toNat
        (serve context index message)

/--
A start checks the capacity below its entry.  Where the entry alone does not fit, the
callee is not laid out at all.
-/
theorem checksCapacity_start
    {methodWord : Word}
    {arguments handles : List Word}
    (x86 : context.env.layout = .x86_64)
    (initialized : before.manager.initialized = true)
    (noEntry : before.manager.entry = none)
    (found : context.env.methods.find? methodWord = some callee)
    (counted : arguments.length = callee.parameterSlots)
    (unanchored : before.machine.thread.anchor.isEmpty = true)
    (inMemory : handles.length + arguments.length < 0x1000000000000000) :
    ChecksCapacity (start context methodWord arguments handles) before callee
      (before.machine.stack.base.toNat - 8 * (13 + handles.length + arguments.length)) := by
  have atBase : startTop before.machine = before.machine.stack.base := if_pos unanchored
  rw [counted] at inMemory ⊢
  rcases Nat.lt_or_ge before.machine.stack.base.toNat (before.machine.stack.limit.toNat +
      8 * (13 + handles.length + callee.parameterSlots)) with full | room
  · obtain ⟨lowest, raises⟩ : ∃ lowest, (layOutEntry context methodWord arguments handles).Raises
        before (.stackOverflow lowest before.machine.stack.limit) before :=
      raises_layOutEntry x86 initialized noEntry found counted (by omega)
        (by rw [atBase]; exact full)
    have refused : (start context methodWord arguments handles).Raises before
        (.stackOverflow lowest before.machine.stack.limit) before := by
      rw [start_eq]
      exact raises_bind.mpr (.inl raises)
    exact .of_raises refused (by omega)
  have hasRoom : before.HasRoomForEntry callee arguments handles := {
    counted := counted
    aligned := by rw [atBase]; exact before.machine.stack.base_aligned
    inside := by rw [atBase]
    room := by rw [atBase]; exact room }
  obtain ⟨entry, argumentTop, stack, gives, atTop, covers, keeps⟩ :=
    hasRoom.exists_gives_layOutEntry x86 initialized noEntry found
  rw [atBase] at atTop
  have topIs : (before.machine.stack.base.toNat : Int) -
      8 * (13 + handles.length + callee.parameterSlots) = argumentTop.toNat := by
    omega
  rw [topIs]
  have noted : (updateManager fun manager => { manager with entry := some entry } :
      Operation (Session τ) ProtocolError Unit).Gives (before.withStack stack) ()
        ((before.withStack stack).withEntry entry) :=
    gives_updateManager.mpr rfl
  have goesOn : (start context methodWord arguments handles).ending before =
      (pushActivation context callee argumentTop entry.framePointer
        context.entryPoints.callStubReturnPc none >>= beginAt context).ending
          ((before.withStack stack).withEntry entry) := by
    rw [start_eq, ending_bind_of_gives gives, ending_bind_of_gives noted]
  have within : argumentTop.toNat + 8 * callee.parameterSlots ≤ stack.base.toNat := by
    rw [keeps.base]
    omega
  exact .of_ending goesOn rfl (keeps.mono fun word below => by omega)
    (.of_push x86 covers within KeepsDepth.beginAt)

/-- Enter a callee that was pushed by a call. -/
def enterCallee
    (context : ManagerContext τ)
    (index : Nat) :
    Operation (Session τ) ProtocolError StepOutcome := do
  onWorkspace index (Workspace.resume .methodEntry)
  commit context index
  commitAnchor context
  let manager ← readManager
  return .called manager.depth

theorem KeepsDepth.enterCallee (index : Nat) :
    KeepsDepth (Session.enterCallee context index) :=
  .bind (onWorkspace _ _) fun _ => .bind (commit _) fun _ =>
    .bind commitAnchor fun _ => .bind (inspect _) fun _ => inspect _

/-- A call checks the capacity below the top of its caller. -/
theorem checksCapacity_serve
    {index : Nat}
    {message : Message}
    {caller : Activation}
    {call : CallRequest}
    {depth : Word}
    (x86 : context.env.layout = .x86_64)
    (sits : caller.Sits before.machine.stack)
    (isCall : message.isCall = true)
    (posted : before.manager.activation? index = some caller)
    (payload : caller.payload.toCall = .ok call)
    (interpreted : context.env.code.interpreterContains call.entryPoint = true)
    (found : context.env.methods.find? call.callee = some callee)
    (counted : caller.stackDepth = .ok depth)
    (enough : callee.parameterSlots ≤ depth.toNat) :
    ChecksCapacity (serve context index message) before callee caller.stackTop.toNat := by
  have within := sits.arguments_le counted enough
  have below := Nat.le_trans sits.monitorEnd_le_ceiling sits.ceiling_le_base
  have goesOn : (serve context index message).ending before =
      (pushActivation context callee caller.stackTop caller.fp
        context.entryPoints.interpreterReturnPc (some index) >>= enterCallee context).ending
          before := by
    rw [serve_of_isCall isCall, serveCall,
      ending_bind_of_gives (gives_activation.mpr ⟨posted, rfl⟩),
      ending_bind_of_gives (gives_check.mpr ⟨payload, rfl⟩), if_neg (by simp [interpreted]),
      ending_bind_of_gives (gives_method.mpr ⟨found, rfl⟩),
      ending_bind_of_gives (gives_check.mpr ⟨counted, rfl⟩), if_neg (Nat.not_lt.mpr enough)]
    rfl
  exact .of_ending goesOn rfl (.refl _)
    (.of_push x86 sits.covers_top (Nat.le_trans within below) KeepsDepth.enterCallee)

/-- Every operation that lays a callee out checks the capacity. -/
theorem checksCapacity_of_laysBelow
    {operation : Operation (Session τ) ProtocolError α}
    (x86 : context.env.layout = .x86_64)
    (lays : LaysBelow context before callee α place operation) :
    ChecksCapacity operation before callee place := by
  cases lays with
  | start initialized noEntry found counted unanchored inMemory =>
      exact checksCapacity_start x86 initialized noEntry found counted unanchored inMemory
  | call reached acts advanced isCall posted payload interpreted found counted enough =>
      obtain ⟨rest, held, turn, same, advances⟩ := advances_of_gives advanced
      obtain ⟨rfl, rfl⟩ := Prod.mk.inj same
      have poses := advances.poses reached.followsProtocol acts
      obtain ⟨entry, isEntry⟩ := Option.isSome_iff_exists.mp poses.entry
      rw [advances.managed] at isEntry
      have chained := advances.chained x86 (reached.stacked x86) isEntry acts
      obtain rfl := Option.some.inj ((activation?_of_push poses.stands).symm.trans posted)
      exact checksCapacity_serve x86 chained.1.sits isCall posted payload interpreted found
        counted enough

/-- Whatever a callee needs is checked exactly. -/
def ChecksExactly (context : ManagerContext τ) : Prop :=
  ∀ before callee α place (operation : Operation (Session τ) ProtocolError α),
    LaysBelow context before callee α place operation →
      PushesIf operation before place
        (before.machine.stack.HasWords callee.neededWords place)

end Callers

end Session

/-!
A method whose entries take up all words that there are, and a stack of 64 words.
-/

namespace Boundless

def method : Method :=
  { Pair.caller with maxStack := 0x2000000000000000 }

def context : ManagerContext Unit :=
  { Pair.context with env := { Pair.context.env with methods := ⟨[Pair.callee, method]⟩ } }

/-- The session once the engine has been set up. -/
def ready : Session Unit :=
  { Pair.fresh with manager := { initialized := true } }

/-- A method with two entries is checked exactly. -/
theorem checksCapacity_callee :
    context.env.layout = .x86_64 ∧
      Session.LaysBelow context ready Pair.callee Unit (0x8000 - 8 * (13 + 0 + 2))
        (Session.start context 0x500008 [0x700000, 0x700008] []) ∧
      Session.ChecksCapacity (Session.start context 0x500008 [0x700000, 0x700008] []) ready
        Pair.callee (0x8000 - 8 * (13 + 0 + 2)) :=
  have lays : Session.LaysBelow context ready Pair.callee Unit (0x8000 - 8 * (13 + 0 + 2))
      (Session.start context 0x500008 [0x700000, 0x700008] []) :=
    @Session.LaysBelow.start Unit context ready Pair.callee 0x500008 [0x700000, 0x700008] []
      rfl rfl rfl rfl rfl (by decide)
  ⟨rfl, lays, Session.checksCapacity_of_laysBelow rfl lays⟩

/-- A method that needs more words than there are is pushed on a small stack. -/
theorem not_checksExactly : ¬Session.ChecksExactly context := by
  intro exactly
  have lays : Session.LaysBelow context ready method Unit (0x8000 - 8 * (13 + 0 + 0))
      (Session.start context 0x500000 [] []) :=
    @Session.LaysBelow.start Unit context ready method 0x500000 [] [] rfl rfl rfl rfl rfl
      (by decide)
  have pushed : (Session.start context 0x500000 [] []).Leaves ready
      (·.manager.depth = ready.manager.depth + 1) := by
    unfold Operation.Leaves
    decide +kernel
  have fits := (exactly _ _ _ _ _ lays).pushes.mp pushed
  exact absurd fits (by unfold Stack.HasWords; decide +kernel)

end Boundless

end ManagedStack
