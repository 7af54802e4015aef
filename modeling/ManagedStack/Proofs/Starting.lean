import ManagedStack.Proofs.Expecting

namespace ManagedStack

/-!
# Starts that fail

A start lays an entry frame out and notes it before it lays out the first activation.
If the entry itself can not be laid out, nothing is noted, and the thread can be started
as if nothing had happened.  If it can and the activation can not, the entry stays noted
without anything below it, and from there no call leads anywhere.
-/

open Operation FrameManager

namespace Session

/-- Check a start, and lay its entry frame out. -/
def layOutEntry
    (context : ManagerContext τ)
    (methodWord : Word)
    (arguments handles : List Word) :
    Operation (Session τ) ProtocolError (Method × EntryRecord × Address) := do
  let manager ← readManager
  if !manager.initialized then
    Operation.fail .notInitialized
  if manager.entry.isSome then
    Operation.fail .alreadyStarted
  let callee ← method context methodWord
  if arguments.length ≠ callee.parameterSlots then
    Operation.fail (.argumentCount callee.parameterSlots arguments.length)
  let thread ← readThread
  let stack ← readStack
  let top := if thread.anchor.isEmpty then stack.base else thread.anchor.sp
  let entry : EntryRecord :=
    ⟨top.offset (-CallWrapper.sizeWords handles.length), thread.anchor⟩
  let fixed ← Operation.check context.env.layout.entryFixedWords
  let words ← Operation.check (fixed.plus (UInt64.ofNat callee.parameterSlots))
  let argumentTop ← Operation.check (entry.framePointer.below words)
  checkHeadroom argumentTop top
  onMachine <| Machine.onStack <|
    writeEntry context.env.layout entry.wrapper entry.framePointer argumentTop methodWord
      thread.anchor arguments handles
  return (callee, entry, argumentTop)

/-- Let an activation that was laid out begin. -/
def beginAt
    (context : ManagerContext τ)
    (index : Nat) :
    Operation (Session τ) ProtocolError Unit := do
  onWorkspace index (Workspace.resume .methodEntry)
  commit context index
  commitAnchor context
  setState .inJava

/-- A start notes the entry that it laid out, and enters its callee below. -/
theorem start_eq
    (context : ManagerContext τ)
    (methodWord : Word)
    (arguments handles : List Word) :
    start context methodWord arguments handles = (do
      let (callee, entry, argumentTop) ← layOutEntry context methodWord arguments handles
      updateManager fun manager => { manager with entry := some entry }
      let index ← pushActivation context callee argumentTop entry.framePointer
        context.entryPoints.callStubReturnPc none
      beginAt context index) := by
  simp only [start, layOutEntry, beginAt, writeEntry, EntryRecord.framePointer, bind_assoc,
    ite_bind, fail_bind, pure_bind]

/-- However it ends, the operation changes no more than the words of the stack. -/
def OnlyWrites (operation : Operation (Session τ) ε α) : Prop :=
  operation.Respects fun before after => after = before.withStack after.machine.stack

namespace OnlyWrites

theorem bind
    {first : Operation (Session τ) ε α}
    {next : α → Operation (Session τ) ε β}
    (firstOnly : OnlyWrites first)
    (nextOnly : ∀ value, OnlyWrites (next value)) :
    OnlyWrites (first >>= next) := by
  refine Respects.andThen ?_ firstOnly nextOnly
  intro a b c first second
  rw [second, first]
  rfl

theorem ite
    {condition : Prop}
    [Decidable condition]
    {yes no : Operation (Session τ) ε α}
    (yesOnly : OnlyWrites yes)
    (noOnly : OnlyWrites no) :
    OnlyWrites (if condition then yes else no) := by
  split <;> assumption

theorem inspect (look : Session τ → Probe ε α) : OnlyWrites (Operation.inspect look) :=
  fun _ => rfl

theorem onStack (operation : Operation Stack FrameError α) :
    OnlyWrites (onMachine (Machine.onStack operation) : Operation (Session τ) _ α) :=
  fun _ => rfl

theorem checkHeadroom (lowest top : Address) :
    OnlyWrites (Session.checkHeadroom lowest top : Operation (Session τ) _ _) :=
  .bind (inspect _) fun _ => .ite (inspect _) (inspect _)

theorem layOutEntry
    {context : ManagerContext τ}
    (methodWord : Word)
    (arguments handles : List Word) :
    OnlyWrites (Session.layOutEntry context methodWord arguments handles) := by
  simp only [Session.layOutEntry, fail_bind]
  refine .bind (inspect _) fun _ => .ite (inspect _) (.ite (inspect _) ?_)
  refine .bind (inspect _) fun _ => .ite (inspect _) (.bind (inspect _) fun _ => ?_)
  refine .bind (inspect _) fun _ => .bind (inspect _) fun _ => .bind (inspect _) fun _ => ?_
  exact .bind (inspect _) fun _ => .bind (checkHeadroom _ _) fun _ =>
    .bind (onStack _) fun _ => inspect _

end OnlyWrites

variable {context : ManagerContext τ} {before after entered laid : Session τ}
  {methodWord : Word} {arguments handles : List Word} {callee : Method}
  {entry : EntryRecord} {argumentTop : Address} {cause : ProtocolError}

/-- The session once an entry has been noted. -/
def withEntry
    (session : Session τ)
    (entry : EntryRecord) :
    Session τ :=
  { session with manager := { session.manager with entry := some entry } }

/-- A start fails where the entry is laid out, where the activation is, or where it begins. -/
theorem raises_start
    (raises : (start context methodWord arguments handles).Raises before cause after) :
    (layOutEntry context methodWord arguments handles).Raises before cause after ∨
      ∃ callee entry argumentTop entered,
        (layOutEntry context methodWord arguments handles).Gives before
            (callee, entry, argumentTop) entered ∧
          ((pushActivation context callee argumentTop entry.framePointer
              context.entryPoints.callStubReturnPc none).Raises (entered.withEntry entry) cause
              after ∨
            ∃ index laid, (pushActivation context callee argumentTop entry.framePointer
                context.entryPoints.callStubReturnPc none).Gives (entered.withEntry entry) index
                laid ∧
              (beginAt context index).Raises laid cause after) := by
  rw [start_eq] at raises
  rcases raises_bind.mp raises with stops | ⟨⟨callee, entry, argumentTop⟩, entered, lays, goesOn⟩
  · exact .inl stops
  refine .inr ⟨callee, entry, argumentTop, entered, lays, ?_⟩
  rcases raises_bind.mp goesOn with stops | ⟨_, _, notes, goesOn⟩
  · exact (raises_update stops).elim
  obtain rfl := gives_updateManager.mp notes
  rcases raises_bind.mp goesOn with stops | ⟨index, laid, pushes, begins⟩
  · exact .inl stops
  · exact .inr ⟨index, laid, pushes, begins⟩

/-- What an entry that was laid out tells of the session, and what it left there. -/
theorem gives_layOutEntry
    (gives : (layOutEntry context methodWord arguments handles).Gives before
      (callee, entry, argumentTop) entered) :
    before.manager.initialized = true ∧ before.manager.entry = none ∧
      context.env.methods.find? methodWord = some callee ∧
      arguments.length = callee.parameterSlots ∧
      entry.savedAnchor = before.machine.thread.anchor ∧
      ∃ stack, entered = before.withStack stack ∧
        (context.env.layout = .x86_64 → LaysEntry entry.wrapper argumentTop methodWord
          before.machine.thread.anchor arguments handles before.machine.stack stack) := by
  simp only [layOutEntry, gives_bind, gives_readManager, gives_method, gives_readThread,
    gives_readStack, gives_check, gives_checkHeadroom, gives_onMachine, Machine.gives_onStack,
    gives_pure, fail_bind, gives_guard, Prod.mk.injEq, and_assoc, exists_and_left,
    exists_eq_left, exists_const] at gives
  obtain ⟨initialized, noEntry, callee, found, counted, fixed, isFixed, words, isWords, top,
    isTop, -, -, _, _, ⟨_, ⟨stack, written, rfl⟩, rfl⟩, rfl, rfl, rfl, rfl⟩ := gives
  have sameCount : arguments.length = callee.parameterSlots := by simpa using counted
  refine ⟨by simpa using initialized, by simpa using noEntry, found, sameCount, rfl, stack, rfl,
    fun x86 => ?_⟩
  rw [x86] at isFixed written
  exact .of_start isFixed sameCount isWords isTop rfl written

section Fitting

/-- The arguments of a start end as many words below the entry frame, if these can be counted. -/
theorem exists_argumentTop
    (wrapper : Address)
    {count : Nat}
    (small : count < 0x2000000000000000) :
    ∃ words, Word.plus 6 (UInt64.ofNat count) = .ok words ∧
      (wrapper.offset (-2)).below words = .ok (wrapper.offset (-(8 + count : Nat))) := by
  have reading : (UInt64.ofNat count).toNat = count := by
    rw [UInt64.toNat_ofNat']
    omega
  have sixIs : (6 : Word).toNat = 6 := rfl
  have isWords : Word.plus 6 (UInt64.ofNat count) = .ok (6 + UInt64.ofNat count) :=
    Word.plus_of_fits (by rw [sixIs, reading]; change _ < 2 ^ 64; omega)
  have total := (Word.plus_eq_ok.mp isWords).2
  rw [sixIs, reading] at total
  refine ⟨_, isWords, ?_⟩
  rw [Word.below_of_small (by omega), Word.offset_offset, total]
  congr 2
  omega

/-- Arguments are written wherever the stack covers their places. -/
theorem exists_gives_writeArguments
    {top : Address}
    {arguments : List Word}
    {stack : Stack}
    (covers : ∀ index < arguments.length, stack.Covers (top.offset index)) :
    ∃ after, (writeArguments top arguments).Gives stack () after := by
  induction arguments generalizing stack with
  | nil => exact ⟨stack, gives_pure.mpr ⟨rfl, rfl⟩⟩
  | cons argument rest inductionHypothesis =>
      have others : ∀ index < rest.length,
          (stack.put (top.offset rest.length) argument).Covers (top.offset index) := by
        intro index inside
        rw [Stack.covers_put]
        exact covers index (Nat.lt_succ_of_lt inside)
      obtain ⟨after, written⟩ := inductionHypothesis others
      exact ⟨after, gives_bind.mpr ⟨(), _,
        Stack.gives_write.mpr ⟨covers rest.length (Nat.lt_succ_self _), rfl⟩, written⟩⟩

/-- There is room for a wrapper, an entry frame, the arguments and the callee. -/
structure HasRoomToStart
    (session : Session τ)
    (callee : Method)
    (arguments handles : List Word) :
    Prop where
  counted : arguments.length = callee.parameterSlots
  aligned : (startTop session.machine).toNat % 8 = 0
  inside : (startTop session.machine).toNat ≤ session.machine.stack.base.toNat
  room : session.machine.stack.limit.toNat + 8 * (13 + handles.length + callee.parameterSlots +
    (callee.maxLocals - callee.parameterSlots + 11 + callee.maxStack.toNat)) ≤
      (startTop session.machine).toNat

/-- There is room for a wrapper, an entry frame and the arguments. -/
structure HasRoomForEntry
    (session : Session τ)
    (callee : Method)
    (arguments handles : List Word) :
    Prop where
  counted : arguments.length = callee.parameterSlots
  aligned : (startTop session.machine).toNat % 8 = 0
  inside : (startTop session.machine).toNat ≤ session.machine.stack.base.toNat
  room : session.machine.stack.limit.toNat +
    8 * (13 + handles.length + callee.parameterSlots) ≤ (startTop session.machine).toNat

namespace HasRoomForEntry

variable (hasRoom : before.HasRoomForEntry callee arguments handles)
include hasRoom

/-- Where a word of the entry is. -/
theorem toNat_offset
    {words : Nat}
    (few : words ≤ 13 + handles.length + callee.parameterSlots) :
    ((startTop before.machine).offset (-words)).toNat =
      (startTop before.machine).toNat - 8 * words := by
  have room := hasRoom.room
  have small := (startTop before.machine).toNat_lt
  exact Word.toNat_offset_of_fits (by omega) (by omega)

/-- The stack covers the places of the entry. -/
theorem covers
    {words : Nat}
    (some : 0 < words)
    (few : words ≤ 13 + handles.length + callee.parameterSlots) :
    before.machine.stack.Covers ((startTop before.machine).offset (-words)) := by
  have place := hasRoom.toNat_offset few
  have aligned := hasRoom.aligned
  have inside := hasRoom.inside
  have room := hasRoom.room
  refine ⟨?_, ?_, ?_⟩ <;> omega

/--
The words of the entry are written.  There are four runs of writes, each on a stack
that covers what the first one did.
-/
theorem exists_gives_writeEntry
    {wrapper : Address}
    (isWrapper : wrapper = (startTop before.machine).offset (-(5 + handles.length : Nat)))
    (methodWord : Word)
    (anchor : FrameAnchor) :
    ∃ stack, (writeEntry .x86_64 wrapper (wrapper.offset (-2))
      (wrapper.offset (-(8 + callee.parameterSlots : Nat))) methodWord anchor arguments
        handles).Gives before.machine.stack () stack := by
  have counted := hasRoom.counted
  have around (words : Int)
      (above : -(8 + callee.parameterSlots : Nat) ≤ words)
      (below : words ≤ 4 + handles.length) :
      before.machine.stack.Covers (wrapper.offset words) := by
    have covers := hasRoom.covers (by omega : 0 < (5 + handles.length - words).toNat) (by omega)
    rw [isWrapper, Word.offset_offset]
    rwa [show (-((5 + handles.length - words).toNat : Int)) =
      -(5 + handles.length : Nat) + words by omega] at covers
  obtain ⟨recorded, records⟩ : ∃ recorded, (Stack.writeEach (record wrapper methodWord anchor
      handles.length)).Gives before.machine.stack () recorded := by
    refine Stack.exists_gives_writeEach fun pair inside => ?_
    obtain ⟨distance, above, below, isPlace⟩ := distance_of_record inside
    rw [isPlace]
    exact around distance (by omega) (by omega)
  have keepsRecorded := (Stack.writes_writeEach _ _ _ _ records).2
  obtain ⟨filled, fills⟩ : ∃ filled,
      (Stack.writeAll (wrapper.offset 5) handles).Gives recorded () filled := by
    refine Stack.exists_gives_writeAll fun index inside => keepsRecorded.covers_iff.mpr ?_
    rw [Word.offset_offset]
    exact around _ (by omega) (by omega)
  have keepsFilled := (Stack.writes_writeAll _ _ _ _ _ fills).2
  obtain ⟨framed, frames⟩ : ∃ framed,
      (Stack.writeEach (entryFields wrapper)).Gives filled () framed := by
    refine Stack.exists_gives_writeEach fun pair inside =>
      keepsFilled.covers_iff.mpr (keepsRecorded.covers_iff.mpr ?_)
    obtain ⟨distance, isDistance, isPlace⟩ := distance_of_entryFields inside
    rw [isPlace]
    exact around distance (by omega) (by omega)
  have keepsFramed := (Stack.writes_writeEach _ _ _ _ frames).2
  obtain ⟨passed, passes⟩ : ∃ passed, (writeArguments
      (wrapper.offset (-(8 + callee.parameterSlots : Nat))) arguments).Gives framed () passed := by
    refine exists_gives_writeArguments fun index inside => keepsFramed.covers_iff.mpr
      (keepsFilled.covers_iff.mpr (keepsRecorded.covers_iff.mpr ?_))
    rw [Word.offset_offset]
    exact around _ (by omega) (by omega)
  rw [writeEntry_eq]
  exact ⟨passed, gives_bind.mpr ⟨(), recorded, records, gives_bind.mpr ⟨(), filled, fills,
    gives_bind.mpr ⟨(), framed, frames, passes⟩⟩⟩⟩

/-- The entry is laid out, and the words below the arguments are left alone. -/
theorem exists_gives_layOutEntry
    (x86 : context.env.layout = .x86_64)
    (initialized : before.manager.initialized = true)
    (noEntry : before.manager.entry = none)
    (found : context.env.methods.find? methodWord = some callee) :
    ∃ entry argumentTop stack,
      (layOutEntry context methodWord arguments handles).Gives before
          (callee, entry, argumentTop) (before.withStack stack) ∧
        argumentTop.toNat + 8 * (13 + handles.length + callee.parameterSlots) =
          (startTop before.machine).toNat ∧
        stack.Covers argumentTop ∧
        Stack.Keeps (· < argumentTop.toNat) before.machine.stack stack := by
  have counted := hasRoom.counted
  have room := hasRoom.room
  have topSmall := (startTop before.machine).toNat_lt
  have place := hasRoom.toNat_offset (Nat.le_refl _)
  obtain ⟨wrapper, isWrapper⟩ : ∃ wrapper, (startTop before.machine).offset
      (-(5 + handles.length : Nat)) = wrapper := ⟨_, rfl⟩
  have isTop : wrapper.offset (-(8 + callee.parameterSlots : Nat)) =
      (startTop before.machine).offset
        (-(13 + handles.length + callee.parameterSlots : Nat)) := by
    rw [← isWrapper, Word.offset_offset]
    congr 1
    omega
  rw [← isTop] at place
  obtain ⟨words, isWords, lowered⟩ := exists_argumentTop wrapper
    (by omega : callee.parameterSlots < 0x2000000000000000)
  obtain ⟨stack, writes⟩ := hasRoom.exists_gives_writeEntry isWrapper.symm methodWord
    before.machine.thread.anchor
  have gives : (layOutEntry context methodWord arguments handles).Gives before
      (callee, ⟨wrapper, before.machine.thread.anchor⟩,
        wrapper.offset (-(8 + callee.parameterSlots : Nat))) (before.withStack stack) := by
    simp only [layOutEntry, gives_bind, gives_readManager, gives_method, gives_readThread,
      gives_readStack, gives_check, gives_checkHeadroom, gives_onMachine,
      Machine.gives_onStack, gives_pure, fail_bind, gives_guard, and_assoc, exists_and_left,
      exists_eq_left, exists_const, x86]
    subst isWrapper
    exact ⟨by simp [initialized], by simp [noEntry], callee, found, not_not_intro counted, 6,
      rfl, words, isWords, _, lowered, by omega, by change _ ≤ (startTop _).toNat; omega, (), _,
      ⟨_, ⟨stack, writes, rfl⟩, rfl⟩, rfl, rfl⟩
  obtain ⟨-, -, -, -, -, _, same, lays⟩ := gives_layOutEntry gives
  obtain rfl := congrArg (·.machine.stack) same
  obtain ⟨-, covers, -⟩ := stands_of_entry (lays x86)
  exact ⟨_, _, _, gives, by omega, covers,
    (keepsOutside_of_entry (lays x86)).mono fun _ => .inr⟩

end HasRoomForEntry

/-- What has room to start has room for its entry. -/
theorem HasRoomToStart.forEntry
    (hasRoom : before.HasRoomToStart callee arguments handles) :
    before.HasRoomForEntry callee arguments handles where
  counted := hasRoom.counted
  aligned := hasRoom.aligned
  inside := hasRoom.inside
  room := by
    have room := hasRoom.room
    omega

/-- The entry is laid out, and the callee fits below it. -/
theorem HasRoomToStart.exists_gives_layOutEntry
    (hasRoom : before.HasRoomToStart callee arguments handles)
    (x86 : context.env.layout = .x86_64)
    (initialized : before.manager.initialized = true)
    (noEntry : before.manager.entry = none)
    (found : context.env.methods.find? methodWord = some callee) :
    ∃ entry argumentTop entered,
      (layOutEntry context methodWord arguments handles).Gives before
          (callee, entry, argumentTop) entered ∧
        Fits entered.machine.stack callee argumentTop := by
  have room := hasRoom.room
  have inside := hasRoom.inside
  obtain ⟨entry, argumentTop, stack, gives, place, covers, keeps⟩ :=
    hasRoom.forEntry.exists_gives_layOutEntry x86 initialized noEntry found
  refine ⟨entry, argumentTop, _, gives, covers, ?_, ?_⟩
  · change _ ≤ stack.base.toNat
    rw [keeps.base]
    omega
  · change stack.limit.toNat + _ ≤ _
    rw [keeps.limit]
    omega

/-- An activation that was just laid out begins. -/
theorem exists_gives_beginAt
    {index : Nat}
    {fresh : Activation}
    (x86 : context.env.layout = .x86_64)
    (interpreter : context.env.code.interpreterContains
      context.entryPoints.interpreterReturnPc = true)
    (found : laid.manager.activation? index = some fresh)
    (untouched : fresh.Untouched laid.machine.stack) :
    ∃ after, (beginAt context index).Gives laid () after := by
  have accepts : fresh.accepts .methodEntry = true := by
    simp [Activation.accepts, untouched.message]
  have worked : Workspace.Worked ⟨fresh, laid.machine.stack⟩
      ⟨resumed fresh .methodEntry, laid.machine.stack⟩ :=
    Workspace.worked_resumed rfl
  obtain ⟨committed, commits⟩ : ∃ committed, (commit context index).Gives
      (laid.withWorkspace index ⟨resumed fresh .methodEntry, laid.machine.stack⟩) () committed :=
    exists_gives_commit_of_zero x86 interpreter (activation?_withActivation found _)
      (worked.sits untouched.sits) untouched.unprofiled
  exact ⟨_, gives_bind.mpr ⟨(), _, gives_onWorkspace.mpr ⟨fresh, _, found,
    Workspace.resume_of_accepts rfl accepts, rfl⟩, gives_bind.mpr ⟨(), committed, commits,
      gives_bind.mpr ⟨(), _, gives_commitAnchor.mpr rfl, gives_setState.mpr rfl⟩⟩⟩⟩

/-- So does one that was laid out below its arguments. -/
theorem exists_gives_beginAt_of_pushed
    {index : Nat}
    {callerFp returnPc : Address}
    {link : Option Nat}
    (x86 : context.env.layout = .x86_64)
    (interpreter : context.env.code.interpreterContains
      context.entryPoints.interpreterReturnPc = true)
    (pushes : (pushActivation context callee argumentTop callerFp returnPc link).Gives entered
      index laid)
    (covers : entered.machine.stack.Covers argumentTop)
    (arguments : argumentTop.toNat + 8 * callee.parameterSlots ≤
      entered.machine.stack.base.toNat) :
    ∃ after, (beginAt context index).Gives laid () after := by
  obtain ⟨_, fresh, rfl, managed, laysOut, shaped⟩ :=
    laysOut_of_pushActivation x86 pushes covers arguments
  have stands : laid.manager.activations =
      entered.manager.activations.push ⟨fresh, callee.parameterSlots⟩ := by
    rw [managed]
  exact exists_gives_beginAt x86 interpreter (activation?_of_push stands)
    (laysOut.untouched shaped)

/-- What has room to start, starts. -/
theorem exists_gives_start
    (x86 : context.env.layout = .x86_64)
    (interpreter : context.env.code.interpreterContains
      context.entryPoints.interpreterReturnPc = true)
    (initialized : before.manager.initialized = true)
    (noEntry : before.manager.entry = none)
    (found : context.env.methods.find? methodWord = some callee)
    (hasRoom : before.HasRoomToStart callee arguments handles) :
    ∃ after, (start context methodWord arguments handles).Gives before () after := by
  obtain ⟨entry, argumentTop, entered, lays, fits⟩ :=
    hasRoom.exists_gives_layOutEntry x86 initialized noEntry found
  have noted : (updateManager fun manager => { manager with entry := some entry } :
      Operation (Session τ) ProtocolError Unit).Gives entered () (entered.withEntry entry) :=
    gives_updateManager.mpr rfl
  have fitsNoted : Fits (entered.withEntry entry).machine.stack callee argumentTop := fits
  obtain ⟨laid, pushes⟩ := fitsNoted.admits.exists_gives_pushActivation x86 entry.framePointer
    context.entryPoints.callStubReturnPc none
  obtain ⟨after, begins⟩ :=
    exists_gives_beginAt_of_pushed x86 interpreter pushes fits.covers fits.arguments
  rw [start_eq]
  exact ⟨after, gives_bind.mpr ⟨_, entered, lays, gives_bind.mpr ⟨(), _, noted,
    gives_bind.mpr ⟨_, laid, pushes, begins⟩⟩⟩⟩

end Fitting

section Failing

/-- An entry has been noted, and there is nothing below it and nothing to wait for. -/
structure Vacant (session : Session τ) : Prop where
  initialized : session.manager.initialized = true
  entered : session.manager.entry.isSome = true
  empty : session.manager.activations = #[]
  answered : session.manager.pendingOsr = none

/-- From a vacant session no calls lead anywhere. -/
theorem Vacant.afterAll
    {session : Session τ}
    (vacant : session.Vacant)
    (calls : List (Call τ)) :
    Call.afterAll context calls session = session := by
  refine Call.afterAll_of_still (fun call => ?_) calls
  have depth : session.manager.depth = 0 := by rw [FrameManager.depth, vacant.empty]; rfl
  cases call with
  | setUp engine =>
      exact leaves_bind_of_gives (gives_setUp_of_initialized vacant.initialized engine) rfl
  | start method arguments handles =>
      exact (Declines.of_raises (raises_start_of_entered vacant.initialized vacant.entered method
        arguments handles)).bind.2
  | step engine =>
      exact (Declines.of_raises (raises_step_of_empty vacant.initialized depth engine)).bind.2
  | completeOsr kind value =>
      exact (Declines.of_raises (raises_completeOsr_of_nothing vacant.answered kind value)).bind.2
  | pushDeoptimized image =>
      refine (declines_pushDeoptimized_of_not_admitted fun _ rest held _ admitted => ?_).bind.2
      have stands := admitted.stands
      rw [vacant.empty] at stands
      cases rest
      simp at stands

/-- An activation that was laid out does not begin if it can not be published. -/
theorem raises_beginAt
    {index : Nat}
    {fresh : Activation}
    (found : laid.manager.activation? index = some fresh)
    (message : fresh.message = .noRequest)
    (raises : (beginAt context index).Raises laid cause after) :
    ∃ workspace, after = laid.withWorkspace index workspace := by
  have accepts : fresh.accepts .methodEntry = true := by
    simp [Activation.accepts, message]
  have resumes : (onWorkspace index (Workspace.resume .methodEntry)).Gives laid ()
      (laid.withWorkspace index ⟨resumed fresh .methodEntry, laid.machine.stack⟩) :=
    gives_onWorkspace.mpr ⟨fresh, _, found, Workspace.resume_of_accepts rfl accepts, rfl⟩
  rcases raises_bind.mp raises with stops | ⟨_, _, resumesAlso, publishes⟩
  · exact (resumes.not_raises stops).elim
  obtain ⟨-, rfl⟩ := And.intro (resumes.1.symm.trans resumesAlso.1) (resumes.2.symm.trans
    resumesAlso.2)
  rcases raises_bind.mp publishes with stops | ⟨_, _, -, anchors⟩
  · obtain ⟨workspace, rfl⟩ := Localized.commit.of_raises stops _
      (activation?_withActivation found _)
    exact ⟨workspace, withWorkspace_withWorkspace ..⟩
  rcases raises_bind.mp anchors with stops | ⟨_, _, -, runs⟩
  · rcases raises_bind.mp stops with ⟨⟨⟩, -⟩ | ⟨_, _, -, updates⟩
    split at updates <;> exact (raises_update updates).elim
  · exact (raises_update runs).elim

/-- If it does not begin, it stays, and all else but words of the stack is as before. -/
theorem laid_of_raises_beginAt
    {index : Nat}
    {callerFp returnPc : Address}
    {link : Option Nat}
    (pushes : (pushActivation context callee argumentTop callerFp returnPc link).Gives entered
      index laid)
    (raises : (beginAt context index).Raises laid cause after) :
    ∃ held stack, after = { entered.withStack stack with
      manager := { entered.manager with
        activations := entered.manager.activations.push held } } := by
  obtain ⟨_, written, fresh, -, -, -, -, shaped, rfl, isLaid⟩ := gives_pushActivation pushes
  have stands : laid.manager.activations =
      entered.manager.activations.push ⟨fresh, callee.parameterSlots⟩ := by
    rw [isLaid]
  have message : fresh.message = .noRequest := by
    obtain ⟨_, _, -, shape⟩ := Activation.ofShape_eq_ok shaped
    rw [shape]
  obtain ⟨workspace, rfl⟩ := raises_beginAt (activation?_of_push stands) message raises
  refine ⟨⟨workspace.activation, callee.parameterSlots⟩, workspace.stack, ?_⟩
  have changed := withActivation_of_push stands workspace.activation
  subst isLaid
  exact congrArg (fun manager => { entered.withStack workspace.stack with manager := manager })
    changed

/-- A start is possible wherever there is room for it. -/
def Startable
    (context : ManagerContext τ)
    (session : Session τ) :
    Prop :=
  ∀ methodWord callee arguments handles, context.env.methods.find? methodWord = some callee →
    session.HasRoomToStart callee arguments handles →
      ∃ last, (start context methodWord arguments handles).Gives session () last

/-- The ways in which a start fails, and what each of them leaves. -/
inductive FailsToStart
    (context : ManagerContext τ)
    (methodWord : Word)
    (arguments handles : List Word)
    (cause : ProtocolError)
    (before : Session τ) :
    Session τ → Prop where
  /-- The entry was not laid out, and nothing is noted of it. -/
  | unentered
      {stack : Stack}
      (refuses : (layOutEntry context methodWord arguments handles).Raises before cause
        (before.withStack stack))
      (startable : context.env.layout = .x86_64 →
        context.env.code.interpreterContains context.entryPoints.interpreterReturnPc = true →
          before.manager.initialized = true → before.manager.entry = none →
            Startable context (before.withStack stack)) :
      FailsToStart context methodWord arguments handles cause before (before.withStack stack)
  /-- The entry was laid out and noted, and there is no room for the callee below it. -/
  | unplaced
      {callee : Method}
      {entry : EntryRecord}
      {argumentTop : Address}
      {entered : Session τ}
      {stack : Stack}
      (laysEntry : (layOutEntry context methodWord arguments handles).Gives before
        (callee, entry, argumentTop) entered)
      (overfull : context.env.layout = .x86_64 → ¬Fits entered.machine.stack callee argumentTop)
      (stuck : Reached context before → ∀ calls,
        Call.afterAll context calls ((before.withStack stack).withEntry entry) =
          (before.withStack stack).withEntry entry)
      (closed : ∀ otherWord others refs, (start context otherWord others refs).Raises
        ((before.withStack stack).withEntry entry) .alreadyStarted
          ((before.withStack stack).withEntry entry)) :
      FailsToStart context methodWord arguments handles cause before
        ((before.withStack stack).withEntry entry)
  /-- The callee was laid out as well, and can not be published as interpreted. -/
  | unpublished
      {entry : EntryRecord}
      {held : HeldActivation}
      {stack : Stack}
      {after : Session τ}
      (isAfter : after = { before.withStack stack with
        manager := { before.manager with
          activations := before.manager.activations.push held
          entry := some entry } })
      (unknown : context.env.layout = .x86_64 → context.env.code.interpreterContains
        context.entryPoints.interpreterReturnPc = false)
      (closed : ∀ otherWord others refs,
        (start context otherWord others refs).Raises after .alreadyStarted after) :
      FailsToStart context methodWord arguments handles cause before after

/-- A start that fails leaves the thread as it was, and notes an entry if it laid one out. -/
theorem failsToStart_of_raises
    (raises : (start context methodWord arguments handles).Raises before cause after) :
    FailsToStart context methodWord arguments handles cause before after := by
  rcases raises_start raises with stops | ⟨callee, entry, argumentTop, entered, lays, goesOn⟩
  · have isAfter := (OnlyWrites.layOutEntry methodWord arguments handles).of_raises stops
    rw [isAfter] at stops ⊢
    refine .unentered stops fun x86 interpreter initialized noEntry => ?_
    intro _ _ _ _ found hasRoom
    exact exists_gives_start x86 interpreter initialized noEntry found hasRoom
  obtain ⟨initialized, noEntry, found, counted, -, stack, rfl, isEntry⟩ := gives_layOutEntry lays
  rcases goesOn with stops | ⟨index, laid, pushes, begins⟩
  · obtain ⟨written, rfl⟩ := exists_of_raises_pushActivation stops
    change FailsToStart context methodWord arguments handles cause before
      ((before.withStack written).withEntry entry)
    refine .unplaced lays (fun x86 fits => ?_) (fun reached => ?_)
      (raises_start_of_entered initialized rfl)
    · have fitsNoted : Fits ((before.withStack stack).withEntry entry).machine.stack callee
          argumentTop := fits
      obtain ⟨_, gives⟩ := fitsNoted.admits.exists_gives_pushActivation x86 entry.framePointer
        context.entryPoints.callStubReturnPc none
      exact gives.not_raises stops
    · obtain ⟨empty, nothing⟩ := reached.followsProtocol.nothing_of_noEntry noEntry
      exact Vacant.afterAll ⟨initialized, rfl, empty, nothing⟩
  · have unknown (x86 : context.env.layout = .x86_64) : context.env.code.interpreterContains
        context.entryPoints.interpreterReturnPc = false := by
      rw [Bool.eq_false_iff]
      intro interpreter
      obtain ⟨stood, covers, place⟩ := stands_of_entry (isEntry x86)
      obtain ⟨_, -, above, -⟩ := stood.handles
      have framePlace := stood.toNat_framePointer
      simp only [EntryRecord.floor] at place above framePlace
      obtain ⟨_, gives⟩ := exists_gives_beginAt_of_pushed x86 interpreter pushes covers
        (by change _ ≤ stack.base.toNat; omega)
      exact gives.not_raises begins
    obtain ⟨held, written, rfl⟩ := laid_of_raises_beginAt pushes begins
    exact .unpublished rfl unknown (raises_start_of_entered initialized rfl)

end Failing

end Session

/-- A start that fails leaves nothing behind that a later one could meet. -/
def Session.StartsCleanly (context : ManagerContext τ) : Prop :=
  ∀ before methodWord arguments handles cause after, Reached context before →
    before.manager.initialized = true → before.manager.entry = none →
      (start context methodWord arguments handles).Raises before cause after →
        after.manager.entry = none ∧ after.manager.depth = before.manager.depth ∧
          after.machine.thread.anchor = before.machine.thread.anchor ∧
          after.machine.thread.state = before.machine.thread.state ∧ Startable context after

/-!
A stack with room for an entry frame, and not for an activation below it.
-/

namespace Tight

def fresh : Session Unit :=
  { Pair.fresh with
    machine := { Pair.fresh.machine with
      stack := {
        base := 0x8000
        words := Array.replicate 16 0
        base_aligned := Stack.aligned_8000
        fits := by rw [Array.size_replicate]; decide
        allocated := by rw [Array.size_replicate]; decide
      } } }

theorem ran : (Call.runAll? Pair.context [.setUp Pair.idle] fresh).isSome = true := by
  decide +kernel

/-- The session in which the engine has been set up. -/
def ready : Session Unit :=
  (Call.runAll? Pair.context [.setUp Pair.idle] fresh).get ran

theorem reached_ready : Reached Pair.context ready :=
  (Reached.fresh rfl).of_runAll?
    (by simpa only [List.mem_singleton, forall_eq, Call.Acts] using .probe _)
    (Option.some_get ran).symm

/-- The session that the start leaves. -/
def failed : Session Unit :=
  (Session.start Pair.context 0x500000 [] [] ready).2

theorem raises_start :
    (Session.start Pair.context 0x500000 [] []).Raises ready (.stackOverflow 0x7f28 0x7f80)
      failed :=
  ⟨by decide +kernel, rfl⟩

/-- The start fails with its entry noted. -/
theorem failsToStart_overfull :
    (Session.start Pair.context 0x500000 [] []).Raises ready (.stackOverflow 0x7f28 0x7f80)
        failed ∧
      Session.FailsToStart Pair.context 0x500000 [] [] (.stackOverflow 0x7f28 0x7f80) ready
        failed :=
  ⟨raises_start, Session.failsToStart_of_raises raises_start⟩

theorem not_startsCleanly : ¬Session.StartsCleanly Pair.context := by
  intro cleanly
  have noEntry := (cleanly _ _ _ _ _ _ reached_ready (by decide +kernel) (by decide +kernel)
    raises_start).1
  exact absurd noEntry (by decide +kernel)

end Tight

end ManagedStack
