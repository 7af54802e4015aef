import ManagedStack.Deoptimization
import ManagedStack.Proofs.CodeSpace
import ManagedStack.Proofs.OwnWords
import ManagedStack.Proofs.Runs

namespace ManagedStack

/-!
# Redirected frames

A request that redirects a frame writes one stack word and adds one record.  The word
is a handler of the unit that the frame runs in.  Whoever steps to the frame
afterwards finds the handler and looks the frame up in the records, under the unit
and the unextended stack pointer.  The unextended stack pointer itself depends on the
address that is found, so a frame at a method-handle return has a handler of its own:
with the right one of the two, the record is found and the frame is seen where it
was.
-/

open Operation

/-- To forget a frame is to know the others still. -/
theorem DeoptRecords.displacedPc?_forget_of_ne
    (records : DeoptRecords)
    {unitStart frameId otherStart otherId : Address}
    (different : ¬(unitStart = otherStart ∧ frameId = otherId)) :
    (records.forget unitStart frameId).displacedPc? otherStart otherId =
      records.displacedPc? otherStart otherId := by
  simp only [displacedPc?, forget, List.find?_filter]
  congr 2
  funext entry
  cases about : isAbout otherStart otherId entry with
  | false => simp
  | true =>
    simp only [isAbout, Bool.and_eq_true, beq_iff_eq] at about
    have elsewhere : isAbout unitStart frameId entry = false := by
      rw [Bool.eq_false_iff]
      simp only [isAbout, ne_eq, Bool.and_eq_true, beq_iff_eq]
      rintro ⟨sameStart, sameId⟩
      exact different ⟨sameStart.symm.trans about.1, sameId.symm.trans about.2⟩
    simp [elsewhere]

/-- A record says nothing about other frames. -/
theorem DeoptRecords.displacedPc?_record_of_ne
    (records : DeoptRecords)
    {unitStart frameId pc otherStart otherId : Address}
    (different : ¬(unitStart = otherStart ∧ frameId = otherId)) :
    (records.record unitStart frameId pc).displacedPc? otherStart otherId =
      records.displacedPc? otherStart otherId := by
  have unheard : isAbout otherStart otherId ⟨unitStart, frameId, pc⟩ = false := by
    simpa [isAbout] using different
  rw [← displacedPc?_forget_of_ne records different]
  simp only [displacedPc?, record, List.find?_cons, unheard]

namespace CompiledUnit

variable {compiled : CompiledUnit} {pc : Address}

theorem isDeoptPc_handlerFor : compiled.isDeoptPc (compiled.handlerFor pc) = true := by
  unfold handlerFor isDeoptPc
  split <;> simp

theorem handlerFor_mem_namedPcs : compiled.handlerFor pc ∈ compiled.namedPcs := by
  unfold handlerFor namedPcs
  split <;> simp

/-- Whether the unextended stack pointer of a frame at an address is taken from fp. -/
def takesFp
    (compiled : CompiledUnit)
    (pc : Address) :
    Bool :=
  pc = compiled.methodHandleDeoptHandler || compiled.isMethodHandleReturn pc

/-- The handler of an address that is none itself takes the same stack pointer. -/
theorem takesFp_handlerFor
    (unambiguous : compiled.ambiguousPc? = none)
    (elsewhere : compiled.isDeoptPc pc = false) :
    compiled.takesFp (compiled.handlerFor pc) = compiled.takesFp pc := by
  have clear : compiled.isAmbiguous compiled.deoptHandler = false := by
    have none := List.find?_eq_none.mp unambiguous compiled.deoptHandler
      (by simp [namedPcs])
    simpa using none
  unfold isDeoptPc at elsewhere
  unfold isAmbiguous at clear
  unfold takesFp handlerFor
  by_cases returns : compiled.isMethodHandleReturn pc = true
  · simp [returns]
  · have handler : compiled.deoptHandler ≠ compiled.methodHandleDeoptHandler ∧
        compiled.isMethodHandleReturn compiled.deoptHandler = false := by
      cases same : compiled.deoptHandler == compiled.methodHandleDeoptHandler <;>
        cases other : compiled.isMethodHandleReturn compiled.deoptHandler <;>
          simp_all
    simp_all

end CompiledUnit

namespace CodeCache.Ordered

variable {cache : CodeCache} {pc : Address} {blob : Blob} {compiled : CompiledUnit}

/-- The handlers of a unit lie in its blob. -/
theorem find?_handlerFor
    (ordered : cache.Ordered)
    (runsIn : cache.find? pc = some blob)
    (unit : blob.compiled? = some compiled)
    (other : Address) :
    cache.find? (compiled.handlerFor other) = some blob := by
  have wellFormed := ordered.wellFormed blob (CodeCache.mem_of_find? runsIn).1
  have isCompiled : blob.kind = .compiled compiled := by
    unfold Blob.compiled? at unit
    split at unit <;> simp_all
  refine ordered.find?_eq runsIn (wellFormed.named _ ?_)
  simp only [Blob.namedPcs, isCompiled]
  exact CompiledUnit.handlerFor_mem_namedPcs

/-- The addresses that a unit in the code space names can be told apart. -/
theorem unambiguous
    (ordered : cache.Ordered)
    (runsIn : cache.find? pc = some blob)
    (unit : blob.compiled? = some compiled) :
    compiled.ambiguousPc? = none := by
  have wellFormed := ordered.wellFormed blob (CodeCache.mem_of_find? runsIn).1
  simpa [unit] using wellFormed.unambiguous

end CodeCache.Ordered

/-- The machine after its thread was marked for a frame. -/
def Machine.markedFor
    (machine : Machine)
    (id : Address) :
    Machine :=
  { machine with thread := { machine.thread with
      mustDeoptId := id
      deoptSuspended := true } }

namespace Frame

/-- The frame runs in a compiled unit and has not been redirected. -/
structure Redirectable
    (frame : Frame)
    (blob : Blob)
    (compiled : CompiledUnit) :
    Prop where
  kind : frame.kind = .compiled
  state : frame.deoptState ≠ .deoptimized
  runsIn : frame.blob = some blob
  unit : blob.compiled? = some compiled

/-- Where the address lies that the callee of a frame returns to. -/
def returnSlot (frame : Frame) : Address :=
  frame.sp.offset (-1)

/-- The machine after a frame of a blob was redirected to a handler. -/
def redirection
    (frame : Frame)
    (blob : Blob)
    (handler : Address)
    (machine : Machine) :
    Machine :=
  { machine with
    stack := machine.stack.put frame.returnSlot handler
    records := machine.records.record blob.start frame.id frame.pc }

theorem stack_redirection
    (frame : Frame)
    (blob : Blob)
    (handler : Address)
    (machine : Machine) :
    (frame.redirection blob handler machine).stack =
      machine.stack.put frame.returnSlot handler := by
  simp only [redirection]

section Requests

variable {frame seen : Frame} {env : Env} {before after : Machine}
  {request : DeoptRequest} {outcome : DeoptOutcome} {blob : Blob}
  {compiled : CompiledUnit} {handler : Address}

/-- Patching writes the word that the callee returns to, and nothing else. -/
theorem gives_patchPc :
    (frame.patchPc env handler).Gives before seen after ↔
      before.stack.Covers frame.returnSlot ∧
        after = { before with
          stack := before.stack.put frame.returnSlot handler } ∧
        seen = frame.repointed (after.view env) handler := by
  unfold patchPc
  simp only [gives_bind, gives_ite, Machine.gives_look, Machine.gives_write,
    gives_report, Probe.gives_pure, Stack.gives_read]
  constructor
  · rintro (⟨-, _, _, ⟨-, rfl⟩, _, _, rfl, _, _, ⟨covers, rfl⟩, rfl, rfl⟩ |
      ⟨-, _, _, ⟨covers, rfl⟩, rfl, rfl⟩)
    · exact ⟨covers, rfl, rfl⟩
    · exact ⟨covers, rfl, rfl⟩
  · rintro ⟨covers, rfl, rfl⟩
    by_cases traces : env.diagnostics.tracePcPatching = true
    · obtain ⟨word, holds⟩ := Stack.exists_holds covers
      exact .inl ⟨traces, word, before, ⟨holds, rfl⟩, (), before, rfl, (), _,
        ⟨covers, rfl⟩, rfl, rfl⟩
    · exact .inr ⟨traces, (), _, ⟨covers, rfl⟩, rfl, rfl⟩

theorem gives_redirect :
    (frame.redirect env blob compiled).Gives before (outcome, seen) after ↔
      outcome = .patched (compiled.handlerFor frame.pc) ∧
        before.stack.Covers frame.returnSlot ∧
        after = frame.redirection blob (compiled.handlerFor frame.pc) before ∧
        seen = frame.repointed (after.view env) (compiled.handlerFor frame.pc) := by
  unfold redirect
  simp only [Machine.updateRecords, gives_bind, gives_update, gives_pure,
    exists_eq_left, exists_const, Prod.mk.injEq, gives_patchPc]
  constructor
  · rintro ⟨_, _, ⟨covers, rfl, rfl⟩, ⟨rfl, rfl⟩, rfl⟩
    exact ⟨rfl, covers, rfl, rfl⟩
  · rintro ⟨rfl, covers, rfl, rfl⟩
    exact ⟨_, _, ⟨covers, rfl, rfl⟩, ⟨rfl, rfl⟩, rfl⟩

/-- A request finds a frame that its unit allows to redirect. -/
structure Eligible
    (frame : Frame)
    (blob : Blob)
    (compiled : CompiledUnit) :
    Prop extends frame.Redirectable blob compiled where
  deoptimizable : frame.canBeDeoptimized = true

/-- The answers of a request, with the view and the machine that it leaves. -/
inductive Answers
    (env : Env)
    (request : DeoptRequest)
    (frame : Frame)
    (before : Machine) :
    DeoptOutcome → Frame → Machine → Prop where
  | already
      (kind : frame.kind = .compiled)
      (state : frame.deoptState = .deoptimized) :
      Answers env request frame before .alreadyDeoptimized frame before
  | pending
      {blob : Blob}
      {compiled : CompiledUnit}
      (eligible : frame.Eligible blob compiled)
      (remote : (request.needsSuspend && !request.byOwner) = true)
      (active : request.safepoint.active = true)
      (marked : (before.thread.deoptSuspended &&
        before.thread.mustDeoptId == frame.id) = true) :
      Answers env request frame before .alreadyPending frame before
  | deferred
      {blob : Blob}
      {compiled : CompiledUnit}
      (eligible : frame.Eligible blob compiled)
      (remote : (request.needsSuspend && !request.byOwner) = true)
      (active : request.safepoint.active = true)
      (unmarked : ¬(before.thread.deoptSuspended &&
        before.thread.mustDeoptId == frame.id) = true)
      (returns : (frame.isReturnedToFromNative (before.view env) before.thread
        request.safepoint).Gives true) :
      Answers env request frame before .deferred frame (before.markedFor frame.id)
  | redirected
      {blob : Blob}
      {compiled : CompiledUnit}
      {handler : Address}
      {seen : Frame}
      {after : Machine}
      (eligible : frame.Eligible blob compiled)
      (allowed : (request.needsSuspend && !request.byOwner) = true →
        request.safepoint.active = true ∧
          ¬(before.thread.deoptSuspended &&
            before.thread.mustDeoptId == frame.id) = true ∧
          (frame.isReturnedToFromNative (before.view env) before.thread
            request.safepoint).Gives false)
      (redirects : (frame.redirect env blob compiled).Gives before
        (.patched handler, seen) after) :
      Answers env request frame before (.patched handler) seen after

/-- What comes of a request once the frame may be redirected at all. -/
theorem Eligible.gives_deoptimize
    (eligible : frame.Eligible blob compiled) :
    (frame.deoptimize env request).Gives before (outcome, seen) after ↔
      (request.needsSuspend && !request.byOwner) = true ∧
          request.safepoint.active = true ∧
          ((before.thread.deoptSuspended &&
                before.thread.mustDeoptId == frame.id) = true ∧
              outcome = .alreadyPending ∧ seen = frame ∧ after = before ∨
            ¬(before.thread.deoptSuspended &&
                before.thread.mustDeoptId == frame.id) = true ∧
              ∃ returns, (frame.isReturnedToFromNative (before.view env) before.thread
                  request.safepoint).Gives returns ∧
                (returns = true ∧ outcome = .deferred ∧ seen = frame ∧
                    after = before.markedFor frame.id ∨
                  ¬returns = true ∧ (frame.redirect env blob compiled).Gives before
                    (outcome, seen) after)) ∨
        ¬(request.needsSuspend && !request.byOwner) = true ∧
          (frame.redirect env blob compiled).Gives before (outcome, seen) after := by
  have isUnit : frame.compiled? = some compiled := by
    simp [compiled?, eligible.runsIn, eligible.unit]
  unfold deoptimize
  simp only [eligible.kind, eligible.state, eligible.deoptimizable, eligible.runsIn,
    isUnit, ne_eq, not_true_eq_false, if_false, Bool.not_true, Bool.false_eq_true,
    gives_ite, gives_fail, gives_bind, gives_state, gives_pure, Machine.gives_look,
    deferToOwner, Machine.updateThread, gives_update, Machine.markedFor,
    Prod.mk.injEq, and_assoc, exists_and_left, exists_eq_left, exists_const,
    Bool.not_eq_true', Bool.not_eq_false, and_false, false_or]

/--
A request answers in these ways only, and does answer where it can.  Only a request
from another thread can be put off.
-/
theorem gives_deoptimize :
    (frame.deoptimize env request).Gives before (outcome, seen) after ↔
      Answers env request frame before outcome seen after := by
  constructor
  · intro gives
    have asked := gives
    unfold deoptimize at gives
    obtain ⟨kind, gives⟩ := gives_guard.mp gives
    have kind : frame.kind = .compiled := not_not.mp kind
    rcases gives_ite.mp gives with ⟨state, answered⟩ | ⟨state, gives⟩
    · obtain ⟨same, rfl⟩ := gives_pure.mp answered
      obtain ⟨rfl, rfl⟩ := Prod.mk.inj same
      exact .already kind state
    obtain ⟨can, gives⟩ := gives_guard.mp gives
    split at gives
    case h_2 => exact (gives_fail gives).elim
    rename_i blob compiled runsIn unit
    have eligible : frame.Eligible blob compiled :=
      ⟨⟨kind, state, runsIn, by simpa [compiled?, runsIn] using unit⟩, by simpa using can⟩
    rcases eligible.gives_deoptimize.mp asked with
      ⟨remote, active, ⟨marked, rfl, rfl, rfl⟩ | ⟨unmarked, returns, answers, decides⟩⟩ |
      ⟨free, redirects⟩
    · exact .pending eligible remote active marked
    · rcases decides with ⟨rfl, rfl, rfl, rfl⟩ | ⟨refuses, redirects⟩
      · exact .deferred eligible remote active unmarked answers
      · obtain rfl : returns = false := by simpa using refuses
        obtain rfl := (gives_redirect.mp redirects).1
        exact .redirected eligible (fun _ => ⟨active, unmarked, answers⟩) redirects
    · obtain rfl := (gives_redirect.mp redirects).1
      exact .redirected eligible (fun remote => (free remote).elim) redirects
  · intro answers
    cases answers with
    | already kind state => simp [deoptimize, kind, state]
    | pending eligible remote active marked =>
        exact eligible.gives_deoptimize.mpr
          (.inl ⟨remote, active, .inl ⟨marked, rfl, rfl, rfl⟩⟩)
    | deferred eligible remote active unmarked returns =>
        exact eligible.gives_deoptimize.mpr (.inl ⟨remote, active,
          .inr ⟨unmarked, true, returns, .inl ⟨rfl, rfl, rfl, rfl⟩⟩⟩)
    | redirected eligible allowed redirects =>
        refine eligible.gives_deoptimize.mpr ?_
        by_cases remote : (request.needsSuspend && !request.byOwner) = true
        · obtain ⟨active, unmarked, refuses⟩ := allowed remote
          exact .inl ⟨remote, active,
            .inr ⟨unmarked, false, refuses, .inr ⟨Bool.false_ne_true, redirects⟩⟩⟩
        · exact .inr ⟨remote, redirects⟩

/-- A request that redirected a frame found it fit, and did just that. -/
theorem redirected_of_gives
    (gives : (frame.deoptimize env request).Gives before
      (.patched handler, seen) after) :
    ∃ blob compiled, frame.Redirectable blob compiled ∧
      handler = compiled.handlerFor frame.pc ∧
        before.stack.Covers frame.returnSlot ∧
          after = frame.redirection blob handler before := by
  cases gives_deoptimize.mp gives with
  | redirected eligible allowed redirects =>
      obtain ⟨same, covers, isAfter, -⟩ := gives_redirect.mp redirects
      obtain rfl := DeoptOutcome.patched.inj same
      exact ⟨_, _, eligible.toRedirectable, rfl, covers, isAfter⟩

end Requests

/-! What a step that arrives at an address makes of it. -/

/-- A frame as a step finds it, before the records are asked. -/
def arriving
    (view : View)
    (adjusts : Bool)
    (sp unextendedSp fp pc : Address) :
    Frame :=
  let found := unresolved view sp unextendedSp fp pc
  if adjusts then found.adjust else found

section Arriving

variable {view : View} {adjusts : Bool} {sp unextendedSp fp pc : Address}
  {blob : Blob} {compiled : CompiledUnit} {caller frame : Frame}
  {records : DeoptRecords}

@[simp] theorem pc_adjust (frame : Frame) : frame.adjust.pc = frame.pc := by
  unfold adjust
  split
  · split <;> rfl
  · rfl

@[simp] theorem blob_adjust (frame : Frame) : frame.adjust.blob = frame.blob := by
  unfold adjust
  split
  · split <;> rfl
  · rfl

@[simp] theorem pc_arriving :
    (arriving view adjusts sp unextendedSp fp pc).pc = pc := by
  cases adjusts <;> simp [arriving, unresolved]

@[simp] theorem blob_arriving :
    (arriving view adjusts sp unextendedSp fp pc).blob = view.code.find? pc := by
  cases adjusts <;> simp [arriving, unresolved]

/-- What is found at an address in a compiled unit. -/
theorem arriving_eq
    (runsIn : view.code.find? pc = some blob)
    (unit : blob.compiled? = some compiled) :
    arriving view adjusts sp unextendedSp fp pc =
      { sp := sp
        unextendedSp :=
          if adjusts && compiled.takesFp pc then fp else unextendedSp
        fp := fp
        pc := pc
        blob := some blob
        deoptState := .unknown } := by
  unfold arriving
  cases adjusts with
  | false => simp [unresolved, runsIn]
  | true =>
    simp only [adjust, compiled?, unresolved, runsIn, unit, Option.bind_some,
      CompiledUnit.takesFp, Bool.true_and, if_true]
    split <;> rfl

theorem resolved_of_recorded
    {displaced : Address}
    (resumes : frame.resumesAtHandler = true)
    (recorded : frame.recordedPc? records = some displaced) :
    frame.resolved records =
      { frame with pc := displaced, deoptState := .deoptimized } := by
  simp [resolved, resumes, recorded]

/-- A frame that the records do not know is resolved to itself. -/
theorem resolved_of_state
    (state : (frame.resolved records).deoptState ≠ .deoptimized) :
    frame.resolved records = { frame with deoptState := .notDeoptimized } := by
  unfold resolved at state ⊢
  split
  · rename_i resumes recorded
    simp [resumes, recorded] at state
  · rfl

/-- The handler of a frame lies in the same blob, and takes the same stack pointer. -/
theorem arriving_handlerFor
    (ordered : view.code.Ordered)
    (runsIn : view.code.find? pc = some blob)
    (unit : blob.compiled? = some compiled)
    (elsewhere : compiled.isDeoptPc pc = false) :
    arriving view adjusts sp unextendedSp fp (compiled.handlerFor pc) =
      { arriving view adjusts sp unextendedSp fp pc with
        pc := compiled.handlerFor pc } := by
  rw [arriving_eq (ordered.find?_handlerFor runsIn unit pc) unit,
    arriving_eq runsIn unit,
    CompiledUnit.takesFp_handlerFor (ordered.unambiguous runsIn unit) elsewhere]

/-- What a redirected frame was before, as the step to it found it. -/
theorem Redirectable.arrived
    (fit : caller.Redirectable blob compiled)
    (elsewhere : caller.resumesAtHandler = false)
    (isCaller : caller =
      (arriving view adjusts sp unextendedSp fp pc).resolved records) :
    caller = { arriving view adjusts sp unextendedSp fp pc with
        deoptState := .notDeoptimized } ∧ caller.pc = pc ∧
      view.code.find? pc = some blob ∧ compiled.isDeoptPc pc = false := by
  have same := isCaller
  rw [resolved_of_state (isCaller ▸ fit.state)] at same
  have runsIn : view.code.find? pc = some blob := by
    rw [← fit.runsIn, same]
    exact blob_arriving.symm
  have pcs : caller.pc = pc := by
    rw [same]
    exact pc_arriving
  refine ⟨same, pcs, runsIn, ?_⟩
  have isUnit : caller.compiled? = some compiled := by
    simp [compiled?, fit.runsIn, fit.unit]
  simpa [resumesAtHandler, isUnit, pcs] using elsewhere

/-- A step that finds the handler and the record sees the frame where it was. -/
theorem Redirectable.resolved_handlerFor
    (fit : caller.Redirectable blob compiled)
    (ordered : view.code.Ordered)
    (elsewhere : caller.resumesAtHandler = false)
    (isCaller : caller =
      (arriving view adjusts sp unextendedSp fp pc).resolved view.records)
    (recorded : records.displacedPc? blob.start caller.id = some caller.pc) :
    (arriving view adjusts sp unextendedSp fp
        (compiled.handlerFor caller.pc)).resolved records =
      { caller with deoptState := .deoptimized } := by
  obtain ⟨same, pcs, runsIn, isElsewhere⟩ := fit.arrived elsewhere isCaller
  rw [pcs, arriving_handlerFor ordered runsIn fit.unit isElsewhere]
  refine (resolved_of_recorded ?_ (?_ : _ = some caller.pc)).trans ?_
  · simp [resumesAtHandler, compiled?, runsIn, fit.unit,
      CompiledUnit.isDeoptPc_handlerFor]
  · rw [same] at recorded ⊢
    simpa [recordedPc?, id, runsIn] using recorded
  · simp [same]

/-- A step that finds the handler never sees the frame from before. -/
theorem Redirectable.resolved_handlerFor_ne
    (fit : caller.Redirectable blob compiled)
    (elsewhere : caller.resumesAtHandler = false)
    (isCaller : caller =
      (arriving view adjusts sp unextendedSp fp pc).resolved view.records) :
    (arriving view adjusts sp unextendedSp fp
        (compiled.handlerFor caller.pc)).resolved records ≠ caller := by
  obtain ⟨same, pcs, runsIn, isElsewhere⟩ := fit.arrived elsewhere isCaller
  intro sees
  have state := fit.state
  rw [← sees] at state
  have unresolved := resolved_of_state state
  have atHandler : caller.pc = compiled.handlerFor caller.pc := by
    conv_lhs => rw [← sees, unresolved]
    exact pc_arriving
  rw [← pcs, atHandler, CompiledUnit.isDeoptPc_handlerFor] at isElsewhere
  cases isElsewhere

end Arriving

end Frame

/--
The return address lies just below the caller's stack pointer, in a word that no
other field takes that a step or a scan reads.
-/
structure FrameLayout.SeparatesReturn (layout : FrameLayout) : Prop where
  senderSp : layout.senderSp = layout.returnAddress + 1
  apart : ∀ offset ∈ layout.link :: layout.interpreterSenderSp ::
      layout.scannedFields,
    ∀ fp : Address, fp.offset offset ≠ fp.offset layout.returnAddress
  /-- So it is where a frame of fixed size keeps its fields. -/
  fixed : ∀ senderSp : Address,
    senderSp.offset (-layout.senderSp) ≠ senderSp.offset (-1)

theorem FrameLayout.separatesReturn_x86_64 : x86_64.SeparatesReturn where
  senderSp := rfl
  apart := by
    intro offset listed fp
    simp only [x86_64, scannedFields, List.mem_cons, List.not_mem_nil,
      or_false] at listed
    rcases listed with rfl | rfl | rfl | rfl | rfl | rfl | rfl <;>
      exact Word.offset_ne_offset (by decide) (by decide) (by decide)
  fixed := fun _ => Word.offset_ne_offset (by decide) (by decide) (by decide)

namespace Frame

section Returning

variable {view : View} {layout : FrameLayout} {frame caller : Frame}
  {map after : RegisterMap} {current : Stack} {records : DeoptRecords}
  {word : Word}

/-- Fields at other words than the return address keep their words. -/
theorem holds_slot_of_keeps
    {offset : Int}
    (keeps : Stack.Keeps
      (fun place => place ≠ (frame.slot layout.returnAddress).toNat) view.stack
      current)
    (apart : ∀ fp : Address, fp.offset offset ≠ fp.offset layout.returnAddress)
    (holds : view.stack.Holds (frame.slot offset) word) :
    current.Holds (frame.slot offset) word :=
  keeps.holds holds fun same => apart frame.fp (UInt64.toNat_inj.mp same)

/-- Below the caller's stack pointer lies the return address. -/
theorem offset_slot_senderSp (separates : layout.SeparatesReturn) :
    (frame.slot layout.senderSp).offset (-1) =
      frame.slot layout.returnAddress := by
  rw [slot, slot, Word.offset_offset, separates.senderSp]
  congr 1
  omega

/-- An interpreted frame keeps the return address at its frame pointer. -/
theorem StepsTo.returnSlot_eq
    (separates : layout.SeparatesReturn)
    (steps : StepsTo layout view frame map caller after)
    (interpreted : frame.kind = .interpreted) :
    caller.returnSlot = frame.slot layout.returnAddress := by
  cases steps with
  | interpreted =>
    rw [returnSlot, sp_extendedFrame, offset_slot_senderSp separates]
  | fixed kind => simp [IsFixedSize, interpreted] at kind
  | linked kind => simp [interpreted] at kind
  | entry kind => cases interpreted.symm.trans kind
  | adapter kind => cases interpreted.symm.trans kind

/--
A step that reads the return address off the stack finds it below the caller's stack
pointer, and with another address there it finds what lies at that one.
-/
theorem StepsTo.returning
    (separates : layout.SeparatesReturn)
    (steps : StepsTo layout view frame map caller after)
    (notEntry : frame.kind ≠ .entry)
    (notRicochet : frame.kind ≠ .ricochet) :
    ∃ adjusts unextendedSp fp pc,
      caller = (arriving view adjusts caller.sp unextendedSp fp pc).resolved
          view.records ∧
        view.stack.Holds caller.returnSlot pc ∧
          ∀ current records word,
            Stack.Keeps (fun place => place ≠ caller.returnSlot.toNat) view.stack
                current →
              current.Holds caller.returnSlot word →
                StepsTo layout
                  { view with stack := current, records := records } frame map
                  ((arriving view adjusts caller.sp unextendedSp fp word).resolved
                    records) after := by
  have below : (frame.slot layout.senderSp).offset (-1) =
      frame.slot layout.returnAddress := offset_slot_senderSp separates
  have linkApart := separates.apart layout.link (by simp)
  have senderSpApart := separates.apart layout.interpreterSenderSp (by simp)
  cases steps with
  | @interpreted unextendedSp link pc kind senderSp saved returns =>
    refine ⟨true, unextendedSp, link, pc, ?_⟩
    simp only [returnSlot, sp_extendedFrame, below]
    exact ⟨rfl, returns, fun current records word keeps holds =>
      .interpreted kind (holds_slot_of_keeps keeps senderSpApart senderSp)
        (holds_slot_of_keeps keeps linkApart saved) holds⟩
  | @fixed blob link pc kind runsIn sized negates saved returns =>
    refine ⟨true, frame.fixedSenderSp blob, link, pc, ?_⟩
    simp only [returnSlot, sp_extendedFrame]
    exact ⟨rfl, returns, fun current records word keeps holds =>
      .fixed kind runsIn sized negates
        (keeps.holds saved fun same =>
          separates.fixed _ (UInt64.toNat_inj.mp same)) holds⟩
  | @linked link pc kind saved returns =>
    refine ⟨false, frame.slot layout.senderSp, link, pc, ?_⟩
    simp only [returnSlot, sp_plainFrame, below]
    exact ⟨rfl, returns, fun current records word keeps holds =>
      .linked kind (holds_slot_of_keeps keeps linkApart saved) holds⟩
  | entry kind => exact (notEntry kind).elim
  | adapter kind => exact (notRicochet kind).elim

/-- Whoever finds a caller has read its return address, or has a resolver that did. -/
theorem StepsTo.covers_returnSlot
    (separates : view.layout.SeparatesReturn)
    (reliable : view.adapters.Reliable)
    (steps : StepsTo view.layout view frame map caller after)
    (notEntry : frame.kind ≠ .entry) :
    view.stack.Covers caller.returnSlot := by
  by_cases isRicochet : frame.kind = .ricochet
  · cases steps with
    | adapter _ resolves =>
      exact reliable.covers view.surroundings frame _ caller after separates.senderSp
        resolves
    | interpreted kind => cases isRicochet.symm.trans kind
    | fixed kind => simp [IsFixedSize, isRicochet] at kind
    | linked kind => cases isRicochet.symm.trans kind
    | entry kind => cases isRicochet.symm.trans kind
  · obtain ⟨_, _, _, _, -, holds, -⟩ := steps.returning separates notEntry isRicochet
    exact holds.covers

@[simp] theorem id_resolved : (frame.resolved records).id = frame.id := by
  unfold resolved id
  split <;> rfl

/-- Only the records of the frame itself count when it is resolved. -/
theorem resolved_congr
    {others : DeoptRecords}
    (known : ∀ unitStart, others.displacedPc? unitStart frame.id =
      records.displacedPc? unitStart frame.id) :
    frame.resolved others = frame.resolved records := by
  have same : frame.recordedPc? others = frame.recordedPc? records := by
    simp [recordedPc?, known]
  simp [resolved, same]

/-- Records about other frames make no difference to the caller that is found. -/
theorem StepsTo.of_records
    (reliable : view.adapters.Reliable)
    (steps : StepsTo layout view frame map caller after)
    (known : ∀ unitStart, records.displacedPc? unitStart caller.id =
      view.records.displacedPc? unitStart caller.id) :
    StepsTo layout { view with records := records } frame map caller after := by
  cases steps with
  | interpreted kind senderSp saved returns =>
    rw [extendedFrame, id_resolved] at known
    rw [extendedFrame, ← resolved_congr known]
    exact .interpreted kind senderSp saved returns
  | fixed kind runsIn sized negates saved returns =>
    rw [extendedFrame, id_resolved] at known
    rw [extendedFrame, ← resolved_congr known]
    exact .fixed kind runsIn sized negates saved returns
  | linked kind saved returns =>
    rw [plainFrame, id_resolved] at known
    rw [plainFrame, ← resolved_congr known]
    exact .linked kind saved returns
  | entry kind points keeps nonempty above resumes =>
    rw [plainFrame, id_resolved] at known
    rw [plainFrame, ← resolved_congr known]
    exact .entry kind points keeps nonempty above resumes
  | adapter kind resolves =>
    exact .adapter kind
      (reliable.anyRecords view.surroundings frame _ caller after resolves records known)

end Returning

end Frame

end ManagedStack
