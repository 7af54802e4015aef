import ManagedStack.Frame.Walk
import ManagedStack.Proofs.Memory

namespace ManagedStack

/-!
# What a step to the caller does

A step that succeeds has read a few words of the stack and made the caller's frame of
them.  Which words these are depends on the kind of the frame that it leaves: link
and return address lie at the frame pointer of an interpreted or native frame, and
below the caller's stack pointer where the frame has a fixed size; an entry frame
points at the anchor from before it.  One relation says all of this, and every
argument about steps begins with its cases.  A step from an adapter frame is whatever
the resolver says, of which there is little to know in general; what is relied on has
a name.
-/

open Operation

namespace AdapterResolver

/-- What walkers rely on of a resolver of adapter frames. -/
structure Reliable (resolver : AdapterResolver) : Prop where
  /-- It finds a caller or fails, and does not give up. -/
  concludes : ∀ surroundings frame map,
    (resolver.sender surroundings frame).Concludes map
  /-- If return addresses lie below stack pointers, so does that of the caller. -/
  covers : ∀ surroundings frame map caller after,
    surroundings.layout.senderSp = surroundings.layout.returnAddress + 1 →
      (resolver.sender surroundings frame).Gives map caller after →
        surroundings.stack.Covers (caller.sp.offset (-1))
  /-- The register map has no say in which frame the caller is. -/
  anyMap : ∀ surroundings frame map caller after,
    (resolver.sender surroundings frame).Gives map caller after →
      ∀ known, ∃ left, (resolver.sender surroundings frame).Gives known caller left
  /-- Of the records, only those of the caller itself have one. -/
  anyRecords : ∀ surroundings frame map caller after,
    (resolver.sender surroundings frame).Gives map caller after →
      ∀ records : DeoptRecords,
        (∀ unitStart, records.displacedPc? unitStart caller.id =
          surroundings.records.displacedPc? unitStart caller.id) →
          (resolver.sender { surroundings with records := records } frame).Gives map
            caller after
  /-- And none of them matters to the references that it visits. -/
  visitsAnyRecords : ∀ surroundings frame map (records : DeoptRecords),
    resolver.visit { surroundings with records := records } frame map =
      resolver.visit surroundings frame map

/-- Who knows of no adapter frames finds no caller of any. -/
theorem not_gives_noAdapters
    {surroundings : Surroundings}
    {frame caller : Frame}
    {map after : RegisterMap} :
    ¬ (noAdapters.sender surroundings frame).Gives map caller after :=
  gives_fail

/-- Who knows of no adapter frames can be relied on. -/
theorem reliable_noAdapters : noAdapters.Reliable where
  concludes _ _ _ := .fail
  covers _ _ _ _ _ _ gives := (not_gives_noAdapters gives).elim
  anyMap _ _ _ _ _ gives := (not_gives_noAdapters gives).elim
  anyRecords _ _ _ _ _ gives := (not_gives_noAdapters gives).elim
  visitsAnyRecords _ _ _ _ := rfl

end AdapterResolver

namespace Frame

variable {view : View} {frame caller : Frame} {map after : RegisterMap}

/-- The frame with its own address, as far as the records know it. -/
def resolved
    (records : DeoptRecords)
    (frame : Frame) :
    Frame :=
  match frame.resumesAtHandler, frame.recordedPc? records with
  | true, some displaced =>
      { frame with pc := displaced, deoptState := .deoptimized }
  | _, _ => { frame with deoptState := .notDeoptimized }

/-- Resolving a frame always answers, and misses no word. -/
theorem resolve_spec (frame : Frame) :
    ∃ notes, (frame.resolve view : Probe ε Frame) =
      ⟨.ok (frame.resolved view.records), notes⟩ ∧ notes.faultCount = 0 := by
  unfold resolve resolved
  cases frame.resumesAtHandler with
  | false => exact ⟨[], rfl, rfl⟩
  | true =>
      cases frame.recordedPc? view.records with
      | none => exact ⟨_, rfl, rfl⟩
      | some displaced => exact ⟨[], rfl, rfl⟩

@[simp] theorem gives_resolve :
    (frame.resolve view : Probe ε Frame).Gives caller ↔
      caller = frame.resolved view.records := by
  obtain ⟨notes, same, -⟩ := @resolve_spec view ε frame
  simp [same, Probe.Gives, eq_comm]

/-- The frame of these registers, with the unextended stack pointer as given. -/
def plainFrame
    (view : View)
    (sp fp pc : Address) :
    Frame :=
  (unresolved view sp sp fp pc).resolved view.records

/-- The frame of these registers, as its caller may have extended its stack. -/
def extendedFrame
    (view : View)
    (sp unextendedSp fp pc : Address) :
    Frame :=
  (unresolved view sp unextendedSp fp pc).adjust.resolved view.records

@[simp] theorem gives_plain {sp fp pc : Address} :
    (plain view sp fp pc : Probe ε Frame).Gives caller ↔
      caller = plainFrame view sp fp pc :=
  gives_resolve

@[simp] theorem gives_extended {sp unextendedSp fp pc : Address} :
    (extended view sp unextendedSp fp pc : Probe ε Frame).Gives caller ↔
      caller = extendedFrame view sp unextendedSp fp pc :=
  gives_resolve

/-- The kinds of frames whose size their blob knows. -/
def IsFixedSize (frame : Frame) : Prop :=
  frame.kind = .compiled ∨ frame.kind = .nativeWrapper ∨ frame.kind = .stub

/-- The stack pointer that a frame of fixed size leaves to its caller. -/
def fixedSenderSp
    (frame : Frame)
    (blob : Blob) :
    Address :=
  frame.unextendedSp.offset blob.frameSize.signed

/-- The map after recording where the frame pointer register is saved. -/
def linkMap
    (address : Address)
    (map : RegisterMap) :
    RegisterMap :=
  if map.tracking then map.record Register.rbp address else map

/-- Where a frame of fixed size keeps the frame pointer of its caller. -/
def fixedLinkSlot
    (layout : FrameLayout)
    (frame : Frame)
    (blob : Blob) :
    Address :=
  (frame.fixedSenderSp blob).offset (-layout.senderSp)

/-- The map after leaving a frame of fixed size. -/
def fixedMap
    (layout : FrameLayout)
    (frame : Frame)
    (blob : Blob)
    (map : RegisterMap) :
    RegisterMap :=
  linkMap (frame.fixedLinkSlot layout blob)
    (if map.tracking then frame.recordCompiledStep blob map else map)

/-- The address at which the frame that an anchor names resumes. -/
def AnchorPc
    (stack : Stack)
    (anchor : FrameAnchor)
    (pc : Address) :
    Prop :=
  anchor.pc ≠ 0 ∧ pc = anchor.pc ∨
    anchor.pc = 0 ∧ stack.Holds (anchor.sp.offset (-1)) pc

/-- A wrapper record keeps an anchor. -/
structure KeepsAnchor
    (stack : Stack)
    (wrapper : Address)
    (anchor : FrameAnchor) :
    Prop where
  sp : stack.Holds (wrapper.offset 1) anchor.sp
  fp : stack.Holds (wrapper.offset 2) anchor.fp
  pc : stack.Holds (wrapper.offset 3) anchor.pc

/-- What a step from a frame to its caller has read and recorded. -/
inductive StepsTo
    (layout : FrameLayout)
    (view : View)
    (frame : Frame)
    (map : RegisterMap) :
    Frame → RegisterMap → Prop where
  | interpreted
      {unextendedSp link pc : Address}
      (kind : frame.kind = .interpreted)
      (senderSp : view.stack.Holds (frame.slot layout.interpreterSenderSp)
        unextendedSp)
      (saved : view.stack.Holds (frame.slot layout.link) link)
      (returns : view.stack.Holds (frame.slot layout.returnAddress) pc) :
      StepsTo layout view frame map
        (extendedFrame view (frame.slot layout.senderSp) unextendedSp link pc)
        (linkMap (frame.slot layout.link) (map.withArgumentOops false))
  | fixed
      {blob : Blob}
      {link pc : Address}
      (kind : frame.IsFixedSize)
      (runsIn : frame.blob = some blob)
      (sized : blob.frameSize ≠ 0)
      (negates : fitsSigned (-layout.senderSp) = true)
      (saved : view.stack.Holds (frame.fixedLinkSlot layout blob) link)
      (returns : view.stack.Holds ((frame.fixedSenderSp blob).offset (-1)) pc) :
      StepsTo layout view frame map
        (extendedFrame view (frame.fixedSenderSp blob)
          (frame.fixedSenderSp blob) link pc)
        (frame.fixedMap layout blob (map.withArgumentOops false))
  | linked
      {link pc : Address}
      (kind : frame.kind = .native)
      (saved : view.stack.Holds (frame.slot layout.link) link)
      (returns : view.stack.Holds (frame.slot layout.returnAddress) pc) :
      StepsTo layout view frame map
        (plainFrame view (frame.slot layout.senderSp) link pc)
        (map.withArgumentOops false)
  | entry
      {wrapper pc : Address}
      {anchor : FrameAnchor}
      (kind : frame.kind = .entry)
      (points : view.stack.Holds (frame.slot layout.entryCallWrapper) wrapper)
      (keeps : KeepsAnchor view.stack wrapper anchor)
      (nonempty : anchor.isEmpty = false)
      (above : frame.sp < anchor.sp)
      (resumes : AnchorPc view.stack anchor pc) :
      StepsTo layout view frame map (plainFrame view anchor.sp anchor.fp pc)
        (map.withArgumentOops false).crossEntry
  | adapter
      {caller : Frame}
      {after : RegisterMap}
      (kind : frame.kind = .ricochet)
      (resolves : (view.adapters.sender view.surroundings frame).Gives
        (map.withArgumentOops false) caller after) :
      StepsTo layout view frame map caller after

/-- The register map has no say in where a step leads. -/
theorem StepsTo.of_map
    {layout : FrameLayout}
    {map after : RegisterMap}
    {caller : Frame}
    (reliable : frame.kind = .ricochet → view.adapters.Reliable)
    (steps : StepsTo layout view frame map caller after)
    (known : RegisterMap) :
    ∃ left, StepsTo layout view frame known caller left := by
  cases steps with
  | interpreted kind senderSp saved returns =>
      exact ⟨_, .interpreted kind senderSp saved returns⟩
  | fixed kind runsIn sized negates saved returns =>
      exact ⟨_, .fixed kind runsIn sized negates saved returns⟩
  | linked kind saved returns => exact ⟨_, .linked kind saved returns⟩
  | entry kind points keeps nonempty above resumes =>
      exact ⟨_, .entry kind points keeps nonempty above resumes⟩
  | adapter kind resolves =>
      obtain ⟨left, resolves⟩ := (reliable kind).anyMap _ _ _ _ _ resolves
        (known.withArgumentOops false)
      exact ⟨left, .adapter kind resolves⟩

@[simp] theorem gives_field
    {offset : Int}
    {word : Word} :
    (frame.field view offset).Gives word ↔
      view.stack.Holds (frame.slot offset) word :=
  Stack.gives_read

@[simp] theorem gives_anchor
    {stack : Stack}
    {wrapper : CallWrapper}
    {anchor : FrameAnchor} :
    (wrapper.anchor stack).Gives anchor ↔
      KeepsAnchor stack wrapper.address anchor := by
  obtain ⟨sp, fp, pc⟩ := anchor
  simp only [CallWrapper.anchor, CallWrapper.slot, Probe.gives_bind,
    Stack.gives_read, Probe.gives_pure, FrameAnchor.mk.injEq]
  constructor
  · rintro ⟨_, holdsSp, _, holdsFp, _, holdsPc, rfl, rfl, rfl⟩
    exact ⟨holdsSp, holdsFp, holdsPc⟩
  · rintro ⟨holdsSp, holdsFp, holdsPc⟩
    exact ⟨_, holdsSp, _, holdsFp, _, holdsPc, rfl, rfl, rfl⟩

@[simp] theorem gives_recordLink
    {address : Address}
    {value : Unit} :
    (recordLink address : Operation RegisterMap ε Unit).Gives map value after ↔
      after = linkMap address map := by
  simp only [recordLink, linkMap, gives_bind, gives_state, and_assoc,
    exists_and_left, exists_eq_left]
  by_cases tracks : map.tracking = true <;> simp [tracks]

@[simp] theorem gives_callWrapper
    {wrapper : CallWrapper} :
    (frame.callWrapper view).Gives wrapper ↔
      frame.kind = .entry ∧
        view.stack.Holds (frame.slot view.layout.entryCallWrapper)
          wrapper.address := by
  obtain ⟨address⟩ := wrapper
  unfold callWrapper expectKind callWrapperAddress
  by_cases isEntry : frame.kind = .entry
  · simp only [isEntry, if_true, Probe.gives_bind, Probe.gives_pure, gives_field,
      CallWrapper.mk.injEq, true_and, exists_const, exists_eq_right']
  · simp [isEntry]

theorem gives_linkedSender :
    (frame.linkedSender view).Gives caller ↔
      ∃ link pc, view.stack.Holds (frame.slot view.layout.link) link ∧
        view.stack.Holds (frame.slot view.layout.returnAddress) pc ∧
          caller =
            plainFrame view (frame.slot view.layout.senderSp) link pc := by
  simp only [linkedSender, link, senderPc, senderSp, Probe.gives_bind,
    gives_field, gives_plain]
  constructor
  · rintro ⟨link, saved, pc, returns, same⟩
    exact ⟨link, pc, saved, returns, same⟩
  · rintro ⟨link, pc, saved, returns, same⟩
    exact ⟨link, saved, pc, returns, same⟩

theorem gives_interpretedSender :
    (frame.interpretedSender view).Gives map caller after ↔
      ∃ unextendedSp link pc,
        view.stack.Holds (frame.slot view.layout.interpreterSenderSp)
            unextendedSp ∧
          view.stack.Holds (frame.slot view.layout.link) link ∧
            view.stack.Holds (frame.slot view.layout.returnAddress) pc ∧
              caller = extendedFrame view (frame.slot view.layout.senderSp)
                unextendedSp link pc ∧
                after = linkMap (frame.slot view.layout.link) map := by
  simp only [interpretedSender, interpreterSenderSp, link, senderPc, senderSp,
    gives_bind, gives_lift, gives_ofProbe, gives_recordLink, gives_field,
    gives_extended, and_assoc, exists_and_left, exists_eq_left, exists_const]

theorem gives_compiledSender :
    (frame.compiledSender view).Gives map caller after ↔
      ∃ blob, frame.blob = some blob ∧ blob.frameSize ≠ 0 ∧
        ∃ pc,
          view.stack.Holds ((frame.fixedSenderSp blob).offset (-1)) pc ∧
            fitsSigned (-view.layout.senderSp) = true ∧
              ∃ link,
                view.stack.Holds (frame.fixedLinkSlot view.layout blob) link ∧
                  caller = extendedFrame view (frame.fixedSenderSp blob)
                    (frame.fixedSenderSp blob) link pc ∧
                    after = frame.fixedMap view.layout blob map := by
  have negates (negated : Int) :
      negateSigned view.layout.senderSp = .ok negated ↔
        fitsSigned (-view.layout.senderSp) = true ∧
          negated = -view.layout.senderSp := by
    unfold negateSigned
    split <;> rename_i fits <;> simp [fits, eq_comm]
  unfold compiledSender
  rcases frame.blob with _ | blob
  · simp
  · unfold fixedMap fixedLinkSlot fixedSenderSp
    cases tracks : map.tracking <;>
      simp only [gives_guard_report, gives_bind, gives_lift, gives_check,
        gives_state, gives_update, gives_ofProbe, gives_recordLink,
        gives_extended, Stack.gives_read, negates, tracks, Bool.false_eq_true,
        if_false, if_true, and_assoc, exists_and_left, exists_eq_left, ne_eq,
        exists_const, Option.some.injEq, exists_eq_left']

theorem gives_entrySender :
    (frame.entrySender view).Gives map caller after ↔
      frame.kind = .entry ∧ ∃ wrapper anchor pc,
        view.stack.Holds (frame.slot view.layout.entryCallWrapper) wrapper ∧
          KeepsAnchor view.stack wrapper anchor ∧ anchor.isEmpty = false ∧
            frame.sp < anchor.sp ∧ AnchorPc view.stack anchor pc ∧
              caller = plainFrame view anchor.sp anchor.fp pc ∧
                after = map.crossEntry := by
  unfold entrySender AnchorPc
  simp only [gives_bind, gives_lift, gives_update, gives_ofProbe, gives_fail,
    gives_callWrapper, gives_anchor, gives_ite, gives_plain, gives_answer,
    Stack.gives_read, UInt64.not_le, Bool.not_eq_true, and_false, false_or,
    and_assoc, exists_and_left, exists_eq_left, ne_eq, Decidable.not_not,
    exists_const]
  refine and_congr_right fun _ => ?_
  constructor
  · rintro ⟨wrapper, points, anchor, keeps, nonempty, above,
      ⟨known, rfl, rfl⟩ | ⟨unknown, pc, resumes, rfl, rfl⟩⟩
    · exact ⟨_, points, _, keeps, nonempty, above, _, .inl ⟨known, rfl⟩, rfl, rfl⟩
    · exact ⟨_, points, _, keeps, nonempty, above, _, .inr ⟨unknown, resumes⟩,
        rfl, rfl⟩
  · rintro ⟨wrapper, points, anchor, keeps, nonempty, above, pc,
      ⟨known, rfl⟩ | ⟨unknown, resumes⟩, rfl, rfl⟩
    · exact ⟨⟨wrapper⟩, points, anchor, keeps, nonempty, above,
        .inl ⟨known, rfl, rfl⟩⟩
    · exact ⟨⟨wrapper⟩, points, anchor, keeps, nonempty, above,
        .inr ⟨unknown, pc, resumes, rfl, rfl⟩⟩

/--
A step to the caller succeeds in the ways that its cases say.  Three kinds of frame
take the same way, through the size of their blob.
-/
theorem gives_sender_iff :
    (frame.sender view).Gives map caller after ↔
      StepsTo view.layout view frame map caller after := by
  have fixed (isFixed : frame.IsFixedSize) :
      (frame.compiledSender view).Gives (map.withArgumentOops false)
          caller after →
        StepsTo view.layout view frame map caller after := by
    intro gives
    obtain ⟨blob, runsIn, sized, pc, returns, negates, link, saved, rfl, rfl⟩ :=
      gives_compiledSender.mp gives
    exact .fixed isFixed runsIn sized negates saved returns
  simp only [sender, gives_bind, gives_update, exists_eq_left, exists_const]
  constructor
  · intro gives
    cases kind : frame.kind <;> simp only [kind] at gives
    case entry =>
      obtain ⟨-, wrapper, anchor, pc, points, keeps, nonempty, above, resumes,
        rfl, rfl⟩ := gives_entrySender.mp gives
      exact .entry kind points keeps nonempty above resumes
    case interpreted =>
      obtain ⟨unextendedSp, link, pc, senderSp, saved, returns, rfl, rfl⟩ :=
        gives_interpretedSender.mp gives
      exact .interpreted kind senderSp saved returns
    case compiled => exact fixed (.inl kind) gives
    case nativeWrapper => exact fixed (.inr (.inl kind)) gives
    case stub => exact fixed (.inr (.inr kind)) gives
    case native =>
      rw [gives_lift, gives_linkedSender] at gives
      obtain ⟨⟨link, pc, saved, returns, rfl⟩, rfl⟩ := gives
      exact .linked kind saved returns
    case ricochet => exact .adapter kind gives
  · intro steps
    cases steps with
    | interpreted kind senderSp saved returns =>
        rw [kind]
        exact gives_interpretedSender.mpr
          ⟨_, _, _, senderSp, saved, returns, rfl, rfl⟩
    | entry kind points keeps nonempty above resumes =>
        rw [kind]
        exact gives_entrySender.mpr
          ⟨kind, _, _, _, points, keeps, nonempty, above, resumes, rfl, rfl⟩
    | @fixed blob link pc kind runsIn sized negates saved returns =>
        have gives : (frame.compiledSender view).Gives
            (map.withArgumentOops false) _ _ :=
          gives_compiledSender.mpr
            ⟨blob, runsIn, sized, pc, returns, negates, link, saved, rfl, rfl⟩
        rcases kind with kind | kind | kind <;> rw [kind] <;> exact gives
    | linked kind saved returns =>
        rw [kind]
        exact gives_lift.mpr ⟨gives_linkedSender.mpr ⟨_, _, saved, returns, rfl⟩, rfl⟩
    | adapter kind resolves =>
        rw [kind]
        exact resolves

/-- The ways in which a step to the caller succeeds on x86-64. -/
theorem gives_sender (x86 : view.layout = .x86_64) :
    (frame.sender view).Gives map caller after ↔
      StepsTo .x86_64 view frame map caller after := by
  rw [gives_sender_iff, x86]

end Frame

/-- A read answers or fails. -/
theorem Stack.concludes_read
    (stack : Stack)
    (address : Address) :
    (stack.read address).Concludes := by
  unfold Stack.read
  rcases stack.read? address with (_ | _) | word
  · exact .inr ⟨_, rfl⟩
  · exact .inr ⟨_, rfl⟩
  · exact .inl ⟨_, rfl⟩

namespace Frame

/-! A step answers or fails, as long as the layout's offsets have negatives. -/

section Concludes

variable {view : View} {frame : Frame} {map : RegisterMap}

theorem concludes_recordLink
    (address : Address)
    (map : RegisterMap) :
    (recordLink address : Operation RegisterMap ε Unit).Concludes map :=
  .of_gives (gives_recordLink.mpr rfl : Gives _ map () _)

theorem concludes_plain (sp fp pc : Address) :
    (plain view sp fp pc : Probe ε Frame).Concludes :=
  .inl ⟨_, gives_plain.mpr rfl⟩

theorem concludes_extended (sp unextendedSp fp pc : Address) :
    (extended view sp unextendedSp fp pc : Probe ε Frame).Concludes :=
  .inl ⟨_, gives_extended.mpr rfl⟩

theorem concludes_field (offset : Int) : (frame.field view offset).Concludes :=
  Stack.concludes_read _ _

theorem concludes_callWrapper : (frame.callWrapper view).Concludes :=
  .bind (.ite (fun _ => .pure) fun _ => .fail) fun _ _ =>
    .bind (concludes_field _) fun _ _ => .pure

theorem concludes_anchor
    (wrapper : CallWrapper)
    (stack : Stack) :
    (wrapper.anchor stack).Concludes :=
  .bind (Stack.concludes_read _ _) fun _ _ =>
    .bind (Stack.concludes_read _ _) fun _ _ =>
      .bind (Stack.concludes_read _ _) fun _ _ => .pure

/-- Whether a frame is the first one is decided or fails. -/
theorem concludes_isFirst : (frame.isFirst view).Concludes :=
  .ite
    (fun _ => .bind concludes_callWrapper fun _ _ =>
      .bind (concludes_anchor _ _) fun _ _ => .pure)
    fun _ => .pure

theorem concludes_linkedSender : (frame.linkedSender view).Concludes :=
  .bind (concludes_field _) fun _ _ =>
    .bind (concludes_field _) fun _ _ => concludes_plain _ _ _

theorem concludes_interpretedSender : (frame.interpretedSender view).Concludes map :=
  .bind (concludes_ofProbe (concludes_field _)) fun _ _ _ =>
    .bind (concludes_recordLink _ _) fun _ _ _ =>
      .bind (concludes_ofProbe (concludes_field _)) fun _ _ _ =>
        .bind (concludes_ofProbe (concludes_field _)) fun _ _ _ =>
          concludes_ofProbe (concludes_extended _ _ _ _)

theorem concludes_entrySender : (frame.entrySender view).Concludes map := by
  unfold entrySender
  refine .bind (concludes_ofProbe concludes_callWrapper) fun wrapper _ _ => ?_
  refine .bind (concludes_ofProbe (concludes_anchor _ _)) fun anchor _ _ => ?_
  refine .ite (fun _ => .fail) fun _ => .ite (fun _ => .fail) fun _ => ?_
  refine .bind .update fun _ _ _ => ?_
  exact .ite (fun _ => concludes_ofProbe (concludes_plain _ _ _)) fun _ =>
    .bind (concludes_ofProbe (Stack.concludes_read _ _)) fun _ _ _ =>
      concludes_ofProbe (concludes_plain _ _ _)

theorem concludes_compiledSender
    (negates : fitsSigned (-view.layout.senderSp) = true) :
    (frame.compiledSender view).Concludes map := by
  unfold compiledSender
  cases frame.blob with
  | none => exact .fail
  | some blob =>
      refine .ite (fun _ => .bind .report fun _ _ _ => .fail) fun _ => ?_
      refine .bind (concludes_ofProbe (Stack.concludes_read _ _)) fun pc _ _ => ?_
      have negated : negateSigned view.layout.senderSp = .ok (-view.layout.senderSp) := by
        simp [negateSigned, negates]
      refine .bind (.check negated) fun offset _ _ => ?_
      refine .bind (.of_gives (gives_state.mpr ⟨rfl, rfl⟩)) fun now _ _ => ?_
      have ends (known : RegisterMap) : Concludes (do
          recordLink ((frame.fixedSenderSp blob).offset offset)
          let link ← ofProbe (view.stack.read ((frame.fixedSenderSp blob).offset offset))
          ofProbe (extended view (frame.fixedSenderSp blob) (frame.fixedSenderSp blob)
            link pc)) known :=
        .bind (concludes_recordLink _ _) fun _ _ _ =>
          .bind (concludes_ofProbe (Stack.concludes_read _ _)) fun _ _ _ =>
            concludes_ofProbe (concludes_extended _ _ _ _)
      exact .ite (fun _ => .bind .update fun _ _ _ => ends _) fun _ => ends _

theorem concludes_sender
    (negates : fitsSigned (-view.layout.senderSp) = true)
    (reliable : view.adapters.Reliable) :
    (frame.sender view).Concludes map := by
  unfold sender
  refine .bind .update fun _ _ _ => ?_
  cases frame.kind with
  | entry => exact concludes_entrySender
  | interpreted => exact concludes_interpretedSender
  | ricochet => exact reliable.concludes _ _ _
  | compiled => exact concludes_compiledSender negates
  | nativeWrapper => exact concludes_compiledSender negates
  | stub => exact concludes_compiledSender negates
  | native => exact concludes_ofProbe concludes_linkedSender

end Concludes

end Frame

end ManagedStack
