import ManagedStack.Proofs.Senders
import ManagedStack.Proofs.Views

namespace ManagedStack

/-!
# Walking a chain

A walk from the top of a chain yields a frame for each activation and then the entry
frame, because every frame leads back to what its activation rests on.  The walk
ends there, or goes on with the frame that the anchor from before the entry names.
-/

namespace Operation

/-- The operation answers, with these notes, and leaves this state. -/
def Runs
    (operation : Operation σ ε α)
    (before : σ)
    (value : α)
    (notes : Notes)
    (after : σ) :
    Prop :=
  operation before = (⟨.ok value, notes⟩, after)

section Runs

variable {before between after : σ} {notes more : Notes}

/-- What answers also gives its answer. -/
theorem Runs.gives
    {operation : Operation σ ε α}
    {value : α}
    (runs : operation.Runs before value notes after) :
    operation.Gives before value after := by
  unfold Runs at runs
  exact ⟨by rw [runs]; rfl, by rw [runs]⟩

/-- The notes of a chain are those of its links. -/
theorem Runs.bind
    {first : Operation σ ε α}
    {next : α → Operation σ ε β}
    {middle : α}
    {value : β}
    (firstRuns : first.Runs before middle notes between)
    (nextRuns : (next middle).Runs between value more after) :
    (first >>= next).Runs before value (notes ++ more) after := by
  unfold Runs at firstRuns nextRuns ⊢
  change first.andThen next before = _
  unfold andThen
  rw [firstRuns]
  simp only [nextRuns]

/-- What answers without a note after some work adds nothing to it. -/
theorem Runs.bind_quiet
    {first : Operation σ ε α}
    {next : α → Operation σ ε β}
    {middle : α}
    {value : β}
    (firstRuns : first.Runs before middle notes between)
    (nextRuns : (next middle).Runs between value [] after) :
    (first >>= next).Runs before value notes after := by
  have runs := firstRuns.bind nextRuns
  rwa [List.append_nil] at runs

/-- Nothing is left of a first part that answered without a note. -/
theorem Runs.bind_eq
    {first : Operation σ ε α}
    {next : α → Operation σ ε β}
    {middle : α}
    (runs : first.Runs before middle [] between) :
    (first >>= next) before = next middle between := by
  change first.andThen next before = _
  unfold andThen
  rw [runs]
  rfl

theorem runs_pure (value : α) :
    (pure value : Operation σ ε α).Runs before value [] before :=
  rfl

theorem runs_ofProbe (value : α) :
    (ofProbe ⟨.ok value, notes⟩ : Operation σ ε α).Runs
      before value notes before :=
  rfl

theorem runs_update (change : σ → σ) :
    (update change : Operation σ ε Unit).Runs before () [] (change before) :=
  rfl

theorem runs_state : (state : Operation σ ε σ).Runs before before [] before :=
  rfl

/-- An attempt that answers answers with the answer. -/
theorem Runs.attempt
    {operation : Operation σ ε α}
    {value : α}
    (runs : operation.Runs before value notes after) :
    (operation.attempt : Operation σ ε' (Except ε α)).Runs
      before (.ok value) notes after := by
  unfold Runs at runs ⊢
  unfold Operation.attempt
  rw [runs]
  rfl

end Runs

end Operation

namespace Frame

/-- Interpreter code and the call stub hold no compiled unit. -/
theorem compiled?_eq_none
    {frame : Frame}
    (kind : frame.kind = .interpreted ∨ frame.kind = .entry) :
    frame.compiled? = none := by
  unfold Frame.kind at kind
  unfold compiled?
  rcases found : frame.blob with _ | blob
  · rfl
  · rw [found] at kind
    change blob.compiled? = none
    unfold Blob.compiled?
    split
    · rename_i compiledUnit isCompiled
      simp only [isCompiled] at kind
      split at kind <;> simp at kind
    · rfl

/-- Frames of interpreter code and of the call stub resolve to themselves. -/
theorem resolve_eq
    {view : View}
    {frame : Frame}
    (kind : frame.kind = .interpreted ∨ frame.kind = .entry) :
    (frame.resolve view : Probe ε Frame) =
      pure { frame with deoptState := .notDeoptimized } := by
  simp [resolve, resumesAtHandler, compiled?_eq_none kind]

/-- They take their unextended stack pointer as it is. -/
theorem adjust_eq
    {frame : Frame}
    (kind : frame.kind = .interpreted ∨ frame.kind = .entry) :
    frame.adjust = frame := by
  simp [adjust, compiled?_eq_none kind]

end Frame

section Chain

variable (context : ManagerContext τ)

/-- The frame that a walk finds for what an activation rests on. -/
def chainFrame
    (entry : EntryRecord)
    (sp unextendedSp : Address)
    (chain : List HeldActivation) :
    Frame where
  sp := sp
  unextendedSp := unextendedSp
  fp := (footing context entry chain).fp
  pc := (footing context entry chain).returnPc
  blob := context.env.code.find? (footing context entry chain).returnPc
  deoptState := .notDeoptimized

/-- The code cache has blobs for the addresses that the manager stores. -/
structure Coded : Prop where
  interpreter : context.env.code.interpreterContains
    context.entryPoints.interpreterReturnPc = true
  callStub : context.env.code.returnsToCallStub
    context.entryPoints.callStubReturnPc = true

end Chain

section Chain

variable {context : ManagerContext τ} {entry : EntryRecord}
  {held : HeldActivation} {callers : List HeldActivation}
  {sp unextendedSp : Address}

/-- The frame of an activation is interpreted. -/
theorem kind_chainFrame_cons (coded : Coded context) :
    (chainFrame context entry sp unextendedSp (held :: callers)).kind =
      .interpreted :=
  Frame.interpreted_of_contains coded.interpreter rfl

/-- The frame of the entry is an entry frame. -/
theorem kind_chainFrame_nil (coded : Coded context) :
    (chainFrame context entry sp unextendedSp []).kind = .entry := by
  have inCode := coded.callStub
  unfold CodeCache.returnsToCallStub at inCode
  split at inCode
  · rename_i blob found
    have isStub : blob.kind =
        .callStub context.entryPoints.callStubReturnPc := by
      simpa using inCode
    simp [Frame.kind, chainFrame, footing, found, isStub]
  · cases inCode

/-- A frame on a chain is interpreted or the entry frame. -/
theorem kind_chainFrame
    {chain : List HeldActivation}
    (coded : Coded context) :
    (chainFrame context entry sp unextendedSp chain).kind = .interpreted ∨
      (chainFrame context entry sp unextendedSp chain).kind = .entry := by
  cases chain with
  | nil => exact .inr (kind_chainFrame_nil coded)
  | cons held callers => exact .inl (kind_chainFrame_cons coded)

section Resolving

variable {chain : List HeldActivation} {view : View}

theorem unresolved_eq (sameEnv : view.toEnv = context.env) :
    { Frame.unresolved view sp unextendedSp (footing context entry chain).fp
        (footing context entry chain).returnPc with
      deoptState := .notDeoptimized } =
        chainFrame context entry sp unextendedSp chain := by
  unfold Frame.unresolved chainFrame
  rw [sameEnv]

/-- Registers without a resolution tell the kind already. -/
theorem kind_unresolved
    (coded : Coded context)
    (sameEnv : view.toEnv = context.env) :
    (Frame.unresolved view sp unextendedSp (footing context entry chain).fp
        (footing context entry chain).returnPc).kind = .interpreted ∨
      (Frame.unresolved view sp unextendedSp (footing context entry chain).fp
        (footing context entry chain).returnPc).kind = .entry := by
  have kind : (chainFrame context entry sp unextendedSp chain).kind =
      .interpreted ∨
        (chainFrame context entry sp unextendedSp chain).kind = .entry :=
    kind_chainFrame coded
  rw [← unresolved_eq sameEnv] at kind
  exact kind

/-- The registers of a footing resolve to the frame of its chain. -/
theorem resolve_chainFrame
    (entry : EntryRecord)
    (chain : List HeldActivation)
    (coded : Coded context)
    (sameEnv : view.toEnv = context.env) :
    ((Frame.unresolved view sp unextendedSp (footing context entry chain).fp
      (footing context entry chain).returnPc).resolve view : Probe ε Frame) =
        pure (chainFrame context entry sp unextendedSp chain) := by
  rw [Frame.resolve_eq (kind_unresolved coded sameEnv), unresolved_eq sameEnv]

/-- They resolve to it also where the caller may have extended its stack. -/
theorem extended_chainFrame
    (coded : Coded context)
    (sameEnv : view.toEnv = context.env) :
    (Frame.extended view sp unextendedSp (footing context entry chain).fp
      (footing context entry chain).returnPc : Probe ε Frame) =
        pure (chainFrame context entry sp unextendedSp chain) := by
  unfold Frame.extended
  rw [Frame.adjust_eq (kind_unresolved coded sameEnv),
    resolve_chainFrame entry chain coded sameEnv]

end Resolving

/-- What a step away from an interpreted frame makes of a register map. -/
def linkedMap
    (map : RegisterMap)
    (address : Address) :
    RegisterMap :=
  if map.tracking then
    (map.withArgumentOops false).record Register.rbp address
  else
    map.withArgumentOops false

/-- A chain with a frame on it that the view of the stack depicts. -/
theorem depicts_of_chained
    {view : View}
    (unextendedSp : Address)
    (coded : Coded context)
    (layout : view.layout = .x86_64)
    (chained : Chained context view.stack entry (held :: callers))
    (spLe : sp.toNat ≤ held.activation.monitorEnd.toNat)
    (top : held.activation.stackTop ≠ 0) :
    (chainFrame context entry sp unextendedSp (held :: callers)).Depicts view
      held.activation where
  layout := layout
  kind := kind_chainFrame_cons coded
  fp := rfl
  sits := chained.1.sits
  published := chained.2.1
  method := chained.1.laid.method
  locals := chained.1.laid.locals
  spLe := spLe
  top := top

/-- What layout left in an activation's frame is read back through the frame. -/
theorem fields_chainFrame
    {view : View}
    {callerFp returnPc : Address}
    (entry : EntryRecord)
    (sp unextendedSp : Address)
    (callers : List HeldActivation)
    (layout : view.layout = .x86_64)
    (laid : held.Laid view.stack callerFp returnPc) :
    (chainFrame context entry sp unextendedSp (held :: callers)).interpreterSenderSp
        view = pure held.argumentTop ∧
      (chainFrame context entry sp unextendedSp (held :: callers)).link view =
          pure callerFp ∧
        (chainFrame context entry sp unextendedSp (held :: callers)).senderPc view =
          pure returnPc := by
  have link : view.stack.Holds (held.activation.fp.offset 0) callerFp := by
    rw [Word.offset_zero]
    exact laid.link
  unfold Frame.interpreterSenderSp Frame.link Frame.senderPc
  rw [layout]
  exact ⟨Frame.field_of_holds laid.senderSp, Frame.field_of_holds link,
    Frame.field_of_holds laid.returnAddress⟩

/-- Recording the link of an activation's frame is all that the step away from it notes. -/
theorem runs_recordLink_chainFrame (map : RegisterMap) :
    (Frame.recordLink
      ((chainFrame context entry sp unextendedSp (held :: callers)).slot
        FrameLayout.x86_64.link) : Operation RegisterMap FrameError Unit).Runs
      (map.withArgumentOops false) () [] (linkedMap map held.activation.fp) := by
  have slot : (chainFrame context entry sp unextendedSp
      (held :: callers)).slot FrameLayout.x86_64.link = held.activation.fp :=
    Word.offset_zero _
  refine .bind Operation.runs_state ?_
  unfold linkedMap
  by_cases tracks : map.tracking = true
  · rw [if_pos tracks, if_pos (by exact tracks), slot]
    exact Operation.runs_update _
  · rw [if_neg tracks, if_neg (by exact tracks)]
    exact Operation.runs_pure _

/-- The caller of an activation's frame is the frame of what it rests on. -/
theorem runs_sender
    {view : View}
    (coded : Coded context)
    (sameEnv : view.toEnv = context.env)
    (layout : view.layout = .x86_64)
    (rests : Rests context view.stack entry held callers)
    (map : RegisterMap) :
    ((chainFrame context entry sp unextendedSp (held :: callers)).sender
      view).Runs map
        (chainFrame context entry (held.activation.fp.offset 2)
          held.argumentTop callers)
        [] (linkedMap map held.activation.fp) := by
  obtain ⟨senderSp, link, pc⟩ := fields_chainFrame entry sp unextendedSp callers
    layout rests.laid
  have found : (Frame.extended view
      ((chainFrame context entry sp unextendedSp (held :: callers)).senderSp
        view) held.argumentTop (footing context entry callers).fp
        (footing context entry callers).returnPc : Probe FrameError Frame) =
      pure (chainFrame context entry (held.activation.fp.offset 2)
        held.argumentTop callers) := by
    unfold Frame.senderSp
    rw [layout]
    exact extended_chainFrame coded sameEnv
  unfold Frame.sender
  refine .bind (Operation.runs_update _) ?_
  rw [kind_chainFrame_cons coded]
  change (Frame.interpretedSender _ view).Runs _ _ _ _
  unfold Frame.interpretedSender
  rw [senderSp, link, pc, layout]
  refine .bind (Operation.runs_ofProbe _) (.bind (runs_recordLink_chainFrame map) (.bind
    (Operation.runs_ofProbe _) (.bind (Operation.runs_ofProbe _) ?_)))
  rw [found]
  exact Operation.runs_ofProbe _

/-- After the frame of an activation comes that of what it rests on. -/
theorem runs_following
    {view : View}
    (coded : Coded context)
    (sameEnv : view.toEnv = context.env)
    (layout : view.layout = .x86_64)
    (rests : Rests context view.stack entry held callers)
    (spLe : sp.toNat ≤ held.activation.monitorEnd.toNat)
    (map : RegisterMap) :
    (FrameStream.following view
      (chainFrame context entry sp unextendedSp (held :: callers)) :
        Operation RegisterMap ε _).Runs map
        (some (.ok (chainFrame context entry (held.activation.fp.offset 2)
          held.argumentTop callers)))
        [] (linkedMap map held.activation.fp) := by
  have notFirst : (chainFrame context entry sp unextendedSp
      (held :: callers)).isFirst view = pure false := by
    simp [Frame.isFirst, kind_chainFrame_cons coded]
  have above : ¬held.activation.fp.offset 2 ≤ sp := by
    have place := rests.sits.toNat_senderSp
    have lowest := rests.sits.monitorBase
    have monitors := rests.sits.monitorEndLe
    rw [UInt64.le_iff_toNat_le]
    omega
  have found : ((chainFrame context entry sp unextendedSp
      (held :: callers)).senderAbove view).Runs map
        (chainFrame context entry (held.activation.fp.offset 2)
          held.argumentTop callers)
        [] (linkedMap map held.activation.fp) := by
    refine .bind (runs_sender coded sameEnv layout rests map) ?_
    change (if held.activation.fp.offset 2 ≤ sp then _ else _ :
      Operation RegisterMap FrameError Frame).Runs _ _ _ _
    rw [if_neg above]
    exact Operation.runs_pure _
  unfold FrameStream.following
  rw [notFirst]
  exact .bind (Operation.Runs.attempt (Operation.runs_ofProbe false))
    (.bind found.attempt (Operation.runs_pure _))

section Entry

variable {view : View}

/-- The entry frame points at the call wrapper. -/
theorem callWrapper_chainFrame
    (coded : Coded context)
    (layout : view.layout = .x86_64)
    (stands : entry.Stands view.stack) :
    (chainFrame context entry sp unextendedSp []).callWrapper view =
      pure ⟨entry.wrapper⟩ := by
  have address : (chainFrame context entry sp unextendedSp
      []).callWrapperAddress view = pure entry.wrapper := by
    unfold Frame.callWrapperAddress
    rw [layout]
    exact Frame.field_of_holds stands.callWrapper
  simp [Frame.callWrapper, Frame.expectKind, kind_chainFrame_nil coded, address]

/-- The call wrapper keeps the anchor from before the entry. -/
theorem anchor_of_stands (stands : entry.Stands view.stack) :
    CallWrapper.anchor ⟨entry.wrapper⟩ view.stack =
      pure entry.savedAnchor := by
  have sp := Stack.read_of_holds stands.anchorSp
  have fp := Stack.read_of_holds stands.anchorFp
  have pc := Stack.read_of_holds stands.anchorPc
  unfold CallWrapper.anchor CallWrapper.slot
  rw [sp, fp, pc]
  rfl

/-- An entry without an anchor from before is the end of a walk. -/
theorem runs_following_entry_first
    (coded : Coded context)
    (layout : view.layout = .x86_64)
    (stands : entry.Stands view.stack)
    (empty : entry.savedAnchor.isEmpty = true)
    (map : RegisterMap) :
    (FrameStream.following view (chainFrame context entry sp unextendedSp []) :
      Operation RegisterMap ε _).Runs map none [] map := by
  have first : (chainFrame context entry sp unextendedSp []).isFirst view =
      pure true := by
    simp [Frame.isFirst, kind_chainFrame_nil coded, Frame.entryIsFirst,
      callWrapper_chainFrame coded layout stands, anchor_of_stands stands, empty]
  unfold FrameStream.following
  rw [first]
  exact .bind (Operation.Runs.attempt (Operation.runs_ofProbe true))
    (Operation.runs_pure _)

/-- Code that called in resumes somewhere, because its stack has a word there. -/
theorem EntryRecord.Stands.exists_anchorPc
    {stack : Stack}
    (stands : entry.Stands stack)
    (nonempty : entry.savedAnchor.isEmpty = false) :
    ∃ pc, Frame.AnchorPc stack entry.savedAnchor pc := by
  by_cases zero : entry.savedAnchor.pc = 0
  · obtain ⟨count, -, inStack, anchorSp⟩ := stands.handles
    have place := anchorSp nonempty
    have aligned := stands.aligned
    have low := stands.low
    have small := entry.savedAnchor.sp.toNat_lt
    have moved : (entry.savedAnchor.sp.offset (-1)).toNat =
        entry.savedAnchor.sp.toNat - 8 :=
      Word.toNat_offset_of_fits (by omega) (by omega)
    have covers : stack.Covers (entry.savedAnchor.sp.offset (-1)) := by
      refine ⟨?_, ?_, ?_⟩ <;> omega
    obtain ⟨pc, holds⟩ := Stack.exists_holds covers
    exact ⟨pc, .inr ⟨zero, holds⟩⟩
  · exact ⟨_, .inl ⟨zero, rfl⟩⟩

/-- A frame made of registers is always found, and has these registers. -/
theorem exists_plain
    (view : View)
    (sp fp pc : Address) :
    ∃ frame notes,
      (Frame.plain view sp fp pc : Probe ε Frame) = ⟨.ok frame, notes⟩ ∧
        frame.sp = sp := by
  unfold Frame.plain Frame.resolve
  split
  · split
    · exact ⟨_, _, rfl, rfl⟩
    · exact ⟨_, _, rfl, rfl⟩
  · exact ⟨_, _, rfl, rfl⟩

/--
An entry with an anchor from before leads on to the frame that it names.  The saved
stack pointer is above the handles, and these are above the frame.
-/
theorem runs_following_entry
    (sp unextendedSp : Address)
    {pc : Address}
    (coded : Coded context)
    (layout : view.layout = .x86_64)
    (stands : entry.Stands view.stack)
    (nonempty : entry.savedAnchor.isEmpty = false)
    (resumes : Frame.AnchorPc view.stack entry.savedAnchor pc)
    (spLe : sp.toNat ≤ entry.floor)
    (map : RegisterMap) :
    ∃ frame notes,
      (Frame.plain view entry.savedAnchor.sp entry.savedAnchor.fp pc :
          Probe FrameError Frame) = ⟨.ok frame, notes⟩ ∧
        (FrameStream.following view
          (chainFrame context entry sp unextendedSp []) :
            Operation RegisterMap ε _).Runs map (some (.ok frame)) notes
              (map.withArgumentOops false).crossEntry := by
  obtain ⟨frame, notes, found, spIs⟩ := exists_plain (ε := FrameError) view
    entry.savedAnchor.sp entry.savedAnchor.fp pc
  refine ⟨frame, notes, found, ?_⟩
  have notFirst : (chainFrame context entry sp unextendedSp []).isFirst view =
      pure false := by
    simp [Frame.isFirst, kind_chainFrame_nil coded, Frame.entryIsFirst,
      callWrapper_chainFrame coded layout stands, anchor_of_stands stands,
      nonempty]
  have above : ¬entry.savedAnchor.sp ≤ sp := by
    obtain ⟨count, -, -, anchorSp⟩ := stands.handles
    have anchorPlace := anchorSp nonempty
    have framePlace := stands.toNat_framePointer
    unfold EntryRecord.floor at spLe
    rw [UInt64.le_iff_toNat_le]
    omega
  have leads : ((chainFrame context entry sp unextendedSp []).entrySender
      view).Runs (map.withArgumentOops false) frame notes
        (map.withArgumentOops false).crossEntry := by
    unfold Frame.entrySender
    rw [callWrapper_chainFrame coded layout stands]
    refine .bind (Operation.runs_ofProbe _) ?_
    rw [anchor_of_stands stands]
    refine .bind (Operation.runs_ofProbe _) ?_
    rw [if_neg (by rw [nonempty]; decide), if_neg (by exact above)]
    refine .bind (Operation.runs_update _) ?_
    rcases resumes with ⟨nonzero, rfl⟩ | ⟨zero, holds⟩
    · rw [if_pos nonzero]
      refine .bind (Operation.runs_pure _) ?_
      dsimp only
      rw [found]
      exact Operation.runs_ofProbe _
    · rw [if_neg (Decidable.not_not.mpr zero), Stack.read_of_holds holds]
      refine .bind (Operation.runs_ofProbe _) ?_
      dsimp only
      rw [found]
      exact Operation.runs_ofProbe _
  have sent : ((chainFrame context entry sp unextendedSp []).sender
      view).Runs map frame notes (map.withArgumentOops false).crossEntry := by
    unfold Frame.sender
    refine .bind (Operation.runs_update _) ?_
    rw [kind_chainFrame_nil coded]
    exact leads
  have steps : ((chainFrame context entry sp unextendedSp []).senderAbove
      view).Runs map frame notes (map.withArgumentOops false).crossEntry := by
    refine sent.bind_quiet ?_
    rw [if_neg (by rw [spIs]; exact above)]
    exact Operation.runs_pure _
  unfold FrameStream.following
  rw [notFirst]
  refine .bind (Operation.Runs.attempt (Operation.runs_ofProbe false)) ?_
  exact .bind_quiet steps.attempt (Operation.runs_pure _)

end Entry

/-- A step of a stream finds what follows the frame it yields. -/
theorem FrameStream.advance_of_runs
    {view : View}
    {frame : Frame}
    {map mapAfter : RegisterMap}
    {next : Option (Except FrameError Frame)}
    {notes : Notes}
    (runs : (FrameStream.following view frame : Operation RegisterMap ε _).Runs
      map next notes mapAfter) :
    (FrameStream.advance view ⟨some (.ok frame), map⟩ : Probe ε _) =
      ⟨.ok (some (.ok ⟨frame, map⟩, ⟨next, mapAfter⟩)), notes⟩ := by
  unfold Operation.Runs at runs
  simp only [FrameStream.advance, runs, Probe.andThen, Probe.answer,
    List.append_nil]

namespace FrameStream

/-- The stream shows each activation in turn, and then the entry frame. -/
def ShowsChain
    (view : View)
    (entry : EntryRecord)
    (stream : FrameStream) :
    List HeldActivation → Prop
  | [] => ∃ walked rest,
      (stream.advance view : Probe FrameError _).Gives
          (some (.ok walked, rest)) ∧
        walked.frame.kind = .entry ∧
        walked.frame.callWrapper view = pure ⟨entry.wrapper⟩ ∧
        (entry.savedAnchor.isEmpty = true → rest.next = none) ∧
        (entry.savedAnchor.isEmpty = false → ∃ frame,
          (Frame.plain view entry.savedAnchor.sp entry.savedAnchor.fp
              entry.savedAnchor.pc : Probe FrameError Frame).Gives frame ∧
            rest.next = some (.ok frame))
  | held :: callers => ∃ walked rest,
      (stream.advance view : Probe FrameError _).Gives
          (some (.ok walked, rest)) ∧
        walked.frame.Shows view held.activation ∧
        ShowsChain view entry rest callers

end FrameStream

/-- The caller of an activation has a top that is not address zero. -/
theorem Rests.callerTop_ne_zero
    {stack : Stack}
    {caller : HeldActivation}
    (rests : Rests context stack entry held (caller :: callers)) :
    caller.activation.stackTop ≠ 0 := by
  have top := rests.arguments caller rfl
  have place := HeldActivation.toNat_argumentTop rests.sits rests.laid.parameters
  have fewer := rests.laid.parameters
  unfold Activation.ceiling at place
  rw [top]
  intro zero
  rw [zero] at place
  change 0 + _ = _ at place
  omega

/-- A chain on the stack at which a walk can begin. -/
structure Walkable
    (context : ManagerContext τ)
    (stack : Stack)
    (entry : EntryRecord)
    (sp : Address)
    (chain : List HeldActivation) :
    Prop where
  chained : Chained context stack entry chain
  spLe : sp.toNat ≤ (footing context entry chain).floor
  top : ∀ held ∈ chain.head?, held.activation.stackTop ≠ 0

/-- A walk goes on with the callers. -/
theorem Walkable.rest
    (walkable : Walkable context stack entry sp (held :: callers)) :
    Walkable context stack entry (held.activation.fp.offset 2) callers where
  chained := walkable.chained.2.2
  spLe := by
    have rests := walkable.chained.1
    have within := rests.within
    have place := rests.sits.toNat_senderSp
    unfold Activation.ceiling at within
    omega
  top := by
    intro caller isCaller
    obtain ⟨rest, rfl⟩ := List.head?_eq_some_iff.mp isCaller
    exact walkable.chained.1.callerTop_ne_zero

/-- The frame that a walk has reached depicts the activation. -/
theorem Walkable.depicts
    {view : View}
    (unextendedSp : Address)
    (walkable : Walkable context view.stack entry sp (held :: callers))
    (coded : Coded context)
    (layout : view.layout = .x86_64) :
    (chainFrame context entry sp unextendedSp (held :: callers)).Depicts view
      held.activation :=
  depicts_of_chained unextendedSp coded layout walkable.chained walkable.spLe
    (walkable.top held rfl)

/-- The frames that a walk yields, each with its register map. -/
def walkedChain
    (context : ManagerContext τ)
    (entry : EntryRecord)
    (sp unextendedSp : Address)
    (map : RegisterMap) :
    List HeldActivation → List WalkedFrame
  | [] => [⟨chainFrame context entry sp unextendedSp [], map⟩]
  | held :: callers =>
      ⟨chainFrame context entry sp unextendedSp (held :: callers), map⟩ ::
        walkedChain context entry (held.activation.fp.offset 2)
          held.argumentTop (linkedMap map held.activation.fp) callers

/--
A walk that begins on a chain shows the chain.  It goes down the chain, and from its
last activation to the entry frame.
-/
theorem showsChain_of_chained
    {view : View}
    {chain : List HeldActivation}
    (coded : Coded context)
    (sameEnv : view.toEnv = context.env)
    (layout : view.layout = .x86_64)
    (resumes : entry.savedAnchor.isEmpty = true ∨ entry.savedAnchor.pc ≠ 0)
    (walkable : Walkable context view.stack entry sp chain)
    (map : RegisterMap) :
    (⟨some (.ok (chainFrame context entry sp unextendedSp chain)), map⟩ :
      FrameStream).ShowsChain view entry chain := by
  induction chain generalizing sp unextendedSp map with
  | nil =>
      have stands : entry.Stands view.stack := walkable.chained
      rcases first : entry.savedAnchor.isEmpty with _ | _
      · obtain ⟨frame, notes, found, runs⟩ := runs_following_entry
          (ε := FrameError) sp unextendedSp coded layout stands first
          (.inl ⟨resumes.resolve_left (by rw [first]; decide), rfl⟩)
          walkable.spLe map
        refine ⟨_, _, congrArg Probe.outcome
          (FrameStream.advance_of_runs runs), kind_chainFrame_nil coded,
          callWrapper_chainFrame coded layout stands, ?_, fun _ => ?_⟩
        · intro empty
          rw [first] at empty
          cases empty
        · exact ⟨frame, congrArg Probe.outcome found, rfl⟩
      · refine ⟨_, _, congrArg Probe.outcome (FrameStream.advance_of_runs
          (runs_following_entry_first coded layout stands first map)),
          kind_chainFrame_nil coded,
          callWrapper_chainFrame coded layout stands, fun _ => rfl, ?_⟩
        intro nonempty
        rw [first] at nonempty
        cases nonempty
  | cons held callers inductionHypothesis =>
      have depicts := walkable.depicts unextendedSp coded layout
      have endLe := walkable.spLe
      exact ⟨_, _, congrArg Probe.outcome (FrameStream.advance_of_runs
        (runs_following coded sameEnv layout walkable.chained.1 endLe map)),
        depicts.shows, inductionHypothesis walkable.rest _⟩

end Chain

/-- A walk can begin at the top, wherever that is but at address zero. -/
theorem Session.Stacked.walkable
    {context : ManagerContext τ}
    {session : Session τ}
    {entry : EntryRecord}
    {rest : Array HeldActivation}
    {held : HeldActivation}
    (stacked : session.Stacked context)
    (isEntry : session.manager.entry = some entry)
    (stands : session.manager.activations = rest.push held)
    (top : held.activation.stackTop ≠ 0) :
    Walkable context session.machine.stack entry held.activation.stackTop
      (held :: rest.toList.reverse) where
  chained := reverse_of_push stands ▸ stacked.chained entry isEntry
  spLe := by
    have chained := stacked.chained entry isEntry
    rw [reverse_of_push stands] at chained
    exact chained.1.sits.topLe
  top := by simpa using top

/-- The last frame of a thread is that of the top. -/
theorem Session.Stacked.lastFrame_eq
    {context : ManagerContext τ}
    {session : Session τ}
    {rest : Array HeldActivation}
    {held : HeldActivation}
    (stacked : session.Stacked context)
    (coded : Coded context)
    (entry : EntryRecord)
    (isEntry : session.manager.entry = some entry)
    (stands : session.manager.activations = rest.push held)
    (top : held.activation.stackTop ≠ 0) :
    (session.machine.thread.lastFrame (session.machine.view context.env) :
        Probe FrameError Frame) =
      pure (chainFrame context entry held.activation.stackTop
        held.activation.stackTop (held :: rest.toList.reverse)) := by
  have anchor := stacked.anchored (by rw [isEntry]; rfl)
  rw [FrameManager.top?_of_push stands] at anchor
  have nonempty : ¬(Session.anchorFor context
      (some held.activation)).isEmpty = true := by
    simp [Session.anchorFor, FrameAnchor.isEmpty, top]
  unfold Thread.lastFrame
  rw [anchor, if_neg nonempty]
  exact resolve_chainFrame entry (held :: rest.toList.reverse) coded rfl

/-- The walk of a thread begins at the frame of the top. -/
theorem Session.Stacked.frameStream_eq
    {context : ManagerContext τ}
    {session : Session τ}
    {entry : EntryRecord}
    {rest : Array HeldActivation}
    {held : HeldActivation}
    (stacked : session.Stacked context)
    (coded : Coded context)
    (isEntry : session.manager.entry = some entry)
    (stands : session.manager.activations = rest.push held)
    (top : held.activation.stackTop ≠ 0)
    (tracking : Bool) :
    session.machine.thread.frameStream (session.machine.view context.env)
        tracking =
      pure ⟨some (.ok (chainFrame context entry held.activation.stackTop
          held.activation.stackTop (held :: rest.toList.reverse))),
        RegisterMap.empty tracking⟩ := by
  unfold Thread.frameStream
  rw [stacked.lastFrame_eq coded entry isEntry stands top]
  rfl

/--
Between two calls a walk of the thread shows the chain of activations.

The one exception is a top whose expression stack ends at address zero, which only a
stack that begins there can have: the anchor then reads as empty, and no walk begins.
-/
theorem showsChain_of_reached
    {context : ManagerContext τ}
    {session : Session τ}
    {top : Activation}
    (x86 : context.env.layout = .x86_64)
    (coded : Coded context)
    (reached : Reached context session)
    (isTop : session.manager.top? = some top)
    (resumes : ∀ entry ∈ session.manager.entry,
      entry.savedAnchor.isEmpty = true ∨ entry.savedAnchor.pc ≠ 0)
    (tracking : Bool) :
    (top.stackTop = 0 →
      session.machine.stack.limit = 0 ∧
        (session.machine.thread.frameStream
          (session.machine.view context.env) tracking).outcome =
            .error (.error .noLastJavaFrame)) ∧
      (top.stackTop ≠ 0 → ∃ entry stream,
        session.manager.entry = some entry ∧
          (session.machine.thread.frameStream
            (session.machine.view context.env) tracking).Gives stream ∧
          stream.ShowsChain (session.machine.view context.env) entry
            session.manager.activations.toList.reverse) := by
  have stacked := reached.stacked x86
  obtain ⟨rest, held, stands, rfl⟩ := FrameManager.push_of_top? isTop
  have isSome : session.manager.entry.isSome = true :=
    reached.followsProtocol.entry.mpr
      (.inl (by simp [FrameManager.depth_of_push stands]))
  obtain ⟨entry, isEntry⟩ := Option.isSome_iff_exists.mp isSome
  have chained := stacked.chained entry isEntry
  rw [Session.reverse_of_push stands] at chained
  refine ⟨fun zero => ?_, fun nonzero => ?_⟩
  · have limitLe := chained.1.sits.limitLe
    have anchor := stacked.anchored isSome
    rw [isTop] at anchor
    refine ⟨?_, ?_⟩
    · apply UInt64.toNat_inj.mp
      rw [zero] at limitLe
      exact Nat.le_zero.mp limitLe
    · have empty : (Session.anchorFor context
          (some held.activation)).isEmpty = true := by
        simp [Session.anchorFor, FrameAnchor.isEmpty, zero]
      unfold Thread.frameStream Thread.lastFrame
      rw [anchor, if_pos empty]
      rfl
  · refine ⟨entry, _, isEntry, congrArg Probe.outcome
      (stacked.frameStream_eq coded isEntry stands nonzero tracking), ?_⟩
    rw [Session.reverse_of_push stands]
    have walkable : Walkable context
        (session.machine.view context.env).stack entry _ _ :=
      stacked.walkable isEntry stands nonzero
    exact showsChain_of_chained coded rfl x86 (resumes entry isEntry) walkable _

/-- The walk after a call shows the callee, its caller, and the entry frame. -/
theorem showsChain_of_entered :
    Pair.entered.manager.depth = 2 ∧ ∃ entry stream,
      Pair.entered.manager.entry = some entry ∧
        (Pair.entered.machine.thread.frameStream
          (Pair.entered.machine.view Pair.context.env) true).Gives stream ∧
        stream.ShowsChain (Pair.entered.machine.view Pair.context.env) entry
          Pair.entered.manager.activations.toList.reverse := by
  have coded : Coded Pair.context := ⟨by decide +kernel, by decide +kernel⟩
  have someTop : Pair.entered.manager.top?.isSome = true := by
    decide +kernel
  obtain ⟨top, isTop⟩ := Option.isSome_iff_exists.mp someTop
  have nonzero : Pair.entered.manager.top?.all (·.stackTop != 0) = true := by
    decide +kernel
  rw [isTop] at nonzero
  have first : Pair.entered.manager.entry.all
      (·.savedAnchor.isEmpty) = true := by
    decide +kernel
  have shown := showsChain_of_reached rfl coded Pair.reached_entered isTop
    (fun entry isEntry => .inl (by rw [isEntry] at first; exact first)) true
  exact ⟨by decide +kernel, shown.2 (by simpa using nonzero)⟩

namespace Grounded

/-- A method that needs no room. -/
def method : Method where
  id := 0x500000
  name := "Main.run"
  signature := ⟨[], .void⟩
  codeBase := 0x600000
  codeSize := 16
  isStatic := true
  masks := [(0, ⟨[], []⟩)]

def context : ManagerContext Unit where
  env := {
    code := Pair.context.env.code
    methods := ⟨[method]⟩
    layout := .x86_64
    diagnostics := {}
    adapters := .noAdapters
  }
  entryPoints := Pair.context.entryPoints
  osrHandler := none

/-- A stack of 24 words that begins at address zero. -/
def fresh : Session Unit where
  own := ()
  manager := {}
  machine := {
    thread := { id := 3 }
    stack := {
      base := 0xc0
      words := Array.replicate 24 0
      base_aligned := by decide
      fits := by simp
      allocated := by simp
    }
    records := {}
  }

def calls : List (Call Unit) :=
  [.setUp Pair.idle, .start 0x500000 [] []]

theorem acts : ∀ call ∈ calls, call.Acts := by
  simp only [calls, List.mem_cons, List.not_mem_nil, or_false, forall_eq_or_imp,
    forall_eq, Call.Acts, and_true]
  exact .probe _

theorem ran : (Call.runAll? context calls fresh).isSome = true := by
  decide +kernel

/-- The session in which the method lies right at address zero. -/
def entered : Session Unit :=
  (Call.runAll? context calls fresh).get ran

theorem reached_entered : Reached context entered :=
  (Reached.fresh rfl).of_runAll? acts (Option.some_get ran).symm

/-- The anchor of a top at address zero reads as empty, and no walk begins. -/
theorem not_showsChain :
    Reached context entered ∧ Coded context ∧ entered.manager.depth = 1 ∧
      (∀ entry ∈ entered.manager.entry, entry.savedAnchor.isEmpty = true) ∧
      ¬∃ entry stream,
        entered.manager.entry = some entry ∧
          (entered.machine.thread.frameStream
            (entered.machine.view context.env) true).Gives stream ∧
          stream.ShowsChain (entered.machine.view context.env) entry
            entered.manager.activations.toList.reverse := by
  have first : entered.manager.entry.all (·.savedAnchor.isEmpty) = true := by
    decide +kernel
  have empty : entered.machine.thread.anchor.isEmpty = true := by
    decide +kernel
  refine ⟨reached_entered, ⟨by decide +kernel, by decide +kernel⟩,
    by decide +kernel, fun entry isEntry => ?_, ?_⟩
  · rw [isEntry] at first
    exact first
  · rintro ⟨entry, stream, -, begins, -⟩
    unfold Thread.frameStream Thread.lastFrame at begins
    rw [if_pos empty] at begins
    cases begins

end Grounded

end ManagedStack
