import ManagedStack.Frame.References
import ManagedStack.Proofs.Ascending
import ManagedStack.Proofs.Views

namespace ManagedStack

/-!
# Frames that keep to their own words

The words of a walked frame reach from its stack pointer up to that of its caller.  A
frame *keeps to itself* when a step from it and a scan of it come out the same
whatever the other words are.  Generated code does so where its link and its return
address lie among its own words, and an entry frame without a caller where its call
wrapper does.  In a walk of such frames no two have a word or an identity in common.
-/

open Operation

/-- The fields of an interpreted frame that a scan reads. -/
def FrameLayout.scannedFields (layout : FrameLayout) : List Int :=
  [layout.lastSp, layout.method, layout.locals, layout.bcx, layout.monitorBlockTop]

namespace Frame

/-- Two views in which a frame has the same method and fields. -/
structure ReadsSame
    (frame : Frame)
    (view other : View) :
    Prop where
  layout : other.layout = view.layout
  methods : other.methods = view.methods
  fields : ∀ offset ∈ view.layout.scannedFields,
    frame.field other offset = frame.field view offset

namespace ReadsSame

variable {frame : Frame} {view other : View} {map : RegisterMap}

theorem method_eq (same : frame.ReadsSame view other) :
    frame.method other = frame.method view := by
  simp only [method, methodWord, same.layout, same.methods,
    same.fields view.layout.method (by simp [FrameLayout.scannedFields])]

theorem bci_eq (same : frame.ReadsSame view other) :
    frame.bci other = frame.bci view := by
  simp only [bci, bcx, same.method_eq, same.layout,
    same.fields view.layout.bcx (by simp [FrameLayout.scannedFields])]

theorem monitors_eq (same : frame.ReadsSame view other) :
    frame.monitors other = frame.monitors view := by
  simp only [monitors, same.layout,
    same.fields view.layout.monitorBlockTop (by simp [FrameLayout.scannedFields])]

theorem monitorEnd_eq (same : frame.ReadsSame view other) :
    frame.monitorEnd other = frame.monitorEnd view := by
  simp only [monitorEnd, same.layout,
    same.fields view.layout.monitorBlockTop (by simp [FrameLayout.scannedFields])]

theorem expressionTop_eq (same : frame.ReadsSame view other) :
    frame.expressionTop other = frame.expressionTop view := by
  simp only [expressionTop, lastSp, same.layout,
    same.fields view.layout.lastSp (by simp [FrameLayout.scannedFields])]

theorem visitFromTop_eq
    (same : frame.ReadsSame view other)
    (distances : List Nat) :
    frame.visitFromTop other distances = frame.visitFromTop view distances := by
  induction distances with
  | nil => rfl
  | cons distance rest inductionHypothesis =>
    simp only [visitFromTop, topSlot, same.expressionTop_eq, inductionHypothesis]

theorem visitLocals_eq
    (same : frame.ReadsSame view other)
    (indices : List Nat) :
    frame.visitLocals other indices = frame.visitLocals view indices := by
  induction indices with
  | nil => rfl
  | cons index rest inductionHypothesis =>
    simp only [visitLocals, localSlot, localsPointer, same.layout,
      same.fields view.layout.locals (by simp [FrameLayout.scannedFields]), inductionHypothesis]

theorem visitExpressions_eq
    (same : frame.ReadsSame view other)
    (top : Address)
    (indices : List Nat) :
    frame.visitExpressions other top indices =
      frame.visitExpressions view top indices := by
  induction indices with
  | nil => rfl
  | cons index rest inductionHypothesis =>
    simp only [visitExpressions, expressionSlot, expressionBase,
      same.monitorEnd_eq, inductionHypothesis]

theorem visitPendingArguments_eq
    (same : frame.ReadsSame view other)
    (site : InvokeSite) :
    frame.visitPendingArguments other map site =
      frame.visitPendingArguments view map site := by
  simp only [visitPendingArguments, visitOutgoingArguments, expressionCount,
    expressionBase, same.monitorEnd_eq, same.expressionTop_eq,
    same.visitFromTop_eq]

/--
A scan of an interpreted frame reads these fields and no other word.

What else the views say matters to the visit of the monitors only.
-/
theorem visitInterpreted_eq
    (same : frame.ReadsSame view other)
    (sameVisits : ∀ listed, (frame.monitors view).Gives listed →
      frame.visitMonitors other listed = frame.visitMonitors view listed) :
    frame.visitInterpreted other map = frame.visitInterpreted view map := by
  simp only [visitInterpreted, same.method_eq, same.bci_eq, same.monitors_eq,
    same.visitPendingArguments_eq, same.visitLocals_eq, same.visitExpressions_eq,
    same.expressionTop_eq, same.layout]
  refine bind_congr fun method => bind_congr fun bci =>
    Probe.bind_congr_of_gives fun listed gives => ?_
  rw [sameVisits listed gives]

end ReadsSame

/-- Two views in which a frame has the same fields. -/
structure SeesSame
    (frame : Frame)
    (view other : View) :
    Prop where
  env : other.toEnv = view.toEnv
  fields : ∀ offset ∈ view.layout.scannedFields,
    frame.field other offset = frame.field view offset

namespace SeesSame

variable {frame : Frame} {view other : View} {map : RegisterMap}

theorem readsSame (same : frame.SeesSame view other) : frame.ReadsSame view other where
  layout := congrArg Env.layout same.env
  methods := congrArg Env.methods same.env
  fields := same.fields

theorem visitMonitors_eq
    (same : frame.SeesSame view other)
    (monitors : List Address) :
    frame.visitMonitors other monitors = frame.visitMonitors view monitors := by
  induction monitors with
  | nil => rfl
  | cons monitor rest inductionHypothesis =>
    simp only [visitMonitors, verifyMonitor, same.readsSame.monitorEnd_eq, same.env,
      inductionHypothesis]

theorem visitInterpreted_eq (same : frame.SeesSame view other) :
    frame.visitInterpreted other map = frame.visitInterpreted view map :=
  same.readsSame.visitInterpreted_eq fun listed _ => same.visitMonitors_eq listed

end SeesSame

/-- No scan of generated code reads words of the stack. -/
theorem visitReferences_congr
    {frame : Frame}
    {view other : View}
    {map : RegisterMap}
    (notEntry : frame.kind ≠ .entry)
    (notRicochet : frame.kind ≠ .ricochet)
    (same : frame.kind = .interpreted → frame.SeesSame view other) :
    frame.visitReferences other map = frame.visitReferences view map := by
  unfold visitReferences
  cases kind : frame.kind with
  | interpreted => exact (same kind).visitInterpreted_eq
  | entry => exact (notEntry kind).elim
  | native => rfl
  | ricochet => exact (notRicochet kind).elim
  | compiled | nativeWrapper | stub => simp [visitGenerated, kind]

/-- No scan reads the records. -/
theorem visitReferences_withRecords
    {frame : Frame}
    {view : View}
    {map : RegisterMap}
    (reliable : view.adapters.Reliable)
    (records : DeoptRecords) :
    frame.visitReferences { view with records := records } map =
      frame.visitReferences view map := by
  by_cases isEntry : frame.kind = .entry
  · unfold visitReferences
    rw [isEntry]
    rfl
  by_cases isRicochet : frame.kind = .ricochet
  · have visits : view.adapters.visit
        ({ view with records := records } : View).surroundings frame map =
          view.adapters.visit view.surroundings frame map :=
      reliable.visitsAnyRecords view.surroundings frame map records
    simp only [visitReferences, isRicochet, visitGenerated, visits]
  · exact visitReferences_congr isEntry isRicochet fun _ => ⟨rfl, fun _ _ => rfl⟩

end Frame

/-- The words of a walked frame, from its stack pointer up to that of its caller. -/
def WalkedFrame.Owns
    (walked : WalkedFrame)
    (caller? : Option WalkedFrame)
    (place : Nat) :
    Prop :=
  walked.frame.sp.toNat ≤ place ∧
    ∀ caller ∈ caller?, place < caller.frame.sp.toNat

/-- The last frame of a walk owns all words from its stack pointer up. -/
theorem WalkedFrame.owns_none
    {walked : WalkedFrame}
    {place : Nat}
    (above : walked.frame.sp.toNat ≤ place) :
    walked.Owns none place :=
  ⟨above, fun _ inNone => (Option.not_mem_none _ inNone).elim⟩

/-- The walk goes on from a frame to this caller, or ends with it. -/
def WalkedFrame.FollowedBy
    (view : View)
    (walked : WalkedFrame) :
    Option WalkedFrame → Prop
  | some caller =>
      (walked.frame.isFirst view).Gives false ∧ walked.LeadsTo view caller
  | none => (walked.frame.isFirst view).Gives true

/-- A walked frame keeps to its own words. -/
structure WalkedFrame.KeepsToItself
    (view : View)
    (walked : WalkedFrame)
    (caller? : Option WalkedFrame) :
    Prop where
  /-- Whatever the other words are, the step from the frame is the same. -/
  steps : ∀ current : Stack,
    Stack.Keeps (walked.Owns caller?) view.stack current →
      walked.FollowedBy view caller? →
        walked.FollowedBy { view with stack := current } caller?
  /-- So is the scan of the frame. -/
  scans : ∀ current : Stack,
    Stack.Keeps (walked.Owns caller?) view.stack current →
      walked.frame.visitReferences { view with stack := current } walked.map =
        walked.frame.visitReferences view walked.map
  spLe : walked.frame.sp ≤ walked.frame.unextendedSp
  below : ∀ caller ∈ caller?, walked.frame.unextendedSp < caller.frame.sp
  elsewhere : walked.frame.resumesAtHandler = false

/-- Generated code keeps to itself where its link and return address are its own. -/
theorem WalkedFrame.keepsToItself_of_fixed
    {view : View}
    {walked : WalkedFrame}
    {caller? : Option WalkedFrame}
    {blob : Blob}
    (kind : walked.frame.IsFixedSize)
    (runsIn : walked.frame.blob = some blob)
    (link : walked.Owns caller?
      (walked.frame.fixedLinkSlot view.layout blob).toNat)
    (returns : walked.Owns caller?
      ((walked.frame.fixedSenderSp blob).offset (-1)).toNat)
    (spLe : walked.frame.sp ≤ walked.frame.unextendedSp)
    (below : ∀ caller ∈ caller?, walked.frame.unextendedSp < caller.frame.sp)
    (elsewhere : walked.frame.resumesAtHandler = false) :
    walked.KeepsToItself view caller? := by
  have notEntry : walked.frame.kind ≠ .entry := by
    rcases kind with kind | kind | kind <;> simp [kind]
  have notInterpreted : walked.frame.kind ≠ .interpreted := by
    rcases kind with kind | kind | kind <;> simp [kind]
  have notRicochet : walked.frame.kind ≠ .ricochet := by
    rcases kind with kind | kind | kind <;> simp [kind]
  refine ⟨fun current keeps followed => ?_, fun current keeps =>
    Frame.visitReferences_congr notEntry notRicochet fun interpreted =>
      (notInterpreted interpreted).elim, spLe, below, elsewhere⟩
  rcases caller? with _ | ⟨caller, map⟩
  · simp [FollowedBy, Frame.isFirst, notEntry] at followed
  · obtain ⟨gives, above⟩ := Frame.gives_senderAbove.mp followed.2
    have found : (walked.frame.sender { view with stack := current }).Gives
        walked.map caller map := by
      refine Frame.gives_sender_iff.mpr ?_
      cases Frame.gives_sender_iff.mp gives with
      | interpreted isInterpreted => exact (notInterpreted isInterpreted).elim
      | entry isEntry => exact (notEntry isEntry).elim
      | linked isNative => simp [Frame.IsFixedSize, isNative] at kind
      | adapter isRicochet => exact (notRicochet isRicochet).elim
      | fixed kind alsoRunsIn sized negates saved holds =>
        obtain rfl := Option.some.inj (alsoRunsIn.symm.trans runsIn)
        exact .fixed kind runsIn sized negates (keeps.holds saved link)
          (keeps.holds holds returns)
    exact ⟨by simp [Frame.isFirst, notEntry],
      Frame.gives_senderAbove.mpr ⟨found, above⟩⟩

/-- Visiting slots reads these slots. -/
theorem CallWrapper.visitSlots_congr
    {stack current : Stack}
    {slot : Address}
    {count : Nat}
    (same : ∀ index : Nat, index < count →
      current.read (slot.offset index) = stack.read (slot.offset index)) :
    visitSlots current slot count = visitSlots stack slot count := by
  induction count generalizing slot with
  | zero => rfl
  | succ count inductionHypothesis =>
    have first : current.read slot = stack.read slot := by
      simpa using same 0 count.succ_pos
    have others : visitSlots current (slot.offset 1) count =
        visitSlots stack (slot.offset 1) count := by
      refine inductionHypothesis fun index inside => ?_
      have moved : (slot.offset 1).offset index =
          slot.offset ((index + 1 : Nat) : Int) := by
        rw [Word.offset_offset]
        congr 1
        omega
      rw [moved]
      exact same (index + 1) (Nat.succ_lt_succ inside)
    simp only [visitSlots, first, others]

/--
An entry frame that ends a walk keeps to itself if its call wrapper is its own.  What
the wrapper has is the frame's own, and so reads as before.
-/
theorem WalkedFrame.keepsToItself_of_first
    {view : View}
    {walked : WalkedFrame}
    {wrapper count : Word}
    (kind : walked.frame.kind = .entry)
    (pointer : walked.Owns none
      (walked.frame.slot view.layout.entryCallWrapper).toNat)
    (points : view.stack.Holds (walked.frame.slot view.layout.entryCallWrapper)
      wrapper)
    (counts : view.stack.Holds (wrapper.offset 4) count)
    (record : ∀ word : Nat, word < CallWrapper.sizeWords count.toNat →
      walked.Owns none (wrapper.offset word).toNat)
    (spLe : walked.frame.sp ≤ walked.frame.unextendedSp)
    (elsewhere : walked.frame.resumesAtHandler = false) :
    walked.KeepsToItself view none := by
  have pointed (current : Stack) (holds : current.Holds
      (walked.frame.slot view.layout.entryCallWrapper) wrapper) :
      walked.frame.callWrapper { view with stack := current } = pure ⟨wrapper⟩ := by
    simp only [Frame.callWrapper, Frame.expectKind, kind, Frame.callWrapperAddress,
      Frame.field, Stack.read_of_holds holds, if_true, pure_bind]
  have same (current : Stack)
      (keeps : Stack.Keeps (walked.Owns none) view.stack current)
      (word : Nat) (inside : word < CallWrapper.sizeWords count.toNat) :
      current.read (wrapper.offset word) = view.stack.read (wrapper.offset word) := by
    unfold Stack.read
    rw [keeps.word _ (record word inside)]
  have header : 5 ≤ CallWrapper.sizeWords count.toNat := Nat.le_add_right 5 _
  refine ⟨fun current keeps first => ?_, fun current keeps => ?_, spLe,
    fun _ inNone => (Option.not_mem_none _ inNone).elim, elsewhere⟩
  · have anchors : (CallWrapper.mk wrapper).anchor current =
        (CallWrapper.mk wrapper).anchor view.stack := by
      simp only [CallWrapper.anchor, CallWrapper.slot]
      have one := same current keeps 1 (by omega)
      have two := same current keeps 2 (by omega)
      have three := same current keeps 3 (by omega)
      exact congrArg₂ bind one (funext fun sp => congrArg₂ bind two
        (funext fun fp => congrArg₂ bind three rfl))
    simp only [FollowedBy, Frame.isFirst, kind, if_true, Frame.entryIsFirst] at first ⊢
    rw [pointed view.stack points] at first
    rw [pointed current (keeps.holds points pointer)]
    simpa [anchors] using first
  · have method : (CallWrapper.mk wrapper).callee current =
        (CallWrapper.mk wrapper).callee view.stack :=
      same current keeps 0 (Nat.lt_of_lt_of_le (by decide) header)
    have handles : (CallWrapper.mk wrapper).visitHandles current =
        (CallWrapper.mk wrapper).visitHandles view.stack := by
      have counted : current.read (wrapper.offset 4) = view.stack.read (wrapper.offset 4) :=
        same current keeps 4 (Nat.lt_of_lt_of_le (by decide) header)
      simp only [CallWrapper.visitHandles, CallWrapper.handleCount, CallWrapper.slot,
        counted, Stack.read_of_holds counts, pure_bind]
      refine CallWrapper.visitSlots_congr fun index inside => ?_
      have moved : (wrapper.offset 5).offset index =
          wrapper.offset ((5 + index : Nat) : Int) := by
        rw [Word.offset_offset]
        congr 1
      rw [moved]
      exact same current keeps _ (Nat.add_lt_add_left inside 5)
    simp only [Frame.visitReferences, kind, Frame.visitEntry,
      pointed current (keeps.holds points pointer), pointed view.stack points,
      pure_bind, method, handles]

/-- A walk whose frames keep to themselves. -/
structure SeparateWalk
    (view : View)
    (frames : List WalkedFrame) :
    Prop where
  chain : frames.IsChain (WalkedFrame.LeadsTo view)
  apart : ∀ (index : Nat) (walked : WalkedFrame), frames[index]? = some walked →
    walked.KeepsToItself view frames[index + 1]?

namespace SeparateWalk

variable {view : View} {frames : List WalkedFrame}
  {walked other callee target : WalkedFrame} {index next : Nat}

theorem sp_lt
    (walk : SeparateWalk view frames)
    (isWalked : frames[index]? = some walked)
    (isOther : frames[next]? = some other)
    (later : index < next) :
    walked.frame.sp.toNat < other.frame.sp.toNat := by
  have ascends : (frames.map (·.frame.sp.toNat)).Pairwise (· < ·) := by
    rw [← List.isChain_iff_pairwise, List.isChain_map]
    exact walk.chain.imp fun _ _ leads =>
      UInt64.lt_iff_toNat_lt.mp (Frame.gives_senderAbove.mp leads).2
  obtain ⟨inside, rfl⟩ := List.getElem?_eq_some_iff.mp isWalked
  obtain ⟨alsoInside, rfl⟩ := List.getElem?_eq_some_iff.mp isOther
  exact List.pairwise_iff_getElem.mp (List.pairwise_map.mp ascends) _ _ inside
    alsoInside later

theorem leads
    (walk : SeparateWalk view frames)
    (isWalked : frames[index]? = some walked)
    (isOther : frames[index + 1]? = some other) :
    walked.LeadsTo view other := by
  obtain ⟨inside, rfl⟩ := List.getElem?_eq_some_iff.mp isWalked
  obtain ⟨alsoInside, rfl⟩ := List.getElem?_eq_some_iff.mp isOther
  exact List.isChain_iff_getElem.mp walk.chain index alsoInside

theorem sp_le
    (walk : SeparateWalk view frames)
    (isWalked : frames[index]? = some walked)
    (isOther : frames[next]? = some other)
    (later : index ≤ next) :
    walked.frame.sp.toNat ≤ other.frame.sp.toNat := by
  rcases Nat.lt_or_eq_of_le later with later | rfl
  · exact Nat.le_of_lt (walk.sp_lt isWalked isOther later)
  · rw [Option.some.inj (isWalked.symm.trans isOther)]

theorem exists_earlier
    (isOther : frames[next]? = some other)
    (earlier : index ≤ next) :
    ∃ walked, frames[index]? = some walked := by
  obtain ⟨inside, -⟩ := List.getElem?_eq_some_iff.mp isOther
  exact ⟨frames.get ⟨index, by omega⟩, List.getElem?_eq_getElem (by omega)⟩

/-- There are no more frames than addresses. -/
theorem length_le (walk : SeparateWalk view frames) : frames.length ≤ UInt64.size := by
  have climbs (index : Nat) :
      ∀ walked, frames[index]? = some walked → index ≤ walked.frame.sp.toNat := by
    induction index with
    | zero => exact fun _ _ => Nat.zero_le _
    | succ index inductionHypothesis =>
      intro walked isWalked
      obtain ⟨earlier, isEarlier⟩ := exists_earlier isWalked index.le_succ
      have low := inductionHypothesis earlier isEarlier
      have up := walk.sp_lt isEarlier isWalked index.lt_succ_self
      omega
  by_contra long
  obtain ⟨last, isLast⟩ : ∃ last, frames[UInt64.size]? = some last :=
    ⟨frames.get ⟨UInt64.size, by omega⟩, List.getElem?_eq_getElem (by omega)⟩
  have high := climbs _ last isLast
  have small := last.frame.sp.toNat_lt
  have size : UInt64.size = 2 ^ 64 := rfl
  omega

/-- The frames of the walk can be told apart by stack pointer and by identity. -/
theorem distinct
    (walk : SeparateWalk view frames)
    (isWalked : frames[index]? = some walked)
    (isOther : frames[next]? = some other)
    (different : index ≠ next) :
    walked.frame.sp ≠ other.frame.sp ∧ walked.frame.id ≠ other.frame.id := by
  have ordered {index next : Nat} {walked other : WalkedFrame}
      (isWalked : frames[index]? = some walked)
      (isOther : frames[next]? = some other)
      (later : index < next) :
      walked.frame.sp.toNat < other.frame.sp.toNat ∧
        walked.frame.id.toNat < other.frame.id.toNat := by
    refine ⟨walk.sp_lt isWalked isOther later, ?_⟩
    obtain ⟨_, isNext⟩ := exists_earlier isOther later
    have below := UInt64.lt_iff_toNat_lt.mp
      ((walk.apart _ _ isWalked).below _ isNext)
    have upwards := walk.sp_le isNext isOther later
    have spLe := UInt64.le_iff_toNat_le.mp (walk.apart _ _ isOther).spLe
    unfold Frame.id
    omega
  rcases Nat.lt_or_gt_of_ne different with later | later
  · obtain ⟨sp, id⟩ := ordered isWalked isOther later
    exact ⟨fun same => by simp [same] at sp, fun same => by simp [same] at id⟩
  · obtain ⟨sp, id⟩ := ordered isOther isWalked later
    exact ⟨fun same => by simp [same] at sp, fun same => by simp [same] at id⟩

theorem index_eq
    (walk : SeparateWalk view frames)
    (isWalked : frames[index]? = some walked)
    (isOther : frames[next]? = some other)
    (same : walked.frame = other.frame) :
    index = next := by
  by_contra different
  exact (walk.distinct isWalked isOther different).1 (by rw [same])

end SeparateWalk

end ManagedStack
