import ManagedStack.Proofs.Senders
import ManagedStack.Proofs.Validating

namespace ManagedStack

/-!
# Frames that pass their validation

The validator and the step to the caller are two case analyses over the same words.
A frame that passes has its return address on the stack; an interpreted or native
frame then has the words around its frame pointer there as well, and leads to its
caller.  For the other kinds the validator leaves something open: that the size of
the frame itself is not zero, that the word below the return address is on the stack,
and that the anchor behind the call wrapper of an entry frame can be followed.  A
frame that passes leads to its caller exactly when these hold.
-/

open Operation

namespace Probe

/-- The probe misses no word of a stack. -/
def Faultless (probe : Probe ε α) : Prop :=
  probe.notes.faultCount = 0

/-- A chain misses no word when none of the links that it comes to does. -/
theorem Faultless.bind
    {first : Probe ε α}
    {next : α → Probe ε β}
    (firstFaultless : first.Faultless)
    (nextFaultless : ∀ value, first.Gives value → (next value).Faultless) :
    (first >>= next).Faultless := by
  change (first.andThen next).notes.faultCount = 0
  obtain ⟨failure | value, notes⟩ := first
  · exact firstFaultless
  · change (notes ++ (next value).notes).faultCount = 0
    rw [Notes.faultCount_append]
    exact Nat.add_eq_zero_iff.mpr ⟨firstFaultless, nextFaultless value rfl⟩

/-- A read at a covered address misses nothing. -/
theorem faultless_read
    {stack : Stack}
    {address : Address}
    (covers : stack.Covers address) :
    (stack.read address).Faultless := by
  obtain ⟨word, holds⟩ := Stack.exists_holds covers
  have found : stack.read? address = .ok word := holds
  unfold Faultless Stack.read
  rw [found]
  rfl

/-- Resolving a frame misses nothing. -/
theorem faultless_resolve
    {view : View}
    {frame : Frame} :
    (frame.resolve view : Probe ε Frame).Faultless := by
  obtain ⟨notes, same, faultless⟩ := @Frame.resolve_spec view ε frame
  unfold Faultless
  rw [same]
  exact faultless

end Probe

namespace Operation

/-- The operation misses no word of a stack. -/
def Faultless
    (operation : Operation σ ε α)
    (before : σ) :
    Prop :=
  (operation before).1.Faultless

theorem Faultless.bind
    {before : σ}
    {first : Operation σ ε α}
    {next : α → Operation σ ε β}
    (firstFaultless : first.Faultless before)
    (nextFaultless : ∀ value between, first.Gives before value between →
      (next value).Faultless between) :
    (first >>= next).Faultless before := by
  unfold Faultless at firstFaultless
  change (first.andThen next before).1.notes.faultCount = 0
  unfold andThen
  rcases ran : first before with ⟨⟨failure | middle, notes⟩, between⟩
  · rw [ran] at firstFaultless
    exact firstFaultless
  · rw [ran] at firstFaultless
    have goesOn := nextFaultless middle between ⟨by rw [ran]; rfl, by rw [ran]⟩
    change (notes ++ (next middle between).1.notes).faultCount = 0
    rw [Notes.faultCount_append]
    exact Nat.add_eq_zero_iff.mpr ⟨firstFaultless, goesOn⟩

theorem faultless_lift
    {probe : Probe ε α}
    {before : σ}
    (faultless : probe.Faultless) :
    (liftM probe : Operation σ ε α).Faultless before :=
  faultless

end Operation

namespace Frame

theorem faultless_recordLink
    {map : RegisterMap}
    (address : Address) :
    (recordLink address : Operation RegisterMap ε Unit).Faultless map := by
  unfold recordLink
  refine Faultless.bind rfl fun current between _ => ?_
  split <;> rfl

end Frame

namespace Stack

/-- A word that a bounded read finds is held. -/
theorem holds_of_gives_readWithin
    {stack : Stack}
    {bounds : Bounds}
    {address : Address}
    {word : Word}
    (gives : (stack.readWithin bounds address : Probe ε (Option Word)).Gives
      (some word)) :
    stack.Holds address word := by
  unfold readWithin at gives
  split at gives
  · simp at gives
  · split at gives
    · rename_i found
      obtain rfl := Option.some.inj (Probe.gives_answer.mp gives)
      exact found
    · cases gives

end Stack

namespace Frame

variable {view : View} {frame : Frame} {map : RegisterMap}

/-- What a step to the caller needs besides what the validator checks. -/
structure Supported
    (view : View)
    (frame : Frame) :
    Prop where
  /-- A frame that is just a return address lies above the lowest word. -/
  sized : frame.IsFixedSize → ∀ blob ∈ frame.blob, blob.frameSize ≠ 0 ∧
    (blob.frameSize = 1 → frame.unextendedSp ≠ view.stack.limit)
  anchored : frame.kind = .entry → ∀ wrapper,
    view.stack.Holds (frame.slot (-6)) wrapper →
      ∃ anchor, KeepsAnchor view.stack wrapper anchor ∧
        (anchor.isEmpty = false → frame.sp < anchor.sp ∧
          (anchor.pc = 0 → view.stack.Covers (anchor.sp.offset (-1))))

/-- The step finds the caller or stops at an empty anchor, and misses no word. -/
structure Unwinds
    (view : View)
    (frame : Frame)
    (map : RegisterMap) :
    Prop where
  ends :
    (∃ caller after, (frame.sender view).Gives map caller after) ∨
      frame.kind = .entry ∧
        (∃ wrapper anchor, view.stack.Holds (frame.slot (-6)) wrapper ∧
          KeepsAnchor view.stack wrapper anchor ∧ anchor.isEmpty = true) ∧
        ∃ after, (frame.sender view).Raises map .pastFirstFrame after
  faultless : (frame.sender view).Faultless map

/-- What the validator made sure of, by the kind of the frame. -/
inductive Passes
    (view : View)
    (frame : Frame) :
    Prop where
  | linked
      (kind : frame.kind = .native ∨ frame.kind = .interpreted)
      (limit : view.stack.limit.toNat ≤ frame.sp.toNat)
      (above : frame.sp.toNat < frame.fp.toNat)
      (base : frame.fp.toNat ≤ view.stack.base.toNat)
      (returns : view.stack.Covers (frame.slot 1))
  | fixed
      {blob : Blob}
      (kind : frame.IsFixedSize)
      (runsIn : frame.blob = some blob)
      (limit : view.stack.limit.toNat ≤ frame.unextendedSp.toNat)
      (exact : (frame.fixedSenderSp blob).toNat =
        frame.unextendedSp.toNat + 8 * blob.frameSize.toNat)
      (returns : view.stack.Covers ((frame.fixedSenderSp blob).offset (-1)))
  | entry
      {wrapper : Address}
      (kind : frame.kind = .entry)
      (points : view.stack.Holds (frame.slot (-6)) wrapper)

/-- A size that fits leads to the caller's stack pointer without wrapping around. -/
theorem fixedSenderSp_of_fits
    {blob : Blob}
    {senderSp : Address}
    (found : frame.fixedSizeSenderSp? blob = some senderSp) :
    senderSp = frame.fixedSenderSp blob ∧
      senderSp.toNat = frame.unextendedSp.toNat + 8 * blob.frameSize.toNat := by
  obtain ⟨bytes, multiplied, added⟩ := Option.bind_eq_some_iff.mp found
  unfold Word.mul? at multiplied
  unfold Word.add? at added
  have eight : (8 : Word).toNat = 8 := rfl
  have size : UInt64.size = 0x10000000000000000 := rfl
  split at multiplied
  · rename_i small
    split at added
    · rename_i fits
      obtain rfl := Option.some.inj multiplied
      obtain rfl := Option.some.inj added
      have product := UInt64.toNat_mul blob.frameSize 8
      have sum := UInt64.toNat_add frame.unextendedSp (blob.frameSize * 8)
      rw [eight] at small product
      have signed := Word.signed_eq blob.frameSize
      have moved := Word.toNat_offset frame.unextendedSp blob.frameSize.signed
      refine ⟨?_, by omega⟩
      apply UInt64.toNat_inj.mp
      change _ = (frame.unextendedSp.offset blob.frameSize.signed).toNat
      split at signed <;> omega
    · cases added
  · cases multiplied

/-- A frame without a blob is native, and only such a frame is. -/
theorem kind_eq_native_iff : frame.kind = .native ↔ frame.blob = none := by
  unfold kind
  rcases frame.blob with _ | blob
  · simp
  · dsimp only
    split <;> try split
    all_goals simp

/-- Frames in generated code that have no kind of their own are of fixed size. -/
theorem isFixedSize_of_ne
    (native : frame.kind ≠ .native)
    (interpreted : frame.kind ≠ .interpreted)
    (entry : frame.kind ≠ .entry)
    (ricochet : frame.kind ≠ .ricochet) :
    frame.IsFixedSize := by
  unfold IsFixedSize
  cases kind : frame.kind <;> simp_all

/-- A native frame that passes has a return address above its frame pointer. -/
theorem covers_of_isNativeSafe
    (x86 : view.layout = .x86_64)
    (safe : (frame.isNativeSafe view view.stack.bounds : Probe ε Bool).Gives
      true) :
    frame.hasSafeFp view.stack.bounds = true ∧
      view.stack.Covers (frame.slot 1) := by
  simp only [isNativeSafe, Probe.gives_ite, Probe.gives_pure, Probe.gives_bind,
    Bool.true_eq_false, and_false, or_false, x86] at safe
  obtain ⟨safeFp, found, read, answers⟩ := safe
  rcases found with _ | pc
  · cases answers
  · exact ⟨safeFp, (Stack.holds_of_gives_readWithin read).covers⟩

/-- An entry frame that passes points at a call wrapper. -/
theorem holds_of_isCallWrapperSafe
    {bounds : Bounds}
    {fp : Address}
    (x86 : view.layout = .x86_64)
    (safe : (isCallWrapperSafe view bounds fp : Probe ε Bool).Gives true) :
    ∃ wrapper, view.stack.Holds (fp.offset (-6)) wrapper := by
  simp only [isCallWrapperSafe, Probe.gives_pure, Probe.gives_bind, x86] at safe
  obtain ⟨found, read, answers⟩ := safe
  rcases found with _ | wrapper
  · cases answers
  · exact ⟨wrapper, Stack.holds_of_gives_readWithin read⟩

/-- The return address of a frame in generated code was found inside the bounds. -/
theorem covers_of_returnWithin?
    {bounds : Bounds}
    {blob : Blob}
    {found : Address × Word}
    (x86 : view.layout = .x86_64)
    (finds : (frame.returnWithin? view bounds blob : Probe ε _).Gives
      (some found)) :
    frame.kind = .interpreted ∧ frame.hasSafeFp bounds = true ∧
        view.stack.Covers (frame.slot 1) ∨
      frame.kind ≠ .interpreted ∧
        (frame.fixedSenderSp blob).toNat =
            frame.unextendedSp.toNat + 8 * blob.frameSize.toNat ∧
          view.stack.Covers ((frame.fixedSenderSp blob).offset (-1)) := by
  unfold returnWithin? at finds
  rcases Probe.gives_ite.mp finds with ⟨isInterpreted, finds⟩ | ⟨other, finds⟩
  · simp only [Probe.gives_ite, Probe.gives_pure, Probe.gives_bind, x86,
      reduceCtorEq, and_false, or_false] at finds
    obtain ⟨safeFp, word, read, answers⟩ := finds
    rcases word with _ | pc
    · cases answers
    · exact .inl ⟨isInterpreted, safeFp,
        (Stack.holds_of_gives_readWithin read).covers⟩
  · rcases sized : frame.fixedSizeSenderSp? blob with _ | senderSp
    · simp [sized] at finds
    · simp only [sized, Probe.gives_pure, Probe.gives_bind] at finds
      obtain ⟨word, read, answers⟩ := finds
      obtain ⟨rfl, exact⟩ := fixedSenderSp_of_fits sized
      rcases word with _ | pc
      · cases answers
      · exact .inr ⟨other, exact, (Stack.holds_of_gives_readWithin read).covers⟩

/--
The validator answers true only if it made sure of these.  Which check was passed
depends on the code that the frame runs in, if any.
-/
theorem passes_of_isSafeForSender
    (x86 : view.layout = .x86_64)
    (notRicochet : frame.kind ≠ .ricochet)
    (safe : (frame.isSafeForSender view view.stack.bounds :
      Probe ε Bool).Gives true) :
    frame.Passes view := by
  unfold isSafeForSender at safe
  simp only [Probe.gives_ite, Probe.gives_pure, Bool.true_eq_false, and_false,
    false_or, Bool.not_eq_true, Bool.not_eq_false'] at safe
  obtain ⟨pointers, safe⟩ := safe
  simp only [hasSafePointers, Bounds.within, Bounds.belowBase,
    Bool.and_eq_true, decide_eq_true_eq, UInt64.le_iff_toNat_le] at pointers
  obtain ⟨⟨⟨limit, -⟩, -⟩, ordered⟩ := pointers
  change view.stack.limit.toNat ≤ frame.sp.toNat at limit
  have placed (safeFp : frame.hasSafeFp view.stack.bounds = true) :
      frame.sp.toNat < frame.fp.toNat ∧
        frame.fp.toNat ≤ view.stack.base.toNat := by
    simp only [hasSafeFp, Bounds.belowBase, Bool.and_eq_true,
      decide_eq_true_eq, UInt64.lt_iff_toNat_lt, UInt64.le_iff_toNat_le] at safeFp
    exact ⟨safeFp.2, safeFp.1⟩
  rcases runsIn : frame.blob with _ | blob
  · rw [runsIn] at safe
    obtain ⟨safeFp, returns⟩ := covers_of_isNativeSafe x86 safe
    exact .linked (.inl (kind_eq_native_iff.mpr runsIn)) limit
      (placed safeFp).1 (placed safeFp).2 returns
  · have notNative : frame.kind ≠ .native := by
      simp [kind_eq_native_iff, runsIn]
    simp only [runsIn, Probe.gives_bind, Probe.gives_ite, Probe.gives_pure,
      Bool.true_eq_false, and_false, or_false, false_or] at safe
    obtain ⟨complete, -, -, ⟨isEntry, -, safe⟩ | ⟨notEntry, found, finds, safe⟩⟩ :=
      safe
    · obtain ⟨wrapper, points⟩ := holds_of_isCallWrapperSafe x86 safe
      exact .entry isEntry points
    · rcases found with _ | found
      · cases safe
      rcases covers_of_returnWithin? x86 finds with
        ⟨isInterpreted, safeFp, returns⟩ | ⟨other, exact, returns⟩
      · exact .linked (.inr isInterpreted) limit (placed safeFp).1
          (placed safeFp).2 returns
      · exact .fixed (isFixedSize_of_ne notNative other notEntry notRicochet)
          runsIn (Nat.le_trans limit ordered) exact returns

/-- Two words around the frame pointer are on the stack with the return address. -/
theorem covers_of_linked
    (limit : view.stack.limit.toNat ≤ frame.sp.toNat)
    (above : frame.sp.toNat < frame.fp.toNat)
    (base : frame.fp.toNat ≤ view.stack.base.toNat)
    (returns : view.stack.Covers (frame.slot 1)) :
    view.stack.Covers (frame.slot 0) ∧ view.stack.Covers (frame.slot (-1)) := by
  have limitAligned := view.stack.limit_aligned
  have extent := view.stack.toNat_limit
  have allocated := view.stack.allocated
  obtain ⟨aligned, low, high⟩ := returns
  have returnPlace := Word.toNat_offset frame.fp 1
  have linkPlace := Word.toNat_offset frame.fp 0
  have topPlace := Word.toNat_offset frame.fp (-1)
  have fpSmall := frame.fp.toNat_lt
  unfold slot at *
  constructor
  · refine ⟨?_, ?_, ?_⟩ <;> omega
  · refine ⟨?_, ?_, ?_⟩ <;> omega

section Faultless

theorem faultless_linkedSender
    (x86 : view.layout = .x86_64)
    (link : view.stack.Covers (frame.slot 0))
    (returns : view.stack.Covers (frame.slot 1)) :
    (frame.linkedSender view).Faultless := by
  unfold linkedSender Frame.link senderPc
  rw [x86]
  refine (Probe.faultless_read link).bind fun link _ => ?_
  refine (Probe.faultless_read returns).bind fun pc _ => ?_
  exact Probe.faultless_resolve

theorem faultless_interpretedSender
    (x86 : view.layout = .x86_64)
    (senderSp : view.stack.Covers (frame.slot (-1)))
    (link : view.stack.Covers (frame.slot 0))
    (returns : view.stack.Covers (frame.slot 1)) :
    (frame.interpretedSender view).Faultless map := by
  unfold interpretedSender interpreterSenderSp Frame.link senderPc
  rw [x86]
  refine (faultless_lift (Probe.faultless_read senderSp)).bind
    fun unextendedSp _ _ => ?_
  refine (faultless_recordLink _).bind fun _ _ _ => ?_
  refine (faultless_lift (Probe.faultless_read link)).bind fun link _ _ => ?_
  refine (faultless_lift (Probe.faultless_read returns)).bind fun pc _ _ => ?_
  exact Probe.faultless_resolve

theorem faultless_compiledSender
    {blob : Blob}
    (x86 : view.layout = .x86_64)
    (runsIn : frame.blob = some blob)
    (sized : blob.frameSize ≠ 0)
    (link : view.stack.Covers ((frame.fixedSenderSp blob).offset (-2)))
    (returns : view.stack.Covers ((frame.fixedSenderSp blob).offset (-1))) :
    (frame.compiledSender view).Faultless map := by
  unfold compiledSender
  rw [runsIn, x86]
  dsimp only
  rw [if_neg sized]
  refine (faultless_lift (Probe.faultless_read returns)).bind fun pc _ _ => ?_
  refine Faultless.bind rfl fun linkOffset between checked => ?_
  obtain rfl : linkOffset = -2 := by
    have negated : negateSigned FrameLayout.x86_64.senderSp = .ok (-2) := rfl
    rw [gives_check, negated] at checked
    exact (Except.ok.inj checked.1).symm
  refine Faultless.bind rfl fun current between _ => ?_
  have rest (state : RegisterMap) :
      (do
        recordLink ((frame.fixedSenderSp blob).offset (-2))
        let link ← liftM (view.stack.read
          ((frame.fixedSenderSp blob).offset (-2)))
        ofProbe (extended view (frame.fixedSenderSp blob)
          (frame.fixedSenderSp blob) link pc) :
            Operation RegisterMap FrameError Frame).Faultless state :=
    (faultless_recordLink _).bind fun _ _ _ =>
      (faultless_lift (Probe.faultless_read link)).bind fun link _ _ =>
        Probe.faultless_resolve
  split
  · exact Faultless.bind rfl fun _ after _ => rest after
  · exact rest between

/--
Each of the reads finds a word that is there, and the anchor tells which come next.
-/
theorem faultless_entrySender
    {wrapper : Address}
    {anchor : FrameAnchor}
    (x86 : view.layout = .x86_64)
    (kind : frame.kind = .entry)
    (points : view.stack.Holds (frame.slot (-6)) wrapper)
    (keeps : KeepsAnchor view.stack wrapper anchor)
    (resumes : anchor.isEmpty = false → frame.sp < anchor.sp → anchor.pc = 0 →
      view.stack.Covers (anchor.sp.offset (-1))) :
    (frame.entrySender view).Faultless map := by
  unfold entrySender
  have pointed : (frame.callWrapper view).Faultless := by
    unfold callWrapper expectKind callWrapperAddress
    rw [if_pos kind, x86]
    refine Probe.Faultless.bind rfl fun _ _ => ?_
    exact (Probe.faultless_read points.covers).bind fun _ _ => rfl
  refine (faultless_lift pointed).bind fun found _ isFound => ?_
  have isWrapper := (gives_callWrapper.mp (gives_lift.mp isFound).1).2
  rw [x86] at isWrapper
  obtain rfl : wrapper = found.address := points.unique isWrapper
  have kept : (found.anchor view.stack).Faultless := by
    refine (Probe.faultless_read keeps.sp.covers).bind fun _ _ => ?_
    refine (Probe.faultless_read keeps.fp.covers).bind fun _ _ => ?_
    exact (Probe.faultless_read keeps.pc.covers).bind fun _ _ => rfl
  refine (faultless_lift kept).bind fun read between isRead => ?_
  obtain rfl : read = anchor :=
    (gives_lift.mp isRead).1.unique (gives_anchor.mpr keeps)
  split
  · rfl
  rename_i nonempty
  split
  · rfl
  rename_i above
  refine Faultless.bind rfl fun _ _ _ => ?_
  split
  · exact Faultless.bind rfl fun pc _ _ => Probe.faultless_resolve
  · rename_i unknown
    have covers := resumes (by simpa using nonempty) (UInt64.not_le.mp above)
      (by simpa using unknown)
    exact (faultless_lift (Probe.faultless_read covers)).bind fun pc _ _ =>
      Probe.faultless_resolve

end Faultless

/-- The word below the return address is on the stack unless the frame is lowest. -/
theorem covers_link_of_sized
    {blob : Blob}
    (limit : view.stack.limit.toNat ≤ frame.unextendedSp.toNat)
    (exact : (frame.fixedSenderSp blob).toNat =
      frame.unextendedSp.toNat + 8 * blob.frameSize.toNat)
    (returns : view.stack.Covers ((frame.fixedSenderSp blob).offset (-1)))
    (sized : blob.frameSize ≠ 0)
    (notLowest : blob.frameSize = 1 → frame.unextendedSp ≠ view.stack.limit) :
    view.stack.Covers ((frame.fixedSenderSp blob).offset (-2)) := by
  have limitAligned := view.stack.limit_aligned
  have small := (frame.fixedSenderSp blob).toNat_lt
  have nonzero : blob.frameSize.toNat ≠ 0 := fun zero =>
    sized (UInt64.toNat_inj.mp zero)
  have apart : blob.frameSize.toNat = 1 →
      frame.unextendedSp.toNat ≠ view.stack.limit.toNat := fun one same =>
    notLowest (UInt64.toNat_inj.mp one) (UInt64.toNat_inj.mp same)
  have returnPlace : ((frame.fixedSenderSp blob).offset (-1)).toNat =
      (frame.fixedSenderSp blob).toNat - 8 :=
    Word.toNat_offset_of_fits (by omega) (by omega)
  obtain ⟨aligned, low, high⟩ := returns
  have linkPlace : ((frame.fixedSenderSp blob).offset (-2)).toNat =
      (frame.fixedSenderSp blob).toNat - 16 :=
    Word.toNat_offset_of_fits (by omega) (by omega)
  refine ⟨?_, ?_, ?_⟩ <;> omega

section Soundness

variable (x86 : view.layout = .x86_64)
include x86

/-- A step that finds the caller relied on what the validator leaves open. -/
theorem Unwinds.supported
    (unwinds : frame.Unwinds view map) :
    frame.Supported view := by
  constructor
  case sized =>
    intro isFixed blob runsIn
    have notEntry : frame.kind ≠ .entry := by
      rcases isFixed with kind | kind | kind <;> simp [kind]
    rcases unwinds.ends with ⟨caller, after, gives⟩ | ⟨isEntry, -⟩
    · cases (gives_sender x86).mp gives with
      | interpreted kind => simp [IsFixedSize, kind] at isFixed
      | linked kind => simp [IsFixedSize, kind] at isFixed
      | entry kind => exact (notEntry kind).elim
      | adapter kind => simp [IsFixedSize, kind] at isFixed
      | @fixed found _ _ _ same sized _ saved returns =>
          obtain rfl := Option.some.inj (same.symm.trans runsIn)
          refine ⟨sized, fun one lowest => ?_⟩
          have low := saved.covers.2.1
          have high := saved.covers.2.2
          have linkSlot : frame.fixedLinkSlot .x86_64 found =
              (frame.unextendedSp.offset 1).offset (-2) := by
            unfold fixedLinkSlot fixedSenderSp
            rw [one]
            rfl
          rw [linkSlot, Word.offset_offset] at low high
          have down := Word.toNat_offset frame.unextendedSp (1 + -2)
          have extent := view.stack.toNat_limit
          have allocated := view.stack.allocated
          rw [lowest] at down low high
          omega
    · exact (notEntry isEntry).elim
  case anchored =>
    intro isEntry wrapper points
    rcases unwinds.ends with
      ⟨caller, after, gives⟩ | ⟨-, ⟨other, anchor, same, keeps, empty⟩, -⟩
    · cases (gives_sender x86).mp gives with
      | entry _ same keeps nonempty above resumes =>
          obtain rfl := points.unique same
          refine ⟨_, keeps, fun _ => ⟨above, fun unknown => ?_⟩⟩
          rcases resumes with ⟨known, -⟩ | ⟨-, resumes⟩
          · exact (known unknown).elim
          · exact resumes.covers
      | interpreted kind => cases isEntry.symm.trans kind
      | fixed kind => simp [IsFixedSize, isEntry] at kind
      | linked kind => simp [isEntry] at kind
      | adapter kind => cases isEntry.symm.trans kind
    · obtain rfl := points.unique same
      exact ⟨anchor, keeps, fun nonempty => by
        rw [empty] at nonempty
        cases nonempty⟩

/-- An entry frame whose anchor is empty is the last one that is found. -/
theorem raises_sender_of_isEmpty
    {wrapper : Address}
    {anchor : FrameAnchor}
    (kind : frame.kind = .entry)
    (points : view.stack.Holds (frame.slot (-6)) wrapper)
    (keeps : KeepsAnchor view.stack wrapper anchor)
    (empty : anchor.isEmpty = true)
    (map : RegisterMap) :
    (frame.sender view).Raises map .pastFirstFrame (map.withArgumentOops false) := by
  unfold sender entrySender
  rw [kind]
  have pointed : (frame.callWrapper view).Gives ⟨wrapper⟩ :=
    gives_callWrapper.mpr ⟨kind, by rw [x86]; exact points⟩
  have kept : ((CallWrapper.mk wrapper).anchor view.stack).Gives anchor :=
    gives_anchor.mpr keeps
  refine raises_bind.mpr (.inr ⟨(), _, gives_update.mpr rfl, ?_⟩)
  refine raises_bind.mpr (.inr ⟨_, _, gives_lift.mpr ⟨pointed, rfl⟩, ?_⟩)
  refine raises_bind.mpr (.inr ⟨_, _, gives_lift.mpr ⟨kept, rfl⟩, ?_⟩)
  rw [if_pos empty]
  exact raises_fail.mpr ⟨rfl, rfl⟩

/-- With what the validator leaves open, a frame that passes finds its caller. -/
theorem Passes.unwinds
    (passes : frame.Passes view)
    (supported : frame.Supported view)
    (map : RegisterMap) :
    frame.Unwinds view map := by
  have ran (step : Operation RegisterMap FrameError Frame)
      (isStep : frame.sender view =
        update (fun map => map.withArgumentOops false) >>= fun _ => step)
      (faultless : step.Faultless (map.withArgumentOops false)) :
      (frame.sender view).Faultless map := by
    rw [isStep]
    refine Faultless.bind rfl fun _ between begins => ?_
    rw [gives_update.mp begins]
    exact faultless
  cases passes with
  | linked kind limit above base returns =>
      obtain ⟨link, top⟩ := covers_of_linked limit above base returns
      obtain ⟨pc, holdsPc⟩ := Stack.exists_holds returns
      obtain ⟨saved, holdsLink⟩ := Stack.exists_holds link
      obtain ⟨senderSp, holdsTop⟩ := Stack.exists_holds top
      rcases kind with kind | kind
      · refine ⟨.inl ⟨_, _, (gives_sender x86).mpr
          (.linked kind holdsLink holdsPc)⟩, ?_⟩
        exact ran _ (by unfold sender; rw [kind])
          (faultless_lift (faultless_linkedSender x86 link returns))
      · refine ⟨.inl ⟨_, _, (gives_sender x86).mpr
          (.interpreted kind holdsTop holdsLink holdsPc)⟩, ?_⟩
        exact ran _ (by unfold sender; rw [kind])
          (faultless_interpretedSender x86 top link returns)
  | @fixed blob kind runsIn limit exact returns =>
      obtain ⟨sized, notLowest⟩ := supported.sized kind blob runsIn
      have link := covers_link_of_sized limit exact returns sized notLowest
      obtain ⟨pc, holdsPc⟩ := Stack.exists_holds returns
      obtain ⟨saved, holdsLink⟩ := Stack.exists_holds link
      refine ⟨.inl ⟨_, _, (gives_sender x86).mpr
        (.fixed kind runsIn sized rfl holdsLink holdsPc)⟩, ?_⟩
      refine ran _ ?_ (faultless_compiledSender x86 runsIn sized link returns)
      unfold sender
      rcases kind with kind | kind | kind <;> rw [kind]
  | @entry wrapper kind points =>
      obtain ⟨anchor, keeps, follows⟩ := supported.anchored kind wrapper points
      have faultless : (frame.sender view).Faultless map := by
        refine ran (frame.entrySender view) (by unfold sender; rw [kind]) ?_
        exact faultless_entrySender x86 kind points keeps
          fun nonempty _ => (follows nonempty).2
      cases empty : anchor.isEmpty with
      | false =>
          obtain ⟨above, resumes⟩ := follows empty
          have leads : ∃ pc, AnchorPc view.stack anchor pc := by
            by_cases unknown : anchor.pc = 0
            · obtain ⟨pc, holds⟩ := Stack.exists_holds (resumes unknown)
              exact ⟨pc, .inr ⟨unknown, holds⟩⟩
            · exact ⟨anchor.pc, .inl ⟨unknown, rfl⟩⟩
          obtain ⟨pc, leads⟩ := leads
          exact ⟨.inl ⟨_, _, (gives_sender x86).mpr
            (.entry kind points keeps empty above leads)⟩, faultless⟩
      | true =>
          exact ⟨.inr ⟨kind, ⟨wrapper, anchor, points, keeps, empty⟩, _,
            raises_sender_of_isEmpty x86 kind points keeps empty map⟩, faultless⟩

/--
A frame that passes its validation leads to its caller, without missing a word of the
stack, exactly when what the validator leaves open holds.
-/
theorem unwinds_iff_supported
    (notRicochet : frame.kind ≠ .ricochet)
    (safe : (frame.isSafeForSender view view.stack.bounds :
      Probe ε Bool).Gives true)
    (map : RegisterMap) :
    frame.Unwinds view map ↔ frame.Supported view :=
  have passes := passes_of_isSafeForSender x86 notRicochet safe
  ⟨Unwinds.supported x86, fun supported => passes.unwinds x86 supported map⟩

end Soundness

/-- Whatever the frame, it leads to its caller if it passes its validation. -/
def ValidatorSound : Prop :=
  ∀ (view : View) (sp unextendedSp fp pc : Address) (frame : Frame)
    (map : RegisterMap),
    view.layout = .x86_64 → view.code.Built →
      (extended view sp unextendedSp fp pc : Probe FrameError Frame).Gives frame →
        frame.kind ≠ .ricochet →
          (frame.isSafeForSender view view.stack.bounds :
            Probe FrameError Bool).Gives true →
              frame.Unwinds view map

end Frame

namespace Unchecked

/-- A stub whose frames are said to take no words. -/
def sizeless : Blob :=
  .ofRange "sizeless" 0x3000 0x4000 .runtimeStub

/-- A stub whose frames are just a return address. -/
def narrow : Blob :=
  { Blob.ofRange "narrow" 0x4000 0x5000 .runtimeStub with frameSize := 1 }

/-- A stub whose frames keep a link as well. -/
def linking : Blob :=
  { Blob.ofRange "linking" 0x5000 0x6000 .runtimeStub with frameSize := 2 }

def callStub : Blob :=
  .ofRange "call_stub" 0x6000 0x7000 (.callStub 0x6040)

/-- A stack with two return addresses, and a call wrapper at its base. -/
def stack : Stack where
  base := 0x8000
  words := (((Array.replicate 32 0).setIfInBounds 0 0x5008).setIfInBounds 7
    0x5008).setIfInBounds 18 0x8000
  base_aligned := Stack.aligned_8000
  fits := by simp
  allocated := by simp

def view : View where
  code := ⟨[sizeless, narrow, linking, callStub]⟩
  methods := {}
  layout := .x86_64
  diagnostics := {}
  adapters := .noAdapters
  stack := stack
  records := {}

theorem built : view.code.Built :=
  CodeCache.built_of_foldlM .empty
    (rfl : [sizeless, narrow, linking, callStub].foldlM CodeCache.insert {} =
      .ok view.code)

/-- The view of a frame that is resolved. -/
def frameIn
    (blob : Blob)
    (sp fp pc : Address) :
    Frame where
  sp := sp
  unextendedSp := sp
  fp := fp
  pc := pc
  blob := some blob
  deoptState := .notDeoptimized

/-- A frame of two words that passes finds its caller. -/
theorem unwinds_linking :
    (frameIn linking 0x7f30 0 0x5008).kind ≠ .ricochet ∧
      ((frameIn linking 0x7f30 0 0x5008).isSafeForSender view view.stack.bounds :
        Probe FrameError Bool).Gives true ∧
      (frameIn linking 0x7f30 0 0x5008).Unwinds view (.empty true) := by
  have notRicochet : (frameIn linking 0x7f30 0 0x5008).kind ≠ .ricochet := by
    decide
  have safe : ((frameIn linking 0x7f30 0 0x5008).isSafeForSender view
      view.stack.bounds : Probe FrameError Bool).Gives true :=
    rfl
  refine ⟨notRicochet, safe,
    (Frame.unwinds_iff_supported rfl notRicochet safe _).mpr ⟨?_, nofun⟩⟩
  rintro - blob runsIn
  obtain rfl := Option.some.inj runsIn
  exact ⟨by decide, fun one => absurd one (by decide)⟩

/--
The validator looks at the size of the caller's blob, but not at that of the frame
itself, and it bounds the address of a call wrapper, but not the words of its anchor.
-/
theorem not_validatorSound :
    (∀ frame ∈ [frameIn sizeless 0x7f40 0 0x3008, frameIn narrow 0x7f00 0 0x4008,
        frameIn callStub 0x7f80 0x7fc0 0x6040],
      (frame.isSafeForSender view view.stack.bounds :
          Probe FrameError Bool).Gives true ∧
        ¬frame.Unwinds view (.empty true)) ∧
      ¬Frame.ValidatorSound := by
  have unsized : ¬(frameIn sizeless 0x7f40 0 0x3008).Unwinds view
      (.empty true) := fun unwinds =>
    ((unwinds.supported rfl).sized (.inr (.inr rfl)) sizeless rfl).1 rfl
  have lowest : ¬(frameIn narrow 0x7f00 0 0x4008).Unwinds view
      (.empty true) := fun unwinds =>
    ((unwinds.supported rfl).sized (.inr (.inr rfl)) narrow rfl).2 rfl rfl
  have unanchored : ¬(frameIn callStub 0x7f80 0x7fc0 0x6040).Unwinds view
      (.empty true) := by
    intro unwinds
    obtain ⟨anchor, keeps, -⟩ := (unwinds.supported rfl).anchored rfl 0x8000 rfl
    have below : (0x8008 : Word).toNat < (0x8000 : Word).toNat :=
      keeps.sp.covers.2.2
    exact absurd below (by decide)
  refine ⟨?_, fun sound => ?_⟩
  · simp only [List.mem_cons, List.not_mem_nil, or_false, forall_eq_or_imp,
      forall_eq]
    exact ⟨⟨rfl, unsized⟩, ⟨rfl, lowest⟩, rfl, unanchored⟩
  · exact unsized (sound view 0x7f40 0x7f40 0 0x3008 _ _ rfl built rfl (by decide)
      rfl)

end Unchecked

end ManagedStack
