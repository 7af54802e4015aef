import ManagedStack.Frame.Validation
import ManagedStack.Proofs.Fitting
import ManagedStack.Proofs.Walks

namespace ManagedStack

/-!
# Frames that the validators accept

Readers that do not own a stack validate a frame before they look for its caller.
Between two calls they can do so all the way down a chain: every frame that the
manager laid out is accepted, except where the words between its frame pointer and
its stack pointer are more than the entries that its method declares and a fixed
slack.  Monitors and the locals of a callee count as well, but are not declared.
-/

open Operation

/-- More whole words lie between two aligned addresses than a number of them. -/
theorem Word.lt_words_between
    {low high count : Word}
    (lowAligned : low.toNat % 8 = 0)
    (highAligned : high.toNat % 8 = 0)
    (ordered : low.toNat ≤ high.toNat) :
    count < (high - low) / 8 ↔ low.toNat + 8 * count.toNat < high.toNat := by
  have eight : (8 : Word).toNat = 8 := rfl
  have distance := UInt64.toNat_sub_of_le high low
    (UInt64.le_iff_toNat_le.mpr ordered)
  rw [UInt64.lt_iff_toNat_lt, UInt64.toNat_div, distance, eight]
  omega

namespace Stack

/-- A bounded read that may look at the whole stack finds what the stack holds. -/
theorem gives_readWithin_of_holds
    {stack : Stack}
    {address : Address}
    {word : Word}
    (holds : stack.Holds address word) :
    (stack.readWithin stack.bounds address : Probe ε (Option Word)).Gives
      (some word) := by
  obtain ⟨aligned, low, high⟩ := holds.covers
  have baseAligned := stack.base_aligned
  have baseSmall := stack.base.toNat_lt
  have eight : (8 : Word).toNat = 8 := rfl
  have isAligned : address.isAligned = true := by
    simp [Word.isAligned, Word.bytes, aligned]
  have sum : address.add? 8 = some (address + 8) :=
    if_pos (by rw [eight]; change _ < 0x10000000000000000; omega)
  have next : (address + 8).toNat = address.toNat + 8 := by
    rw [UInt64.toNat_add, eight]
    omega
  have contains : stack.bounds.contains address = true := by
    simp only [Bounds.contains, bounds, sum, Bool.and_eq_true,
      decide_eq_true_eq, UInt64.le_iff_toNat_le, next]
    omega
  unfold readWithin
  rw [isAligned, contains, show stack.read? address = .ok word from holds]
  exact Probe.gives_answer.mpr rfl

end Stack

namespace Frame

/-- The frame is no taller than its method's declared entries and the slack. -/
def keepsHeight
    (methods : MethodTable)
    (frame : Frame)
    (activation : Activation) :
    Bool :=
  frame.sp != 0 && (methods.find? activation.method).all fun method =>
    decide (frame.fp.toNat ≤
      frame.sp.toNat + 8 * (1024 + method.maxStack.toNat))

/--
How the validators judge a frame, its caller, and so on up to the entry frame.

An interpreted frame ends some words below the entries of its activation: the locals
of its callee that are not parameters are there as well.
-/
def Judged
    (view : View)
    (entry : EntryRecord)
    (verdict : Frame → Activation → Bool)
    (extra : Nat)
    (frame : Frame) :
    List HeldActivation → Prop
  | [] =>
      frame.kind = .entry ∧
        frame.callWrapper view = pure ⟨entry.wrapper⟩ ∧
        (frame.isSafeForSender view view.stack.bounds :
          Probe FrameError Bool).Gives true
  | held :: callers =>
      frame.kind = .interpreted ∧
        frame.fp = held.activation.fp ∧
        frame.sp.toNat + 8 * extra = held.activation.stackTop.toNat ∧
        (frame.isInterpretedValid view view.stack.bounds :
          Probe FrameError Bool).Gives (verdict frame held.activation) ∧
        ∃ caller,
          (∀ map, ∃ after, (frame.sender view).Gives map caller after) ∧
            (frame.isSafeForSender view view.stack.bounds :
              Probe FrameError Bool).Gives
                (callers.head?.all fun next => verdict caller next.activation) ∧
            Judged view entry verdict
              (held.activation.maxLocals - held.parameterSlots) caller callers

end Frame

/-- What the validator compares with the method can be what it looks for. -/
structure Activation.Recognizable
    (method : Method)
    (activation : Activation) :
    Prop where
  position : (method.bciOfBcx? activation.bcp).isSome = true
  constants : method.constants ≠ 0
  aligned : method.constants.isAligned = true
  allowance : 1024 + method.maxStack.toNat < UInt64.size

instance (method : Method) (activation : Activation) :
    Decidable (activation.Recognizable method) :=
  decidable_of_iff
    ((method.bciOfBcx? activation.bcp).isSome = true ∧ method.constants ≠ 0 ∧
      method.constants.isAligned = true ∧
      1024 + method.maxStack.toNat < UInt64.size)
    ⟨fun ⟨position, constants, aligned, allowance⟩ =>
        ⟨position, constants, aligned, allowance⟩,
      fun ⟨position, constants, aligned, allowance⟩ =>
        ⟨position, constants, aligned, allowance⟩⟩

/-- An address that the manager stores can be found as a return address. -/
structure CodeCache.ReturnsTo
    (code : CodeCache)
    (pc : Address) :
    Prop where
  nonzero : pc ≠ 0
  complete : ∀ blob ∈ code.find? pc, ∀ offset ∈ blob.frameCompleteOffset,
    blob.start.toNat + offset.toNat < UInt64.size

instance (code : CodeCache) (pc : Address) : Decidable (code.ReturnsTo pc) :=
  decidable_of_iff
    (pc ≠ 0 ∧ (code.find? pc).all (fun blob =>
      blob.frameCompleteOffset.all fun offset =>
        decide (blob.start.toNat + offset.toNat < UInt64.size)) = true)
    ⟨fun ⟨nonzero, complete⟩ =>
        ⟨nonzero, by simpa [Option.all_eq_true] using complete⟩,
      fun ⟨nonzero, complete⟩ =>
        ⟨nonzero, by simpa [Option.all_eq_true] using complete⟩⟩

section Chain

variable {context : ManagerContext τ} {view : View} {entry : EntryRecord}
  {held : HeldActivation} {callers chain : List HeldActivation}
  {sp unextendedSp : Address} {extra : Nat}

/-- Where the frame of a chain ends: on the stack, some words below the entries. -/
structure Situated
    (context : ManagerContext τ)
    (stack : Stack)
    (entry : EntryRecord)
    (sp unextendedSp : Address)
    (extra : Nat)
    (chain : List HeldActivation) :
    Prop where
  chained : Chained context stack entry chain
  limit : stack.limit.toNat ≤ sp.toNat
  ordered : sp.toNat ≤ unextendedSp.toNat
  base : unextendedSp.toNat ≤ stack.base.toNat
  spLe : sp.toNat ≤ (footing context entry chain).floor
  extent : ∀ held ∈ chain.head?,
    sp.toNat + 8 * extra = held.activation.stackTop.toNat

/-- The frame of the caller ends at the locals of the callee. -/
theorem Situated.rest
    (situated : Situated context view.stack entry sp unextendedSp extra
      (held :: callers)) :
    Situated context view.stack entry (held.activation.fp.offset 2)
      held.argumentTop (held.activation.maxLocals - held.parameterSlots)
      callers := by
  obtain ⟨rests, -, waiting⟩ := situated.chained
  have limit := rests.sits.limitLe
  have topLe := rests.sits.topLe
  have endLe := rests.sits.monitorEndLe
  have fixed := rests.sits.monitorBase
  have place := rests.sits.toNat_senderSp
  have fewer := rests.laid.parameters
  have within := rests.within
  have floor := waiting.floor_le_base
  have arguments := HeldActivation.toNat_argumentTop rests.sits fewer
  unfold Activation.ceiling at within arguments
  constructor
  case chained => exact waiting
  case limit => omega
  case ordered => omega
  case base => omega
  case spLe => omega
  case extent =>
    intro caller isCaller
    rw [rests.arguments caller isCaller]
    omega

/-- The registers of a frame of a chain are in order unless it ends at address zero. -/
theorem Situated.hasFixedSlots
    (situated : Situated context view.stack entry sp unextendedSp extra
      (held :: callers)) :
    (chainFrame context entry sp unextendedSp (held :: callers)).hasFixedSlots
      .x86_64 = (sp != 0) := by
  obtain ⟨rests, -, -⟩ := situated.chained
  have sits := rests.sits
  have spLe : sp.toNat ≤ held.activation.monitorEnd.toNat := situated.spLe
  have endLe := sits.monitorEndLe
  have fixed := sits.monitorBase
  have fpAligned := sits.fpAligned
  have topAligned := sits.topAligned
  have extent := situated.extent held rfl
  have lowest := sits.toNat_slot (by omega : -9 ≤ (-9 : Int)) (by omega)
  have fpNonzero : held.activation.fp ≠ 0 := by
    intro zero
    rw [zero] at fixed
    change _ = 0 at fixed
    omega
  have slots : sp ≤ held.activation.fp.offset (-9) := by
    rw [UInt64.le_iff_toNat_le]
    omega
  have below : sp < held.activation.fp := by
    rw [UInt64.lt_iff_toNat_lt]
    omega
  have spAligned : sp.toNat % 8 = 0 := by omega
  have fpIs : (chainFrame context entry sp unextendedSp (held :: callers)).fp =
      held.activation.fp :=
    rfl
  have spIs : (chainFrame context entry sp unextendedSp (held :: callers)).sp =
      sp :=
    rfl
  simp [Frame.hasFixedSlots, Frame.slot, FrameLayout.x86_64, fpIs, spIs,
    Word.isAligned, Word.bytes, fpNonzero, fpAligned, spAligned, below, slots]

/-- A frame of a chain that does not end at address zero is judged by its words. -/
theorem Situated.keepsHeight_eq
    {method : Method}
    (situated : Situated context view.stack entry sp unextendedSp extra
      (held :: callers))
    (found : context.env.methods.find? held.activation.method = some method)
    (nonzero : sp ≠ 0)
    (allowance : 1024 + method.maxStack.toNat < UInt64.size) :
    (chainFrame context entry sp unextendedSp (held :: callers)).keepsHeight
        context.env.methods held.activation =
      !decide (1024 + method.maxStack < (held.activation.fp - sp) / 8) := by
  have sits := situated.chained.1.sits
  have spLe : sp.toNat ≤ held.activation.monitorEnd.toNat := situated.spLe
  have endLe := sits.monitorEndLe
  have fixed := sits.monitorBase
  have topAligned := sits.topAligned
  have extent := situated.extent held rfl
  have allowed : (1024 + method.maxStack).toNat = 1024 + method.maxStack.toNat := by
    rw [UInt64.toNat_add]
    exact Nat.mod_eq_of_lt allowance
  have tall : 1024 + method.maxStack < (held.activation.fp - sp) / 8 ↔ _ :=
    Word.lt_words_between (by omega) sits.fpAligned (by omega)
  rw [allowed] at tall
  unfold Frame.keepsHeight
  rw [found, Option.all_some]
  change (sp != 0 && decide (held.activation.fp.toNat ≤
    sp.toNat + 8 * (1024 + method.maxStack.toNat))) = _
  rw [bne_iff_ne.mpr nonzero, Bool.true_and, ← decide_not]
  exact decide_eq_decide.mpr (by rw [tall, Nat.not_lt])

/--
A frame of a chain is a valid interpreted frame unless it is too tall.  Of all that
the validator looks at, only the height can speak against it.
-/
theorem Situated.gives_isInterpretedValid
    (situated : Situated context view.stack entry sp unextendedSp extra
      (held :: callers))
    (sameEnv : view.toEnv = context.env)
    (x86 : view.layout = .x86_64)
    (recognizable : ∀ method ∈ context.env.methods.find? held.activation.method,
      held.activation.Recognizable method) :
    ((chainFrame context entry sp unextendedSp (held :: callers))
        |>.isInterpretedValid view view.stack.bounds : Probe ε Bool).Gives
      ((chainFrame context entry sp unextendedSp (held :: callers)).keepsHeight
        context.env.methods held.activation) := by
  obtain ⟨rests, published, -⟩ := situated.chained
  have sits := rests.sits
  obtain ⟨method, found, -⟩ := rests.runs
  obtain ⟨position, constants, aligned, allowance⟩ := recognizable method found
  have sameMethods : view.methods = context.env.methods := by rw [← sameEnv]
  have sum : FrameLayout.x86_64.interpreterFrameSlackWords.plus method.maxStack =
      .ok (1024 + method.maxStack) := by
    refine Word.plus_eq_ok.mpr ⟨allowance, ?_⟩
    rw [UInt64.toNat_add]
    exact Nat.mod_eq_of_lt allowance
  unfold Frame.isInterpretedValid
  rw [x86, situated.hasFixedSlots]
  by_cases zero : sp = 0
  · simp [zero, Frame.keepsHeight, chainFrame]
  rw [situated.keepsHeight_eq found zero allowance, bne_iff_ne.mpr zero,
    if_neg (by decide)]
  refine Probe.gives_bind.mpr
    ⟨_, Stack.gives_readWithin_of_holds rests.laid.method, ?_⟩
  simp only [Option.bind_some, sameMethods, found]
  refine Probe.gives_bind.mpr ⟨_, Probe.gives_check.mpr sum, ?_⟩
  change (if 1024 + method.maxStack < (held.activation.fp - sp) / 8 then _ else _ :
    Probe ε Bool).Gives _
  by_cases tall : 1024 + method.maxStack < (held.activation.fp - sp) / 8
  · rw [if_pos tall, decide_eq_true tall]
    exact Probe.gives_pure.mpr rfl
  rw [if_neg tall, decide_eq_false tall]
  refine Probe.gives_bind.mpr
    ⟨_, Stack.gives_readWithin_of_holds (published .bcx), ?_⟩
  rw [if_neg (by
    simpa [PublishedSlot.word, Option.isSome_iff_ne_none] using position)]
  refine Probe.gives_bind.mpr
    ⟨_, Stack.gives_readWithin_of_holds (rests.constants method found), ?_⟩
  rw [if_neg (by simp [Frame.isConstantsOf, constants, aligned])]
  refine Probe.gives_bind.mpr
    ⟨_, Stack.gives_readWithin_of_holds rests.laid.locals, ?_⟩
  refine Probe.gives_pure.mpr ?_
  have locals := sits.locals
  have localsLe := sits.localsLe
  have base : view.stack.bounds.belowBase held.activation.locals = true := by
    simp only [Bounds.belowBase, Stack.bounds, decide_eq_true_eq,
      UInt64.le_iff_toNat_le]
    omega
  have above : held.activation.fp ≤ held.activation.locals := by
    rw [UInt64.le_iff_toNat_le]
    omega
  simp [base, above, chainFrame, footing]

/-- The link of a frame is a plausible saved frame pointer of its caller. -/
theorem Frame.gives_savedLinkIfSafe?
    {fp link : Address}
    (x86 : view.layout = .x86_64)
    (holds : view.stack.Holds fp link)
    (above : (fp.offset 2).toNat < link.toNat)
    (base : link.toNat ≤ view.stack.base.toNat) :
    (savedLinkIfSafe? view view.stack.bounds (fp.offset 2) :
      Probe ε (Option Address)).Gives (some link) := by
  have back : (fp.offset 2).offset (-2) = fp := by
    rw [Word.offset_offset]
    exact Word.offset_zero fp
  have negated : negateSigned FrameLayout.x86_64.senderSp = .ok (-2) := rfl
  unfold savedLinkIfSafe?
  rw [x86]
  refine Probe.gives_bind.mpr ⟨_, Probe.gives_check.mpr negated, ?_⟩
  refine Probe.gives_bind.mpr
    ⟨some link, Stack.gives_readWithin_of_holds (back.symm ▸ holds), ?_⟩
  refine Probe.gives_pure.mpr (Option.filter_eq_some_iff.mpr ⟨rfl, ?_⟩).symm
  simp only [Bounds.belowBase, Stack.bounds, Bool.and_eq_true,
    decide_eq_true_eq, UInt64.le_iff_toNat_le, UInt64.lt_iff_toNat_lt]
  exact ⟨base, above⟩

/-- The call wrapper lies above the entry frame. -/
theorem EntryRecord.Stands.gives_isCallWrapperSafe
    (stands : entry.Stands view.stack)
    (x86 : view.layout = .x86_64) :
    (Frame.isCallWrapperSafe view view.stack.bounds entry.framePointer :
      Probe ε Bool).Gives true := by
  have frame := stands.toNat_framePointer
  obtain ⟨count, -, base, -⟩ := stands.handles
  unfold Frame.isCallWrapperSafe
  rw [x86]
  refine Probe.gives_bind.mpr
    ⟨_, Stack.gives_readWithin_of_holds stands.callWrapper, ?_⟩
  refine Probe.gives_pure.mpr ?_
  simp only [Option.any_some, Bounds.belowBase, Stack.bounds, Bool.and_eq_true,
    decide_eq_true_eq, UInt64.le_iff_toNat_le, UInt64.lt_iff_toNat_lt,
    Eq.comm (a := true)]
  omega

/-- A frame is judged where it ends, whatever extended the stack below it. -/
theorem Situated.plain
    (situated : Situated context view.stack entry sp unextendedSp extra chain) :
    Situated context view.stack entry sp sp extra chain where
  chained := situated.chained
  limit := situated.limit
  ordered := Nat.le_refl _
  base := Nat.le_trans situated.ordered situated.base
  spLe := situated.spLe
  extent := situated.extent

/-- The entry point for callers is in interpreter code. -/
theorem Coded.interpreterBlob (coded : Coded context) :
    ∃ blob,
      context.env.code.find? context.entryPoints.interpreterReturnPc =
        some blob ∧ blob.kind = .interpreter := by
  have inCode := coded.interpreter
  unfold CodeCache.interpreterContains at inCode
  split at inCode
  · rename_i blob found
    exact ⟨blob, found, by simpa using inCode⟩
  · cases inCode

/-- The entry point for the outermost activation is that of a call stub. -/
theorem Coded.callStubBlob (coded : Coded context) :
    ∃ blob,
      context.env.code.find? context.entryPoints.callStubReturnPc = some blob ∧
        blob.kind = .callStub context.entryPoints.callStubReturnPc := by
  have inCode := coded.callStub
  unfold CodeCache.returnsToCallStub at inCode
  split at inCode
  · rename_i blob found
    exact ⟨blob, found, by simpa using inCode⟩
  · cases inCode

/-- What a footing owns lies below its frame pointer, and that on the stack. -/
theorem Chained.fp_between
    {stack : Stack}
    (chained : Chained context stack entry chain) :
    (footing context entry chain).floor < (footing context entry chain).fp.toNat ∧
      (footing context entry chain).fp.toNat ≤ stack.base.toNat := by
  cases chain with
  | nil =>
      have stands : entry.Stands stack := chained
      have wrapped := stands.toNat_framePointer
      have low := stands.low
      obtain ⟨count, -, base, -⟩ := stands.handles
      simp only [footing, EntryRecord.floor]
      omega
  | cons held callers =>
      have sits := chained.1.sits
      have endLe := sits.monitorEndLe
      have fixed := sits.monitorBase
      have localsLe := sits.localsLe
      simp only [footing]
      omega

/-- The link of a frame on a chain is plausible. -/
theorem Situated.gives_savedLink
    (situated : Situated context view.stack entry sp unextendedSp extra
      (held :: callers))
    (x86 : view.layout = .x86_64) :
    (Frame.savedLinkIfSafe? view view.stack.bounds
      (held.activation.fp.offset 2) : Probe ε _).Gives
        (some (footing context entry callers).fp) := by
  obtain ⟨above, base⟩ := situated.chained.2.2.fp_between
  exact Frame.gives_savedLinkIfSafe? x86 situated.chained.1.laid.link
    (Nat.lt_of_le_of_lt situated.rest.spLe above) base

/-- The registers of a footing resolve to a frame of its chain. -/
theorem gives_plain_chainFrame
    (entry : EntryRecord)
    (chain : List HeldActivation)
    (coded : Coded context)
    (sameEnv : view.toEnv = context.env) :
    (Frame.plain view sp (footing context entry chain).fp
      (footing context entry chain).returnPc : Probe ε Frame).Gives
        (chainFrame context entry sp sp chain) :=
  congrArg Probe.outcome (resolve_chainFrame entry chain coded sameEnv)

/-- What a frame of a chain returns to keeps its height, or is the entry frame. -/
def returnKeepsHeight
    (context : ManagerContext τ)
    (entry : EntryRecord) :
    List HeldActivation → Bool
  | [] => true
  | held :: callers =>
      callers.head?.all fun caller =>
        (chainFrame context entry (held.activation.fp.offset 2)
          held.argumentTop callers).keepsHeight context.env.methods
            caller.activation

/-- Whether a frame is complete at an entry point can be computed. -/
theorem CodeCache.ReturnsTo.exists_isFrameComplete
    {code : CodeCache}
    {pc : Address}
    {blob : Blob}
    (returns : code.ReturnsTo pc)
    (found : code.find? pc = some blob) :
    ∃ complete, blob.isFrameCompleteAt pc = .ok complete := by
  unfold Blob.isFrameCompleteAt
  rcases isOffset : blob.frameCompleteOffset with _ | offset
  · exact ⟨false, rfl⟩
  · have fits := returns.complete blob found offset isOffset
    have sum : blob.start.plus offset = .ok (blob.start + offset) := by
      refine Word.plus_eq_ok.mpr ⟨fits, ?_⟩
      rw [UInt64.toNat_add]
      exact Nat.mod_eq_of_lt fits
    dsimp only
    rw [sum]
    split
    · exact ⟨_, rfl⟩
    · exact ⟨false, rfl⟩

/-- Frames of a chain run in blobs whose frames are complete everywhere. -/
theorem Coded.exists_blob
    (coded : Coded context)
    (entry : EntryRecord)
    (chain : List HeldActivation) :
    ∃ blob,
      context.env.code.find? (footing context entry chain).returnPc = some blob ∧
        Frame.needsCompleteFrame blob = false := by
  cases chain with
  | nil =>
      obtain ⟨blob, found, isStub⟩ := coded.callStubBlob
      refine ⟨blob, found, ?_⟩
      simp [Frame.needsCompleteFrame, Blob.isCompiled, Blob.compiled?,
        Blob.isAdapter, Blob.isRuntimeStub, isStub]
  | cons held callers =>
      obtain ⟨blob, found, isInterpreter⟩ := coded.interpreterBlob
      refine ⟨blob, found, ?_⟩
      simp [Frame.needsCompleteFrame, Blob.isCompiled, Blob.compiled?,
        Blob.isAdapter, Blob.isRuntimeStub, isInterpreter]

/-- The pointers of a frame of a chain are in order. -/
theorem Situated.hasSafePointers
    (situated : Situated context view.stack entry sp unextendedSp extra chain) :
    (chainFrame context entry sp unextendedSp chain).hasSafePointers
        view.stack.bounds = true ∧
      (chainFrame context entry sp unextendedSp chain).hasSafeFp
        view.stack.bounds = true := by
  obtain ⟨chained, limit, ordered, base, spLe, -⟩ := situated
  obtain ⟨above, fpLe⟩ := chained.fp_between
  simp only [Frame.hasSafePointers, Frame.hasSafeFp, Bounds.within,
    Bounds.belowBase, Stack.bounds, chainFrame, Bool.and_eq_true,
    decide_eq_true_eq, UInt64.le_iff_toNat_le, UInt64.lt_iff_toNat_lt]
  omega

section Returning

variable
  (coded : Coded context)
  (sameEnv : view.toEnv = context.env)
  (x86 : view.layout = .x86_64)
  (inCode : ∀ blob ∈ context.env.code.find? context.entryPoints.callStubReturnPc,
    blob.codeContains context.entryPoints.callStubReturnPc = true)
include coded sameEnv x86 inCode

/--
The validator judges the frame that a frame of a chain returns to.  The first
activation returns to the call stub, and any other one to the interpreter.
-/
theorem Situated.gives_isReturnSafe
    (situated : Situated context view.stack entry sp unextendedSp extra
      (held :: callers))
    (recognizable : ∀ caller ∈ callers,
      ∀ method ∈ context.env.methods.find? caller.activation.method,
        caller.activation.Recognizable method) :
    (Frame.isReturnSafe view view.stack.bounds (held.activation.fp.offset 2)
      (footing context entry callers).returnPc : Probe ε Bool).Gives
        (returnKeepsHeight context entry (held :: callers)) := by
  have linked : (Frame.savedLinkIfSafe? view view.stack.bounds
      (held.activation.fp.offset 2) : Probe ε _).Gives _ :=
    situated.gives_savedLink x86
  have resolved : (Frame.plain view (held.activation.fp.offset 2)
      (footing context entry callers).fp
      (footing context entry callers).returnPc : Probe ε Frame).Gives _ :=
    gives_plain_chainFrame entry callers coded sameEnv
  have sameCode : view.code = context.env.code := by rw [← sameEnv]
  cases callers with
  | nil =>
      obtain ⟨blob, found, isStub⟩ := coded.callStubBlob
      have notInterpreter : context.env.code.interpreterContains
          context.entryPoints.callStubReturnPc = false := by
        simp [CodeCache.interpreterContains, found, isStub]
      change (Frame.isReturnSafe view view.stack.bounds
        (held.activation.fp.offset 2) context.entryPoints.callStubReturnPc :
          Probe ε Bool).Gives true
      unfold Frame.isReturnSafe
      rw [sameCode, found]
      dsimp only
      rw [if_neg (ne_true_of_eq_false notInterpreter),
        if_neg (by simp [inCode blob found, Blob.isAdapter, isStub]),
        if_pos coded.callStub]
      refine Probe.gives_bind.mpr ⟨_, linked, ?_⟩
      refine Probe.gives_bind.mpr ⟨_, resolved, ?_⟩
      exact EntryRecord.Stands.gives_isCallWrapperSafe situated.chained.2.2 x86
  | cons caller rest =>
      obtain ⟨blob, found, -⟩ := coded.interpreterBlob
      change (Frame.isReturnSafe view view.stack.bounds
        (held.activation.fp.offset 2)
          context.entryPoints.interpreterReturnPc : Probe ε Bool).Gives _
      unfold Frame.isReturnSafe
      rw [sameCode, found]
      dsimp only
      rw [if_pos coded.interpreter]
      refine Probe.gives_bind.mpr ⟨_, linked, ?_⟩
      refine Probe.gives_bind.mpr ⟨_, resolved, ?_⟩
      exact situated.rest.plain.gives_isInterpretedValid sameEnv x86
        (recognizable caller (List.mem_cons_self ..))

variable
  (interpreter : context.env.code.ReturnsTo
    context.entryPoints.interpreterReturnPc)
  (callStub : context.env.code.ReturnsTo context.entryPoints.callStubReturnPc)
include interpreter callStub

/-- The caller of a frame of a chain is safe to look for unless it is too tall. -/
theorem Situated.gives_isSafeForSender
    (situated : Situated context view.stack entry sp unextendedSp extra chain)
    (recognizable : ∀ held ∈ chain,
      ∀ method ∈ context.env.methods.find? held.activation.method,
        held.activation.Recognizable method) :
    ((chainFrame context entry sp unextendedSp chain).isSafeForSender view
      view.stack.bounds : Probe ε Bool).Gives
        (returnKeepsHeight context entry chain) := by
  obtain ⟨pointers, fpSafe⟩ := situated.hasSafePointers
  have returns (chain : List HeldActivation) :
      context.env.code.ReturnsTo (footing context entry chain).returnPc := by
    cases chain with
    | nil => exact callStub
    | cons held callers => exact interpreter
  obtain ⟨blob, found, needless⟩ := coded.exists_blob entry chain
  obtain ⟨complete, isComplete⟩ := (returns chain).exists_isFrameComplete found
  have runsIn : (chainFrame context entry sp unextendedSp chain).blob =
      some blob :=
    found
  unfold Frame.isSafeForSender
  rw [pointers, if_neg (by decide), runsIn]
  refine Probe.gives_bind.mpr ⟨complete, Probe.gives_check.mpr isComplete, ?_⟩
  rw [if_neg (by simp [needless])]
  cases chain with
  | nil =>
      rw [if_pos (kind_chainFrame_nil coded), if_pos fpSafe]
      exact EntryRecord.Stands.gives_isCallWrapperSafe situated.chained x86
  | cons held callers =>
      have kind : (chainFrame context entry sp unextendedSp
          (held :: callers)).kind = .interpreted :=
        kind_chainFrame_cons coded
      have senderSp : (chainFrame context entry sp unextendedSp
          (held :: callers)).senderSp view = held.activation.fp.offset 2 := by
        unfold Frame.senderSp
        rw [x86]
        rfl
      have found : ((chainFrame context entry sp unextendedSp
          (held :: callers)).returnWithin? view view.stack.bounds blob :
            Probe ε _).Gives (some (held.activation.fp.offset 2,
              (footing context entry callers).returnPc)) := by
        unfold Frame.returnWithin?
        rw [if_pos kind, if_pos fpSafe, senderSp, x86]
        refine Probe.gives_bind.mpr ⟨_, Stack.gives_readWithin_of_holds
          situated.chained.1.laid.returnAddress, ?_⟩
        exact Probe.gives_pure.mpr rfl
      rw [if_neg (by rw [kind]; decide)]
      refine Probe.gives_bind.mpr ⟨_, found, ?_⟩
      dsimp only
      rw [if_neg (returns callers).nonzero]
      exact situated.gives_isReturnSafe coded sameEnv x86 inCode
        fun caller isCaller => recognizable caller (List.mem_cons_of_mem _ isCaller)

/-- The validators judge a chain by the heights of its frames. -/
theorem Situated.judged
    (situated : Situated context view.stack entry sp unextendedSp extra chain)
    (recognizable : ∀ held ∈ chain,
      ∀ method ∈ context.env.methods.find? held.activation.method,
        held.activation.Recognizable method) :
    (chainFrame context entry sp unextendedSp chain).Judged view entry
      (Frame.keepsHeight context.env.methods)
      extra chain := by
  induction chain generalizing sp unextendedSp extra with
  | nil =>
      exact ⟨kind_chainFrame_nil coded,
        callWrapper_chainFrame coded x86 situated.chained,
        situated.gives_isSafeForSender coded sameEnv x86 inCode interpreter
          callStub recognizable⟩
  | cons held callers inductionHypothesis =>
      exact ⟨kind_chainFrame_cons coded, rfl, situated.extent held rfl,
        situated.gives_isInterpretedValid sameEnv x86
          (recognizable held (List.mem_cons_self ..)),
        _, fun map =>
          ⟨_, (runs_sender coded sameEnv x86 situated.chained.1 map).gives⟩,
        situated.gives_isSafeForSender coded sameEnv x86 inCode interpreter
          callStub recognizable,
        inductionHypothesis situated.rest fun caller isCaller =>
          recognizable caller (List.mem_cons_of_mem held isCaller)⟩

end Returning

/--
The monitors of an activation take no more than the slack leaves after the nine
words of its frame, not even with the locals that its callee puts below its entries.
-/
def Frugal (extra : Nat) : List HeldActivation → Prop
  | [] => True
  | held :: callers =>
      held.activation.monitorBase.toNat + 8 * extra ≤
          held.activation.monitorEnd.toNat + 8 * 1015 ∧
        Frugal (held.activation.maxLocals - held.parameterSlots) callers

instance (extra : Nat) (chain : List HeldActivation) :
    Decidable (Frugal extra chain) :=
  match chain with
  | [] => isTrue trivial
  | held :: callers =>
      have := instDecidableFrugal (held.activation.maxLocals - held.parameterSlots)
        callers
      inferInstanceAs (Decidable (_ ∧ _))

/--
A frame keeps its height as long as its activation is frugal.  The frame of a method
that declares more than any stack holds is never too tall.
-/
theorem Rests.keepsHeight
    {stack : Stack}
    {frame : Frame}
    (rests : Rests context stack entry held callers)
    (fpIs : frame.fp = held.activation.fp)
    (extent : frame.sp.toNat + 8 * extra = held.activation.stackTop.toNat)
    (nonzero : frame.sp ≠ 0)
    (frugal : held.activation.monitorBase.toNat + 8 * extra ≤
      held.activation.monitorEnd.toNat + 8 * 1015) :
    frame.keepsHeight context.env.methods held.activation = true := by
  have sits := rests.sits
  have fixed := sits.monitorBase
  have limitLe := sits.limitLe
  have localsLe := sits.localsLe
  have endLe := sits.monitorEndLe
  have limit := stack.toNat_limit
  have allocated := stack.allocated
  obtain ⟨method, found, -, -, roomy⟩ := rests.runs
  have height : held.activation.fp.toNat ≤
      frame.sp.toNat + 8 * (1024 + method.maxStack.toNat) := by
    by_cases sane : method.maxStack.toNat < 0x1000000000000000
    · obtain ⟨room, inRoom⟩ := roomy sane
      unfold Activation.InRoom at inRoom
      omega
    · omega
  simp [Frame.keepsHeight, found, nonzero, fpIs, height]

/-- No caller's frame ends at address zero: its callee's frame lies below. -/
theorem Frame.Judged.sp_ne_zero
    {stack : Stack}
    {verdict : Frame → Activation → Bool}
    {caller : Frame}
    (judged : caller.Judged view entry verdict
      (held.activation.maxLocals - held.parameterSlots) callers)
    (rests : Rests context stack entry held callers)
    (occupied : callers ≠ []) :
    caller.sp ≠ 0 := by
  obtain ⟨next, rest, rfl⟩ := List.exists_cons_of_ne_nil occupied
  obtain ⟨-, -, extent, -⟩ := judged
  have fewer := rests.laid.parameters
  have place := HeldActivation.toNat_argumentTop rests.sits fewer
  rw [rests.arguments next rfl] at extent
  unfold Activation.ceiling at place
  intro zero
  rw [zero] at extent
  change 0 + _ = _ at extent
  omega

/-- The validators accept the frames of a chain of frugal activations. -/
theorem Chained.accepted
    {frame : Frame}
    (chained : Chained context view.stack entry chain)
    (judged : frame.Judged view entry (Frame.keepsHeight context.env.methods)
      extra chain)
    (frugal : Frugal extra chain)
    (nonzero : chain ≠ [] → frame.sp ≠ 0) :
    frame.Judged view entry (fun _ _ => true) extra chain := by
  induction chain generalizing frame extra with
  | nil => exact judged
  | cons held callers inductionHypothesis =>
      obtain ⟨rests, -, waiting⟩ := chained
      obtain ⟨kind, fp, extent, valid, caller, sends, safe, others⟩ := judged
      have keeps := rests.keepsHeight fp extent (nonzero (by simp)) frugal.1
      rw [keeps] at valid
      have callerNonzero := others.sp_ne_zero rests
      refine ⟨kind, fp, extent, valid, caller, sends, ?_,
        inductionHypothesis waiting others frugal.2 callerNonzero⟩
      cases callers with
      | nil => exact safe
      | cons next rest =>
          obtain ⟨-, callerFp, callerExtent, -⟩ := others
          have callerKeeps := waiting.1.keepsHeight callerFp callerExtent
            (callerNonzero (by simp)) frugal.2.1
          simp only [List.head?_cons, Option.all_some, callerKeeps] at safe ⊢
          exact safe

end Chain

namespace Session

/-- How the validators judge the frames from the top down to the entry frame. -/
def Judged
    (context : ManagerContext τ)
    (verdict : Frame → Activation → Bool)
    (session : Session τ) :
    Prop :=
  ∃ entry frame,
    session.manager.entry = some entry ∧
      (topFrame context).Gives session (some frame) session ∧
      frame.Judged (session.machine.view context.env) entry verdict 0
        session.manager.activations.toList.reverse

/-- The validators accept every frame from the top down to the entry frame. -/
def AcceptsFrames
    (context : ManagerContext τ)
    (session : Session τ) :
    Prop :=
  session.Judged context fun _ _ => true

/-- All activations are frugal. -/
def IsFrugal (session : Session τ) : Prop :=
  Frugal 0 session.manager.activations.toList.reverse

instance (session : Session τ) : Decidable session.IsFrugal :=
  inferInstanceAs (Decidable (Frugal ..))

/-- Whether both validators accept the frame of the top. -/
def acceptsTop
    (context : ManagerContext τ)
    (session : Session τ) :
    Bool :=
  (topFrame context session).1.outcome.toOption.all fun top =>
    top.all fun frame =>
      let view := session.machine.view context.env
      (frame.isInterpretedValid view view.stack.bounds :
          Probe FrameError Bool).outcome.toOption == some true &&
        (frame.isSafeForSender view view.stack.bounds :
          Probe FrameError Bool).outcome.toOption == some true

/-- What frames owe to the methods and the code that the embedder provides. -/
structure Validatable
    (context : ManagerContext τ)
    (session : Session τ) :
    Prop where
  x86 : context.env.layout = .x86_64
  coded : Coded context
  inCode : ∀ blob ∈ context.env.code.find? context.entryPoints.callStubReturnPc,
    blob.codeContains context.entryPoints.callStubReturnPc = true
  reached : Reached context session
  occupied : session.manager.depth ≠ 0
  recognizable : ∀ held ∈ session.manager.activations,
    ∀ method ∈ context.env.methods.find? held.activation.method,
      held.activation.Recognizable method

variable {context : ManagerContext τ} {session : Session τ}

/-- Where every frame is accepted, that of the top is. -/
theorem AcceptsFrames.top
    (accepts : session.AcceptsFrames context)
    (occupied : session.manager.depth ≠ 0) :
    acceptsTop context session = true := by
  obtain ⟨entry, frame, -, framed, judged⟩ := accepts
  obtain ⟨rest, held, stands⟩ := Array.eq_push_of_size_ne_zero occupied
  rw [reverse_of_push stands] at judged
  obtain ⟨-, -, -, valid, _, -, safe, -⟩ := judged
  have all : (rest.toList.reverse.head?.all fun _ => true) = true := by
    simp
  rw [all] at safe
  have framed : (topFrame context session).1.outcome = .ok (some frame) :=
    framed.1
  unfold Probe.Gives at valid safe
  simp [acceptsTop, framed, Except.toOption, valid, safe]

/-- The frame of the top is the first one of the chain. -/
theorem gives_topFrame
    {rest : Array HeldActivation}
    {held : HeldActivation}
    (coded : Coded context)
    (entry : EntryRecord)
    (stands : session.manager.activations = rest.push held) :
    (topFrame context).Gives session
      (some (chainFrame context entry held.activation.stackTop
        held.activation.stackTop (held :: rest.toList.reverse))) session := by
  have framed : (Frame.plain (session.machine.view context.env)
      held.activation.stackTop held.activation.fp
        context.entryPoints.interpreterReturnPc : Probe FrameError Frame).Gives
      (chainFrame context entry held.activation.stackTop
        held.activation.stackTop (held :: rest.toList.reverse)) :=
    gives_plain_chainFrame entry (held :: rest.toList.reverse) coded rfl
  refine gives_bind.mpr ⟨_, _, gives_readManager.mpr ⟨rfl, rfl⟩, ?_⟩
  rw [FrameManager.top?_of_push stands]
  exact gives_bind.mpr
    ⟨_, _, gives_frameOf.mpr ⟨framed, rfl⟩, gives_pure.mpr ⟨rfl, rfl⟩⟩

/-- The chain of a session is judged by the heights of its frames. -/
theorem Validatable.judged
    (validatable : session.Validatable context)
    (interpreter : context.env.code.ReturnsTo
      context.entryPoints.interpreterReturnPc)
    (callStub : context.env.code.ReturnsTo
      context.entryPoints.callStubReturnPc) :
    session.Judged context (Frame.keepsHeight context.env.methods) := by
  obtain ⟨x86, coded, inCode, reached, occupied, recognizable⟩ := validatable
  obtain ⟨rest, held, stands⟩ := Array.eq_push_of_size_ne_zero occupied
  obtain ⟨entry, isEntry, chained⟩ :=
    (reached.stacked x86).exists_chained reached.followsProtocol stands
  have sits := chained.1.sits
  have situated : Situated context (session.machine.view context.env).stack entry
      held.activation.stackTop held.activation.stackTop 0
      (held :: rest.toList.reverse) := by
    constructor
    case chained => exact chained
    case limit => exact sits.limitLe
    case ordered => exact Nat.le_refl _
    case base =>
      exact Nat.le_trans sits.topLe chained.floor_le_base
    case spLe => exact sits.topLe
    case extent =>
      intro top isTop
      obtain rfl := Option.some.inj isTop
      rfl
  refine ⟨entry, _, isEntry,
    gives_topFrame coded entry stands, ?_⟩
  rw [reverse_of_push stands]
  exact situated.judged coded rfl x86 inCode interpreter callStub
    fun later inside => recognizable later ((mem_activations_iff stands).mpr inside)

/-- Where all activations are frugal, every frame is accepted. -/
theorem Validatable.acceptsFrames
    (validatable : session.Validatable context)
    (judged : session.Judged context (Frame.keepsHeight context.env.methods))
    (nonzero : ∀ top ∈ session.manager.top?, top.stackTop ≠ 0)
    (frugal : session.IsFrugal) :
    session.AcceptsFrames context := by
  obtain ⟨entry, frame, isEntry, framed, judged⟩ := judged
  obtain ⟨rest, held, stands⟩ :=
    Array.eq_push_of_size_ne_zero validatable.occupied
  have chained :=
    (validatable.reached.stacked validatable.x86).chained entry isEntry
  refine ⟨entry, frame, isEntry, framed, chained.accepted judged frugal ?_⟩
  rw [reverse_of_push stands] at judged
  obtain ⟨-, -, extent, -⟩ := judged
  intro _ zero
  rw [zero] at extent
  exact nonzero held.activation (FrameManager.top?_of_push stands)
    (UInt64.toNat_inj.mp extent.symm)

end Session

/--
Between two calls, each frame of a chain is a valid interpreted frame if it is not
taller than its method allows, and its caller can be looked for if that is not.

So the validators accept all frames while the monitors of each activation, with the
locals of its callee, take what the slack leaves.
-/
theorem judged_by_height
    {context : ManagerContext τ}
    {session : Session τ}
    (validatable : session.Validatable context)
    (interpreter : context.env.code.ReturnsTo
      context.entryPoints.interpreterReturnPc)
    (callStub : context.env.code.ReturnsTo
      context.entryPoints.callStubReturnPc) :
    session.Judged context (Frame.keepsHeight context.env.methods) ∧
      ((∀ top ∈ session.manager.top?, top.stackTop ≠ 0) →
        session.IsFrugal → session.AcceptsFrames context) :=
  have judged := validatable.judged interpreter callStub
  ⟨judged, validatable.acceptsFrames judged⟩

namespace Pooled

/-- A method that calls the other ones. -/
def caller : Method where
  id := 0x500000
  name := "Main.run"
  signature := ⟨[], .void⟩
  codeBase := 0x600000
  codeSize := 16
  isStatic := true
  constants := 0x700000

/-- A method with a few locals. -/
def step : Method where
  id := 0x500008
  name := "Work.step"
  signature := ⟨[], .void⟩
  codeBase := 0x610000
  codeSize := 16
  declaredLocals := 4
  maxStack := 2
  isStatic := true
  constants := 0x700008

/-- A method with more locals than the slack has words. -/
def fill : Method where
  id := 0x500010
  name := "Work.fill"
  signature := ⟨[], .void⟩
  codeBase := 0x620000
  codeSize := 16
  declaredLocals := 1020
  isStatic := true
  constants := 0x700010

/-- Interpreter code that begins at address zero, with callees returning to `pc`. -/
def contextAt (pc : Address) : ManagerContext Unit where
  env := {
    code := ⟨[.ofRange "interpreter" 0 0x2000 .interpreter,
      .ofRange "call stub" 0x3000 0x3100 (.callStub 0x3040)]⟩
    methods := ⟨[caller, step, fill]⟩
    layout := .x86_64
    diagnostics := {}
    adapters := .noAdapters
  }
  entryPoints := ⟨pc, 0x3040⟩
  osrHandler := none

def context : ManagerContext Unit :=
  contextAt 0x1100

/-- Call a method without arguments. -/
def calling (callee : Word) : Engine Unit :=
  Turn.onWorkspace (Workspace.requestCall ⟨callee, 0x1200, 3⟩)

theorem acts_calling (callee : Word) : ActsThroughActivation (calling callee) :=
  .offered (.requestCall _)

def calls : List (Call Unit) :=
  [.setUp Pair.idle, .start 0x500000 [] [], .step (calling 0x500008)]

theorem acts : ∀ call ∈ calls, call.Acts := by
  simp only [calls, List.mem_cons, List.not_mem_nil, or_false, forall_eq_or_imp,
    forall_eq, Call.Acts, true_and]
  exact ⟨.probe _, acts_calling _⟩

theorem ran : (Call.runAll? context calls Pair.fresh).isSome = true := by
  decide +kernel

/-- The session in which the method with a few locals has been entered. -/
def entered : Session Unit :=
  (Call.runAll? context calls Pair.fresh).get ran

/-- All activations are recognizable if a look at each of them says so. -/
theorem recognizable_of_all
    {methods : MethodTable}
    {activations : Array HeldActivation}
    (all : (activations.all fun held =>
      (methods.find? held.activation.method).all fun method =>
        decide (held.activation.Recognizable method)) = true) :
    ∀ held ∈ activations,
      ∀ method ∈ methods.find? held.activation.method,
        held.activation.Recognizable method := by
  intro held inside method found
  have known := Array.all_eq_true_iff_forall_mem.mp all held inside
  rw [Option.mem_def.mp found] at known
  exact of_decide_eq_true known

theorem validatable_entered : entered.Validatable context where
  x86 := rfl
  coded := ⟨by decide +kernel, by decide +kernel⟩
  inCode := by decide +kernel
  reached := (Reached.fresh rfl).of_runAll? acts (Option.some_get ran).symm
  occupied := by decide +kernel
  recognizable := recognizable_of_all (by decide +kernel)

/-- Both frames are accepted, and so is the entry frame. -/
theorem acceptsFrames_entered :
    entered.Validatable context ∧ entered.manager.depth = 2 ∧
      entered.AcceptsFrames context := by
  have judged := judged_by_height validatable_entered
    (by decide +kernel) (by decide +kernel)
  exact ⟨validatable_entered, by decide +kernel,
    judged.2 (by decide +kernel) (by decide +kernel)⟩

/-- A run of calls that enters the caller. -/
def entering : List (Call Unit) :=
  [.setUp Pair.idle, .start 0x500000 [] []]

theorem acts_entering : ∀ call ∈ entering, call.Acts := by
  simp only [entering, List.mem_cons, List.not_mem_nil, or_false,
    forall_eq_or_imp, forall_eq, Call.Acts, and_true]
  exact .probe _

/-- A stack that has room for all the locals. -/
def wide : Session Unit where
  own := ()
  manager := {}
  machine := {
    thread := { id := 1 }
    stack := {
      base := 0x8000
      words := Array.replicate 1060 0
      base_aligned := Stack.aligned_8000
      fits := by rw [Array.size_replicate]; decide
      allocated := by rw [Array.size_replicate]; decide
    }
    records := {}
  }

/-- The caller as it posts its call, with room for what it calls. -/
structure Posts
    (stack : Stack)
    (activation : Activation) :
    Prop where
  payload : activation.payload = .call ⟨0x500010, 0x1200, 3⟩
  method : activation.method = 0x500000
  position : activation.bcp = 0x600000
  empty : activation.stackDepth = .ok 0
  topLe : activation.stackTop.toNat + 72 ≤ activation.fp.toNat
  fits : Session.Fits stack fill activation.stackTop

/-- Whether there is one activation, which posts such a call. -/
def isPosted (session : Session Unit) : Bool :=
  session.manager.activations.size == 1 &&
    session.manager.activations.all fun held =>
      held.activation.payload == .call ⟨0x500010, 0x1200, 3⟩ &&
        held.activation.method == 0x500000 &&
        held.activation.bcp == 0x600000 &&
        held.activation.stackDepth.toOption == some 0 &&
        decide (held.activation.stackTop.toNat + 72 ≤ held.activation.fp.toNat) &&
        decide (held.activation.stackTop.toNat % 8 = 0) &&
        decide (held.activation.stackTop.toNat <
          session.machine.stack.base.toNat) &&
        decide (session.machine.stack.limit.toNat + 8 * 1031 ≤
          held.activation.stackTop.toNat)

theorem exists_posts
    {posted : Session Unit}
    (isPosted : isPosted posted = true) :
    ∃ held, posted.manager.activations = #[].push held ∧
      Posts posted.machine.stack held.activation := by
  simp only [Pooled.isPosted, Bool.and_eq_true, beq_iff_eq] at isPosted
  obtain ⟨one, all⟩ := isPosted
  obtain ⟨rest, held, stands⟩ :=
    Array.eq_push_of_size_ne_zero (by omega : posted.manager.activations.size ≠ 0)
  rw [stands, Array.size_push] at one
  obtain rfl := Array.eq_empty_of_size_eq_zero (by omega : rest.size = 0)
  have facts := Array.all_eq_true_iff_forall_mem.mp all held (by simp [stands])
  simp only [Bool.and_eq_true, beq_iff_eq, decide_eq_true_eq] at facts
  obtain ⟨⟨⟨⟨⟨⟨⟨payload, method⟩, position⟩, empty⟩, topLe⟩, aligned⟩, low⟩,
    room⟩ := facts
  have noParameters : fill.parameterSlots = 0 := by decide
  have manyLocals : fill.maxLocals = 1020 := by decide
  have noEntries : fill.maxStack.toNat = 0 := by decide
  refine ⟨held, stands, payload, method, position, ?_, topLe,
    ⟨⟨aligned, by omega, low⟩, by omega, by omega⟩⟩
  rcases counted : held.activation.stackDepth with _ | depth
  · rw [counted] at empty
    cases empty
  · rw [counted] at empty
    exact congrArg _ (Option.some.inj empty)

/-- From there the method with many locals is entered, with its caller above. -/
theorem exists_filled
    {started posted : Session Unit}
    {held : HeldActivation}
    (advanced : (Session.advance context (calling 0x500010)).Gives started
      (0, .callMethod) posted)
    (stands : posted.manager.activations = #[].push held)
    (posts : Posts posted.machine.stack held.activation) :
    ∃ outcome filled, ∃ fresh : HeldActivation,
      (Session.step context (calling 0x500010)).Gives started outcome filled ∧
        filled.manager.activations = (#[].push held).push fresh ∧
        fresh.parameterSlots = 0 ∧
        fresh.activation.method = 0x500010 ∧
        fresh.activation.bcp = 0x620000 ∧
        fresh.activation.maxLocals = 1020 := by
  have x86 : context.env.layout = .x86_64 := rfl
  have unprofiled : context.env.diagnostics.profileInterpreter = false := rfl
  obtain ⟨placement, laid, fresh, outcome, after, laysOut, shaped, serves,
      managed⟩ :=
    posts.fits.exists_gives_serveCall x86 unprofiled (by decide +kernel) stands
      posts.payload (by decide +kernel) (by decide +kernel) posts.empty
      (by decide)
  obtain ⟨-, -, localWords, -⟩ := Session.place_eq_ok laysOut.placed
  obtain ⟨_, _, -, shape⟩ := Activation.ofShape_eq_ok shaped
  have steps : (Session.step context (calling 0x500010)).Gives started outcome
      after := by
    rw [Session.step_eq]
    exact gives_bind.mpr ⟨(0, .callMethod), posted, advanced, serves⟩
  refine ⟨outcome, after,
    ⟨Session.resumed fresh .methodEntry, fill.parameterSlots⟩, steps, ?_,
    (by decide : fill.parameterSlots = 0), ?_⟩
  · rw [managed, stands]
  · rw [shape]
    exact ⟨rfl, rfl, localWords.trans (by decide)⟩

/-- The caller is too tall with so many locals, and its callee is not accepted. -/
theorem not_acceptsFrames_of_filled
    {stack : Stack}
    {filled : Session Unit}
    {held fresh : HeldActivation}
    (validatable : filled.Validatable context)
    (stands : filled.manager.activations = (#[].push held).push fresh)
    (posts : Posts stack held.activation)
    (noParameters : fresh.parameterSlots = 0)
    (manyLocals : fresh.activation.maxLocals = 1020) :
    ¬filled.AcceptsFrames context := by
  rintro ⟨entry, frame, -, framed, accepted⟩
  obtain ⟨_, other, -, framedToo, judged⟩ := validatable.judged
    (by decide +kernel) (by decide +kernel)
  obtain rfl := Option.some.inj (framed.1.unique framedToo.1)
  have chain : filled.manager.activations.toList.reverse = [fresh, held] := by
    simp [stands]
  rw [chain] at accepted judged
  obtain ⟨-, -, -, -, _, -, safe, -⟩ := accepted
  obtain ⟨-, -, -, -, below, -, verdict, -, fp, extent, -⟩ := judged
  have keeps : below.keepsHeight context.env.methods held.activation = true :=
    verdict.unique safe
  have found : context.env.methods.find? 0x500000 = some caller := by decide
  have noEntries : caller.maxStack.toNat = 0 := by decide
  have topLe := posts.topLe
  simp only [Frame.keepsHeight, posts.method, found, Option.all_some,
    Bool.and_eq_true, decide_eq_true_eq, noEntries, fp] at keeps
  rw [noParameters, manyLocals] at extent
  omega

/-- The session on the large stack in which the caller has been entered. -/
def started : Session Unit :=
  (Call.runAll? context entering wide).getD wide

theorem started_posts :
    (Call.runAll? context entering wide).isSome = true ∧
      (Session.advance context (calling 0x500010) started).1.outcome.toOption =
        some (0, .callMethod) ∧
      isPosted (Session.advance context (calling 0x500010) started).2 = true := by
  decide +kernel

theorem reached_started : Reached context started := by
  refine (Reached.fresh (rfl : wide.manager = {})).of_runAll? acts_entering ?_
  obtain ⟨first, ran⟩ := Option.isSome_iff_exists.mp started_posts.1
  rw [ran, started, ran]
  rfl

theorem coded : Coded context :=
  ⟨by decide +kernel, by decide +kernel⟩

/-- A session that is too tall is reached by calls that all succeed. -/
theorem exists_tall :
    ∃ outcome filled,
      (Session.step context (calling 0x500010)).Gives started outcome filled ∧
        filled.Validatable context ∧ ¬filled.AcceptsFrames context := by
  obtain ⟨-, advanced, posted⟩ := started_posts
  obtain ⟨held, stands, posts⟩ := exists_posts posted
  obtain ⟨outcome, filled, fresh, steps, entered, noParameters, method, position,
    manyLocals⟩ := exists_filled (gives_of_toOption advanced) stands posts
  have validatable : filled.Validatable context := by
    constructor
    case x86 => rfl
    case coded => exact coded
    case inCode => decide +kernel
    case reached =>
      exact reached_started.call (.step (calling 0x500010)) (acts_calling _)
        (gives_bind.mpr ⟨_, _, steps, gives_pure.mpr ⟨rfl, rfl⟩⟩)
    case occupied => simp [FrameManager.depth, entered]
    case recognizable =>
      intro one inside declared found
      obtain rfl | rfl : one = held ∨ one = fresh := by
        simpa [entered] using inside
      · rw [posts.method] at found
        obtain rfl : caller = declared :=
          Option.some.inj ((by decide : _ = some caller).symm.trans found)
        exact ⟨by rw [posts.position]; decide, by decide, by decide, by decide⟩
      · rw [method] at found
        obtain rfl : fill = declared :=
          Option.some.inj ((by decide : _ = some fill).symm.trans found)
        exact ⟨by rw [position]; decide, by decide, by decide, by decide⟩
  exact ⟨outcome, filled, steps, validatable, not_acceptsFrames_of_filled
    validatable entered posts noParameters manyLocals⟩

theorem ran_low : (Call.runAll? context entering Grounded.fresh).isSome = true := by
  decide +kernel

/-- The session in which the caller lies right at address zero. -/
def low : Session Unit :=
  (Call.runAll? context entering Grounded.fresh).get ran_low

theorem ran_unreturned :
    (Call.runAll? (contextAt 0) calls Pair.fresh).isSome = true := by
  decide +kernel

/-- The session in which the callee returns to address zero. -/
def unreturned : Session Unit :=
  (Call.runAll? (contextAt 0) calls Pair.fresh).get ran_unreturned

/--
A frame is not accepted if it is too tall, if it ends at address zero, or if it
returns there.
-/
theorem not_acceptsFrames :
    (∃ outcome filled,
      (Session.step context (calling 0x500010)).Gives started outcome filled ∧
        filled.Validatable context ∧ ¬filled.AcceptsFrames context) ∧
      (low.Validatable context ∧ ¬low.AcceptsFrames context) ∧
      unreturned.Validatable (contextAt 0) ∧
        ¬unreturned.AcceptsFrames (contextAt 0) := by
  have lowValidatable : low.Validatable context := {
    x86 := rfl
    coded := coded
    inCode := by decide +kernel
    reached := (Reached.fresh rfl).of_runAll? acts_entering
      (Option.some_get ran_low).symm
    occupied := by decide +kernel
    recognizable := recognizable_of_all (by decide +kernel) }
  have unreturnedValidatable : unreturned.Validatable (contextAt 0) := {
    x86 := rfl
    coded := ⟨by decide +kernel, by decide +kernel⟩
    inCode := by decide +kernel
    reached := (Reached.fresh rfl).of_runAll? acts
      (Option.some_get ran_unreturned).symm
    occupied := by decide +kernel
    recognizable := recognizable_of_all (by decide +kernel) }
  refine ⟨exists_tall, ⟨lowValidatable, fun accepts => ?_⟩,
    unreturnedValidatable, fun accepts => ?_⟩
  · have top := accepts.top lowValidatable.occupied
    revert top
    decide +kernel
  · have top := accepts.top unreturnedValidatable.occupied
    revert top
    decide +kernel

end Pooled

end ManagedStack
