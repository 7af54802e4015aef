import ManagedStack.Frame.Walk

namespace ManagedStack.Frame

/-!
# Validation for readers that do not own the stack

Profilers look at stacks of threads that keep running, so every word may be
garbage.  The checks here read only inside given bounds, follow no more than one
speculative link, and answer `false` instead of failing.  A frame that passes is
well formed enough to find its caller.
-/

/-- The saved frame pointer of a caller at `senderSp`, if it lies above it. -/
def savedLinkIfSafe?
    (view : View)
    (bounds : Bounds)
    (senderSp : Address) :
    Probe ε (Option Address) := do
  let linkOffset ← Probe.check (negateSigned view.layout.senderSp)
  let saved ← view.stack.readWithin bounds (senderSp.offset linkOffset)
  return saved.filter fun link => bounds.belowBase link && senderSp < link

/-- Whether the call wrapper of an entry frame lies above its frame pointer. -/
def isCallWrapperSafe
    (view : View)
    (bounds : Bounds)
    (fp : Address) :
    Probe ε Bool := do
  let wrapper ←
    view.stack.readWithin bounds (fp.offset view.layout.entryCallWrapper)
  return wrapper.any fun address => bounds.belowBase address && fp < address

/-- A field of the frame, if it lies inside the bounds. -/
def fieldWithin
    (frame : Frame)
    (view : View)
    (bounds : Bounds)
    (offset : Int) :
    Probe ε (Option Word) :=
  view.stack.readWithin bounds (frame.slot offset)

/-- Whether the fixed slots of an interpreted frame lie above its sp. -/
def hasFixedSlots
    (frame : Frame)
    (layout : FrameLayout) :
    Bool :=
  frame.fp != 0 && frame.fp.isAligned && frame.sp != 0 &&
    frame.sp.isAligned && frame.sp < frame.fp &&
    frame.sp ≤ frame.slot layout.monitorBlockTop

/-- Whether a constant pool word is the one of a method. -/
def isConstantsOf
    (method : Method)
    (word : Word) :
    Bool :=
  word != 0 && word.isAligned && word == method.constants

/-- Whether a frame is a plausible interpreted frame, field by field. -/
def isInterpretedValid
    (frame : Frame)
    (view : View)
    (bounds : Bounds) :
    Probe ε Bool := do
  if !frame.hasFixedSlots view.layout then
    return false
  let word ← frame.fieldWithin view bounds view.layout.method
  match word.bind view.methods.find? with
  | none => return false
  | some method =>
      let allowance ←
        Probe.check
          (view.layout.interpreterFrameSlackWords.plus method.maxStack)
      if allowance < (frame.fp - frame.sp) / 8 then
        return false
      let position ← frame.fieldWithin view bounds view.layout.bcx
      if (position.bind method.bciOfBcx?).isNone then
        return false
      let cache ← frame.fieldWithin view bounds view.layout.cache
      if !cache.any (isConstantsOf method) then
        return false
      let locals ← frame.fieldWithin view bounds view.layout.locals
      return locals.any fun pointer =>
        bounds.belowBase pointer && frame.fp ≤ pointer

/-- The stack pointer a frame of fixed size gives its caller, if it exists. -/
def fixedSizeSenderSp?
    (frame : Frame)
    (blob : Blob) :
    Option Address := do
  let bytes ← blob.frameSize.mul? 8
  frame.unextendedSp.add? bytes

/-- Whether the caller that a frame returns to is plausible. -/
def isReturnSafe
    (view : View)
    (bounds : Bounds)
    (senderSp pc : Address) :
    Probe ε Bool := do
  match view.code.find? pc with
  | none => return false
  | some blob =>
      if view.code.interpreterContains pc then
        match ← savedLinkIfSafe? view bounds senderSp with
        | none => return false
        | some link =>
            let caller ← plain view senderSp link pc
            caller.isInterpretedValid view bounds
      else if !blob.codeContains pc || blob.isAdapter then
        return false
      else if view.code.returnsToCallStub pc then
        match ← savedLinkIfSafe? view bounds senderSp with
        | none => return false
        | some link =>
            let caller ← plain view senderSp link pc
            isCallWrapperSafe view bounds caller.fp
      else
        return !blob.compiled?.any (·.isDeoptPc pc) && blob.frameSize != 0

/-- Whether sp, unextended sp and bounds are in order. -/
def hasSafePointers
    (frame : Frame)
    (bounds : Bounds) :
    Bool :=
  bounds.within frame.sp && bounds.belowBase frame.unextendedSp &&
    frame.sp ≤ frame.unextendedSp

/-- Whether the frame pointer lies above sp and not above the base. -/
def hasSafeFp
    (frame : Frame)
    (bounds : Bounds) :
    Bool :=
  bounds.belowBase frame.fp && frame.sp < frame.fp

/-- Whether the caller of a frame outside the code space can be found. -/
def isNativeSafe
    (frame : Frame)
    (view : View)
    (bounds : Bounds) :
    Probe ε Bool :=
  if frame.hasSafeFp bounds then do
    let pc ← frame.fieldWithin view bounds view.layout.returnAddress
    return pc.any (· != 0)
  else
    pure false

/-- Whether generated code needs a complete frame before its caller is found. -/
def needsCompleteFrame (blob : Blob) : Bool :=
  blob.isCompiled || blob.isAdapter || blob.isRuntimeStub

/-- Where a frame in generated code finds its caller: sp and return address. -/
def returnWithin?
    (frame : Frame)
    (view : View)
    (bounds : Bounds)
    (blob : Blob) :
    Probe ε (Option (Address × Word)) :=
  if frame.kind = .interpreted then
    if frame.hasSafeFp bounds then do
      let pc ← frame.fieldWithin view bounds view.layout.returnAddress
      return pc.map fun pc => (frame.senderSp view, pc)
    else
      pure none
  else
    match frame.fixedSizeSenderSp? blob with
    | none => pure none
    | some senderSp => do
        let pc ← view.stack.readWithin bounds (senderSp.offset (-1))
        return pc.map fun pc => (senderSp, pc)

/-- Whether a frame is well formed enough to find its caller. -/
def isSafeForSender
    (frame : Frame)
    (view : View)
    (bounds : Bounds) :
    Probe ε Bool := do
  if !frame.hasSafePointers bounds then
    return false
  match frame.blob with
  | none => frame.isNativeSafe view bounds
  | some blob =>
      let complete ← Probe.check (blob.isFrameCompleteAt frame.pc)
      if !complete && needsCompleteFrame blob then
        return false
      else if frame.kind = .entry then
        if frame.hasSafeFp bounds then
          isCallWrapperSafe view bounds frame.fp
        else
          return false
      else
        match ← frame.returnWithin? view bounds blob with
        | none => return false
        | some (senderSp, pc) =>
            if pc = 0 then
              return false
            else
              isReturnSafe view bounds senderSp pc

/-- A validated step from a frame, which ends the search at any doubt. -/
def profiledRound
    (view : View)
    (bounds : Bounds)
    (frame : Frame) :
    Operation RegisterMap FrameError (Round Frame (Option Frame)) := do
  match ← Operation.attempt (frame.sender view) with
  | .error _ => return .done none
  | .ok caller =>
      if caller.sp ≤ frame.sp then
        return .done none
      else if !(← Operation.ofProbe (caller.isSafeForSender view bounds)) then
        return .done none
      else
        match ← Operation.attempt (.ofProbe (caller.isFirst view)) with
        | .ok false =>
            if caller.isJava then
              return .done (some caller)
            else
              return .again caller
        | _ => return .done none

/--
The first frame at or above this one that runs managed code, for a sampler that
does not own the thread.

Every step is validated before it is trusted, and any doubt ends the search.
-/
def profiledJavaSender?
    (frame : Frame)
    (view : View)
    (bounds : Bounds) :
    Probe FrameError (Option Frame) :=
  if frame.isJava then
    pure (some frame)
  else do
    if ← frame.isSafeForSender view bounds then
      (Operation.loop (profiledRound view bounds) FrameStream.itemLimit frame
        (RegisterMap.empty false)).1
    else
      return none

end ManagedStack.Frame
