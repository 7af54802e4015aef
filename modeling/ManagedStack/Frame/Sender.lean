import ManagedStack.Frame.Interpreted
import ManagedStack.Frame.RegisterMap

namespace ManagedStack.Frame

/-!
# The caller of a frame

A step to the caller depends on the kind of the frame it leaves, never on the kind
of the frame it reaches.  It reads the saved frame pointer and return address,
records where saved registers lie, and decides whether the caller's outgoing
arguments are still its own.  What a step recorded before it failed stays in the
register map.
-/

/-- Record where the frame pointer register is saved. -/
def recordLink (address : Address) : Operation RegisterMap ε Unit := do
  let map ← Operation.state
  if map.tracking then
    Operation.update fun map => map.record Register.rbp address

/-- The frame found by link and return address alone. -/
def linkedSender
    (frame : Frame)
    (view : View) :
    Probe FrameError Frame := do
  let link ← frame.link view
  let pc ← frame.senderPc view
  plain view (frame.senderSp view) link pc

/--
The last managed frame before an entry frame.

The frames of native code between the two are skipped; the anchor must lie above
the entry frame, and an anchor without address resumes at the word below it.
-/
def entrySender
    (frame : Frame)
    (view : View) :
    Operation RegisterMap FrameError Frame := do
  let wrapper ← frame.callWrapper view
  let anchor ← wrapper.anchor view.stack
  if anchor.isEmpty then
    Operation.fail .pastFirstFrame
  else if anchor.sp ≤ frame.sp then
    Operation.fail (.noProgress frame.sp anchor.sp)
  else
    Operation.update RegisterMap.crossEntry
    let pc ←
      if anchor.pc ≠ 0 then
        Operation.answer anchor.pc
      else
        Operation.ofProbe (view.stack.read (anchor.sp.offset (-1)))
    Operation.ofProbe (plain view anchor.sp anchor.fp pc)

/-- The caller of an interpreted frame, which may have extended its stack. -/
def interpretedSender
    (frame : Frame)
    (view : View) :
    Operation RegisterMap FrameError Frame := do
  let unextendedSp ← frame.interpreterSenderSp view
  recordLink (frame.slot view.layout.link)
  let link ← frame.link view
  let pc ← frame.senderPc view
  Operation.ofProbe
    (extended view (frame.senderSp view) unextendedSp link pc)

/-- Record the registers that a reference map says were saved in a frame. -/
def recordCalleeSaved
    (unextendedSp : Address)
    (oopMap : OopMap)
    (map : RegisterMap) :
    RegisterMap :=
  oopMap.calleeSaved.foldl
    (fun map saved => map.record saved.1 (unextendedSp.offset saved.2.toNat))
    map

/-- Record what leaving a frame of generated code says about its caller. -/
def recordCompiledStep
    (frame : Frame)
    (blob : Blob)
    (map : RegisterMap) :
    RegisterMap :=
  let map := map.withArgumentOops blob.callerMustGcArguments
  match blob.oopMapAt? frame.pc with
  | some oopMap => recordCalleeSaved frame.unextendedSp oopMap map
  | none => map

/-- The caller of a frame of fixed size in generated code. -/
def compiledSender
    (frame : Frame)
    (view : View) :
    Operation RegisterMap FrameError Frame := do
  match frame.blob with
  | none => Operation.fail (.unknownSenderPc frame.pc)
  | some blob =>
      if blob.frameSize = 0 then
        Operation.report (.zeroFrameSize blob.name frame.pc)
        Operation.fail (.zeroFrameSize blob.name)
      else
        let senderSp := frame.unextendedSp.offset blob.frameSize.signed
        let pc ← view.stack.read (senderSp.offset (-1))
        let linkOffset ← Operation.check (negateSigned view.layout.senderSp)
        let linkSlot := senderSp.offset linkOffset
        let map ← Operation.state
        if map.tracking then
          Operation.update (frame.recordCompiledStep blob)
        recordLink linkSlot
        let link ← view.stack.read linkSlot
        Operation.ofProbe (extended view senderSp senderSp link pc)

/-- The caller of a frame. -/
def sender
    (frame : Frame)
    (view : View) :
    Operation RegisterMap FrameError Frame := do
  Operation.update fun map => map.withArgumentOops false
  match frame.kind with
  | .entry => frame.entrySender view
  | .interpreted => frame.interpretedSender view
  | .ricochet => view.adapters.sender view.surroundings frame
  | .compiled => frame.compiledSender view
  | .nativeWrapper => frame.compiledSender view
  | .stub => frame.compiledSender view
  | .native => frame.linkedSender view

/-- Words between a frame's stack pointer and that of its caller. -/
def size
    (frame : Frame)
    (view : View) :
    Operation RegisterMap FrameError Word := do
  let caller ← frame.sender view
  return (caller.sp - frame.sp) / 8

end ManagedStack.Frame
