import ManagedStack.Machine

namespace ManagedStack.Frame

/-!
# Fields of interpreter frames

The position word, *bcx*, holds a bytecode address while code runs and a bytecode
index while references are scanned.  When the interpreter profiles, the profiling
word, *mdx*, switches form together with it: a pointer outside scans, an index plus
one during them, and zero when there is no data.  Locals grow downward from the
locals pointer.
-/

/-- Make sure that a frame is interpreted. -/
def expectInterpreted (frame : Frame) : Probe FrameError Unit :=
  frame.expectKind .interpreted

/-- The method word. -/
def methodWord
    (frame : Frame)
    (view : View) :
    Probe FrameError Word :=
  frame.field view view.layout.method

/-- Address of the method slot. -/
def methodSlot
    (frame : Frame)
    (layout : FrameLayout) :
    Address :=
  frame.slot layout.method

/-- Address of the constant pool cache slot. -/
def cacheSlot
    (frame : Frame)
    (layout : FrameLayout) :
    Address :=
  frame.slot layout.cache

/-- Address of the slot for a native method's reference result. -/
def oopTempSlot
    (frame : Frame)
    (layout : FrameLayout) :
    Address :=
  frame.slot layout.oopTemp

/-- The method that the frame runs. -/
def method
    (frame : Frame)
    (view : View) :
    Probe FrameError Method := do
  frame.expectInterpreted
  let word ← frame.methodWord view
  Probe.demand (view.methods.find? word) (.unknownMethod word)

/-- The position word. -/
def bcx
    (frame : Frame)
    (view : View) :
    Probe FrameError Word :=
  frame.field view view.layout.bcx

/-- The profiling word. -/
def mdx
    (frame : Frame)
    (view : View) :
    Probe FrameError Word :=
  frame.field view view.layout.mdx

/-- The bytecode index that the frame is at. -/
def bci
    (frame : Frame)
    (view : View) :
    Probe FrameError UInt32 := do
  let position ← frame.bcx view
  let method ← frame.method view
  Probe.demand (method.bciOfBcx? position) (.invalidBcx method.name position)

/-- The bytecode address that the frame is at. -/
def bcp
    (frame : Frame)
    (view : View) :
    Probe FrameError Address := do
  let position ← frame.bcx view
  if isBytecodeIndex position then
    let method ← frame.method view
    Probe.check (method.bcpOf position.toUInt32)
  else
    return position

/-- The profiling pointer; asked only outside scans. -/
def mdp
    (frame : Frame)
    (view : View) :
    Probe FrameError Address := do
  let position ← frame.bcx view
  Probe.check (require .mdpReadOutsideScan !isBytecodeIndex position)
  frame.mdx view

/-- The locals pointer, which is the address of local zero. -/
def localsPointer
    (frame : Frame)
    (view : View) :
    Probe FrameError Address :=
  frame.field view view.layout.locals

/-- Address of a local. -/
def localSlot
    (frame : Frame)
    (view : View)
    (index : Nat) :
    Probe FrameError Address := do
  let locals ← frame.localsPointer view
  Probe.check (locals.below (UInt64.ofNat index))

/-- The caller's stack pointer before this activation extended the stack. -/
def interpreterSenderSp
    (frame : Frame)
    (view : View) :
    Probe FrameError Address :=
  frame.field view view.layout.interpreterSenderSp

/-- The top of the expression stack while a call is in flight, else zero. -/
def lastSp
    (frame : Frame)
    (view : View) :
    Probe FrameError Address :=
  frame.field view view.layout.lastSp

/-- Write a field. -/
def putField
    (frame : Frame)
    (offset : Int)
    (value : Word) :
    Operation Machine FrameError Unit :=
  Machine.write (frame.slot offset) value

/-- Store the method word. -/
def setMethod
    (frame : Frame)
    (env : Env)
    (method : Method) :
    Operation Machine FrameError Unit :=
  frame.putField env.layout.method method.id

/-- Store the profiling word of a profiling interpreter. -/
def setMdx
    (frame : Frame)
    (env : Env)
    (value : Word) :
    Operation Machine FrameError Unit := do
  Operation.check
    (require .profilingEnabled env.diagnostics.profileInterpreter)
  frame.putField env.layout.mdx value

/-- The profiling word in the other form, for a method with profiling data. -/
def convertMdx
    (frame : Frame)
    (view : View)
    (formerlyIndex : Bool)
    (value : Word) :
    Probe FrameError Word := do
  let method ← frame.method view
  let area ← Probe.demand method.profiling (.missingMethodData method.name)
  if formerlyIndex then
    let index ← Probe.check (value.minus 1)
    Probe.check (area.pointerOf index)
  else
    let index ←
      Probe.demand (area.indexOf? value) (.invalidBcx method.name value)
    Probe.check (index.plus 1)

/--
Store the position word.

When the interpreter profiles and the form of the position changes, a nonzero
profiling word changes form with it.  It is converted first, so that neither slot
changes if that fails.
-/
def setBcx
    (frame : Frame)
    (env : Env)
    (position : Word) :
    Operation Machine FrameError Unit := do
  frame.expectInterpreted
  if env.diagnostics.profileInterpreter then
    let former ← Machine.look env frame.bcx
    let formerlyIndex := isBytecodeIndex former
    let profiling ← Machine.look env frame.mdx
    if profiling = 0 || formerlyIndex == isBytecodeIndex position then
      frame.putField env.layout.bcx position
    else
      let converted ←
        Machine.look env fun view =>
          frame.convertMdx view formerlyIndex profiling
      frame.putField env.layout.bcx position
      frame.setMdx env converted
  else
    frame.putField env.layout.bcx position

/-- Move to a bytecode index; done only outside scans. -/
def setBci
    (frame : Frame)
    (env : Env)
    (index : UInt32) :
    Operation Machine FrameError Unit := do
  let former ← Machine.look env frame.bcx
  Operation.check (require .bciSetOutsideScan !isBytecodeIndex former)
  let method ← Machine.look env frame.method
  let position ← Operation.check (method.bcpOf index)
  frame.setBcx env position

/-- Move to a bytecode address; done only outside scans. -/
def setBcp
    (frame : Frame)
    (env : Env)
    (position : Address) :
    Operation Machine FrameError Unit := do
  let former ← Machine.look env frame.bcx
  Operation.check (require .bcpSetOutsideScan !isBytecodeIndex former)
  frame.setBcx env position

/-- Store a profiling pointer; a nonzero one only outside scans. -/
def setMdp
    (frame : Frame)
    (env : Env)
    (pointer : Address) :
    Operation Machine FrameError Unit := do
  if pointer ≠ 0 then
    let position ← Machine.look env frame.bcx
    Operation.check (require .mdpSetOutsideScan !isBytecodeIndex position)
  frame.setMdx env pointer

/-- Store the locals pointer. -/
def setLocals
    (frame : Frame)
    (env : Env)
    (locals : Address) :
    Operation Machine FrameError Unit :=
  frame.putField env.layout.locals locals

/-- Store the caller's stack pointer from before the extension. -/
def setSenderSp
    (frame : Frame)
    (env : Env)
    (senderSp : Address) :
    Operation Machine FrameError Unit :=
  frame.putField env.layout.interpreterSenderSp senderSp

/-- Store the top of the expression stack. -/
def setLastSp
    (frame : Frame)
    (env : Env)
    (top : Address) :
    Operation Machine FrameError Unit :=
  frame.putField env.layout.lastSp top

end ManagedStack.Frame
