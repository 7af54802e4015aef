import ManagedStack.Frame.Monitors

namespace ManagedStack.Frame

/-!
# The expression stack of an interpreter frame

The expression stack starts one word below the lowest monitor and grows downward.
Its top is kept in a slot while a call is in flight; when that slot is zero the
top is the stack pointer of the frame.
-/

/-- Address of the deepest entry. -/
def expressionBase
    (frame : Frame)
    (view : View) :
    Probe FrameError Address := do
  let lowest ← frame.monitorEnd view
  return lowest.offset (-1)

/-- Address of the top entry. -/
def expressionTop
    (frame : Frame)
    (view : View) :
    Probe FrameError Address := do
  let top ← frame.lastSp view
  return if top = 0 then frame.sp else top

/-- Address of an entry counted from the deepest. -/
def expressionSlot
    (frame : Frame)
    (view : View)
    (index : Nat) :
    Probe FrameError Address := do
  let deepest ← frame.expressionBase view
  Probe.check (deepest.below (UInt64.ofNat index))

/-- Address of an entry counted from the top. -/
def topSlot
    (frame : Frame)
    (view : View)
    (index : Nat) :
    Probe FrameError Address := do
  let top ← frame.expressionTop view
  return top.offset index

/-- How many entries the expression stack has. -/
def expressionCount
    (frame : Frame)
    (view : View) :
    Probe FrameError Word := do
  let deepest ← frame.expressionBase view
  let top ← frame.expressionTop view
  let taken ←
    Probe.demand ((deepest.offset 1).sub? top)
      (.corruptInterpreterFrame frame.fp .expressionStackTop)
  return taken / 8

/-- Slot of the receiver of a pending call. -/
def calleeReceiverSlot
    (frame : Frame)
    (view : View)
    (signature : Signature) :
    Probe FrameError Address :=
  frame.topSlot view signature.slots

/-- Where the result of the frame's method lies before it returns. -/
def resultSlot
    (frame : Frame)
    (view : View)
    (method : Method) :
    Probe FrameError Address :=
  if method.isNative then
    if method.resultType.isFloating then
      pure (frame.sp.offset 2)
    else
      pure frame.sp
  else
    frame.expressionTop view

/--
The value that the frame's method is about to return, with its type.

A native method leaves a reference in its own slot; no value reads as zero.
-/
def result
    (frame : Frame)
    (view : View) :
    Probe FrameError (BasicType × Word) := do
  let method ← frame.method view
  let type := method.resultType
  let address ← frame.resultSlot view method
  if type = .void then
    return (type, 0)
  else if type.isReference && method.isNative then
    let value ← frame.field view view.layout.oopTemp
    return (type, value)
  else
    let value ← view.stack.read address
    return (type, value)

end ManagedStack.Frame
