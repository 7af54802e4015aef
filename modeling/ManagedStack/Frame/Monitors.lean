import ManagedStack.Frame.Interpreted

namespace ManagedStack.Frame

/-!
# The monitor block of an interpreter frame

Monitors lie right below the fixed slots and the block grows downward.  Each is a
lock word followed by its owner, which is a reference.  The lowest monitor's
address is kept in a slot; the lister and the verifier bound the block by it in
different ways.
-/

/-- One past the highest monitor. -/
def monitorBegin
    (frame : Frame)
    (layout : FrameLayout) :
    Address :=
  frame.slot layout.monitorBlockBottom

/-- The lowest monitor, which must lie between stack and frame pointer. -/
def monitorEnd
    (frame : Frame)
    (view : View) :
    Probe FrameError Address := do
  let lowest ← frame.field view view.layout.monitorBlockTop
  Probe.check (require .monitorEndAboveStackPointer (frame.sp ≤ lowest))
  Probe.check (require .monitorEndBelowFramePointer (lowest < frame.fp))
  return lowest

/-- Store the address of the lowest monitor. -/
def setMonitorEnd
    (frame : Frame)
    (env : Env)
    (lowest : Address) :
    Operation Machine FrameError Unit :=
  frame.putField env.layout.monitorBlockTop lowest

/-- The monitor above a monitor. -/
def nextMonitor
    (layout : FrameLayout)
    (monitor : Address) :
    Address :=
  monitor.offset layout.monitorWords.signed

/-- The monitor below a monitor. -/
def previousMonitor
    (layout : FrameLayout)
    (monitor : Address) :
    Except Abort Address :=
  monitor.below layout.monitorWords

/-- Address of the owner of a monitor. -/
def monitorOwner (monitor : Address) : Address :=
  monitor.offset 1

/-- Addresses at a fixed distance from each other, ascending. -/
def spaced
    (lowest distance : Word)
    (count : Nat) :
    List Address :=
  (List.range count).map fun index =>
    lowest + UInt64.ofNat index * distance

/-- The corruption of a monitor block. -/
def corruptMonitors (frame : Frame) : FrameError :=
  .corruptInterpreterFrame frame.fp .monitorBlock

/--
The addresses of all monitors, the lowest first.

The block must lie between the stack pointer and the fixed slots and hold a whole
number of monitors.
-/
def monitors
    (frame : Frame)
    (view : View) :
    Probe FrameError (List Address) := do
  let highest := frame.monitorBegin view.layout
  let lowest ← frame.field view view.layout.monitorBlockTop
  let size ← Probe.check view.layout.monitorBytes
  let block ← Probe.demand (highest.sub? lowest) frame.corruptMonitors
  if lowest < frame.sp then
    Probe.fail frame.corruptMonitors
  else
    let excess ← Probe.check (block.modulo size)
    if excess = 0 then
      let count := block / size
      Probe.check (requireCapacity count)
      return spaced lowest size count.toNat
    else
      Probe.fail frame.corruptMonitors

/-- Whether an address is a monitor boundary inside the block. -/
def verifyMonitor
    (frame : Frame)
    (view : View)
    (monitor : Address) :
    Probe FrameError Bool := do
  let lowest ← frame.monitorEnd view
  let highest := frame.monitorBegin view.layout
  let size ← Probe.check view.layout.monitorBytes
  if monitor < lowest || highest ≤ monitor then
    return false
  else
    let above ← Probe.check ((highest - monitor).modulo size)
    let below ← Probe.check ((monitor - lowest).modulo size)
    return above = 0 && below = 0

end ManagedStack.Frame
