import ManagedStack.Deoptimization
import ManagedStack.Frame.Description
import ManagedStack.Report.Basic
import ManagedStack.RootScan

namespace ManagedStack

/-!
# Reports about threads and frames

Threads and their anchors, frames, register maps, walks, and what deoptimization
and scanning did.
-/

/-- The registers of an anchor. -/
def FrameAnchor.report (anchor : FrameAnchor) : Report :=
  .fields [("sp", .word anchor.sp), ("fp", .word anchor.fp),
    ("pc", .word anchor.pc)]

/-- A thread, and whether it is the one that asks. -/
def Thread.report
    (thread : Thread)
    (isCurrent : Bool) :
    Report :=
  .fields [
    ("id", .text (threadText thread.id)),
    ("current", .flag isCurrent),
    ("state", .text thread.state.name),
    ("native", .flag thread.state.isNative),
    ("anchor", thread.anchor.report),
    ("has_frame", .flag thread.hasLastFrame),
    ("must_deopt", .word thread.mustDeoptId),
    ("suspend", .flag thread.deoptSuspended)]

/-- The extent of a stack. -/
def Stack.report (stack : Stack) : Report :=
  .fields [
    ("base", .word stack.base),
    ("limit", .word stack.limit),
    ("words", .count stack.sizeWords),
    ("bounds", .text stack.bounds.text)]

/-- A frame with the address that execution will really return to. -/
def Frame.report (frame : Frame) : Report :=
  .fields [
    ("kind", .text frame.kind.text),
    ("sp", .word frame.sp),
    ("usp", .word frame.unextendedSp),
    ("fp", .word frame.fp),
    ("pc", .word frame.pc),
    ("raw_pc", .word frame.rawPc),
    ("blob", .ofOption (fun blob => .text blob.name) frame.blob),
    ("deopt", .text frame.deoptState.name)]

/-- A register map with the registers it locates. -/
def RegisterMap.report (map : RegisterMap) : Report :=
  .fields [
    ("update", .flag map.tracking),
    ("args", .flag map.includeArgumentOops),
    ("count", .count map.count),
    ("locs", .fields (map.located.map fun (register, address) =>
      (register.name, .word address)))]

/-- One item of a walk: a frame with its map, or the error that ended it. -/
def WalkedFrame.itemReport : Except FrameError WalkedFrame → Report :=
  .ofResult fun walked =>
    .fields [("frame", walked.frame.report), ("map", walked.map.report)]

/-- What a deoptimization request did. -/
def DeoptOutcome.report : DeoptOutcome → Report
  | .patched handler => .fields [("patched", .word handler)]
  | .deferred => .text "Deferred"
  | .alreadyPending => .text "AlreadyPending"
  | .alreadyDeoptimized => .text "AlreadyDeoptimized"

/-- The counters of a scan. -/
def ScanStats.report (stats : ScanStats) : Report :=
  .fields [
    ("threads", .count stats.threads),
    ("frames", .count stats.frames),
    ("compiled", .count stats.compiledFrames),
    ("oops", .count stats.oops)]

/-- A detail of an event. -/
def Detail.report : Detail → Report
  | .word value => .word value
  | .flag value => .flag value
  | .text value => .text value

/-- An event with its details. -/
def Event.report (event : Event) : Report :=
  .fields (
    ("level", .text event.severity.name) ::
    ("message", .text event.message) ::
    event.details.map fun (name, detail) => (name, detail.report))

/-- The text of a frame, short and in full. -/
def Frame.texts (frame : Frame) : Report :=
  .list [.text frame.text, .text frame.description]

end ManagedStack
