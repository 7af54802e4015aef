import ManagedStack.Word

namespace ManagedStack

/-!
# Diagnostic events

Some computations report what they met besides answering.  An event is a cause
with its details; severity, message and named details are derived from it.
-/

/-- How serious an event is. -/
inductive Severity where
  | info
  | warn
  | error
  deriving Repr, DecidableEq

/-- The name of a severity. -/
def Severity.name : Severity → String
  | .info => "INFO"
  | .warn => "WARN"
  | .error => "ERROR"

/-- The value of one detail of an event. -/
inductive Detail where
  | word (value : Word)
  | flag (value : Bool)
  | text (value : String)
  deriving Repr, DecidableEq

/-- What was met. -/
inductive Event where
  | dependencyChecked (marked : Bool) (blob : String)
  | returnAddressPatched (slot old new : Word)
  | unrecordedDisplacedPc (sp pc : Address)
  | markedFrameGone (thread : String) (frameId : Address)
  | replacedFrameUnrecorded (frameId : Address)
  | zeroFrameSize (blob : String) (pc : Address)
  | senderNotAbove (frame sender : String)
  | misalignedMonitor (monitor sp : Address)
  | prologueFailed (thread frame cause : String)
  | calleeNotInterpreted (callee : Word) (entry : Address)
  | incompatibleResume (pending resume : String)
  deriving Repr, DecidableEq

namespace Event

/-- How serious an event is. -/
def severity : Event → Severity
  | .dependencyChecked _ _ => .info
  | .returnAddressPatched _ _ _ => .info
  | .unrecordedDisplacedPc _ _ => .warn
  | .markedFrameGone _ _ => .warn
  | .replacedFrameUnrecorded _ => .warn
  | .zeroFrameSize _ _ => .error
  | .senderNotAbove _ _ => .error
  | .misalignedMonitor _ _ => .error
  | .prologueFailed _ _ _ => .error
  | .calleeNotInterpreted _ _ => .error
  | .incompatibleResume _ _ => .error

/-- The message of an event. -/
def message : Event → String
  | .dependencyChecked _ _ => "checking deoptimization dependency"
  | .returnAddressPatched _ _ _ => "patch_pc"
  | .unrecordedDisplacedPc _ _ =>
      "frame at a deopt handler has no recorded original pc"
  | .markedFrameGone _ _ => "marked frame no longer on stack"
  | .replacedFrameUnrecorded _ =>
      "no original pc recorded for replaced frame"
  | .zeroFrameSize _ _ => "compiled frame with zero frame size"
  | .senderNotAbove _ _ => "sender does not move up the stack"
  | .misalignedMonitor _ _ => "misaligned monitor in interpreter frame"
  | .prologueFailed _ _ cause => "gc prologue failed: " ++ cause
  | .calleeNotInterpreted _ _ => "callee entry is not interpreter code"
  | .incompatibleResume _ _ => "incompatible resume"

/-- The named details of an event. -/
def details : Event → List (String × Detail)
  | .dependencyChecked marked blob =>
      [("marked", .flag marked), ("blob", .text blob)]
  | .returnAddressPatched slot old new =>
      [("pc_addr", .word slot), ("old", .word old), ("new", .word new)]
  | .unrecordedDisplacedPc sp pc => [("sp", .word sp), ("pc", .word pc)]
  | .markedFrameGone thread frameId =>
      [("thread", .text thread), ("frame_id", .word frameId)]
  | .replacedFrameUnrecorded frameId => [("frame_id", .word frameId)]
  | .zeroFrameSize blob pc => [("blob", .text blob), ("pc", .word pc)]
  | .senderNotAbove frame sender =>
      [("frame", .text frame), ("sender", .text sender)]
  | .misalignedMonitor monitor sp =>
      [("monitor", .word monitor), ("sp", .word sp)]
  | .prologueFailed thread frame _ =>
      [("thread", .text thread), ("frame", .text frame)]
  | .calleeNotInterpreted callee entry =>
      [("callee", .word callee), ("entry", .word entry)]
  | .incompatibleResume pending resume =>
      [("pending", .text pending), ("resume", .text resume)]

end Event

end ManagedStack
