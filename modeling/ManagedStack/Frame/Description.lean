import ManagedStack.Frame.Basic
import ManagedStack.Text.Quoted

namespace ManagedStack

/-!
# Frames in full

For diagnosis a frame is written with every field it has.  The name of its blob
stands between quotes, so that it ends where the name ends whatever the name is.
-/

/-- The name of a kind of activation. -/
def FrameKind.name : FrameKind → String
  | .entry => "Entry"
  | .interpreted => "Interpreted"
  | .compiled => "Compiled"
  | .nativeWrapper => "NativeWrapper"
  | .ricochet => "Ricochet"
  | .stub => "Stub"
  | .native => "Native"

/-- The name of what is known about a frame being redirected. -/
def DeoptState.name : DeoptState → String
  | .unknown => "Unknown"
  | .notDeoptimized => "NotDeoptimized"
  | .deoptimized => "Deoptimized"

/-- A frame with every field. -/
def Frame.description (frame : Frame) : String :=
  let blobText :=
    match frame.blob with
    | some blob => "Some(" ++ quoted blob.name ++ ")"
    | none => "None"
  "Frame \x7b kind: " ++ frame.kind.name ++ ", sp: " ++ frame.sp.hex ++
    ", unextended_sp: " ++ frame.unextendedSp.hex ++ ", fp: " ++
    frame.fp.hex ++ ", pc: " ++ frame.pc.hex ++ ", blob: " ++ blobText ++
    ", deopt_state: " ++ frame.deoptState.name ++ " \x7d"

end ManagedStack
