import ManagedStack.Frame.Sender

namespace ManagedStack

/-!
# Walking a stack

A stream yields the frames of a stopped thread from its last managed frame up to
the first entry frame, each with the register map of the step that reached it.
Every step has to move up the stack; one that does not ends the stream with an
error, which is its last item.  The next frame is found when its callee is
yielded, so a consumer that stops early leaves the rest of the stack unread.
-/

/-- A frame with the register map that is valid for it. -/
structure WalkedFrame where
  frame : Frame
  map : RegisterMap
  deriving Repr, DecidableEq

/-- What a stream yields next, and the map its steps go on with. -/
structure FrameStream where
  next : Option (Except FrameError Frame)
  map : RegisterMap

/-- The caller of a frame, provided that it lies above it. -/
def Frame.senderAbove
    (frame : Frame)
    (view : View) :
    Operation RegisterMap FrameError Frame := do
  let caller ← frame.sender view
  if caller.sp ≤ frame.sp then
    Operation.report (.senderNotAbove frame.text caller.text)
    Operation.fail (.noProgress frame.sp caller.sp)
  else
    return caller

namespace FrameStream

/-- The stream that starts at a frame. -/
def ofFrame
    (frame : Frame)
    (tracking : Bool) :
    FrameStream where
  next := some (.ok frame)
  map := RegisterMap.empty tracking

/-- What follows a frame in a stream; nothing follows the first frame. -/
def following
    (view : View)
    (frame : Frame) :
    Operation RegisterMap ε (Option (Except FrameError Frame)) := do
  let first ← Operation.attempt (Operation.ofProbe (frame.isFirst view))
  match first with
  | .error cause => return some (.error cause)
  | .ok true => return none
  | .ok false =>
      let caller ← Operation.attempt (frame.senderAbove view)
      return some caller

/-- The next item of a stream, and the stream after it. -/
def advance
    (view : View)
    (stream : FrameStream) :
    Probe ε (Option (Except FrameError WalkedFrame × FrameStream)) :=
  match stream.next with
  | none => pure none
  | some (.error cause) => pure (some (.error cause, ⟨none, stream.map⟩))
  | some (.ok frame) =>
      let (probe, map) := following view frame stream.map
      probe.andThen fun next =>
        .answer (some (.ok ⟨frame, stream.map⟩, ⟨next, map⟩))

/-- At most this many items of a stream, in order. -/
def take
    (view : View) :
    Nat → FrameStream → Probe ε (List (Except FrameError WalkedFrame))
  | 0, _ => pure []
  | count + 1, stream => do
      match ← stream.advance view with
      | none => return []
      | some (item, rest) =>
          let items ← take view count rest
          return item :: items

/-- The first item that a predicate accepts, or the error that ends the stream. -/
def find?
    (view : View)
    (accepts : WalkedFrame → Bool) :
    Nat → FrameStream → Probe FrameError (Option WalkedFrame)
  | 0, _ => pure none
  | count + 1, stream => do
      match ← stream.advance view with
      | none => return none
      | some (.error cause, _) => Probe.fail cause
      | some (.ok walked, rest) =>
          if accepts walked then
            return some walked
          else
            find? view accepts count rest

/--
More items than any stream has.

Each item but the last lies above the one before it, and there are no more stack
pointers than addresses.
-/
def itemLimit : Nat := UInt64.size + 1

/-- All frames of a stream, or the error that ends it. -/
def frames
    (view : View)
    (stream : FrameStream) :
    Probe FrameError (List WalkedFrame) := do
  let items ← stream.take view itemLimit
  match items.mapM id with
  | .ok walked => return walked
  | .error cause => Probe.fail cause

end FrameStream

/-- The frame that a thread's anchor names. -/
def Thread.lastFrame
    (thread : Thread)
    (view : View) :
    Probe FrameError Frame :=
  if thread.anchor.isEmpty then
    Probe.fail .noLastJavaFrame
  else
    Frame.plain view thread.anchor.sp thread.anchor.fp thread.anchor.pc

/-- The stream that starts at a thread's last managed frame. -/
def Thread.frameStream
    (thread : Thread)
    (view : View)
    (tracking : Bool) :
    Probe FrameError FrameStream := do
  let frame ← thread.lastFrame view
  return FrameStream.ofFrame frame tracking

namespace Frame

/-- Step to the caller if the frame is to be skipped. -/
def skipRound
    (view : View)
    (skips : Frame → Probe FrameError Bool)
    (frame : Frame) :
    Operation RegisterMap FrameError (Round Frame Frame) := do
  if ← skips frame then
    let caller ← frame.sender view
    return .again caller
  else
    return .done frame

/-- Step to callers for as long as frames are to be skipped. -/
def skipWhile
    (view : View)
    (skips : Frame → Probe FrameError Bool)
    (steps : Nat)
    (frame : Frame) :
    Operation RegisterMap FrameError Frame :=
  Operation.loop (skipRound view skips) steps frame

/-- Runtime stubs and adapter frames mean nothing to a walk over managed code. -/
def isPassedOver (frame : Frame) : Bool :=
  frame.isRuntime || frame.kind == .ricochet

/-- The caller that is no runtime stub or adapter frame. -/
def realSender
    (frame : Frame)
    (view : View)
    (steps : Nat) :
    Operation RegisterMap FrameError Frame := do
  let caller ← frame.sender view
  skipWhile view (fun frame => pure frame.isPassedOver) steps caller

/-- Whether a search for managed code goes on past a frame. -/
def isNotJavaOrFirst
    (view : View)
    (frame : Frame) :
    Probe FrameError Bool :=
  if frame.isJava then
    pure false
  else do
    let first ← frame.isFirst view
    return !first

/-- The nearest caller that runs managed code or is the first frame. -/
def javaOrFirst
    (frame : Frame)
    (view : View)
    (steps : Nat) :
    Probe FrameError Frame :=
  let search : Operation RegisterMap FrameError Frame := do
    let caller ← frame.sender view
    skipWhile view (isNotJavaOrFirst view) steps caller
  (search (RegisterMap.empty false)).1

/-- The nearest caller that runs managed code. -/
def javaSender
    (frame : Frame)
    (view : View)
    (steps : Nat) :
    Probe FrameError Frame := do
  let found ← frame.javaOrFirst view steps
  if found.isJava then
    return found
  else
    Probe.fail (.notJavaFrame frame.sp)

/-- Whether no caller runs managed code. -/
def isFirstJava
    (frame : Frame)
    (view : View)
    (steps : Nat) :
    Probe FrameError Bool := do
  let found ← frame.javaOrFirst view steps
  found.isFirst view

end Frame

end ManagedStack
