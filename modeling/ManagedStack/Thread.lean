import ManagedStack.Word

namespace ManagedStack

/-!
# Managed threads and the safepoint service

A thread that leaves managed code publishes an anchor, from which others start a
walk of its stack.  While a safepoint is active, the state every thread had when
it began can be asked for.  A thread that has to deoptimize one of its own frames
later carries the mark of that frame.
-/

/-- The number that identifies a managed thread. -/
abbrev ThreadId := Nat

/-- The text of a thread identity. -/
def threadText (thread : ThreadId) : String :=
  "Thread(" ++ toString thread ++ ")"

/-- What a thread is doing, as far as a safepoint cares. -/
inductive ThreadState where
  | new
  | inJava
  | inVm
  | inNative
  | inNativeTrans
  | blocked
  | blockedTrans
  deriving Repr, DecidableEq

namespace ThreadState

/-- The state that a number stands for; unknown numbers stand for `new`. -/
def ofNumber : Nat → ThreadState
  | 1 => .inJava
  | 2 => .inVm
  | 3 => .inNative
  | 4 => .inNativeTrans
  | 5 => .blocked
  | 6 => .blockedTrans
  | _ => .new

/-- The number that stands for a state. -/
def number : ThreadState → Nat
  | .new => 0
  | .inJava => 1
  | .inVm => 2
  | .inNative => 3
  | .inNativeTrans => 4
  | .blocked => 5
  | .blockedTrans => 6

/-- All states, in the order of their numbers. -/
def all : List ThreadState :=
  [.new, .inJava, .inVm, .inNative, .inNativeTrans, .blocked, .blockedTrans]

/-- The name of a state. -/
def name : ThreadState → String
  | .new => "New"
  | .inJava => "InJava"
  | .inVm => "InVm"
  | .inNative => "InNative"
  | .inNativeTrans => "InNativeTrans"
  | .blocked => "Blocked"
  | .blockedTrans => "BlockedTrans"

/-- The state with a name. -/
def ofName? (name : String) : Option ThreadState :=
  all.find? (·.name == name)

/-- Whether a thread in this state runs or is leaving native code. -/
def isNative : ThreadState → Bool
  | .inNative => true
  | .inNativeTrans => true
  | _ => false

end ThreadState

/-- The last managed frame of a thread; a zero stack pointer means none. -/
structure FrameAnchor where
  sp : Address := 0
  fp : Address := 0
  pc : Address := 0
  deriving Repr, DecidableEq

/-- Whether an anchor names no frame. -/
def FrameAnchor.isEmpty (anchor : FrameAnchor) : Bool :=
  anchor.sp == 0

/-- What is known of a managed thread apart from its stack. -/
structure Thread where
  id : ThreadId
  state : ThreadState := .new
  anchor : FrameAnchor := {}
  /-- The frame that the thread has to deoptimize itself, zero if none. -/
  mustDeoptId : Address := 0
  /-- Whether the thread has to stop for that before it returns. -/
  deoptSuspended : Bool := false
  deriving Repr, DecidableEq

/-- Whether a thread has published a last managed frame. -/
def Thread.hasLastFrame (thread : Thread) : Bool :=
  !thread.anchor.isEmpty

/-- Whether a safepoint is active, and the states recorded when it began. -/
structure Safepoint where
  active : Bool := false
  states : List (ThreadId × ThreadState) := []
  deriving Repr, DecidableEq

namespace Safepoint

/-- Begin a safepoint; of threads with one identity the last counts. -/
def begin (threads : List Thread) : Safepoint where
  active := true
  states :=
    (threads.map fun thread => (thread.id, thread.state)).reverse

/-- No safepoint. -/
def inactive : Safepoint := {}

/-- The state a thread had when the current safepoint began. -/
def stateOf?
    (safepoint : Safepoint)
    (thread : ThreadId) :
    Option ThreadState :=
  safepoint.states.lookup thread

end Safepoint

end ManagedStack
