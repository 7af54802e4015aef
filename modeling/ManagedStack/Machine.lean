import ManagedStack.Frame.Basic

namespace ManagedStack

/-!
# A thread, its stack, and the shared records

Operations that change something change one of three things: what a thread
publishes, the words of a stack, or the records of redirected frames.  The three
are kept side by side, so that a request about a frame may name a thread other
than the one whose stack holds the frame.
-/

/-- What operations on one stack can change. -/
structure Machine where
  thread : Thread
  stack : Stack
  records : DeoptRecords

namespace Machine

/-- The machine as frames see it. -/
def view
    (env : Env)
    (machine : Machine) :
    View where
  toEnv := env
  stack := machine.stack
  records := machine.records

/-- Look at the machine as frames see it. -/
def look
    (env : Env)
    (probe : View → Probe ε α) :
    Operation Machine ε α :=
  Operation.inspect fun machine => probe (machine.view env)

/-- Run an operation on the stack alone. -/
def onStack (operation : Operation Stack ε α) : Operation Machine ε α :=
  operation.onPart fun ⟨thread, stack, records⟩ =>
    (stack, fun changed => ⟨thread, changed, records⟩)

/-- Write one stack word. -/
def write
    (address : Address)
    (value : Word) :
    Operation Machine FrameError Unit :=
  onStack (Stack.write address value)

/-- Change what the thread publishes. -/
def updateThread (change : Thread → Thread) : Operation Machine ε Unit :=
  Operation.update fun machine => { machine with thread := change machine.thread }

/-- Change the records of redirected frames. -/
def updateRecords
    (change : DeoptRecords → DeoptRecords) :
    Operation Machine ε Unit :=
  Operation.update fun machine =>
    { machine with records := change machine.records }

end Machine

end ManagedStack
