import ManagedStack.Frame.Error
import ManagedStack.Thread

namespace ManagedStack

/-!
# Call wrappers

Whoever calls into managed code leaves a record on the stack: the callee, the
anchor the thread had before, and a counted run of handles, which are references.
The entry frame points at the record.
-/

/-- A call wrapper record, given by its address. -/
structure CallWrapper where
  address : Address
  deriving Repr, DecidableEq

namespace CallWrapper

/-- Words before the first handle. -/
def headerWords : Nat := 5

/-- Words taken by a record with this many handles. -/
def sizeWords (handles : Nat) : Nat :=
  headerWords + handles

/-- Address of a word of the record. -/
def slot
    (wrapper : CallWrapper)
    (words : Int) :
    Address :=
  wrapper.address.offset words

/-- Write a record. -/
def write
    (address : Address)
    (callee : Word)
    (anchor : FrameAnchor)
    (handles : List Word) :
    Operation Stack FrameError CallWrapper := do
  let wrapper : CallWrapper := ⟨address⟩
  Stack.write (wrapper.slot 0) callee
  Stack.write (wrapper.slot 1) anchor.sp
  Stack.write (wrapper.slot 2) anchor.fp
  Stack.write (wrapper.slot 3) anchor.pc
  Stack.write (wrapper.slot 4) (UInt64.ofNat handles.length)
  Stack.writeAll (wrapper.slot 5) handles
  return wrapper

/-- The method word of the callee. -/
def callee
    (wrapper : CallWrapper)
    (stack : Stack) :
    Probe FrameError Word :=
  stack.read (wrapper.slot 0)

/-- The anchor the thread had before the call. -/
def anchor
    (wrapper : CallWrapper)
    (stack : Stack) :
    Probe FrameError FrameAnchor := do
  let sp ← stack.read (wrapper.slot 1)
  let fp ← stack.read (wrapper.slot 2)
  let pc ← stack.read (wrapper.slot 3)
  return ⟨sp, fp, pc⟩

/-- How many handles the record says it has. -/
def handleCount
    (wrapper : CallWrapper)
    (stack : Stack) :
    Probe FrameError Word :=
  stack.read (wrapper.slot 4)

/-- Visit ascending slots, each after making sure that it exists. -/
def visitSlots
    (stack : Stack)
    (slot : Address) :
    Nat → Probe FrameError Unit
  | 0 => pure ()
  | count + 1 => do
      let _ ← stack.read slot
      Probe.visit slot
      visitSlots stack (slot.offset 1) count

/-- Visit every handle slot of the record. -/
def visitHandles
    (wrapper : CallWrapper)
    (stack : Stack) :
    Probe FrameError Unit := do
  let count ← wrapper.handleCount stack
  visitSlots stack (wrapper.slot 5) count.toNat

end CallWrapper

end ManagedStack
