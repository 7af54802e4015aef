import ManagedStack.Register
import ManagedStack.Signature

namespace ManagedStack

/-!
# Where compiled code passes arguments

Integer and reference arguments go to six registers, floating point arguments to
eight, and what is left over to outgoing stack slots counted from the caller's
unextended stack pointer.  The second slot of a long or double has no location
of its own.  Stack slots are counted in 32 bits, and a call that uses them all up
has no convention.
-/

/-- The location of one argument word. -/
inductive ArgumentLocation where
  | register (register : Register)
  | float (index : Nat)
  | stack (slot : UInt32)
  deriving Repr, DecidableEq

/-- Whether an argument location is a register of either kind. -/
def ArgumentLocation.isRegister : ArgumentLocation → Bool
  | .stack _ => false
  | _ => true

namespace CallingConvention

/-- How many locations of each kind earlier arguments have taken. -/
structure Usage where
  integers : Nat
  floats : Nat
  stackSlots : UInt32
  deriving Repr, DecidableEq

/-- The next stack slot; given up when the slots can no longer be counted. -/
def spill (usage : Usage) : Except Abort (ArgumentLocation × Usage) :=
  if usage.stackSlots.toNat + 1 < UInt32.size then
    .ok (.stack usage.stackSlots,
      { usage with stackSlots := usage.stackSlots + 1 })
  else
    .error (.overflow .add)

/-- The location of an argument of one type, and what is taken afterwards. -/
def place
    (usage : Usage)
    (type : BasicType) :
    Except Abort (ArgumentLocation × Usage) :=
  if type.isFloating then
    if usage.floats < Register.floatArgumentCount then
      .ok (.float usage.floats, { usage with floats := usage.floats + 1 })
    else
      spill usage
  else
    match Register.integerArguments[usage.integers]? with
    | some register =>
        .ok (.register register, { usage with integers := usage.integers + 1 })
    | none => spill usage

/-- The locations of arguments of the given types, one entry per slot. -/
def placeAll :
    Usage → List BasicType → Except Abort (List (Option ArgumentLocation))
  | _, [] => .ok []
  | usage, type :: rest => do
      let (location, usage) ← place usage type
      let later ← placeAll usage rest
      if type.slots = 2 then
        return some location :: none :: later
      else
        return some location :: later

/-- The argument locations of a call, one entry per argument slot. -/
def locations
    (signature : Signature)
    (hasReceiver : Bool) :
    Except Abort (List (Option ArgumentLocation)) :=
  let types :=
    if hasReceiver then
      BasicType.object :: signature.parameters
    else
      signature.parameters
  placeAll ⟨0, 0, 0⟩ types

end CallingConvention

end ManagedStack
