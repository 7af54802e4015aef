import ManagedStack.Word

namespace ManagedStack

/-!
# General purpose registers

Sixteen machine registers have names and save slots.  Any other number can be
written down, prints with a question mark, and has no saved location.
-/

/-- A general purpose register, given by its machine number. -/
structure Register where
  number : Nat
  deriving Repr, DecidableEq

namespace Register

/-- How many general purpose registers the machine has. -/
def count : Nat := 16

/-- The names of the machine registers by number. -/
def names : List String :=
  ["rax", "rcx", "rdx", "rbx", "rsp", "rbp", "rsi", "rdi", "r8", "r9", "r10",
    "r11", "r12", "r13", "r14", "r15"]

/-- The name of a register. -/
def name (register : Register) : String :=
  match names[register.number]? with
  | some known => known
  | none => "r?" ++ toString register.number

/-- The frame pointer register. -/
def rbp : Register := ⟨5⟩

/-- The registers that carry integer and reference arguments, in order. -/
def integerArguments : List Register :=
  [⟨6⟩, ⟨2⟩, ⟨1⟩, ⟨8⟩, ⟨9⟩, ⟨7⟩]

/-- The register that carries the receiver of a call. -/
def receiver : Register := ⟨6⟩

/-- How many registers carry floating point arguments. -/
def floatArgumentCount : Nat := 8

end Register

end ManagedStack
