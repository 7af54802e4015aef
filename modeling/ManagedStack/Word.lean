import ManagedStack.Failure

namespace ManagedStack

/-!
# Machine words and word offsets

Addresses and stored values are 64-bit words.  Three kinds of arithmetic occur
and each has its own name: moving an address by whole words wraps around, the
partial operations answer `none` when the exact result does not fit, and the
aborting operations give the computation up in that case.
-/

/-- One machine word. -/
abbrev Word := UInt64

/-- A byte address, on a thread stack or in the code space. -/
abbrev Address := Word

namespace Word

/-- Bytes taken by one word. -/
def bytes : Nat := 8

/-- A word in hexadecimal, without leading zeros. -/
def hex (word : Word) : String :=
  "0x" ++ String.ofList (Nat.toDigits 16 word.toNat)

/-- The two's complement reading of a word. -/
def signed (word : Word) : Int :=
  word.toInt64.toInt

/-- The address `words` words away from `address`, wrapping around. -/
def offset
    (address : Word)
    (words : Int) :
    Word :=
  address + UInt64.ofInt (8 * words)

/-- Whether an address is a multiple of the word size. -/
def isAligned (address : Word) : Bool :=
  address.toNat % bytes == 0

/-- Exact sum, if it fits a word. -/
def add?
    (left right : Word) :
    Option Word :=
  if left.toNat + right.toNat < UInt64.size then some (left + right) else none

/-- Exact difference, if it is not negative. -/
def sub?
    (left right : Word) :
    Option Word :=
  if right ≤ left then some (left - right) else none

/-- Exact product, if it fits a word. -/
def mul?
    (left right : Word) :
    Option Word :=
  if left.toNat * right.toNat < UInt64.size then some (left * right) else none

/-- Exact sum; the computation is given up when it does not fit. -/
def plus
    (left right : Word) :
    Except Abort Word :=
  match left.add? right with
  | some sum => .ok sum
  | none => .error (.overflow .add)

/-- Exact difference; the computation is given up when it is negative. -/
def minus
    (left right : Word) :
    Except Abort Word :=
  match left.sub? right with
  | some difference => .ok difference
  | none => .error (.overflow .subtract)

/-- Exact product; the computation is given up when it does not fit. -/
def times
    (left right : Word) :
    Except Abort Word :=
  match left.mul? right with
  | some product => .ok product
  | none => .error (.overflow .multiply)

/-- Quotient; the computation is given up when the divisor is zero. -/
def dividedBy
    (left right : Word) :
    Except Abort Word :=
  if right = 0 then .error .divisionByZero else .ok (left / right)

/-- Remainder; the computation is given up when the divisor is zero. -/
def modulo
    (left right : Word) :
    Except Abort Word :=
  if right = 0 then .error .remainderByZero else .ok (left % right)

end Word

/-- Whether an integer fits a word read as two's complement. -/
def fitsSigned (value : Int) : Bool :=
  -0x8000000000000000 ≤ value && value < 0x8000000000000000

/-- Negation of a signed word; given up when the result does not fit. -/
def negateSigned (value : Int) : Except Abort Int :=
  if fitsSigned (-value) then .ok (-value) else .error (.overflow .negate)

/-- Make sure that a list of this many words takes less than half the addresses. -/
def requireCapacity (words : Word) : Except Abort Unit :=
  if words < 0x1000000000000000 then .ok () else .error .capacity

/--
The address a number of words below another, wrapping around.

The number is read as two's complement; the smallest such number has no negative.
-/
def Word.below
    (address words : Word) :
    Except Abort Word :=
  (negateSigned words.signed).map address.offset

/-- Difference of signed words; given up when the result does not fit. -/
def subtractSigned
    (left right : Int) :
    Except Abort Int :=
  if fitsSigned (left - right) then
    .ok (left - right)
  else
    .error (.overflow .subtract)

end ManagedStack
