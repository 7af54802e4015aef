import ManagedStack.Word

namespace ManagedStack

/-!
# Thread stacks

A thread stack is a run of words addressed by byte address.  It grows downward:
its base is the exclusive high end and its limit the lowest word.  Reading and
writing refuse an address that is not a multiple of the word size before they
look at the range, and a write changes one word and no other.
-/

/-- A half-open address range that a reader may touch. -/
structure Bounds where
  low : Address
  high : Address
  deriving Repr, DecidableEq

namespace Bounds

/-- Whether a whole word at an address lies in the range. -/
def contains
    (bounds : Bounds)
    (address : Address) :
    Bool :=
  bounds.low ≤ address &&
    match address.add? 8 with
    | some stop => stop ≤ bounds.high
    | none => false

/-- Whether an address is at or below the high end. -/
def belowBase
    (bounds : Bounds)
    (address : Address) :
    Bool :=
  address ≤ bounds.high

/-- Whether an address lies in the range or at its high end. -/
def within
    (bounds : Bounds)
    (address : Address) :
    Bool :=
  bounds.low ≤ address && address ≤ bounds.high

/-- Bytes between the ends; none when they are in the wrong order. -/
def size (bounds : Bounds) : Word :=
  if bounds.low ≤ bounds.high then bounds.high - bounds.low else 0

/-- The text of a range. -/
def text (bounds : Bounds) : String :=
  "[" ++ bounds.low.hex ++ ", " ++ bounds.high.hex ++ ")"

end Bounds

/-- Why a stack word cannot be read or written. -/
inductive AccessError where
  | outOfBounds (address : Address)
  | misaligned (address : Address)
  deriving Repr, DecidableEq

/-- A run of words below an aligned base. -/
structure Stack where
  base : Address
  /-- The words, the lowest address first. -/
  words : Array Word
  base_aligned : base.toNat % 8 = 0
  fits : words.size * 8 ≤ base.toNat
  /-- No list of words takes half the addresses. -/
  allocated : words.size < 0x1000000000000000

namespace Stack

/-- A zeroed stack of a given number of words. -/
def zeroed
    (base : Address)
    (sizeWords : Word) :
    Except Abort Stack :=
  if aligned : base.toNat % 8 = 0 then
    match sizeWords.times 8 with
    | .error cause => .error cause
    | .ok _ =>
        if small : sizeWords.toNat * 8 ≤ base.toNat then
          if room : sizeWords.toNat < 0x1000000000000000 then
            .ok {
              base := base
              words := Array.replicate sizeWords.toNat 0
              base_aligned := aligned
              fits := by simpa using small
              allocated := by simpa using room
            }
          else
            .error .capacity
        else
          .error (.broken .stackAboveZero)
  else
    .error (.broken .stackBaseAligned)

/-- The lowest address of the stack. -/
def limit (stack : Stack) : Address :=
  stack.base - UInt64.ofNat (stack.words.size * 8)

/-- How many words the stack has. -/
def sizeWords (stack : Stack) : Nat :=
  stack.words.size

/-- The whole range of the stack. -/
def bounds (stack : Stack) : Bounds :=
  ⟨stack.limit, stack.base⟩

/-- The position of the word at an address. -/
def index?
    (stack : Stack)
    (address : Address) :
    Except AccessError Nat :=
  if !address.isAligned then
    .error (.misaligned address)
  else if address < stack.limit || stack.base ≤ address then
    .error (.outOfBounds address)
  else
    .ok ((address.toNat - stack.limit.toNat) / 8)

/-- The word at an address. -/
def read?
    (stack : Stack)
    (address : Address) :
    Except AccessError Word :=
  match stack.index? address with
  | .error cause => .error cause
  | .ok index =>
      match stack.words[index]? with
      | some word => .ok word
      | none => .error (.outOfBounds address)

/-- The stack with another word at a position. -/
def set
    (stack : Stack)
    (index : Nat)
    (value : Word) :
    Stack where
  base := stack.base
  words := stack.words.setIfInBounds index value
  base_aligned := stack.base_aligned
  fits := by simpa using stack.fits
  allocated := by simpa using stack.allocated

/-- The limit as a natural number. -/
theorem toNat_limit (stack : Stack) :
    stack.limit.toNat = stack.base.toNat - stack.words.size * 8 := by
  have fits := stack.fits
  have baseSmall := stack.base.toNat_lt
  have sizeWord : (UInt64.ofNat (stack.words.size * 8)).toNat =
      stack.words.size * 8 := by
    simp only [UInt64.toNat_ofNat']
    omega
  rw [limit, UInt64.toNat_sub_of_le _ _ (by
    rw [UInt64.le_iff_toNat_le, sizeWord]
    exact fits), sizeWord]

/-- An address inside the stack has a word. -/
theorem index?_lt
    {stack : Stack}
    {address : Address}
    {index : Nat}
    (found : stack.index? address = .ok index) :
    index < stack.words.size := by
  unfold index? at found
  split at found
  · simp at found
  · rename_i aligned
    split at found
    · simp at found
    · rename_i inside
      have limitValue := stack.toNat_limit
      have fits := stack.fits
      have baseAligned := stack.base_aligned
      simp only [Bool.or_eq_true, decide_eq_true_eq, not_or,
        UInt64.le_iff_toNat_le,
        UInt64.lt_iff_toNat_lt] at inside
      simp only [Word.isAligned, Word.bytes, Bool.not_eq_true',
        beq_eq_false_iff_ne, ne_eq, Decidable.not_not] at aligned
      simp only [Except.ok.injEq] at found
      omega

end Stack

end ManagedStack
