import ManagedStack.Word

namespace ManagedStack

/-!
# Where an activation keeps its fields

Every logical field of an activation lives a fixed number of words away from its
frame pointer.  Frame code reaches those fields only through a table of such
offsets, so that another machine needs another table and nothing else.
-/

/-- Word offsets of activation fields from the frame pointer. -/
structure FrameLayout where
  link : Int
  returnAddress : Int
  senderSp : Int
  interpreterSenderSp : Int
  lastSp : Int
  method : Int
  mdx : Int
  cache : Int
  locals : Int
  bcx : Int
  oopTemp : Int
  monitorBlockTop : Int
  monitorBlockBottom : Int
  monitorWords : Word
  interpreterFrameSlackWords : Word
  entryCallWrapper : Int
  scratchWords : Word
  deriving Repr, DecidableEq

namespace FrameLayout

/-- The layout used on the x86-64 architecture. -/
def x86_64 : FrameLayout where
  link := 0
  returnAddress := 1
  senderSp := 2
  interpreterSenderSp := -1
  lastSp := -2
  method := -3
  mdx := -4
  cache := -5
  locals := -6
  bcx := -7
  oopTemp := -8
  monitorBlockTop := -9
  monitorBlockBottom := -9
  monitorWords := 2
  interpreterFrameSlackWords := 1024
  entryCallWrapper := -6
  scratchWords := 4

/-- Words between the frame pointer and the lowest fixed interpreter slot. -/
def interpreterFixedWords (layout : FrameLayout) : Except Abort Word :=
  (negateSigned layout.monitorBlockTop).map UInt64.ofInt

/-- Words an entry frame takes below its frame pointer. -/
def entryFixedWords (layout : FrameLayout) : Except Abort Word :=
  (negateSigned layout.entryCallWrapper).map UInt64.ofInt

/-- Bytes taken by one monitor. -/
def monitorBytes (layout : FrameLayout) : Except Abort Word :=
  layout.monitorWords.times 8

end FrameLayout

/-- Words an engine may spill registers into, owned by one activation. -/
structure ScratchArea where
  words : Array Word
  deriving Repr, DecidableEq

namespace ScratchArea

/-- A zeroed area of the size the layout asks for. -/
def ofLayout (layout : FrameLayout) : Except Abort ScratchArea := do
  requireCapacity layout.scratchWords
  return ⟨Array.replicate layout.scratchWords.toNat 0⟩

/-- How many words the area has. -/
def size (area : ScratchArea) : Nat :=
  area.words.size

/-- Spill a word into a slot, if there is such a slot. -/
def save?
    (area : ScratchArea)
    (index : Nat)
    (value : Word) :
    Option ScratchArea :=
  if index < area.words.size then
    some ⟨area.words.setIfInBounds index value⟩
  else
    none

/-- The word last spilled into a slot, if there is such a slot. -/
def restore?
    (area : ScratchArea)
    (index : Nat) :
    Option Word :=
  area.words[index]?

end ScratchArea

end ManagedStack
