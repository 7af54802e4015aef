import ManagedStack.Code.Cache

namespace ManagedStack

/-!
# What is remembered about deoptimized frames

Compiled units are fixed, but two things about them change while threads run: the
return addresses that redirected frames had before, and which units are marked for
deoptimization.  Both are kept here, keyed by the start of the unit, because ranges
of units never meet.
-/

/-- The return address that one redirected frame had before. -/
structure DisplacedPc where
  unitStart : Address
  frameId : Address
  pc : Address
  deriving Repr, DecidableEq

/-- The changing facts about compiled units. -/
structure DeoptRecords where
  /-- One entry at most for a unit and a frame. -/
  displacedPcs : List DisplacedPc := []
  /-- Starts of the units marked for deoptimization. -/
  marked : List Address := []
  deriving Repr, DecidableEq

namespace DeoptRecords

/-- Whether an entry is about this frame of this unit. -/
def isAbout
    (unitStart frameId : Address)
    (entry : DisplacedPc) :
    Bool :=
  entry.unitStart == unitStart && entry.frameId == frameId

/-- The return address that a frame had before it was redirected. -/
def displacedPc?
    (records : DeoptRecords)
    (unitStart frameId : Address) :
    Option Address :=
  (records.displacedPcs.find? (isAbout unitStart frameId)).map DisplacedPc.pc

/-- Drop the record of a frame. -/
def forget
    (records : DeoptRecords)
    (unitStart frameId : Address) :
    DeoptRecords :=
  { records with
    displacedPcs :=
      records.displacedPcs.filter fun entry =>
        !isAbout unitStart frameId entry }

/-- Record the return address of a frame, in place of any earlier record. -/
def record
    (records : DeoptRecords)
    (unitStart frameId pc : Address) :
    DeoptRecords :=
  let others := records.forget unitStart frameId
  { others with displacedPcs := ⟨unitStart, frameId, pc⟩ :: others.displacedPcs }

/-- How many frames of a unit have a record. -/
def count
    (records : DeoptRecords)
    (unitStart : Address) :
    Nat :=
  records.displacedPcs.countP (·.unitStart == unitStart)

/-- Mark a unit for deoptimization. -/
def mark
    (records : DeoptRecords)
    (unitStart : Address) :
    DeoptRecords :=
  { records with marked := unitStart :: records.marked }

/-- Whether a unit is marked for deoptimization. -/
def isMarked
    (records : DeoptRecords)
    (unitStart : Address) :
    Bool :=
  records.marked.contains unitStart

/-- What was just recorded is what is found. -/
theorem displacedPc?_record_same
    (records : DeoptRecords)
    (unitStart frameId pc : Address) :
    (records.record unitStart frameId pc).displacedPc? unitStart frameId =
      some pc := by
  simp [record, displacedPc?, isAbout]

/-- A forgotten record is not found. -/
theorem displacedPc?_forget_same
    (records : DeoptRecords)
    (unitStart frameId : Address) :
    (records.forget unitStart frameId).displacedPc? unitStart frameId =
      none := by
  simp [forget, displacedPc?]

end DeoptRecords

end ManagedStack
