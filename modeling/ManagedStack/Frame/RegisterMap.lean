import ManagedStack.Register

namespace ManagedStack

/-!
# Saved registers of one unwind step

A register map says where a step from a frame to its caller found the saved
registers, and whether the caller's outgoing arguments are still its own.  It is
valid only for the step that filled it.
-/

/-- Where registers are saved, as far as one unwind step knows. -/
structure RegisterMap where
  locations : Vector (Option Address) 16
  /-- Whether steps keep track of registers at all. -/
  tracking : Bool
  /-- Whether the outgoing arguments of the frame are not yet its callee's. -/
  includeArgumentOops : Bool
  deriving Repr, DecidableEq

namespace RegisterMap

/-- A map that knows no location and excludes arguments. -/
def empty (tracking : Bool) : RegisterMap where
  locations := Vector.replicate 16 none
  tracking := tracking
  includeArgumentOops := false

/-- The map with the arguments included or excluded. -/
def withArgumentOops
    (map : RegisterMap)
    (included : Bool) :
    RegisterMap :=
  { map with includeArgumentOops := included }

/-- The stack address that holds the saved value of a register. -/
def location?
    (map : RegisterMap)
    (register : Register) :
    Option Address :=
  if inRange : register.number < 16 then map.locations[register.number] else none

/-- Record a location; registers without a save slot are ignored. -/
def record
    (map : RegisterMap)
    (register : Register)
    (address : Address) :
    RegisterMap :=
  { map with
    locations := map.locations.setIfInBounds register.number (some address) }

/-- Record a location in a map that is known to track registers. -/
def setLocation
    (map : RegisterMap)
    (register : Register)
    (address : Address) :
    Except Abort RegisterMap := do
  require .mapTracksRegisters map.tracking
  return map.record register address

/-- Forget all locations and include the arguments. -/
def crossEntry (map : RegisterMap) : RegisterMap where
  locations :=
    if map.tracking then Vector.replicate 16 none else map.locations
  tracking := map.tracking
  includeArgumentOops := true

/-- The located registers with their locations, ascending. -/
def located (map : RegisterMap) : List (Register × Address) :=
  (List.range Register.count).filterMap fun number =>
    (map.location? ⟨number⟩).map fun address => (⟨number⟩, address)

/-- How many registers are located. -/
def count (map : RegisterMap) : Nat :=
  map.located.length

/-- What was just recorded is what is found. -/
theorem location?_record_same
    (map : RegisterMap)
    (register : Register)
    (address : Address)
    (inRange : register.number < 16) :
    (map.record register address).location? register = some address := by
  simp [location?, record, inRange]

/-- Recording one register leaves the others alone. -/
theorem location?_record_of_ne
    (map : RegisterMap)
    {recorded other : Register}
    (address : Address)
    (different : recorded ≠ other) :
    (map.record recorded address).location? other = map.location? other := by
  have numbers : recorded.number ≠ other.number := fun same =>
    different (by cases recorded; cases other; simp_all)
  simp only [location?, record]
  split
  · rw [Vector.getElem_setIfInBounds]
    simp [numbers]
  · rfl

end RegisterMap

end ManagedStack
