import ManagedStack.Register

namespace ManagedStack

/-!
# Reference maps of compiled code

An oop map says, for one return address inside a unit of compiled code, which
registers and which frame slots hold references and where the unit saved its
callers' registers.  Registers and slots are kept as bit masks, so recording one
twice changes nothing and enumeration is ascending.
-/

/-- The reference layout at one return address of a unit. -/
structure OopMap where
  /-- Distance of the return address from the start of the unit. -/
  pcOffset : UInt32
  registerBits : BitVec 16 := 0
  /-- Bit `n` stands for the word `n` above the unextended stack pointer. -/
  slotBits : BitVec 64 := 0
  /-- Registers saved in the frame, each with its slot, in recording order. -/
  calleeSaved : List (Register × UInt32) := []
  deriving Repr, DecidableEq

namespace OopMap

/-- A mask without its lowest set bit. -/
def clearLowest (mask : BitVec 64) : BitVec 64 :=
  mask &&& (mask - 1)

theorem toNat_sub_one
    {mask : BitVec 64}
    (nonzero : mask ≠ 0) :
    (mask - 1).toNat = mask.toNat - 1 := by
  have positive : (1 : BitVec 64) ≤ mask := by
    rw [BitVec.le_def]
    exact Nat.one_le_iff_ne_zero.mpr (BitVec.toNat_ne_iff_ne.mpr nonzero)
  exact BitVec.toNat_sub_of_le positive

/-- Clearing a bit makes a mask smaller. -/
theorem toNat_clearLowest_lt
    {mask : BitVec 64}
    (nonzero : mask ≠ 0) :
    (clearLowest mask).toNat < mask.toNat := by
  calc
    (clearLowest mask).toNat ≤ (mask - 1).toNat := by
      rw [clearLowest, BitVec.toNat_and]
      exact Nat.and_le_right
    _ = mask.toNat - 1 := toNat_sub_one nonzero
    _ < mask.toNat := Nat.sub_one_lt (BitVec.toNat_ne_iff_ne.mpr nonzero)

/--
The positions of the set bits.

The lowest set bit is listed and cleared, until none is left.
-/
def setBits (mask : BitVec 64) : List Nat :=
  if mask = 0 then
    []
  else
    mask.ctz.toNat :: setBits (clearLowest mask)
  termination_by mask.toNat
  decreasing_by exact toNat_clearLowest_lt ‹_›

/-- Subtracting one clears the lowest set bit of a number and keeps those above. -/
theorem testBit_sub_one
    {number lowest : Nat}
    (isSet : number.testBit lowest = true)
    (clear : ∀ position < lowest, number.testBit position = false) :
    (number - 1).testBit lowest = false ∧
      ∀ position, lowest < position →
        (number - 1).testBit position = number.testBit position := by
  induction lowest generalizing number with
  | zero =>
      have odd : number % 2 = 1 := by simpa using isSet
      have half : (number - 1) / 2 = number / 2 := by omega
      refine ⟨?cleared, fun position above => ?kept⟩
      case cleared =>
        rw [Nat.testBit_zero, decide_eq_false_iff_not]
        omega
      case kept =>
        obtain ⟨lower, rfl⟩ := Nat.exists_eq_add_one.mpr above
        rw [Nat.testBit_succ, Nat.testBit_succ, half]
  | succ lowest inductionHypothesis =>
      have even : number % 2 = 0 := by simpa using clear 0 (Nat.succ_pos lowest)
      have half : (number - 1) / 2 = number / 2 - 1 := by omega
      rw [Nat.testBit_succ] at isSet
      obtain ⟨cleared, kept⟩ := inductionHypothesis isSet fun position below => by
        rw [← Nat.testBit_succ]
        exact clear (position + 1) (Nat.succ_lt_succ below)
      refine ⟨by rwa [Nat.testBit_succ, half], fun position above => ?_⟩
      obtain ⟨lower, rfl⟩ := Nat.exists_eq_add_one.mpr (Nat.zero_lt_of_lt above)
      rw [Nat.testBit_succ, Nat.testBit_succ, half]
      exact kept lower (Nat.lt_of_succ_lt_succ above)

/-- The other bits stay as they are. -/
theorem getLsbD_clearLowest
    {mask : BitVec 64}
    (nonzero : mask ≠ 0)
    (position : Nat) :
    (clearLowest mask).getLsbD position =
      (mask.getLsbD position && position != mask.ctz.toNat) := by
  obtain ⟨cleared, kept⟩ :=
    testBit_sub_one (BitVec.getLsbD_true_ctz_of_ne_zero nonzero) fun position below =>
      BitVec.getLsbD_false_of_lt_ctz below
  rw [← toNat_sub_one nonzero, BitVec.testBit_toNat] at cleared
  rw [clearLowest, BitVec.getLsbD_and]
  rcases Nat.lt_trichotomy position mask.ctz.toNat with below | rfl | above
  · simp [BitVec.getLsbD_false_of_lt_ctz below]
  · rw [cleared]
    simp
  · have same := kept position above
    rw [← toNat_sub_one nonzero, BitVec.testBit_toNat, BitVec.testBit_toNat] at same
    rw [same, Bool.and_self]
    simp [Nat.ne_of_gt above]

/-- A position is listed exactly when its bit is set. -/
theorem mem_setBits
    {mask : BitVec 64}
    {position : Nat} :
    position ∈ setBits mask ↔ mask.getLsbD position = true := by
  fun_induction setBits mask with
  | case1 => simp
  | case2 mask nonzero inductionHypothesis =>
      rw [List.mem_cons, inductionHypothesis, getLsbD_clearLowest nonzero]
      by_cases same : position = mask.ctz.toNat
      · simp [same, BitVec.getLsbD_true_ctz_of_ne_zero nonzero]
      · simp [same]

/-- Record that a register holds a reference. -/
def withRegister
    (map : OopMap)
    (register : Register) :
    Except Abort OopMap :=
  if register.number < Register.count then
    .ok { map with
      registerBits := map.registerBits ||| BitVec.twoPow 16 register.number }
  else
    .error (.overflow .shiftLeft)

/-- Record that a frame slot holds a reference. -/
def withSlot
    (map : OopMap)
    (slot : Nat) :
    Except Abort OopMap := do
  require .mapCoversSlot (slot < 64)
  return { map with slotBits := map.slotBits ||| BitVec.twoPow 64 slot }

/-- Record that the unit saved a register in a frame slot. -/
def withCalleeSaved
    (map : OopMap)
    (register : Register)
    (slot : UInt32) :
    OopMap :=
  { map with calleeSaved := map.calleeSaved ++ [(register, slot)] }

/-- The registers that hold references, ascending. -/
def oopRegisters (map : OopMap) : List Register :=
  (setBits (map.registerBits.setWidth 64)).map Register.mk

/-- The frame slots that hold references, ascending. -/
def oopSlots (map : OopMap) : List Nat :=
  setBits map.slotBits

/-- How many registers and slots hold references. -/
def oopCount (map : OopMap) : Nat :=
  map.registerBits.cpop.toNat + map.slotBits.cpop.toNat

end OopMap

/-- The maps of one unit, ascending by offset and with distinct offsets. -/
structure OopMapSet where
  maps : List OopMap
  deriving Repr, DecidableEq

namespace OopMapSet

/-- Drop each map whose offset equals that of the last one kept. -/
def dropRepeated : List OopMap → List OopMap
  | [] => []
  | [map] => [map]
  | first :: second :: rest =>
      if second.pcOffset = first.pcOffset then
        dropRepeated (first :: rest)
      else
        first :: dropRepeated (second :: rest)

/-- Collect maps; of those with one offset the first given counts. -/
def ofList (maps : List OopMap) : OopMapSet :=
  ⟨dropRepeated
    (maps.mergeSort fun left right => left.pcOffset ≤ right.pcOffset)⟩

/-- How many maps the set has. -/
def size (set : OopMapSet) : Nat :=
  set.maps.length

/--
Look for an offset among ascending maps by halving them, for a number of rounds.

Each round leaves fewer maps, so that as many rounds as there are maps are enough.
-/
def search?
    (pcOffset : UInt32) :
    Nat → List OopMap → Option OopMap
  | 0, _ => none
  | rounds + 1, maps =>
      match maps.splitAt (maps.length / 2) with
      | (_, []) => none
      | (lower, middle :: upper) =>
          if middle.pcOffset = pcOffset then
            some middle
          else if pcOffset < middle.pcOffset then
            search? pcOffset rounds lower
          else
            search? pcOffset rounds upper

/-- The map recorded for exactly this offset. -/
def find?
    (set : OopMapSet)
    (pcOffset : UInt32) :
    Option OopMap :=
  search? pcOffset set.maps.length set.maps

end OopMapSet

end ManagedStack
