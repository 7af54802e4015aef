import Mathlib.Data.List.Forall2
import Mathlib.Tactic.Choose
import ManagedStack.Proofs.Arguments
import ManagedStack.Proofs.Roots

namespace ManagedStack

/-!
# Where the calling convention puts arguments

The convention assigns locations to arguments in order: registers of either kind as
long as there are any, and then stack slots, which it counts in 32 bits.  The scanner
of a compiled call finds the location of an argument again by counting the slots of the
arguments before it.  The two counts agree on arguments that have values, and as no
reference is ever in a floating point register the scanner then finds an address.
-/

namespace ArgumentLocation

/-- The register that a location is, if it is a general purpose one. -/
def register? : ArgumentLocation → Option Register
  | .register held => some held
  | _ => none

/-- The number of the floating point register that a location is, if it is one. -/
def float? : ArgumentLocation → Option Nat
  | .float index => some index
  | _ => none

/-- The number of the stack slot that a location is, if it is one. -/
def stackSlot? : ArgumentLocation → Option Nat
  | .stack slot => some slot.toNat
  | _ => none

/-- Locations are distinct if those of each kind are. -/
theorem nodup_of_filterMap
    {locations : List ArgumentLocation}
    (registers : (locations.filterMap register?).Nodup)
    (floats : (locations.filterMap float?).Nodup)
    (stack : (locations.filterMap stackSlot?).Nodup) :
    locations.Nodup := by
  induction locations with
  | nil => exact .nil
  | cons location rest inductionHypothesis =>
      have mem_of_mem {β : Type} {extract : ArgumentLocation → Option β} {value : β}
          (listed : location ∈ rest)
          (extracts : extract location = some value) :
          value ∈ rest.filterMap extract :=
        List.mem_filterMap.mpr ⟨location, listed, extracts⟩
      refine List.nodup_cons.mpr ⟨fun listed => ?_, ?_⟩
      · cases location with
        | register register =>
            exact (List.nodup_cons.mp registers).1 (mem_of_mem listed rfl)
        | float index => exact (List.nodup_cons.mp floats).1 (mem_of_mem listed rfl)
        | stack slot => exact (List.nodup_cons.mp stack).1 (mem_of_mem listed rfl)
      · cases location with
        | register register =>
            exact inductionHypothesis (List.nodup_cons.mp registers).2 floats stack
        | float index =>
            exact inductionHypothesis registers (List.nodup_cons.mp floats).2 stack
        | stack slot =>
            exact inductionHypothesis registers floats (List.nodup_cons.mp stack).2

end ArgumentLocation

namespace CallingConvention

/-- How many arguments are passed like floating point values. -/
def floating (types : List BasicType) : Nat :=
  types.countP BasicType.isFloating

/-- How many arguments are passed like integers and references. -/
def integral (types : List BasicType) : Nat :=
  types.countP (!·.isFloating)

/-- How many arguments find no register left. -/
def spilled
    (usage : Usage)
    (types : List BasicType) :
    Nat :=
  (integral types - (Register.integerArguments.length - usage.integers)) +
    (floating types - (Register.floatArgumentCount - usage.floats))

variable {usage next : Usage} {type : BasicType} {location : ArgumentLocation}
  {rest types : List BasicType} {placed : List (Option ArgumentLocation)}

theorem integral_cons :
    integral (type :: rest) = integral rest + if type.isFloating then 0 else 1 := by
  cases isFloating : type.isFloating <;> simp [integral, isFloating]

theorem floating_cons :
    floating (type :: rest) = floating rest + if type.isFloating then 1 else 0 := by
  cases isFloating : type.isFloating <;> simp [floating, isFloating]

/-! ## One argument -/

/-- What one argument is assigned, and what is taken afterwards. -/
inductive Places (usage : Usage) (type : BasicType) : ArgumentLocation × Usage → Prop where
  | register
      {register : Register}
      (integral : type.isFloating = false)
      (next : Register.integerArguments[usage.integers]? = some register) :
      Places usage type
        (.register register, { usage with integers := usage.integers + 1 })
  | float
      (floating : type.isFloating = true)
      (left : usage.floats < Register.floatArgumentCount) :
      Places usage type (.float usage.floats, { usage with floats := usage.floats + 1 })
  | spillsIntegral
      (integral : type.isFloating = false)
      (full : Register.integerArguments.length ≤ usage.integers)
      (counts : usage.stackSlots.toNat + 1 < UInt32.size) :
      Places usage type
        (.stack usage.stackSlots, { usage with stackSlots := usage.stackSlots + 1 })
  | spillsFloating
      (floating : type.isFloating = true)
      (full : Register.floatArgumentCount ≤ usage.floats)
      (counts : usage.stackSlots.toNat + 1 < UInt32.size) :
      Places usage type
        (.stack usage.stackSlots, { usage with stackSlots := usage.stackSlots + 1 })

theorem spill_eq_ok {placement : ArgumentLocation × Usage} :
    spill usage = .ok placement ↔
      usage.stackSlots.toNat + 1 < UInt32.size ∧
        placement =
          (.stack usage.stackSlots, { usage with stackSlots := usage.stackSlots + 1 }) := by
  unfold spill
  split <;> rename_i counts <;> simp [counts, eq_comm]

theorem place_eq_ok {placement : ArgumentLocation × Usage} :
    place usage type = .ok placement ↔ Places usage type placement := by
  unfold place
  constructor
  · intro places
    split at places
    · rename_i floating
      split at places
      · rename_i left
        obtain rfl := Except.ok.inj places
        exact .float floating left
      · rename_i full
        obtain ⟨counts, rfl⟩ := spill_eq_ok.mp places
        exact .spillsFloating floating (Nat.le_of_not_lt full) counts
    · rename_i integral
      have integral := Bool.eq_false_iff.mpr integral
      split at places
      · rename_i register next
        obtain rfl := Except.ok.inj places
        exact .register integral next
      · rename_i full
        obtain ⟨counts, rfl⟩ := spill_eq_ok.mp places
        exact .spillsIntegral integral (List.getElem?_eq_none_iff.mp full) counts
  · intro places
    cases places with
    | register integral next => simp [integral, next]
    | float floating left => simp [floating, left]
    | spillsIntegral integral full counts =>
        simp [integral, List.getElem?_eq_none_iff.mpr full, spill_eq_ok.mpr ⟨counts, rfl⟩]
    | spillsFloating floating full counts =>
        simp [floating, Nat.not_lt_of_le full, spill_eq_ok.mpr ⟨counts, rfl⟩]

theorem toNat_add_one (counts : usage.stackSlots.toNat + 1 < UInt32.size) :
    (usage.stackSlots + 1).toNat = usage.stackSlots.toNat + 1 := by
  rw [UInt32.toNat_add]
  exact Nat.mod_eq_of_lt counts

/-- What has been spilled and what is still to come add up to the same. -/
theorem Places.counts_eq
    (places : Places usage type (location, next))
    (rest : List BasicType) :
    next.stackSlots.toNat + spilled next rest =
      usage.stackSlots.toNat + spilled usage (type :: rest) := by
  simp only [spilled, integral_cons, floating_cons]
  cases places with
  | register isIntegral taken =>
      have inside := (List.getElem?_eq_some_iff.mp taken).1
      simp only [isIntegral, Bool.false_eq_true, if_false]
      omega
  | float isFloating left =>
      simp only [isFloating, if_true]
      omega
  | spillsIntegral isIntegral full counts =>
      simp only [isIntegral, Bool.false_eq_true, if_false, toNat_add_one counts]
      omega
  | spillsFloating isFloating full counts =>
      simp only [isFloating, if_true, toNat_add_one counts]
      omega

/-- There is a place for an argument as long as the stack slots can be counted. -/
theorem exists_places
    (counts : usage.stackSlots.toNat + spilled usage (type :: rest) < UInt32.size) :
    ∃ location next, Places usage type (location, next) := by
  simp only [spilled, integral_cons, floating_cons] at counts
  cases isFloating : type.isFloating with
  | true =>
      simp only [isFloating, if_true] at counts
      rcases Nat.lt_or_ge usage.floats Register.floatArgumentCount with left | full
      · exact ⟨_, _, .float isFloating left⟩
      · exact ⟨_, _, .spillsFloating isFloating full (by omega)⟩
  | false =>
      simp only [isFloating, Bool.false_eq_true, if_false] at counts
      rcases Nat.lt_or_ge usage.integers Register.integerArguments.length with left | full
      · exact ⟨_, _, .register isFloating (List.getElem?_eq_getElem left)⟩
      · exact ⟨_, _, .spillsIntegral isFloating full (by omega)⟩

/-! ## All arguments -/

/-- An argument has a location in its first slot and none in a second one. -/
inductive PlacesAll : Usage → List BasicType → List (Option ArgumentLocation) → Prop where
  | nil {usage : Usage} : PlacesAll usage [] []
  | cons
      {usage next : Usage}
      {type : BasicType}
      {location : ArgumentLocation}
      {rest : List BasicType}
      {placed : List (Option ArgumentLocation)}
      (places : Places usage type (location, next))
      (others : PlacesAll next rest placed) :
      PlacesAll usage (type :: rest)
        (some location :: (List.replicate (type.slots - 1) none ++ placed))

theorem placeAll_eq_ok : placeAll usage types = .ok placed ↔ PlacesAll usage types placed := by
  induction types generalizing usage placed with
  | nil =>
      constructor
      · intro places
        obtain rfl := Except.ok.inj places
        exact .nil
      · intro places
        cases places
        rfl
  | cons type rest inductionHypothesis =>
      have entries (location : ArgumentLocation) (later : List (Option ArgumentLocation)) :
          (if type.slots = 2 then pure (some location :: none :: later)
            else pure (some location :: later) : Except Abort _) =
              .ok (some location :: (List.replicate (type.slots - 1) none ++ later)) := by
        cases type <;> rfl
      simp only [placeAll, bind_eq_ok, place_eq_ok, inductionHypothesis, entries,
        Except.ok.injEq, Prod.exists]
      constructor
      · rintro ⟨location, next, places, later, others, rfl⟩
        exact .cons places others
      · intro places
        cases places with
        | cons places others => exact ⟨_, _, places, _, others, rfl⟩

/-- The arguments have places exactly as long as the stack slots can be counted. -/
theorem exists_placesAll_iff :
    (∃ placed, PlacesAll usage types placed) ↔
      usage.stackSlots.toNat + spilled usage types < UInt32.size := by
  induction types generalizing usage with
  | nil =>
      refine iff_of_true ⟨_, .nil⟩ ?_
      have small := usage.stackSlots.toNat_lt
      simpa [spilled, integral, floating] using small
  | cons type rest inductionHypothesis =>
      constructor
      · rintro ⟨placed, places⟩
        cases places with
        | cons places others =>
            rw [← places.counts_eq]
            exact inductionHypothesis.mp ⟨_, others⟩
      · intro counts
        obtain ⟨location, next, places⟩ := exists_places counts
        rw [← places.counts_eq] at counts
        obtain ⟨placed, others⟩ := inductionHypothesis.mpr counts
        exact ⟨_, .cons places others⟩

namespace PlacesAll

/-- Registers are taken in order, from the next one on. -/
theorem registers_eq (places : PlacesAll usage types placed) :
    placed.filterMap (·.bind ArgumentLocation.register?) =
      (Register.integerArguments.drop usage.integers).take (integral types) := by
  induction places with
  | nil => simp [integral]
  | cons places others inductionHypothesis =>
      simp only [List.filterMap_cons, List.filterMap_append, inductionHypothesis]
      cases places with
      | register isIntegral next =>
          obtain ⟨inside, rfl⟩ := List.getElem?_eq_some_iff.mp next
          simp only [ArgumentLocation.register?, integral, isIntegral, Option.bind_some,
            List.filterMap_replicate_of_none, Option.bind_none, List.nil_append,
            Bool.not_false, List.countP_cons_of_pos]
          rw [List.drop_eq_getElem_cons inside, List.take_succ_cons]
      | float isFloating => simp [ArgumentLocation.register?, integral, isFloating]
      | spillsIntegral isIntegral full =>
          simp [ArgumentLocation.register?, List.drop_eq_nil_of_le full]
      | spillsFloating isFloating =>
          simp [ArgumentLocation.register?, integral, isFloating]

/-- Floating point registers are taken in order, from the next one on. -/
theorem floats_eq (places : PlacesAll usage types placed) :
    placed.filterMap (·.bind ArgumentLocation.float?) =
      List.range' usage.floats
        (min (floating types) (Register.floatArgumentCount - usage.floats)) := by
  induction places with
  | nil => simp [floating]
  | @cons usage _ type _ rest _ places others inductionHypothesis =>
      simp only [List.filterMap_cons, List.filterMap_append, inductionHypothesis]
      cases places with
      | register isIntegral => simp [ArgumentLocation.float?, floating, isIntegral]
      | float isFloating left =>
          have more : min (rest.countP BasicType.isFloating + 1)
              (Register.floatArgumentCount - usage.floats) =
                min (rest.countP BasicType.isFloating)
                  (Register.floatArgumentCount - (usage.floats + 1)) + 1 := by
            omega
          simp [ArgumentLocation.float?, floating, isFloating, more, List.range'_succ]
      | spillsIntegral isIntegral =>
          simp [ArgumentLocation.float?, floating, isIntegral]
      | spillsFloating isFloating full =>
          simp [ArgumentLocation.float?, Nat.sub_eq_zero_of_le full]

/-- Stack slots are numbered without a gap, from the next one on. -/
theorem stackSlots_eq (places : PlacesAll usage types placed) :
    placed.filterMap (·.bind ArgumentLocation.stackSlot?) =
      List.range' usage.stackSlots.toNat (spilled usage types) := by
  induction places with
  | nil => simp [spilled, integral, floating]
  | @cons usage next type location rest placed places others inductionHypothesis =>
      have total := places.counts_eq rest
      simp only [List.filterMap_cons, List.filterMap_append, inductionHypothesis,
        List.filterMap_replicate_of_none, Option.bind_none, Option.bind_some,
        List.nil_append]
      have spills (counts : usage.stackSlots.toNat + 1 < UInt32.size)
          (isNext : next.stackSlots = usage.stackSlots + 1) :
          usage.stackSlots.toNat ::
              List.range' next.stackSlots.toNat (spilled next rest) =
            List.range' usage.stackSlots.toNat (spilled usage (type :: rest)) := by
        rw [isNext, toNat_add_one counts] at total ⊢
        have more : spilled usage (type :: rest) = spilled next rest + 1 := by omega
        rw [more, List.range'_succ]
      cases places with
      | register => rw [Nat.add_left_cancel total]; rfl
      | float => rw [Nat.add_left_cancel total]; rfl
      | spillsIntegral _ _ counts => exact spills counts rfl
      | spillsFloating _ _ counts => exact spills counts rfl

/-- There is one entry for each slot, and one for each argument without value. -/
theorem length_eq (places : PlacesAll usage types placed) :
    placed.length = Arguments.slots types + types.count .void := by
  induction places with
  | nil => rfl
  | @cons _ _ type _ rest placed _ _ inductionHypothesis =>
      rw [List.length_cons, List.length_append, List.length_replicate,
        inductionHypothesis, Arguments.slots_cons, List.count_cons]
      have taken : type.slots - 1 + 1 =
          type.slots + if type == .void then 1 else 0 := by
        cases type <;> rfl
      omega

/-- What stands in the entries after those of the first argument. -/
theorem getElem?_cons_slots
    (valued : type ≠ .void)
    (slot : Nat) :
    (some location :: (List.replicate (type.slots - 1) none ++ placed))[type.slots + slot]? =
      placed[slot]? := by
  cases type <;> first | exact absurd rfl valued | simp [BasicType.slots, Nat.add_comm _ slot]

/-- The location of an argument stands in the entry of its first slot. -/
theorem exists_firstSlot
    {number : Nat}
    (places : PlacesAll usage types placed)
    (valued : .void ∉ types)
    (found : types[number]? = some type) :
    ∃ before after location, Places before type (location, after) ∧
      placed[Arguments.firstSlot types number]? = some (some location) := by
  induction places generalizing number with
  | nil => simp at found
  | @cons usage next first location rest placed places others inductionHypothesis =>
      obtain ⟨here, later⟩ := not_or.mp (mt List.mem_cons.mpr valued)
      cases number with
      | zero =>
          obtain rfl : first = type := by simpa using found
          exact ⟨usage, next, location, places, rfl⟩
      | succ number =>
          obtain ⟨before, after, location, placesLater, isAt⟩ :=
            inductionHypothesis later (by simpa using found)
          refine ⟨before, after, location, placesLater, ?_⟩
          rw [Arguments.firstSlot_cons_succ, getElem?_cons_slots (Ne.symm here)]
          exact isAt

/-- An entry without a location is the second slot of an argument. -/
theorem eq_none_iff
    (places : PlacesAll usage types placed)
    (valued : .void ∉ types)
    {slot : Nat} :
    placed[slot]? = some none ↔
      ∃ number type, types[number]? = some type ∧ type.slots = 2 ∧
        slot = Arguments.firstSlot types number + 1 := by
  induction places generalizing slot with
  | nil => simp
  | @cons usage next type location rest placed places others inductionHypothesis =>
      obtain ⟨here, later⟩ := not_or.mp (mt List.mem_cons.mpr valued)
      by_cases inside : slot < type.slots
      · constructor
        · intro unplaced
          have atMost : type.slots ≤ 2 := by cases type <;> decide
          have second : slot = 1 ∧ type.slots = 2 := by
            cases slot with
            | zero => simp at unplaced
            | succ slot => omega
          exact ⟨0, type, rfl, second.2, second.1⟩
        · rintro ⟨number, other, found, two, rfl⟩
          cases number with
          | zero =>
              obtain rfl : type = other := by simpa using found
              simp [two]
          | succ number =>
              rw [Arguments.firstSlot_cons_succ] at inside
              omega
      · obtain ⟨beyond, rfl⟩ := Nat.exists_eq_add_of_le (Nat.le_of_not_lt inside)
        rw [getElem?_cons_slots (Ne.symm here), inductionHypothesis later]
        constructor
        · rintro ⟨number, other, found, two, rfl⟩
          refine ⟨number + 1, other, by simpa using found, two, ?_⟩
          rw [Arguments.firstSlot_cons_succ]
          omega
        · rintro ⟨number, other, found, two, same⟩
          cases number with
          | zero =>
              obtain rfl : type = other := by simpa using found
              rw [Arguments.firstSlot_zero] at same
              omega
          | succ number =>
              rw [Arguments.firstSlot_cons_succ] at same
              exact ⟨number, other, by simpa using found, two, by omega⟩

end PlacesAll

/-- The locations of arguments, one entry for each slot, follow the convention. -/
structure Follows
    (types : List BasicType)
    (locations : List (Option ArgumentLocation)) :
    Prop where
  length : locations.length = Arguments.slots types
  /-- Only second slots have no location. -/
  unplaced : ∀ slot, locations[slot]? = some none ↔
    ∃ number type, types[number]? = some type ∧ type.slots = 2 ∧
      slot = Arguments.firstSlot types number + 1
  distinct : (locations.filterMap id).Nodup
  registers : locations.filterMap (·.bind ArgumentLocation.register?) =
    Register.integerArguments.take (integral types)
  floats : locations.filterMap (·.bind ArgumentLocation.float?) =
    List.range (min (floating types) Register.floatArgumentCount)
  stack : locations.filterMap (·.bind ArgumentLocation.stackSlot?) =
    List.range ((integral types - Register.integerArguments.length) +
      (floating types - Register.floatArgumentCount))
  kinds : ∀ number type index, types[number]? = some type →
    locations[Arguments.firstSlot types number]? = some (some (.float index)) →
      type.isFloating = true

theorem PlacesAll.follows
    (places : PlacesAll ⟨0, 0, 0⟩ types placed)
    (valued : .void ∉ types) :
    Follows types placed where
  length := by
    rw [places.length_eq, List.count_eq_zero.mpr valued, Nat.add_zero]
  unplaced _ := places.eq_none_iff valued
  distinct := by
    have each {β : Type} (extract : ArgumentLocation → Option β) :
        (placed.filterMap id).filterMap extract = placed.filterMap (·.bind extract) :=
      List.filterMap_filterMap
    refine ArgumentLocation.nodup_of_filterMap ?_ ?_ ?_
    · rw [each, places.registers_eq]
      exact ((by decide : Register.integerArguments.Nodup).sublist
        (List.drop_sublist _ _)).sublist (List.take_sublist _ _)
    · rw [each, places.floats_eq]
      exact List.nodup_range'
    · rw [each, places.stackSlots_eq]
      exact List.nodup_range'
  registers := places.registers_eq
  floats := by rw [places.floats_eq, List.range_eq_range', Nat.sub_zero]
  stack := by rw [places.stackSlots_eq, List.range_eq_range']; rfl
  kinds number type index found isFloat := by
    obtain ⟨before, after, location, isPlaced, isAt⟩ := places.exists_firstSlot valued found
    obtain rfl : location = .float index := by simpa [isAt] using isFloat
    cases isPlaced with
    | float floating => exact floating

/-- Where there is one entry for each slot, each argument has a value. -/
theorem PlacesAll.valued
    (places : PlacesAll usage types placed)
    (follows : Follows types placed) :
    .void ∉ types := by
  have counted := places.length_eq
  rw [follows.length] at counted
  exact List.count_eq_zero.mp (by omega)

/-- A register that is used is one of those for integers and references. -/
theorem Follows.mem_integerArguments
    {locations : List (Option ArgumentLocation)}
    {register : Register}
    (follows : Follows types locations)
    (used : some (.register register) ∈ locations) :
    register ∈ Register.integerArguments := by
  have listed : register ∈
      locations.filterMap (·.bind ArgumentLocation.register?) :=
    List.mem_filterMap.mpr ⟨_, used, rfl⟩
  rw [follows.registers] at listed
  exact List.mem_of_mem_take listed

/-- From the first argument on, stack slots are all there is to count. -/
theorem exists_placesAll_zero_iff :
    (∃ placed, PlacesAll ⟨0, 0, 0⟩ types placed) ↔ spilled ⟨0, 0, 0⟩ types < UInt32.size := by
  rw [exists_placesAll_iff, UInt32.toNat_zero, Nat.zero_add]

theorem locations_eq_ok
    {signature : Signature}
    {hasReceiver : Bool} :
    locations signature hasReceiver = .ok placed ↔
      PlacesAll ⟨0, 0, 0⟩ (Frame.argumentTypes signature hasReceiver) placed :=
  placeAll_eq_ok

end CallingConvention

namespace Frame

variable {frame : Frame} {map : RegisterMap}

/-- The address at which a frame and its register map show what a location holds. -/
inductive ShowsAt
    (frame : Frame)
    (map : RegisterMap) :
    ArgumentLocation → Address → Prop where
  | register
      {register : Register}
      {address : Address}
      (located : map.location? register = some address) :
      ShowsAt frame map (.register register) address
  | stack (slot : UInt32) :
      ShowsAt frame map (.stack slot) (frame.unextendedSp.offset slot.toNat)

theorem ShowsAt.argumentSlot_eq
    {location : ArgumentLocation}
    {address : Address}
    (shows : frame.ShowsAt map location address) :
    frame.argumentSlot map location = pure address := by
  cases shows with
  | register located =>
      simp only [argumentSlot, located]
      rfl
  | stack slot => rfl

/-- The address that shows an argument, at the location in the entry of its first slot. -/
def ShowsArgument
    (frame : Frame)
    (map : RegisterMap)
    (locations : List (Option ArgumentLocation))
    (types : List BasicType)
    (number : Nat)
    (address : Address) :
    Prop :=
  ∃ location, locations[Arguments.firstSlot types number]? = some (some location) ∧
    frame.ShowsAt map location address

theorem showsArgument_cons_succ
    {locations : List (Option ArgumentLocation)}
    {type : BasicType}
    {rest : List BasicType}
    {number : Nat}
    {address : Address} :
    frame.ShowsArgument map locations (type :: rest) (number + 1) address ↔
      frame.ShowsArgument map (locations.drop type.slots) rest number address := by
  simp [ShowsArgument]

/-- Each reference is shown, as none of them is in a floating point register. -/
theorem exists_showsArgument
    {types : List BasicType}
    {locations : List (Option ArgumentLocation)}
    {number : Nat}
    (places : CallingConvention.PlacesAll ⟨0, 0, 0⟩ types locations)
    (valued : .void ∉ types)
    (located : ∀ register, some (.register register) ∈ locations →
      (map.location? register).isSome)
    (isReference : number ∈ Arguments.references types) :
    ∃ slot, frame.ShowsArgument map locations types number slot := by
  obtain ⟨type, found, isReference⟩ := Arguments.mem_references.mp isReference
  obtain ⟨_, _, location, -, isAt⟩ := places.exists_firstSlot valued found
  cases location with
  | register register =>
      obtain ⟨address, isLocated⟩ :=
        Option.isSome_iff_exists.mp (located register (List.mem_of_getElem? isAt))
      exact ⟨address, _, isAt, .register isLocated⟩
  | float index =>
      have floating := (places.follows valued).kinds number type index found isAt
      cases (BasicType.isFloating_of_isReference isReference).symm.trans floating
  | stack slot => exact ⟨_, _, isAt, .stack slot⟩

/-- The scanner visits the address of each reference, if there is one. -/
theorem visitCompiledArguments_eq
    {locations : List (Option ArgumentLocation)}
    {index : Nat}
    {types : List BasicType}
    {slots : List Address}
    (shown : List.Forall₂ (frame.ShowsArgument map (locations.drop index) types)
      (Arguments.references types) slots) :
    frame.visitCompiledArguments map locations index types = Probe.visiting slots := by
  induction types generalizing index slots with
  | nil =>
      cases shown
      rfl
  | cons type rest inductionHypothesis =>
      have later {slots : List Address}
          (shown : List.Forall₂
            (frame.ShowsArgument map (locations.drop index) (type :: rest))
            ((Arguments.references rest).map (· + 1)) slots) :
          frame.visitCompiledArguments map locations (index + type.slots) rest =
            Probe.visiting slots := by
        rw [List.forall₂_map_left_iff] at shown
        refine inductionHypothesis (shown.imp fun number slot shows => ?_)
        rwa [showsArgument_cons_succ, List.drop_drop] at shows
      rw [Arguments.references_cons] at shown
      unfold visitCompiledArguments
      cases isReference : type.isReference with
      | false =>
          rw [isReference] at shown
          simpa using later shown
      | true =>
          rw [isReference] at shown
          obtain ⟨slot, others, ⟨location, placed, shows⟩, shownLater, rfl⟩ :=
            List.forall₂_cons_left_iff.mp shown
          have found : locations[index]? = some (some location) := by
            simpa using placed
          simp only [if_true, found, Option.join_some, shows.argumentSlot_eq, pure_bind,
            Probe.visit_eq_visiting, later shownLater]
          exact Probe.visiting_then [slot] others

/-- The arguments of a compiled call have locations, and are where these say. -/
structure FindsArguments
    (signature : Signature)
    (hasReceiver : Bool)
    (locations : List (Option ArgumentLocation)) :
    Prop where
  answers : CallingConvention.locations signature hasReceiver = .ok locations
  follows : CallingConvention.Follows (argumentTypes signature hasReceiver) locations
  /-- A scan visits one address for each reference, which is that of its location. -/
  visits : ∀ (frame : Frame) (map : RegisterMap),
    (∀ register, some (.register register) ∈ locations →
      (map.location? register).isSome) →
      ∃ slots, frame.visitCallArguments map signature hasReceiver = Probe.visiting slots ∧
        List.Forall₂
          (frame.ShowsArgument map locations (argumentTypes signature hasReceiver))
          (Arguments.references (argumentTypes signature hasReceiver)) slots

/--
The arguments of a call are where the convention says exactly if each of them has a
value and those without a register can be counted in 32 bits.
-/
theorem exists_findsArguments_iff
    (signature : Signature)
    (hasReceiver : Bool) :
    (∃ locations, FindsArguments signature hasReceiver locations) ↔
      .void ∉ signature.parameters ∧
        CallingConvention.spilled ⟨0, 0, 0⟩ (argumentTypes signature hasReceiver) <
          UInt32.size := by
  constructor
  · rintro ⟨locations, finds⟩
    have places := CallingConvention.locations_eq_ok.mp finds.answers
    exact ⟨void_not_mem_argumentTypes_iff.mp (places.valued finds.follows),
      CallingConvention.exists_placesAll_zero_iff.mp ⟨locations, places⟩⟩
  · rintro ⟨valued, counts⟩
    have allValued : .void ∉ argumentTypes signature hasReceiver :=
      void_not_mem_argumentTypes_iff.mpr valued
    obtain ⟨locations, places⟩ := CallingConvention.exists_placesAll_zero_iff.mpr counts
    have answers := CallingConvention.locations_eq_ok.mpr places
    have follows := places.follows allValued
    refine ⟨locations, answers, follows, fun frame map located => ?_⟩
    have shown : ∀ number ∈ Arguments.references (argumentTypes signature hasReceiver),
        ∃ slot, frame.ShowsArgument map locations
          (argumentTypes signature hasReceiver) number slot :=
      fun _ isReference => exists_showsArgument places allValued located isReference
    choose! slotOf shown using shown
    have all := List.forall₂_map_right_iff.mpr (List.forall₂_same.mpr shown)
    refine ⟨_, ?_, all⟩
    rw [visitCallArguments, answers, Probe.check_ok, pure_bind]
    exact visitCompiledArguments_eq all

end Frame

namespace Mixed

/-- Seven integral arguments and a floating one, two of eight taking a second slot. -/
def signature : Signature :=
  ⟨[.long, .object, .double, .int, .int, .array, .object], .void⟩

theorem parsed :
    Signature.parse "(JLjava/lang/Object;DII[JLjava/lang/Thread;)V" = .ok signature := by
  cbv

/-- A caller whose argument registers were saved below its frame. -/
def frame : Frame where
  sp := 0x7f00
  unextendedSp := 0x7f00
  fp := 0x7f40
  pc := 0x4010
  blob := none
  deoptState := .notDeoptimized

def map : RegisterMap :=
  Register.integerArguments.foldl
    (fun map register => map.record register (Word.offset 0x7e00 register.number))
    (.empty true)

theorem located : ∀ register ∈ Register.integerArguments,
    (map.location? register).isSome = true := by
  decide

def locations : List (Option ArgumentLocation) :=
  [some (.register ⟨6⟩), some (.register ⟨2⟩), none, some (.register ⟨1⟩), some (.float 0), none,
    some (.register ⟨8⟩), some (.register ⟨9⟩), some (.register ⟨7⟩), some (.stack 0)]

/-- The receiver, two further references in registers, and one on the stack. -/
theorem findsArguments_mixed :
    (.void ∉ signature.parameters ∧
        CallingConvention.spilled ⟨0, 0, 0⟩ (Frame.argumentTypes signature true) <
          UInt32.size) ∧
      Frame.FindsArguments signature true locations ∧
        frame.visitCallArguments map signature true =
          Probe.visiting [0x7e30, 0x7e08, 0x7e38, 0x7f00] ∧
        ∃ slots, frame.visitCallArguments map signature true = Probe.visiting slots ∧
          List.Forall₂
            (frame.ShowsArgument map locations (Frame.argumentTypes signature true))
            [0, 2, 6, 7] slots := by
  have condition : .void ∉ signature.parameters ∧
      CallingConvention.spilled ⟨0, 0, 0⟩ (Frame.argumentTypes signature true) <
        UInt32.size :=
    ⟨Signature.void_not_mem_of_parse parsed, by decide⟩
  obtain ⟨known, finds⟩ := (Frame.exists_findsArguments_iff signature true).mpr condition
  obtain rfl : locations = known := Except.ok.inj finds.answers
  have saved (register : Register)
      (used : some (.register register) ∈ locations) :
      (map.location? register).isSome = true :=
    located register (finds.follows.mem_integerArguments used)
  exact ⟨condition, finds, rfl, finds.visits frame map saved⟩

end Mixed

namespace Valueless

/-- All integers but the first six are passed on the stack. -/
theorem spilled_replicate (count : Nat) :
    CallingConvention.spilled ⟨0, 0, 0⟩ (List.replicate (6 + count) .int) = count := by
  have registers : Register.integerArguments.length = 6 := rfl
  simp [CallingConvention.spilled, CallingConvention.integral, CallingConvention.floating,
    List.countP_replicate, BasicType.isFloating, registers]

/--
A void parameter is passed in a register and takes no slot, so that the scan of a call
visits its location for that of the reference after it.  And a call that passes 2^32
arguments on the stack has no locations at all.
-/
theorem not_findsArguments :
    CallingConvention.locations signature false =
        .ok [some (.register ⟨6⟩), some (.register ⟨2⟩)] ∧
      Mixed.frame.visitCallArguments Mixed.map signature false =
        Probe.visiting [0x7e30] ∧
      Mixed.map.location? ⟨6⟩ = some 0x7e30 ∧ Mixed.map.location? ⟨2⟩ = some 0x7e10 ∧
      (¬ ∃ locations, Frame.FindsArguments signature false locations) ∧
      ¬ ∃ locations, Frame.FindsArguments
        ⟨List.replicate (6 + UInt32.size) .int, .void⟩ false locations := by
  refine ⟨rfl, rfl, rfl, rfl, ?_, ?_⟩
  · rintro ⟨locations, finds⟩
    obtain rfl := Except.ok.inj finds.answers
    exact absurd finds.follows.length (by decide)
  · rintro ⟨locations, finds⟩
    have places := CallingConvention.locations_eq_ok.mp finds.answers
    have counts := CallingConvention.exists_placesAll_zero_iff.mp ⟨locations, places⟩
    have counted := spilled_replicate UInt32.size
    exact absurd counts (Nat.not_lt_of_le (Nat.le_of_eq counted.symm))

end Valueless

end ManagedStack
