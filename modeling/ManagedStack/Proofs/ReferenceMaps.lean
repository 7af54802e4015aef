import ManagedStack.Code.OopMap

namespace ManagedStack

/-!
# What reference maps tell

A map of references is made of recordings, in any order and with repetitions.  It tells
which registers and slots were recorded, each once and in ascending order, and keeps the
saved registers as they came.  A set of maps is made of maps in any order; for an offset
it has the first of the maps that were given for it.
-/

namespace OopMap

/-- Positions are listed in ascending order, and none twice. -/
theorem pairwise_setBits (mask : BitVec 64) : (setBits mask).Pairwise (· < ·) := by
  fun_induction setBits mask with
  | case1 => exact .nil
  | case2 mask nonzero inductionHypothesis =>
      refine .cons (fun position listed => ?_) inductionHypothesis
      rw [mem_setBits, getLsbD_clearLowest nonzero, Bool.and_eq_true, bne_iff_ne] at listed
      refine Nat.lt_of_le_of_ne (Nat.le_of_not_lt fun below => ?_) listed.2.symm
      simp [BitVec.getLsbD_false_of_lt_ctz below] at listed

/-- Listing the set bits is looking at all positions in turn. -/
theorem setBits_eq_filter (mask : BitVec 64) :
    setBits mask = (List.range 64).filter mask.getLsbD := by
  have ascending : ((List.range 64).filter mask.getLsbD).Pairwise (· < ·) :=
    List.pairwise_lt_range.filter _
  have sameMembers (position : Nat) :
      position ∈ setBits mask ↔ position ∈ (List.range 64).filter mask.getLsbD := by
    rw [mem_setBits, List.mem_filter, List.mem_range]
    exact ⟨fun isSet => ⟨BitVec.lt_of_getLsbD isSet, isSet⟩, And.right⟩
  have perm : (setBits mask).Perm ((List.range 64).filter mask.getLsbD) :=
    (List.perm_ext_iff_of_nodup ((pairwise_setBits mask).imp Nat.ne_of_lt)
      (ascending.imp Nat.ne_of_lt)).mpr sameMembers
  exact perm.eq_of_pairwise (fun _ _ _ _ below above => absurd below (Nat.lt_asymm above))
    (pairwise_setBits mask) ascending

/-- Counting the bits of a mask is counting the positions where one is set. -/
theorem cpopNatRec_eq_length
    (mask : BitVec width)
    (count : Nat) :
    mask.cpopNatRec count 0 = ((List.range count).filter mask.getLsbD).length := by
  induction count with
  | zero => rfl
  | succ count inductionHypothesis =>
      rw [BitVec.cpopNatRec_succ, BitVec.cpopNatRec_eq, inductionHypothesis,
        List.range_succ, List.filter_append, List.length_append]
      cases isSet : mask.getLsbD count <;> simp [isSet]

/-- As many positions are listed as bits are counted. -/
theorem length_setBits (mask : BitVec 64) : (setBits mask).length = mask.cpop.toNat := by
  rw [setBits_eq_filter, BitVec.toNat_cpop, cpopNatRec_eq_length]

variable {map after : OopMap}

theorem mem_oopRegisters {register : Register} :
    register ∈ map.oopRegisters ↔ map.registerBits.getLsbD register.number = true := by
  have widened (number : Nat) : (map.registerBits.setWidth 64).getLsbD number =
      map.registerBits.getLsbD number := by
    rw [BitVec.getLsbD_setWidth]
    by_cases inRange : number < 64
    · simp [inRange]
    · simp [BitVec.getLsbD_of_ge map.registerBits number (by omega)]
  simp only [oopRegisters, List.mem_map, mem_setBits, widened]
  exact ⟨fun ⟨number, isSet, same⟩ => same ▸ isSet, fun isSet => ⟨_, isSet, rfl⟩⟩

theorem mem_oopSlots {slot : Nat} :
    slot ∈ map.oopSlots ↔ map.slotBits.getLsbD slot = true :=
  mem_setBits

theorem getLsbD_or_twoPow
    {mask : BitVec width}
    {bit position : Nat}
    (inRange : bit < width) :
    (mask ||| BitVec.twoPow width bit).getLsbD position = true ↔
      mask.getLsbD position = true ∨ position = bit := by
  rw [BitVec.getLsbD_or, BitVec.getLsbD_twoPow, Bool.or_eq_true, decide_eq_true inRange,
    Bool.true_and, decide_eq_true_iff, eq_comm (a := bit)]

/-- Setting a bit adds the register that it stands for. -/
theorem mem_oopRegisters_or
    {register other : Register}
    (inRange : register.number < 16) :
    other ∈ oopRegisters { map with
        registerBits := map.registerBits ||| BitVec.twoPow 16 register.number } ↔
      other ∈ map.oopRegisters ∨ other = register := by
  have same_iff : other.number = register.number ↔ other = register := by
    cases other
    cases register
    simp
  rw [mem_oopRegisters, mem_oopRegisters, getLsbD_or_twoPow inRange, same_iff]

/-- Setting a bit adds the slot that it stands for. -/
theorem mem_oopSlots_or
    {slot other : Nat}
    (inRange : slot < 64) :
    other ∈ oopSlots { map with slotBits := map.slotBits ||| BitVec.twoPow 64 slot } ↔
      other ∈ map.oopSlots ∨ other = slot := by
  rw [mem_oopSlots, mem_oopSlots, getLsbD_or_twoPow inRange]

/-- The two counts of bits are the numbers of registers and slots. -/
theorem oopCount_eq (map : OopMap) :
    map.oopCount = map.oopRegisters.length + map.oopSlots.length := by
  rw [oopCount, oopRegisters, oopSlots, List.length_map, length_setBits, length_setBits,
    BitVec.toNat_cpop_setWidth_eq_of_le (by decide)]

end OopMap

namespace OopMapSet

variable {maps : List OopMap} {pcOffset : UInt32}

/-- An offset that no map has is not found. -/
theorem find?_eq_none_of_ne
    (differ : ∀ map ∈ maps, map.pcOffset ≠ pcOffset) :
    maps.find? (·.pcOffset == pcOffset) = none :=
  List.find?_eq_none.mpr fun map inside found => differ map inside (beq_iff_eq.mp found)

/-- The middle one of ascending maps tells which of them can have an offset. -/
theorem find?_halves
    {lower upper : List OopMap}
    {middle : OopMap}
    (ascending : (lower ++ middle :: upper).Pairwise (·.pcOffset < ·.pcOffset)) :
    (lower ++ middle :: upper).find? (·.pcOffset == pcOffset) =
      if middle.pcOffset = pcOffset then
        some middle
      else if pcOffset < middle.pcOffset then
        lower.find? (·.pcOffset == pcOffset)
      else
        upper.find? (·.pcOffset == pcOffset) := by
  obtain ⟨-, upperAscends, across⟩ := List.pairwise_append.mp ascending
  have notInLower (le : middle.pcOffset ≤ pcOffset) :
      lower.find? (·.pcOffset == pcOffset) = none :=
    find?_eq_none_of_ne fun map inside => UInt32.ne_of_lt
      (UInt32.lt_of_lt_of_le (across map inside middle (by simp)) le)
  have notInUpper (below : pcOffset < middle.pcOffset) :
      upper.find? (·.pcOffset == pcOffset) = none :=
    find?_eq_none_of_ne fun map inside => (UInt32.ne_of_lt
      (UInt32.lt_trans below ((List.pairwise_cons.mp upperAscends).1 map inside))).symm
  rw [List.find?_append]
  by_cases isMiddle : middle.pcOffset = pcOffset
  · simp [isMiddle, notInLower (UInt32.le_of_eq isMiddle)]
  · by_cases below : pcOffset < middle.pcOffset
    · simp [isMiddle, below, notInUpper below]
    · simp [isMiddle, below, notInLower (UInt32.not_lt.mp below)]

/--
Halving ascending maps finds the one for an offset, if there is one.  Each round
halves the maps, and the ascending offsets tell which half holds the key.
-/
theorem search?_eq_find?
    {rounds : Nat}
    (enough : maps.length ≤ rounds)
    (ascending : maps.Pairwise (·.pcOffset < ·.pcOffset)) :
    search? pcOffset rounds maps = maps.find? (·.pcOffset == pcOffset) := by
  induction rounds generalizing maps with
  | zero =>
      obtain rfl := List.eq_nil_of_length_eq_zero (Nat.le_zero.mp enough)
      rfl
  | succ rounds inductionHypothesis =>
      have whole := List.take_append_drop (maps.length / 2) maps
      rw [search?, List.splitAt_eq]
      generalize lowerIs : maps.take (maps.length / 2) = lower at whole ⊢
      cases upperIs : maps.drop (maps.length / 2) with
      | nil =>
          have nothing : maps = [] := by
            have := congrArg List.length upperIs
            simp only [List.length_drop, List.length_nil] at this
            exact List.eq_nil_of_length_eq_zero (by omega)
          rw [nothing]
          rfl
      | cons middle upper =>
          rw [upperIs] at whole
          have lengths := congrArg List.length whole
          simp only [List.length_append, List.length_cons] at lengths
          rw [← whole] at ascending ⊢
          obtain ⟨lowerAscends, upperAscends, -⟩ := List.pairwise_append.mp ascending
          simp only [find?_halves ascending,
            inductionHypothesis (by omega) lowerAscends,
            inductionHypothesis (by omega) upperAscends.of_cons]

/-- Dropping repeated maps takes maps away and leaves the others in order. -/
theorem dropRepeated_sublist (maps : List OopMap) : (dropRepeated maps).Sublist maps := by
  fun_induction dropRepeated maps with
  | case1 => exact .slnil
  | case2 map => exact .refl _
  | case3 first second rest same inductionHypothesis =>
      exact inductionHypothesis.trans ((List.sublist_cons_self second rest).cons_cons first)
  | case4 first second rest differs inductionHypothesis =>
      exact inductionHypothesis.cons_cons first

/-- Ordered maps have distinct offsets when repeated ones are dropped. -/
theorem pairwise_dropRepeated
    (ordered : maps.Pairwise (·.pcOffset ≤ ·.pcOffset)) :
    (dropRepeated maps).Pairwise (·.pcOffset < ·.pcOffset) := by
  fun_induction dropRepeated maps with
  | case1 => exact .nil
  | case2 map => exact List.pairwise_singleton _ _
  | case3 first second rest same inductionHypothesis =>
      exact inductionHypothesis
        (ordered.sublist ((List.sublist_cons_self second rest).cons_cons first))
  | case4 first second rest differs inductionHypothesis =>
      obtain ⟨firstLe, others⟩ := List.pairwise_cons.mp ordered
      have firstBelow : first.pcOffset < second.pcOffset :=
        UInt32.lt_of_le_of_ne (firstLe second (by simp)) (Ne.symm differs)
      refine .cons (fun map kept => ?_) (inductionHypothesis others)
      rcases List.mem_cons.mp ((dropRepeated_sublist _).subset kept) with rfl | later
      · exact firstBelow
      · exact UInt32.lt_of_lt_of_le firstBelow ((List.pairwise_cons.mp others).1 map later)

/-- Dropping repeated maps leaves the first one for an offset. -/
theorem find?_dropRepeated :
    (dropRepeated maps).find? (·.pcOffset == pcOffset) =
      maps.find? (·.pcOffset == pcOffset) := by
  fun_induction dropRepeated maps with
  | case1 => rfl
  | case2 map => rfl
  | case3 first second rest same inductionHypothesis =>
      rw [inductionHypothesis, List.find?_cons, List.find?_cons, List.find?_cons, same]
      cases first.pcOffset == pcOffset <;> rfl
  | case4 first second rest differs inductionHypothesis =>
      simp only [List.find?_cons, inductionHypothesis]

section Sorting

/-!
Maps are sorted by their offsets, which is a total preorder of maps.
-/

theorem offset_le_trans
    (first second third : OopMap)
    (le : decide (first.pcOffset ≤ second.pcOffset) = true)
    (leNext : decide (second.pcOffset ≤ third.pcOffset) = true) :
    decide (first.pcOffset ≤ third.pcOffset) = true :=
  decide_eq_true (UInt32.le_trans (of_decide_eq_true le) (of_decide_eq_true leNext))

theorem offset_le_total (first second : OopMap) :
    (decide (first.pcOffset ≤ second.pcOffset) ||
      decide (second.pcOffset ≤ first.pcOffset)) = true := by
  simpa using UInt32.le_total first.pcOffset second.pcOffset

theorem pairwise_mergeSort (maps : List OopMap) :
    (maps.mergeSort fun left right => left.pcOffset ≤ right.pcOffset).Pairwise
      (·.pcOffset ≤ ·.pcOffset) :=
  (List.pairwise_mergeSort offset_le_trans offset_le_total maps).imp of_decide_eq_true

/-- Sorting keeps the order of the maps for one offset. -/
theorem filter_mergeSort :
    (maps.mergeSort fun left right => left.pcOffset ≤ right.pcOffset).filter
        (·.pcOffset == pcOffset) =
      maps.filter (·.pcOffset == pcOffset) := by
  have alike : (maps.filter (·.pcOffset == pcOffset)).Pairwise
      fun left right => decide (left.pcOffset ≤ right.pcOffset) = true := by
    refine List.pairwise_of_forall_mem_list fun left inLeft right inRight => ?_
    rw [beq_iff_eq.mp (List.mem_filter.mp inLeft).2,
      beq_iff_eq.mp (List.mem_filter.mp inRight).2]
    exact decide_eq_true (UInt32.le_refl _)
  have kept := (List.sublist_mergeSort offset_le_trans offset_le_total alike
    List.filter_sublist).filter (·.pcOffset == pcOffset)
  rw [List.filter_filter] at kept
  simp only [Bool.and_self] at kept
  exact (kept.eq_of_length ((List.mergeSort_perm maps _).filter _).length_eq.symm).symm

end Sorting

/-- A set of maps has, for each offset, the first of the maps given for it. -/
theorem find?_ofList :
    (ofList maps).find? pcOffset = maps.find? (·.pcOffset == pcOffset) := by
  calc
    (ofList maps).find? pcOffset =
        (ofList maps).maps.find? (·.pcOffset == pcOffset) :=
      search?_eq_find? (Nat.le_refl _) (pairwise_dropRepeated (pairwise_mergeSort maps))
    _ = (maps.mergeSort fun left right => left.pcOffset ≤ right.pcOffset).find?
        (·.pcOffset == pcOffset) := find?_dropRepeated
    _ = maps.find? (·.pcOffset == pcOffset) := by
      rw [← List.head?_filter, filter_mergeSort, List.head?_filter]

end OopMapSet

/-- One thing that is recorded in a map. -/
inductive Recording where
  | oopRegister (register : Register)
  | oopSlot (slot : Nat)
  | calleeSaved (register : Register) (slot : UInt32)
  deriving Repr, DecidableEq

namespace Recording

/-- Maps have a bit for what is recorded, if it takes one. -/
def Fits : Recording → Prop
  | .oopRegister register => register.number < 16
  | .oopSlot slot => slot < 64
  | .calleeSaved _ _ => True

/-- The saved register, if one is recorded. -/
def calleeSaved? : Recording → Option (Register × UInt32)
  | .calleeSaved register slot => some (register, slot)
  | _ => none

end Recording

namespace OopMap

variable {map after : OopMap} {pcOffset : UInt32} {recording : Recording}
  {recordings : List Recording}

/-- Record one thing. -/
def record (map : OopMap) : Recording → Except Abort OopMap
  | .oopRegister register => map.withRegister register
  | .oopSlot slot => map.withSlot slot
  | .calleeSaved register slot => .ok (map.withCalleeSaved register slot)

/-- The map for a return address with recordings that were made one after the other. -/
def ofRecordings
    (pcOffset : UInt32)
    (recordings : List Recording) :
    Except Abort OopMap :=
  recordings.foldlM record { pcOffset }

/-- A map holds exactly these recordings. -/
structure Holds
    (map : OopMap)
    (pcOffset : UInt32)
    (recordings : List Recording) : Prop where
  pcOffset : map.pcOffset = pcOffset
  registers : ∀ register, register ∈ map.oopRegisters ↔ .oopRegister register ∈ recordings
  slots : ∀ slot, slot ∈ map.oopSlots ↔ .oopSlot slot ∈ recordings
  calleeSaved : map.calleeSaved = recordings.filterMap Recording.calleeSaved?

theorem holds_nil (pcOffset : UInt32) : Holds { pcOffset } pcOffset [] where
  pcOffset := rfl
  registers := by simp [mem_oopRegisters]
  slots := by simp [mem_oopSlots]
  calleeSaved := rfl

/-- A recording that fits is made and added to those before. -/
theorem Holds.record
    (holds : map.Holds pcOffset recordings)
    (fits : recording.Fits) :
    ∃ after, map.record recording = .ok after ∧
      after.Holds pcOffset (recordings ++ [recording]) := by
  cases recording with
  | oopRegister register =>
      have inRange : register.number < 16 := fits
      refine ⟨_, if_pos inRange, holds.pcOffset, fun other => ?_,
        fun slot => (holds.slots slot).trans (by simp),
        holds.calleeSaved.trans (by simp [Recording.calleeSaved?])⟩
      rw [mem_oopRegisters_or inRange, holds.registers other]
      simp
  | oopSlot slot =>
      have inRange : slot < 64 := fits
      have made : map.withSlot slot = .ok { map with
          slotBits := map.slotBits ||| BitVec.twoPow 64 slot } := by
        simp [withSlot, require, inRange, bind, Except.bind, pure, Except.pure]
      refine ⟨_, made, holds.pcOffset, fun register => (holds.registers register).trans (by simp),
        fun other => ?_, holds.calleeSaved.trans (by simp [Recording.calleeSaved?])⟩
      rw [mem_oopSlots_or inRange, holds.slots other]
      simp
  | calleeSaved register slot =>
      refine ⟨_, rfl, holds.pcOffset, fun other => (holds.registers other).trans (by simp),
        fun other => (holds.slots other).trans (by simp), ?_⟩
      simp [withCalleeSaved, Recording.calleeSaved?, holds.calleeSaved]

/-- Recordings that fit are made and added to those before. -/
theorem Holds.recordAll
    (holds : map.Holds pcOffset recordings)
    {further : List Recording}
    (fit : ∀ recording ∈ further, recording.Fits) :
    ∃ after, further.foldlM OopMap.record map = .ok after ∧
      after.Holds pcOffset (recordings ++ further) := by
  induction further generalizing map recordings with
  | nil => exact ⟨map, rfl, by simpa using holds⟩
  | cons recording rest inductionHypothesis =>
      obtain ⟨next, made, nextHolds⟩ := holds.record (fit recording (by simp))
      obtain ⟨after, others, afterHolds⟩ :=
        inductionHypothesis nextHolds fun other listed => fit other (by simp [listed])
      refine ⟨after, ?_, by simpa using afterHolds⟩
      rw [List.foldlM_cons, made]
      exact others

/-- A map tells each thing that was recorded, and nothing else. -/
structure Tells
    (map : OopMap)
    (pcOffset : UInt32)
    (recordings : List Recording) : Prop extends map.Holds pcOffset recordings where
  registersAscend : map.oopRegisters.Pairwise (·.number < ·.number)
  slotsAscend : map.oopSlots.Pairwise (· < ·)
  count : map.oopCount = map.oopRegisters.length + map.oopSlots.length

theorem Holds.tells (holds : map.Holds pcOffset recordings) : map.Tells pcOffset recordings where
  toHolds := holds
  registersAscend := List.pairwise_map.mpr (pairwise_setBits _)
  slotsAscend := pairwise_setBits _
  count := map.oopCount_eq

/--
Recordings that fit give a map, and it tells them; of maps in any order, a set has the
first one for each offset.
-/
theorem tellsRecorded
    (pcOffset : UInt32)
    (recordings : List Recording)
    (fit : ∀ recording ∈ recordings, recording.Fits)
    (maps : List OopMap) :
    (∃ map, ofRecordings pcOffset recordings = .ok map ∧ map.Tells pcOffset recordings) ∧
      ∀ offset, (OopMapSet.ofList maps).find? offset =
        maps.find? (·.pcOffset == offset) := by
  refine ⟨?_, fun offset => OopMapSet.find?_ofList⟩
  obtain ⟨map, made, holds⟩ := (holds_nil pcOffset).recordAll fit
  exact ⟨map, made, holds.tells⟩

end OopMap

namespace Shuffled

/-- Recordings out of order, some of which are made twice. -/
def recordings : List Recording :=
  [.oopSlot 63, .oopRegister ⟨12⟩, .calleeSaved ⟨3⟩ 2, .oopSlot 5, .oopRegister ⟨3⟩,
    .oopSlot 63, .calleeSaved ⟨3⟩ 1, .oopRegister ⟨12⟩, .oopSlot 0]

/-- Maps out of order, two of which are for one offset. -/
def maps : List OopMap :=
  [{ pcOffset := 0x30, slotBits := 1 }, { pcOffset := 0x10 },
    { pcOffset := 0x30, slotBits := 2 }, { pcOffset := 0x20 }]

theorem fit : ∀ recording ∈ recordings, recording.Fits := by
  simp [recordings, Recording.Fits]

theorem tellsRecorded_shuffled :
    (∀ recording ∈ recordings, recording.Fits) ∧
      ((∃ map, OopMap.ofRecordings 0x10 recordings = .ok map ∧ map.Tells 0x10 recordings) ∧
        ∀ offset, (OopMapSet.ofList maps).find? offset =
          maps.find? (·.pcOffset == offset)) :=
  ⟨fit, OopMap.tellsRecorded 0x10 recordings fit maps⟩

/-- What is recorded twice is told once; two registers and three slots are counted. -/
example :
    (OopMap.ofRecordings 0x10 recordings).map
        (fun map => (map.oopRegisters, map.oopSlots, map.oopCount)) =
      .ok ([⟨3⟩, ⟨12⟩], [0, 5, 63], 5) := by
  cbv

end Shuffled

end ManagedStack
