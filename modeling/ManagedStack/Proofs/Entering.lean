import ManagedStack.Proofs.Calls
import ManagedStack.Proofs.Placement

namespace ManagedStack

/-!
# The entry frame

Calling in from outside leaves a call wrapper with the handles, and below it an entry
frame that points at the wrapper, with the arguments below.  Nothing of this moves
while activations lie below it.
-/

open Operation

namespace EntryRecord

/-- The frame pointer of the entry frame. -/
def framePointer (entry : EntryRecord) : Address :=
  entry.wrapper.offset (-2)

/-- The entry frame and its call wrapper are on the stack. -/
structure Stands
    (stack : Stack)
    (entry : EntryRecord) :
    Prop where
  aligned : entry.wrapper.toNat % 8 = 0
  low : stack.limit.toNat + 64 ≤ entry.wrapper.toNat
  callWrapper :
    stack.Holds (entry.framePointer.offset (-6)) entry.wrapper
  anchorSp : stack.Holds (entry.wrapper.offset 1) entry.savedAnchor.sp
  anchorFp : stack.Holds (entry.wrapper.offset 2) entry.savedAnchor.fp
  anchorPc : stack.Holds (entry.wrapper.offset 3) entry.savedAnchor.pc
  handles : ∃ count : Nat,
    stack.Holds (entry.wrapper.offset 4) (UInt64.ofNat count) ∧
      entry.wrapper.toNat + 8 * (5 + count) ≤ stack.base.toNat ∧
      (entry.savedAnchor.isEmpty = false →
        entry.savedAnchor.sp.toNat = entry.wrapper.toNat + 8 * (5 + count))

/-- What an entry frame owns begins here; below it are the arguments. -/
def floor (entry : EntryRecord) : Nat :=
  entry.framePointer.toNat - 48

namespace Stands

variable {stack after : Stack} {entry : EntryRecord}

theorem toNat_framePointer (stands : entry.Stands stack) :
    entry.framePointer.toNat + 16 = entry.wrapper.toNat := by
  have low := stands.low
  have small := entry.wrapper.toNat_lt
  unfold framePointer
  rw [Word.toNat_offset_of_fits (by omega)
    (by omega : entry.wrapper.toNat - 16 < 0x10000000000000000)]
  omega

/-- The words of the wrapper lie above the entry frame. -/
theorem toNat_wrapper
    (stands : entry.Stands stack)
    {index : Nat}
    (inside : index < 5) :
    (entry.wrapper.offset index).toNat = entry.wrapper.toNat + 8 * index := by
  obtain ⟨count, -, above, -⟩ := stands.handles
  have small := stack.base.toNat_lt
  exact Word.toNat_offset_of_fits (by omega) (by omega)

/-- An entry frame stands as long as nothing at or above it changes. -/
theorem of_keeps
    (stands : entry.Stands stack)
    (keeps : Stack.Keeps (entry.floor ≤ ·) stack after) :
    entry.Stands after := by
  have frame := stands.toNat_framePointer
  have low := stands.low
  have slot : (entry.framePointer.offset (-6)).toNat =
      entry.framePointer.toNat - 48 := by
    have small := entry.framePointer.toNat_lt
    exact Word.toNat_offset_of_fits (by omega) (by omega)
  have kept (index : Nat) (inside : index < 5) :
      entry.floor ≤ (entry.wrapper.offset index).toNat := by
    rw [stands.toNat_wrapper inside]
    unfold floor
    omega
  obtain ⟨count, counted, above, below⟩ := stands.handles
  constructor
  case aligned => exact stands.aligned
  case low =>
    rw [keeps.limit]
    exact low
  case callWrapper =>
    exact keeps.holds stands.callWrapper (by rw [slot]; exact Nat.le_refl _)
  case anchorSp => exact keeps.holds stands.anchorSp (kept 1 (by omega))
  case anchorFp => exact keeps.holds stands.anchorFp (kept 2 (by omega))
  case anchorPc => exact keeps.holds stands.anchorPc (kept 3 (by omega))
  case handles =>
    refine ⟨count, keeps.holds counted (kept 4 (by omega)), ?_, below⟩
    rw [keeps.base]
    exact above

end Stands

end EntryRecord

namespace Session

/-- Arguments are written from the first downward, the last one to the top. -/
theorem writes_writeArguments
    (top : Address)
    (arguments : List Word) :
    Stack.Writes
      (fun place => ∃ index < arguments.length, place = top.offset index)
      (writeArguments top arguments) := by
  induction arguments with
  | nil => exact (Stack.Writes.ofPure ()).congr (by simp)
  | cons argument rest inductionHypothesis =>
      refine ((Stack.Writes.ofWrite _ argument).andThen fun _ =>
        inductionHypothesis).congr fun address => ?_
      constructor
      · rintro ⟨index, inside, rfl⟩
        by_cases first : index = rest.length
        · exact .inl (by rw [first])
        · exact .inr ⟨index, by simp at inside; omega, rfl⟩
      · rintro (rfl | ⟨index, inside, rfl⟩)
        · exact ⟨rest.length, by simp, rfl⟩
        · exact ⟨index, by simp; omega, rfl⟩

/-- The words of a call wrapper before its handles. -/
def record
    (wrapper : Address)
    (methodWord : Word)
    (anchor : FrameAnchor)
    (count : Nat) :
    List (Address × Word) :=
  [(wrapper.offset 0, methodWord), (wrapper.offset 1, anchor.sp),
    (wrapper.offset 2, anchor.fp), (wrapper.offset 3, anchor.pc),
    (wrapper.offset 4, UInt64.ofNat count)]

/-- The words of the entry frame below a wrapper. -/
def entryFields (wrapper : Address) : List (Address × Word) :=
  [(wrapper.offset (-2), 0), (wrapper.offset (-1), 0),
    (wrapper.offset (-8), wrapper)]

/-- The entry is written in four runs: record, handles, frame and arguments. -/
theorem writeEntry_eq
    (wrapper argumentTop : Address)
    (methodWord : Word)
    (anchor : FrameAnchor)
    (arguments handles : List Word) :
    writeEntry .x86_64 wrapper (wrapper.offset (-2)) argumentTop methodWord
        anchor arguments handles = (do
      Stack.writeEach (record wrapper methodWord anchor handles.length)
      Stack.writeAll (wrapper.offset 5) handles
      Stack.writeEach (entryFields wrapper)
      writeArguments argumentTop arguments) := by
  simp [writeEntry, CallWrapper.write, CallWrapper.slot, Stack.writeEach,
    record, entryFields, FrameLayout.x86_64, bind_assoc]

/-- A run that lays an entry frame out, with its arguments right below it. -/
structure LaysEntry
    (wrapper argumentTop : Address)
    (methodWord : Word)
    (anchor : FrameAnchor)
    (arguments handles : List Word)
    (before after : Stack) :
    Prop where
  belowFrame :
    argumentTop = wrapper.offset (-(8 + arguments.length : Nat))
  belowAnchor : anchor.isEmpty = false →
    wrapper = anchor.sp.offset (-(5 + handles.length : Nat))
  written :
    (writeEntry .x86_64 wrapper (wrapper.offset (-2)) argumentTop methodWord
      anchor arguments handles).Gives before () after

/-- The arguments of a start end as many words below the entry frame. -/
theorem argumentTop_of_start
    {wrapper argumentTop : Address}
    {fixed words : Word}
    {count : Nat}
    (isFixed : FrameLayout.x86_64.entryFixedWords = .ok fixed)
    (isWords : fixed.plus (UInt64.ofNat count) = .ok words)
    (isTop : (wrapper.offset (-2)).below words = .ok argumentTop) :
    argumentTop = wrapper.offset (-(8 + count : Nat)) := by
  have six : FrameLayout.x86_64.entryFixedWords = .ok 6 := rfl
  obtain rfl := Except.ok.inj (six.symm.trans isFixed)
  have total := (Word.plus_eq_ok.mp isWords).2
  rw [UInt64.toNat_ofNat'] at total
  have sixIs : (6 : Word).toNat = 6 := rfl
  rw [Word.below_eq_ok isTop, Word.offset_offset, Word.offset_eq_offset_iff]
  omega

section Entry

variable {wrapper argumentTop : Address} {methodWord : Word}
  {anchor : FrameAnchor} {arguments handles : List Word}
  {before after : Stack}

/-- A start lays its entry out below the anchor, if there is one. -/
theorem LaysEntry.of_start
    {base : Address}
    {fixed words : Word}
    {count : Nat}
    (isFixed : FrameLayout.x86_64.entryFixedWords = .ok fixed)
    (counted : arguments.length = count)
    (isWords : fixed.plus (UInt64.ofNat count) = .ok words)
    (isTop : (wrapper.offset (-2)).below words = .ok argumentTop)
    (wrapperIs : wrapper = (if anchor.isEmpty then base else anchor.sp).offset
      (-CallWrapper.sizeWords handles.length))
    (written : (writeEntry .x86_64 wrapper (wrapper.offset (-2)) argumentTop methodWord
      anchor arguments handles).Gives before () after) :
    LaysEntry wrapper argumentTop methodWord anchor arguments handles before after := by
  refine ⟨argumentTop_of_start isFixed (counted ▸ isWords) isTop, fun nonempty => ?_,
    written⟩
  rw [nonempty] at wrapperIs
  exact wrapperIs

/-- The four runs of writes that lay an entry out. -/
theorem LaysEntry.runs
    (laysEntry : LaysEntry wrapper argumentTop methodWord anchor arguments
      handles before after) :
    ∃ recorded filled framed,
      (Stack.writeEach (record wrapper methodWord anchor handles.length)).Gives
          before () recorded ∧
        (Stack.writeAll (wrapper.offset 5) handles).Gives recorded () filled ∧
        (Stack.writeEach (entryFields wrapper)).Gives filled () framed ∧
        (writeArguments argumentTop arguments).Gives framed () after := by
  have written := laysEntry.written
  rw [writeEntry_eq] at written
  simp only [gives_bind] at written
  obtain ⟨_, recorded, first, _, filled, refs, _, framed, frame, passed⟩ := written
  exact ⟨recorded, filled, framed, first, refs, frame, passed⟩

/-- The words of a record are those right from the wrapper upward. -/
theorem distance_of_record
    {count : Nat}
    {pair : Address × Word}
    (inside : pair ∈ record wrapper methodWord anchor count) :
    ∃ distance : Int, 0 ≤ distance ∧ distance ≤ 4 ∧
      pair.1 = wrapper.offset distance := by
  simp only [record, List.mem_cons, List.not_mem_nil, or_false] at inside
  obtain rfl | rfl | rfl | rfl | rfl := inside
  · exact ⟨0, by omega, by omega, rfl⟩
  · exact ⟨1, by omega, by omega, rfl⟩
  · exact ⟨2, by omega, by omega, rfl⟩
  · exact ⟨3, by omega, by omega, rfl⟩
  · exact ⟨4, by omega, by omega, rfl⟩

/-- No two words of a record are at one address. -/
theorem record_apart {count : Nat} :
    (record wrapper methodWord anchor count).Pairwise
      fun first second => first.1 ≠ second.1 := by
  simp only [record, List.pairwise_cons, List.mem_cons, forall_eq_or_imp,
    List.not_mem_nil, false_imp_iff, implies_true, List.Pairwise.nil,
    and_true]
  refine ⟨⟨?_, ?_, ?_, ?_⟩, ⟨?_, ?_, ?_⟩, ⟨?_, ?_⟩, ?_⟩
  all_goals exact Word.offset_ne_offset (by omega) (by omega) (by omega)

/-- The words of an entry frame lie below the wrapper. -/
theorem distance_of_entryFields
    {pair : Address × Word}
    (inside : pair ∈ entryFields wrapper) :
    ∃ distance : Int, (distance = -2 ∨ distance = -1 ∨ distance = -8) ∧
      pair.1 = wrapper.offset distance := by
  simp only [entryFields, List.mem_cons, List.not_mem_nil, or_false] at inside
  obtain rfl | rfl | rfl := inside
  · exact ⟨-2, by omega, rfl⟩
  · exact ⟨-1, by omega, rfl⟩
  · exact ⟨-8, by omega, rfl⟩

/-- No two words of an entry frame are at one address. -/
theorem entryFields_apart :
    (entryFields wrapper).Pairwise fun first second => first.1 ≠ second.1 := by
  simp only [entryFields, List.pairwise_cons, List.mem_cons, forall_eq_or_imp,
    List.not_mem_nil, false_imp_iff, implies_true, List.Pairwise.nil,
    and_true]
  refine ⟨⟨?_, ?_⟩, ?_⟩
  all_goals exact Word.offset_ne_offset (by omega) (by omega) (by omega)

/--
The words around the wrapper, and those from the frame's lowest down.  The words of
the entry frame that are not written part the two ranges.
-/
theorem covers_of_entry
    (laysEntry : LaysEntry wrapper argumentTop methodWord anchor arguments
      handles before after) :
    (∀ words : Int, -2 ≤ words → words ≤ 4 + handles.length →
        before.Covers (wrapper.offset words)) ∧
      ∀ words : Int, -(8 + arguments.length : Nat) ≤ words → words ≤ -8 →
        before.Covers (wrapper.offset words) := by
  obtain ⟨_, _, _, first, refs, frame, passed⟩ := laysEntry.runs
  obtain ⟨recordCovers, recordKeeps⟩ := Stack.writes_writeEach _ _ _ _ first
  obtain ⟨refCovers, refKeeps⟩ := Stack.writes_writeAll _ _ _ _ _ refs
  obtain ⟨frameCovers, frameKeeps⟩ := Stack.writes_writeEach _ _ _ _ frame
  obtain ⟨passedCovers, -⟩ := writes_writeArguments _ _ _ _ _ passed
  have inRecord (words : Int) (above : 0 ≤ words) (below : words ≤ 4) :
      before.Covers (wrapper.offset words) := by
    obtain rfl | rfl | rfl | rfl | rfl : words = 0 ∨ words = 1 ∨ words = 2 ∨
        words = 3 ∨ words = 4 := by
      omega
    all_goals exact recordCovers _ (by simp [record])
  have inRefs (words : Int) (above : 5 ≤ words)
      (below : words ≤ 4 + handles.length) :
      before.Covers (wrapper.offset words) := by
    refine recordKeeps.covers_iff.mp (refCovers _
      ⟨(words - 5).toNat, by omega, ?_⟩)
    rw [Word.offset_offset]
    congr 1
    omega
  have inFrame (words : Int)
      (inside : words = -2 ∨ words = -1 ∨ words = -8) :
      before.Covers (wrapper.offset words) := by
    refine recordKeeps.covers_iff.mp (refKeeps.covers_iff.mp ?_)
    obtain rfl | rfl | rfl := inside
    all_goals exact frameCovers _ (by simp [entryFields])
  have inArguments (words : Int)
      (above : -(8 + arguments.length : Nat) ≤ words) (below : words < -8) :
      before.Covers (wrapper.offset words) := by
    refine recordKeeps.covers_iff.mp (refKeeps.covers_iff.mp
      (frameKeeps.covers_iff.mp (passedCovers _
        ⟨(words + (8 + arguments.length : Nat)).toNat, by omega, ?_⟩)))
    rw [laysEntry.belowFrame, Word.offset_offset]
    congr 1
    omega
  refine ⟨fun words above below => ?_, fun words above below => ?_⟩
  · by_cases negative : words < 0
    · exact inFrame words (by omega)
    · by_cases small : words ≤ 4
      · exact inRecord words (by omega) small
      · exact inRefs words (by omega) below
  · by_cases lowest : words = -8
    · exact inFrame words (by omega)
    · exact inArguments words above (by omega)

/-- The moves to those words are exact. -/
theorem toNat_offset_of_entry
    (laysEntry : LaysEntry wrapper argumentTop methodWord anchor arguments
      handles before after)
    (words : Int)
    (inside : -2 ≤ words ∧ words ≤ 4 + handles.length ∨
      -(8 + arguments.length : Nat) ≤ words ∧ words ≤ -8) :
    ((wrapper.offset words).toNat : Int) = wrapper.toNat + 8 * words := by
  obtain ⟨around, low⟩ := covers_of_entry laysEntry
  rcases inside with ⟨above, below⟩ | ⟨above, below⟩
  · exact Stack.toNat_offset_of_covers around (by omega) (by omega) above below
  · have wrapperCovers := around 0 (by omega) (by omega)
    rw [Word.offset_zero] at wrapperCovers
    have lowest := wrapperCovers.toNat_offset
      (low (-8) (by omega) (Int.le_refl _)) (by omega) (by omega)
    have lowCovers (words : Int) (above : -(arguments.length : Int) ≤ words)
        (below : words ≤ 0) :
        before.Covers ((wrapper.offset (-8)).offset words) := by
      rw [Word.offset_offset]
      exact low _ (by omega) (by omega)
    have further := Stack.toNat_offset_of_covers lowCovers (by omega)
      (Int.le_refl _) (by omega : -(arguments.length : Int) ≤ words + 8)
      (by omega)
    rw [Word.offset_offset] at further
    have same : -8 + (words + 8) = words := by omega
    rw [same] at further
    omega

/-- Once the record and the handles are written, nothing from the wrapper up is. -/
theorem keeps_record_of_entry
    (laysEntry : LaysEntry wrapper argumentTop methodWord anchor arguments
      handles before after) :
    ∃ recorded filled,
      (Stack.writeEach (record wrapper methodWord anchor handles.length)).Gives
          before () recorded ∧
        (Stack.writeAll (wrapper.offset 5) handles).Gives recorded () filled ∧
        Stack.Keeps (wrapper.toNat ≤ ·) filled after := by
  obtain ⟨recorded, filled, _, first, refs, frame, passed⟩ := laysEntry.runs
  have frameKeeps := (Stack.writes_writeEach _ _ _ _ frame).2
  have passedKeeps := (writes_writeArguments _ _ _ _ _ passed).2
  refine ⟨recorded, filled, first, refs,
    (frameKeeps.mono ?_).trans (passedKeeps.mono ?_)⟩
  · rintro place above _ ⟨field, isField, rfl⟩ same
    obtain ⟨other, isOther, otherPlace⟩ := distance_of_entryFields isField
    rw [otherPlace] at same
    have there := toNat_offset_of_entry laysEntry other (by omega)
    omega
  · rintro place above _ ⟨index, inside, rfl⟩ same
    rw [laysEntry.belowFrame, Word.offset_offset] at same
    have there := toNat_offset_of_entry laysEntry
      (-(8 + arguments.length : Nat) + (index : Int)) (by omega)
    omega

/-- The words of the record, and the handles above them, are held. -/
theorem holds_record_of_entry
    (laysEntry : LaysEntry wrapper argumentTop methodWord anchor arguments
      handles before after) :
    (∀ pair ∈ record wrapper methodWord anchor handles.length,
        after.Holds pair.1 pair.2) ∧
      ∀ (index : Nat) handle, handles[index]? = some handle →
        after.Holds (wrapper.offset (5 + index)) handle := by
  obtain ⟨recorded, filled, first, refs, keeps⟩ := keeps_record_of_entry laysEntry
  refine ⟨fun pair inside => ?_, fun index handle found => ?_⟩
  · obtain ⟨-, refKeeps⟩ := Stack.writes_writeAll _ _ _ _ _ refs
    obtain ⟨distance, above, below, isPlace⟩ := distance_of_record inside
    have here := toNat_offset_of_entry laysEntry distance (by omega)
    have holds := Stack.holds_of_gives_writeEach record_apart first pair inside
    rw [isPlace] at holds ⊢
    refine keeps.holds (refKeeps.holds holds ?_) (by omega)
    rintro _ ⟨ref, refInside, rfl⟩ same
    rw [Word.offset_offset] at same
    have there := toNat_offset_of_entry laysEntry (5 + (ref : Int)) (by omega)
    omega
  · have holds := Stack.holds_of_gives_writeAll refs index handle found
    have inside := (List.getElem?_eq_some_iff.mp found).1
    have here := toNat_offset_of_entry laysEntry (5 + (index : Int)) (by omega)
    rw [Word.offset_offset] at holds
    exact keeps.holds holds (by omega)

/-- The words of the record and the address of the wrapper are held. -/
theorem holds_of_entry
    (laysEntry : LaysEntry wrapper argumentTop methodWord anchor arguments
      handles before after) :
    (∀ pair ∈ record wrapper methodWord anchor handles.length,
        after.Holds pair.1 pair.2) ∧
      after.Holds (wrapper.offset (-8)) wrapper := by
  refine ⟨(holds_record_of_entry laysEntry).1, ?_⟩
  obtain ⟨_, _, _, -, -, frame, passed⟩ := laysEntry.runs
  obtain ⟨-, passedKeeps⟩ := writes_writeArguments _ _ _ _ _ passed
  refine passedKeeps.holds (Stack.holds_of_gives_writeEach entryFields_apart frame
    (wrapper.offset (-8), wrapper) (by simp [entryFields])) ?_
  have lowest := toNat_offset_of_entry laysEntry (-8) (by omega)
  rintro _ ⟨index, inside, rfl⟩ same
  have there := toNat_offset_of_entry laysEntry
    (-(8 + arguments.length : Nat) + (index : Int)) (by omega)
  rw [laysEntry.belowFrame, Word.offset_offset] at same
  omega

/-- The stack keeps its extent. -/
theorem extent_of_entry
    (laysEntry : LaysEntry wrapper argumentTop methodWord anchor arguments
      handles before after) :
    Stack.Keeps (fun _ => False) before after := by
  obtain ⟨_, _, _, first, refs, frame, passed⟩ := laysEntry.runs
  have none {kept : Nat → Prop} (place : Nat) : False → kept place :=
    False.elim
  have recordKeeps := (Stack.writes_writeEach _ _ _ _ first).2
  have refKeeps := (Stack.writes_writeAll _ _ _ _ _ refs).2
  have frameKeeps := (Stack.writes_writeEach _ _ _ _ frame).2
  have passedKeeps := (writes_writeArguments _ _ _ _ _ passed).2
  exact (recordKeeps.mono none).trans ((refKeeps.mono none).trans
    ((frameKeeps.mono none).trans (passedKeeps.mono none)))

/-- Nothing is written beyond the last handle or below the last argument. -/
theorem keepsOutside_of_entry
    (laysEntry : LaysEntry wrapper argumentTop methodWord anchor arguments
      handles before after) :
    Stack.Keeps (fun place => wrapper.toNat + 8 * (5 + handles.length) ≤ place ∨
      place < argumentTop.toNat) before after := by
  have lowest := toNat_offset_of_entry laysEntry
    (-(8 + arguments.length : Nat)) (by omega)
  rw [← laysEntry.belowFrame] at lowest
  obtain ⟨_, _, _, first, refs, frame, passed⟩ := laysEntry.runs
  have recordKeeps := (Stack.writes_writeEach _ _ _ _ first).2
  have refKeeps := (Stack.writes_writeAll _ _ _ _ _ refs).2
  have frameKeeps := (Stack.writes_writeEach _ _ _ _ frame).2
  have passedKeeps := (writes_writeArguments _ _ _ _ _ passed).2
  refine (recordKeeps.mono ?_).trans ((refKeeps.mono ?_).trans
    ((frameKeeps.mono ?_).trans (passedKeeps.mono ?_)))
  · rintro place outside _ ⟨pair, inside, rfl⟩ same
    obtain ⟨distance, low, high, isPlace⟩ := distance_of_record inside
    have here := toNat_offset_of_entry laysEntry distance (by omega)
    rw [isPlace] at same
    omega
  · rintro place outside _ ⟨ref, refInside, rfl⟩ same
    have here := toNat_offset_of_entry laysEntry (5 + (ref : Int)) (by omega)
    rw [Word.offset_offset] at same
    omega
  · rintro place outside _ ⟨field, isField, rfl⟩ same
    obtain ⟨distance, isDistance, isPlace⟩ := distance_of_entryFields isField
    have here := toNat_offset_of_entry laysEntry distance (by omega)
    rw [isPlace] at same
    omega
  · rintro place outside _ ⟨index, inside, rfl⟩ same
    have here := toNat_offset_of_entry laysEntry
      (-(8 + arguments.length : Nat) + (index : Int)) (by omega)
    rw [laysEntry.belowFrame, Word.offset_offset] at same
    omega

/-- Nothing is written beyond the last handle. -/
theorem keeps_of_entry
    (laysEntry : LaysEntry wrapper argumentTop methodWord anchor arguments
      handles before after) :
    Stack.Keeps (wrapper.toNat + 8 * (5 + handles.length) ≤ ·) before after :=
  (keepsOutside_of_entry laysEntry).mono fun _ => .inl

/-- An entry that is laid out stands, with its arguments right below it. -/
theorem stands_of_entry
    (laysEntry : LaysEntry wrapper argumentTop methodWord anchor arguments
      handles before after) :
    EntryRecord.Stands after ⟨wrapper, anchor⟩ ∧
      after.Covers argumentTop ∧
      argumentTop.toNat + 8 * arguments.length =
        EntryRecord.floor ⟨wrapper, anchor⟩ := by
  obtain ⟨around, low⟩ := covers_of_entry laysEntry
  have place := toNat_offset_of_entry laysEntry
  obtain ⟨recordHolds, frameHolds⟩ := holds_of_entry laysEntry
  have extent := extent_of_entry laysEntry
  have wrapperCovers := around 0 (by omega) (by omega)
  have framePlace := place (-2) (by omega)
  have lowestPlace := place (-8) (by omega)
  have highestPlace := place (4 + handles.length) (by omega)
  have argumentPlace := place (-(8 + arguments.length : Nat)) (by omega)
  obtain ⟨-, lowestAbove, -⟩ := low (-8) (by omega) (Int.le_refl _)
  obtain ⟨highestAligned, -, highestBelow⟩ :=
    around (4 + handles.length) (by omega) (Int.le_refl _)
  have baseAligned := before.base_aligned
  have baseSmall := before.base_le
  rw [Word.offset_zero] at wrapperCovers
  refine ⟨?_, ?_, ?_⟩
  · constructor
    case aligned => exact wrapperCovers.1
    case low =>
      rw [extent.limit]
      dsimp only
      omega
    case callWrapper =>
      simpa [EntryRecord.framePointer] using frameHolds
    case anchorSp =>
      exact recordHolds (wrapper.offset 1, anchor.sp) (by simp [record])
    case anchorFp =>
      exact recordHolds (wrapper.offset 2, anchor.fp) (by simp [record])
    case anchorPc =>
      exact recordHolds (wrapper.offset 3, anchor.pc) (by simp [record])
    case handles =>
      refine ⟨handles.length, ?_, ?_, fun nonempty => ?_⟩
      · exact recordHolds (wrapper.offset 4, UInt64.ofNat handles.length)
          (by simp [record])
      · rw [extent.base]
        dsimp only
        omega
      · have moved := Word.toNat_offset anchor.sp (-(5 + handles.length : Nat))
        rw [← laysEntry.belowAnchor nonempty] at moved
        have anchorSmall := anchor.sp.toNat_lt
        dsimp only
        omega
  · rw [laysEntry.belowFrame]
    exact extent.covers_iff.mpr (low _ (Int.le_refl _) (by omega))
  · rw [laysEntry.belowFrame]
    simp only [EntryRecord.floor, EntryRecord.framePointer]
    omega

end Entry

end Session

end ManagedStack
