import Mathlib.Algebra.GroupWithZero.Nat
import ManagedStack.Proofs.Capacity
import ManagedStack.Proofs.Taking

namespace ManagedStack

/-!
# What an activation contains

Seen from an engine, an activation is a record: a list of entries that has a greatest
length, as many locals as its method needs, and a list of monitors that only grows.  The
registers and the words of the stack *represent* such a record.  Whatever is done to the
activation answers, or fails, as the record does, and leaves a stack that represents what
the record has become; no word of anything else on the stack changes.

One error depends on where the activation lies.  An entry that is one too many is refused
for that reason, unless the lowest place of the activation is address zero: then the place
below it is at the other end of all addresses, and the stack has no such word.
-/

open Operation

/-- The two words of a monitor. -/
structure Monitor where
  lock : Word
  owner : Word
  deriving Repr, DecidableEq

/-- One of the words of a monitor. -/
inductive MonitorPart where
  | lock
  | owner
  deriving Repr, DecidableEq

namespace MonitorPart

/-- Where the word of a monitor is. -/
def address : MonitorPart → Address → Address
  | .lock, monitor => monitor
  | .owner, monitor => Frame.monitorOwner monitor

/-- How many bytes above the monitor that is. -/
def bytes : MonitorPart → Nat
  | .lock => 0
  | .owner => 8

/-- The word itself. -/
def word : MonitorPart → Monitor → Word
  | .lock, monitor => monitor.lock
  | .owner, monitor => monitor.owner

/-- The monitor with another word. -/
def put : MonitorPart → Word → Monitor → Monitor
  | .lock, word, monitor => { monitor with lock := word }
  | .owner, word, monitor => { monitor with owner := word }

variable {part other : MonitorPart} {word : Word} {monitor : Monitor}

theorem word_put_same : part.word (part.put word monitor) = word := by
  cases part <;> rfl

theorem word_put_of_ne (different : other ≠ part) :
    other.word (part.put word monitor) = other.word monitor := by
  cases part <;> cases other <;> first | rfl | exact absurd rfl different

/-- The second word of a monitor is the last one. -/
theorem bytes_le : part.bytes ≤ 8 := by
  cases part <;> decide

/-- The words of a monitor are not in one place. -/
theorem bytes_ne (different : other ≠ part) : other.bytes ≠ part.bytes := by
  cases part <;> cases other <;> first | decide | exact absurd rfl different

end MonitorPart

/-- What is done to an activation. -/
inductive Access where
  | push (word : Word)
  | pop
  | peek (depth : Nat)
  | readLocal (index : Nat)
  | writeLocal (index : Nat) (word : Word)
  /-- Store a word of a monitor, counted from the highest, if there is that monitor. -/
  | storeMonitor (index : Nat) (part : MonitorPart) (word : Word)
  | growMonitors
  deriving Repr, DecidableEq

namespace Access

/-- Words by which an access moves the lowest place of the activation down. -/
def growth : Access → Nat
  | .growMonitors => 2
  | _ => 0

end Access

namespace Workspace

/-- Store a word of a monitor, and answer where the monitor is. -/
def storeMonitor
    (index : Nat)
    (part : MonitorPart)
    (word : Word) :
    Operation Workspace ProtocolError (Option Address) := do
  let activation ← current
  let found ← Operation.check (activation.monitorAt? index)
  match found with
  | some monitor => writeWord (part.address monitor) word
  | none => pure ()
  return found

/-- What an access does, with the word or the address that it answers. -/
def perform : Access → Operation Workspace ProtocolError (Option Word)
  | .push word => do
      push word
      return none
  | .pop => do
      let word ← pop
      return some word
  | .peek depth => do
      let word ← peek depth
      return some word
  | .readLocal index => do
      let word ← readLocal index
      return some word
  | .writeLocal index word => do
      writeLocal index word
      return none
  | .storeMonitor index part word => storeMonitor index part word
  | .growMonitors => do
      let monitor ← growMonitors
      return some monitor

end Workspace

/-- The record that an activation is. -/
structure Contents where
  method : Word
  /-- How many entries there may be. -/
  capacity : Nat
  /-- The entries, the top one first. -/
  entries : List Word
  locals : List Word
  /-- One past the highest monitor. -/
  monitorBase : Address
  /-- The monitors, the highest first. -/
  monitors : List Monitor
  deriving Repr, DecidableEq

namespace Contents

/-- The record of an activation that has just been laid out. -/
def fresh
    (callee : Method)
    (arguments : List Word)
    (monitorBase : Address) :
    Contents where
  method := callee.id
  capacity := callee.maxStack.toNat
  entries := []
  locals := arguments ++ List.replicate (callee.maxLocals - callee.parameterSlots) 0
  monitorBase := monitorBase
  monitors := []

/-- Where a monitor is. -/
def monitorAt
    (contents : Contents)
    (index : Nat) :
    Address :=
  contents.monitorBase.offset (-(2 * (index + 1) : Nat))

/-- The lowest place that an entry may have. -/
def lowest (contents : Contents) : Address :=
  contents.monitorBase.offset (-(2 * contents.monitors.length + contents.capacity : Nat))

/-- The error that is declared for an entry too many. -/
def overflow (contents : Contents) : ProtocolError :=
  .expressionStackOverflow contents.method

/-- The error with which it is refused. -/
def refusal (contents : Contents) : ProtocolError :=
  if contents.lowest = 0 then
    .frame (.access (.outOfBounds (contents.lowest.offset (-1))))
  else
    contents.overflow

/-- What an access answers and makes of the record; if it fails the record is as it was. -/
def step
    (full : Contents → ProtocolError)
    (contents : Contents) :
    Access → Except ProtocolError (Option Word × Contents)
  | .push word =>
      if contents.entries.length = contents.capacity then
        .error (full contents)
      else
        .ok (none, { contents with entries := word :: contents.entries })
  | .pop =>
      match contents.entries with
      | [] => .error (.expressionStackUnderflow contents.method)
      | top :: rest => .ok (some top, { contents with entries := rest })
  | .peek depth =>
      match contents.entries[depth]? with
      | none => .error (.expressionStackUnderflow contents.method)
      | some word => .ok (some word, contents)
  | .readLocal index =>
      match contents.locals[index]? with
      | none => .error (.localOutOfRange contents.method index)
      | some word => .ok (some word, contents)
  | .writeLocal index word =>
      if index < contents.locals.length then
        .ok (none, { contents with locals := contents.locals.set index word })
      else
        .error (.localOutOfRange contents.method index)
  | .storeMonitor index part word =>
      if index < contents.monitors.length then
        .ok (some (contents.monitorAt index),
          { contents with monitors := contents.monitors.modify index (part.put word) })
      else
        .ok (none, contents)
  | .growMonitors =>
      .ok (some (contents.monitorAt contents.monitors.length),
        { contents with monitors := contents.monitors ++ [⟨0, 0⟩] })

/-- An access changes no more of the extent of a record than it grows. -/
theorem extent_of_step
    {full : Contents → ProtocolError}
    {access : Access}
    {contents next : Contents}
    {answer : Option Word}
    (stepped : contents.step full access = .ok (answer, next)) :
    next.capacity = contents.capacity ∧ next.monitorBase = contents.monitorBase ∧
      2 * next.monitors.length = 2 * contents.monitors.length + access.growth := by
  cases access <;> simp only [step] at stepped
  case growMonitors =>
    cases stepped
    refine ⟨rfl, rfl, ?_⟩
    rw [List.length_append]
    exact Nat.mul_add ..
  all_goals
    split at stepped <;> cases stepped <;> simp [Access.growth]

/-- What fails does not grow. -/
theorem growth_of_step_error
    {full : Contents → ProtocolError}
    {access : Access}
    {contents : Contents}
    {cause : ProtocolError}
    (stepped : contents.step full access = .error cause) :
    access.growth = 0 := by
  cases access
  case growMonitors => exact nomatch stepped
  all_goals rfl

/-- The registers and the stack of an activation represent a record. -/
structure Represents
    (workspace : Workspace)
    (contents : Contents) :
    Prop where
  sits : workspace.activation.Sits workspace.stack
  room : workspace.activation.HasRoom (8 * contents.capacity)
  low : workspace.stack.limit.toNat ≤ workspace.activation.stackLimit.toNat
  method : workspace.activation.method = contents.method
  entries : workspace.activation.HoldsEntries workspace.stack contents.entries
  localCount : workspace.activation.maxLocals = contents.locals.length
  locals : ∀ index word, contents.locals[index]? = some word →
    workspace.activation.HoldsLocal workspace.stack index word
  monitorBase : workspace.activation.monitorBase = contents.monitorBase
  monitorEnd : workspace.activation.monitorEnd.toNat + 16 * contents.monitors.length =
    contents.monitorBase.toNat
  monitors : ∀ index monitor, contents.monitors[index]? = some monitor →
    ∀ part : MonitorPart,
      workspace.stack.Holds (part.address (contents.monitorAt index)) (part.word monitor)

end Contents

/-- The words of the locals, of the monitors, and of all entries that there may be. -/
def Activation.Owns
    (activation : Activation)
    (place : Nat) :
    Prop :=
  activation.stackLimit.toNat ≤ place ∧ place < activation.monitorBase.toNat ∨
    activation.fp.toNat + 16 ≤ place ∧ place < activation.ceiling

/-- They are the same words in the same seat. -/
theorem Workspace.SameSeat.owns_eq
    {before after : Activation}
    (seat : Workspace.SameSeat before after) :
    after.Owns = before.Owns := by
  funext place
  unfold Activation.Owns Activation.ceiling
  rw [seat.stackLimit, seat.monitorBase, seat.fp, seat.maxLocals]

namespace Workspace

/-- An access answers as the record does, or fails as it does and changes nothing. -/
def Follows
    (full : Contents → ProtocolError)
    (access : Access)
    (contents : Contents)
    (before : Workspace)
    (goesOn : Contents → Workspace → Prop) :
    Prop :=
  match contents.step full access with
  | .ok (answer, next) => ∃ after, (perform access).Gives before answer after ∧
      Stack.Keeps (fun place => ¬after.activation.Owns place) before.stack after.stack ∧
      next.Represents after ∧ goesOn next after
  | .error cause => (perform access).Raises before cause before ∧ goesOn contents before

/-- Accesses one after the other follow what the record becomes. -/
def FollowsAll (full : Contents → ProtocolError) : List Access → Contents → Workspace → Prop
  | [], _, _ => True
  | access :: rest, contents, before => Follows full access contents before (FollowsAll full rest)

end Workspace

namespace Contents.Represents

variable {contents : Contents} {before : Workspace} {kept : Nat → Prop}

/-- Entries lie between the top and the monitors. -/
theorem toNat_top (represents : contents.Represents before) :
    before.activation.stackTop.toNat + 8 * contents.entries.length =
      before.activation.monitorEnd.toNat :=
  (represents.sits.holdsEntries_iff.mp represents.entries).1

/-- The depth of the expression stack is how many entries there are. -/
theorem exists_stackDepth (represents : contents.Represents before) :
    ∃ depth, before.activation.stackDepth = .ok depth ∧
      depth.toNat = contents.entries.length := by
  obtain ⟨depth, counted, place⟩ := represents.sits.stackDepth_eq
  have top := represents.toNat_top
  exact ⟨depth, counted, by omega⟩

/-- The lowest place of the record is the limit of the entries. -/
theorem lowest_eq (represents : contents.Represents before) :
    contents.lowest = before.activation.stackLimit := by
  have extent := represents.room.extent
  have block := represents.monitorEnd
  exact (Word.eq_offset (by omega)).symm

/-- Where a monitor is. -/
theorem toNat_monitorAt
    {index : Nat}
    (represents : contents.Represents before)
    (inside : index < contents.monitors.length) :
    (contents.monitorAt index).toNat + 16 * (index + 1) = contents.monitorBase.toNat := by
  have block := represents.monitorEnd
  have small := contents.monitorBase.toNat_lt
  have place : (contents.monitorAt index).toNat =
      contents.monitorBase.toNat - 16 * (index + 1) :=
    Word.toNat_offset_of_fits (by omega) (by omega)
  omega

/-- Where a word of it is. -/
theorem toNat_part
    {index : Nat}
    (represents : contents.Represents before)
    (inside : index < contents.monitors.length)
    (part : MonitorPart) :
    (part.address (contents.monitorAt index)).toNat =
      (contents.monitorAt index).toNat + part.bytes := by
  have place := represents.toNat_monitorAt inside
  have small := contents.monitorBase.toNat_lt
  cases part with
  | lock => exact (Nat.add_zero _).symm
  | owner =>
      change _ = _ + 8
      exact Word.toNat_offset_of_fits (by omega) (by omega)

/-- The monitors are found by their numbers. -/
theorem monitorAt?_eq
    (represents : contents.Represents before)
    (index : Nat) :
    before.activation.monitorAt? index =
      .ok (if index < contents.monitors.length then
        some (contents.monitorAt index)
      else
        none) := by
  obtain ⟨count, counted, place⟩ := represents.sits.monitorCount_eq
  have block := represents.monitorEnd
  rw [represents.monitorBase] at place
  have same : count.toNat = contents.monitors.length := by omega
  rw [represents.sits.monitorAt?_eq counted, represents.monitorBase, same]
  rfl

/-- Monitors are as they were where their words are. -/
theorem monitors_of_keeps
    {after : Stack}
    (represents : contents.Represents before)
    (keeps : Stack.Keeps kept before.stack after)
    (inside : ∀ place : Nat, before.activation.monitorEnd.toNat ≤ place →
      place < before.activation.monitorBase.toNat → kept place) :
    ∀ index monitor, contents.monitors[index]? = some monitor →
      ∀ part : MonitorPart,
        after.Holds (part.address (contents.monitorAt index)) (part.word monitor) := by
  intro index monitor found part
  have isMonitor := (List.getElem?_eq_some_iff.mp found).1
  have place := represents.toNat_monitorAt isMonitor
  have partPlace := represents.toNat_part isMonitor part
  have few := part.bytes_le
  have block := represents.monitorEnd
  rw [represents.monitorBase] at inside
  exact keeps.holds (represents.monitors index monitor found part)
    (inside _ (by omega) (by omega))

/-- Locals are as they were where their words are. -/
theorem locals_of_keeps
    {after : Workspace}
    (represents : contents.Represents before)
    (keeps : Stack.Keeps kept before.stack after.stack)
    (sameLocals : after.activation.locals = before.activation.locals)
    (sameCount : after.activation.maxLocals = before.activation.maxLocals)
    (inside : ∀ place : Nat, before.activation.fp.toNat + 16 ≤ place →
      place < before.activation.ceiling → kept place) :
    ∀ index word, contents.locals[index]? = some word →
      after.activation.HoldsLocal after.stack index word := by
  intro index word found
  obtain ⟨isLocal, holds⟩ := Workspace.holdsLocal_iff.mp (represents.locals index word found)
  have place := represents.sits.toNat_local isLocal
  refine Workspace.holdsLocal_iff.mpr ⟨sameCount ▸ isLocal, ?_⟩
  rw [sameLocals]
  refine keeps.holds holds (inside _ ?_ ?_) <;>
  · unfold Activation.ceiling at *
    omega

/-- In one seat the entries change, and the words of the locals and of the monitors. -/
theorem of_seat
    {after : Workspace}
    {entries locals : List Word}
    {monitors : List Monitor}
    (represents : contents.Represents before)
    (seat : Workspace.SameSeat before.activation after.activation)
    (sits : after.activation.Sits after.stack)
    (inRoom : after.activation.InRoom)
    (keeps : Stack.Keeps kept before.stack after.stack)
    (holdsEntries : after.activation.HoldsEntries after.stack entries)
    (localCount : locals.length = contents.locals.length)
    (holdsLocals : ∀ index word, locals[index]? = some word →
      after.activation.HoldsLocal after.stack index word)
    (monitorCount : monitors.length = contents.monitors.length)
    (holdsMonitors : ∀ index monitor, monitors[index]? = some monitor →
      ∀ part : MonitorPart,
        after.stack.Holds (part.address (contents.monitorAt index)) (part.word monitor)) :
    { contents with
      entries := entries
      locals := locals
      monitors := monitors }.Represents after where
  sits := sits
  room := by
    refine ⟨?_, inRoom⟩
    rw [seat.stackLimit, seat.monitorEnd]
    exact represents.room.extent
  low := by
    rw [keeps.limit, seat.stackLimit]
    exact represents.low
  method := seat.method.trans represents.method
  entries := holdsEntries
  localCount := seat.maxLocals.trans (represents.localCount.trans localCount.symm)
  locals := holdsLocals
  monitorBase := seat.monitorBase.trans represents.monitorBase
  monitorEnd := by
    rw [seat.monitorEnd, monitorCount]
    exact represents.monitorEnd
  monitors := holdsMonitors

end Contents.Represents

namespace Workspace

variable {full : Contents → ProtocolError} {contents next : Contents} {access : Access}
  {before after : Workspace} {goesOn : Contents → Workspace → Prop} {address : Address}
  {word : Word} {index : Nat}

theorem Follows.of_ok
    {answer : Option Word}
    (stepped : contents.step full access = .ok (answer, next))
    (gives : (perform access).Gives before answer after)
    (keeps : Stack.Keeps (fun place => ¬after.activation.Owns place) before.stack after.stack)
    (represents : next.Represents after)
    (continues : goesOn next after) :
    Follows full access contents before goesOn := by
  unfold Follows
  rw [stepped]
  exact ⟨after, gives, keeps, represents, continues⟩

theorem Follows.of_error
    {cause : ProtocolError}
    (stepped : contents.step full access = .error cause)
    (raises : (perform access).Raises before cause before)
    (continues : goesOn contents before) :
    Follows full access contents before goesOn := by
  unfold Follows
  rw [stepped]
  exact ⟨raises, continues⟩

/-- A word is not written where the stack has none. -/
theorem raises_writeWord
    {cause : AccessError}
    (nowhere : before.stack.index? address = .error cause) :
    (writeWord address word).Raises before (.frame (.access cause)) before := by
  have refused : Stack.write address word before.stack =
      (⟨.error (.error (.access cause)), Stack.accessNotes cause⟩, before.stack) := by
    unfold Stack.write
    rw [nowhere]
  unfold Raises writeWord onStack Operation.onPart Operation.mapError
  dsimp only
  rw [refused]
  exact ⟨rfl, rfl⟩

/--
Where the entries reach down to the limit, a push is refused.  The place below address
zero has wrapped around, and is not on the stack.
-/
theorem raises_push_of_full
    (sits : before.activation.Sits before.stack)
    (full : before.activation.stackTop = before.activation.stackLimit) :
    (push word).Raises before
      (if before.activation.stackLimit = 0 then
        .frame (.access (.outOfBounds (before.activation.stackLimit.offset (-1))))
      else
        .expressionStackOverflow before.activation.method) before := by
  have aligned := sits.topAligned
  have place := Word.toNat_offset before.activation.stackLimit (-1)
  have small := before.activation.stackLimit.toNat_lt
  rw [full] at aligned
  refine raises_bind.mpr (.inr ⟨_, before, gives_current.mpr ⟨rfl, rfl⟩, ?_⟩)
  rw [full]
  by_cases bottom : before.activation.stackLimit = 0
  · rw [if_pos bottom, if_neg (by rw [bottom]; decide)]
    have zero : before.activation.stackLimit.toNat = 0 := by rw [bottom]; rfl
    have baseLe := before.stack.base_le
    have isAligned : (before.activation.stackLimit.offset (-1)).isAligned = true := by
      rw [bottom]
      decide
    refine raises_bind.mpr (.inl (raises_writeWord ?_))
    have above : before.stack.base ≤ before.activation.stackLimit.offset (-1) :=
      UInt64.le_iff_toNat_le.mpr (by omega)
    unfold Stack.index?
    simp [isAligned, above]
  · have positive : before.activation.stackLimit.toNat ≠ 0 :=
      fun zero => bottom (UInt64.toNat_inj.mp zero)
    rw [if_neg bottom, if_pos (UInt64.lt_iff_toNat_lt.mpr (by omega))]
    exact raises_fail.mpr ⟨rfl, rfl⟩

/-- One entry too many is refused. -/
theorem raises_perform_push_of_full
    (represents : contents.Represents before)
    (full : contents.entries.length = contents.capacity)
    (word : Word) :
    (perform (.push word)).Raises before contents.refusal before := by
  have top := represents.toNat_top
  have extent := represents.room.extent
  have atLimit : before.activation.stackTop = before.activation.stackLimit :=
    UInt64.toNat_inj.mp (by omega)
  unfold Contents.refusal Contents.overflow
  rw [represents.lowest_eq, ← represents.method]
  exact raises_bind.mpr (.inl (raises_push_of_full represents.sits atLimit))

/-- A push follows the record. -/
theorem follows_push (represents : contents.Represents before) :
    Follows Contents.refusal (.push word) contents before fun _ _ => True := by
  by_cases full : contents.entries.length = contents.capacity
  · exact .of_error (if_pos full) (raises_perform_push_of_full represents full word) trivial
  have sits := represents.sits
  have top := represents.toNat_top
  have extent := represents.room.extent
  have inside : before.activation.stackLimit.toNat ≤ before.activation.stackTop.toNat :=
    represents.room.inside
  have aligned := sits.topAligned
  have place := Word.toNat_offset before.activation.stackTop (-1)
  have topSmall := before.activation.stackTop.toNat_lt
  have low := represents.low
  have inStack := sits.covers_top.2.2
  have covers : before.stack.Covers (before.activation.stackTop.offset (-1)) := by
    refine ⟨?_, ?_, ?_⟩ <;> omega
  obtain ⟨after, pushes⟩ : ∃ after, (push word).Gives before () after :=
    ⟨_, gives_push.mpr ⟨by rw [UInt64.lt_iff_toNat_lt]; omega, covers, rfl⟩⟩
  have worked := (worked_push word).of_gives pushes
  obtain ⟨entries, keeps⟩ := holdsEntries_of_gives_push sits represents.entries pushes
  have fpPlace := sits.monitorBase
  have endLe := sits.monitorEndLe
  refine .of_ok (if_neg full) (gives_bind.mpr ⟨(), after, pushes, gives_pure.mpr ⟨rfl, rfl⟩⟩)
    ?_ ?_ trivial
  · obtain ⟨-, -, isAfter⟩ := gives_push.mp pushes
    have stackIs : after.stack =
        before.stack.put (before.activation.stackTop.offset (-1)) word := by
      rw [isAfter]
    rw [worked.seat.owns_eq, stackIs]
    exact .put _ _ fun foreign => foreign (.inl ⟨by omega, by omega⟩)
  · exact represents.of_seat worked.seat (worked.sits sits)
      (worked.inRoom sits represents.room.inside) keeps entries rfl
      (represents.locals_of_keeps keeps worked.seat.locals worked.seat.maxLocals
        fun place above below => by omega)
      rfl (represents.monitors_of_keeps keeps fun place above below => by omega)

theorem gives_pop :
    pop.Gives before word after ↔
      ∃ depth, before.activation.stackDepth = .ok depth ∧ depth ≠ 0 ∧
        before.stack.Holds before.activation.stackTop word ∧
          after = { before with
            activation := { before.activation with
              stackTop := before.activation.stackTop.offset 1 } } := by
  unfold pop readWord
  simp only [gives_bind, gives_current, gives_check, gives_ite, gives_fail, gives_onStack,
    gives_inspect, gives_updateActivation, gives_pure, Stack.gives_read, and_assoc,
    exists_and_left, exists_eq_left, exists_const, and_false, false_or]
  grind

/-- Where there is no entry, none is popped. -/
theorem raises_pop (counted : before.activation.stackDepth = .ok 0) :
    pop.Raises before (.expressionStackUnderflow before.activation.method) before :=
  raises_bind.mpr (.inr ⟨_, before, gives_current.mpr ⟨rfl, rfl⟩, raises_bind.mpr
    (.inr ⟨0, before, gives_check.mpr ⟨counted, rfl⟩, raises_fail.mpr ⟨rfl, rfl⟩⟩)⟩)

/-- Below the entries there is nothing to look at. -/
theorem raises_peek
    {depth : Word}
    {below : Nat}
    (counted : before.activation.stackDepth = .ok depth)
    (few : depth.toNat ≤ below) :
    (peek below).Raises before (.expressionStackUnderflow before.activation.method) before := by
  refine raises_bind.mpr (.inr ⟨_, before, gives_current.mpr ⟨rfl, rfl⟩, raises_bind.mpr
    (.inr ⟨depth, before, gives_check.mpr ⟨counted, rfl⟩, ?_⟩)⟩)
  rw [if_pos few]
  exact raises_fail.mpr ⟨rfl, rfl⟩

/-- A pop follows the record. -/
theorem follows_pop (represents : contents.Represents before) :
    Follows Contents.refusal .pop contents before fun _ _ => True := by
  have sits := represents.sits
  obtain ⟨depth, counted, length⟩ := represents.exists_stackDepth
  obtain ⟨top, words⟩ := sits.holdsEntries_iff.mp represents.entries
  cases entriesAre : contents.entries with
  | nil =>
      have none : depth = 0 := UInt64.toNat_inj.mp (by rw [length, entriesAre]; rfl)
      have stepped : contents.step Contents.refusal .pop =
          .error (.expressionStackUnderflow contents.method) := by
        simp only [Contents.step, entriesAre]
      refine .of_error stepped ?_ trivial
      rw [none] at counted
      rw [← represents.method]
      exact raises_bind.mpr (.inl (raises_pop counted))
  | cons first rest =>
      rw [entriesAre] at top words length
      have stepped : contents.step Contents.refusal .pop =
          .ok (some first, { contents with entries := rest }) := by
        simp only [Contents.step, entriesAre]
      have nonempty : depth ≠ 0 := fun none => by simp [none] at length
      have held := words 0 first rfl
      rw [Int.natCast_zero, Word.offset_zero] at held
      obtain ⟨after, pops⟩ : ∃ after, pop.Gives before first after :=
        ⟨_, gives_pop.mpr ⟨depth, counted, nonempty, held, rfl⟩⟩
      have worked := worked_pop.of_gives pops
      obtain ⟨-, -, -, -, isAfter⟩ := gives_pop.mp pops
      have topIs : after.activation.stackTop = before.activation.stackTop.offset 1 := by
        rw [isAfter]
      have stackIs : after.stack = before.stack := by rw [isAfter]
      have keeps : Stack.Keeps (fun _ => True) before.stack after.stack := stackIs ▸ .refl _
      have small := before.activation.monitorEnd.toNat_lt
      rw [List.length_cons] at top
      have place : after.activation.stackTop.toNat = before.activation.stackTop.toNat + 8 := by
        rw [topIs]
        exact Word.toNat_offset_of_fits (by omega) (by omega)
      refine .of_ok stepped (gives_bind.mpr ⟨first, after, pops, gives_pure.mpr ⟨rfl, rfl⟩⟩)
        (keeps.mono fun _ _ => trivial) ?_ trivial
      refine represents.of_seat worked.seat (worked.sits sits)
        (worked.inRoom sits represents.room.inside) keeps ?_ rfl
        (represents.locals_of_keeps keeps worked.seat.locals worked.seat.maxLocals
          fun _ _ _ => trivial)
        rfl (represents.monitors_of_keeps keeps fun _ _ _ => trivial)
      refine (worked.sits sits).holdsEntries_iff.mpr ⟨?_, fun index word found => ?_⟩
      · rw [worked.seat.monitorEnd]
        omega
      · have next := words (index + 1) word found
        rw [topIs, stackIs, Word.offset_offset]
        rwa [Int.natCast_add, Int.natCast_one, Int.add_comm] at next

/-- What only looks follows the record as it is. -/
theorem follows_of_looks
    {answer : Option Word}
    (represents : contents.Represents before)
    (stepped : contents.step Contents.refusal access = .ok (answer, contents))
    (gives : (perform access).Gives before answer before) :
    Follows Contents.refusal access contents before fun _ _ => True :=
  .of_ok stepped gives (.refl _) represents trivial

/-- A peek follows the record. -/
theorem follows_peek
    (represents : contents.Represents before)
    (below : Nat) :
    Follows Contents.refusal (.peek below) contents before fun _ _ => True := by
  obtain ⟨depth, counted, length⟩ := represents.exists_stackDepth
  obtain ⟨-, words⟩ := represents.sits.holdsEntries_iff.mp represents.entries
  cases found : contents.entries[below]? with
  | none =>
      have few := List.getElem?_eq_none_iff.mp found
      have stepped : contents.step Contents.refusal (.peek below) =
          .error (.expressionStackUnderflow contents.method) := by
        simp only [Contents.step, found]
      refine .of_error stepped ?_ trivial
      rw [← represents.method]
      exact raises_bind.mpr (.inl (raises_peek counted (by omega)))
  | some word =>
      have inside := (List.getElem?_eq_some_iff.mp found).1
      refine follows_of_looks represents (by simp only [Contents.step, found])
        (gives_bind.mpr ⟨word, before, gives_peek.mpr ⟨depth, counted, by omega,
          words below word found, rfl⟩, gives_pure.mpr ⟨rfl, rfl⟩⟩)

/-- There is no place for a local that the activation does not have. -/
theorem raises_localSlot (outside : ¬index < before.activation.maxLocals) :
    (localSlot index).Raises before (.localOutOfRange before.activation.method index)
      before := by
  refine raises_bind.mpr (.inr ⟨_, before, gives_current.mpr ⟨rfl, rfl⟩, ?_⟩)
  unfold Activation.localSlot
  rw [if_neg outside]
  exact raises_fail.mpr ⟨rfl, rfl⟩

/-- Reading a local follows the record. -/
theorem follows_readLocal
    (represents : contents.Represents before)
    (index : Nat) :
    Follows Contents.refusal (.readLocal index) contents before fun _ _ => True := by
  have count := represents.localCount
  cases found : contents.locals[index]? with
  | none =>
      have few := List.getElem?_eq_none_iff.mp found
      have stepped : contents.step Contents.refusal (.readLocal index) =
          .error (.localOutOfRange contents.method index) := by
        simp only [Contents.step, found]
      refine .of_error stepped ?_ trivial
      rw [← represents.method]
      exact raises_bind.mpr (.inl (raises_bind.mpr (.inl (raises_localSlot (by omega)))))
  | some word =>
      exact follows_of_looks represents (by simp only [Contents.step, found])
        (gives_bind.mpr ⟨word, before, represents.locals index word found,
          gives_pure.mpr ⟨rfl, rfl⟩⟩)

/-- Writing a local follows the record. -/
theorem follows_writeLocal
    (represents : contents.Represents before)
    (index : Nat) :
    Follows Contents.refusal (.writeLocal index word) contents before fun _ _ => True := by
  have sits := represents.sits
  have count := represents.localCount
  by_cases inside : index < contents.locals.length
  · have isLocal : index < before.activation.maxLocals := by omega
    have place := sits.toNat_local isLocal
    obtain ⟨after, writes⟩ : ∃ after, (writeLocal index word).Gives before () after :=
      ⟨_, gives_writeLocal.mpr ⟨isLocal, sits.covers_local isLocal, rfl⟩⟩
    have worked := (worked_writeLocal index word).of_gives writes
    obtain ⟨-, covers, isAfter⟩ := gives_writeLocal.mp writes
    have sameActivation : after.activation = before.activation := by rw [isAfter]
    have stackIs : after.stack =
        before.stack.put (before.activation.locals.offset (-index)) word := by
      rw [isAfter]
    have keeps : Stack.Keeps (· ≠ (before.activation.locals.offset (-index)).toNat)
        before.stack after.stack := by
      rw [stackIs]
      exact .put _ _ fun different => different rfl
    have endLe := sits.monitorEndLe
    have fpPlace := sits.monitorBase
    unfold Activation.ceiling at place
    refine .of_ok (if_pos inside) (gives_bind.mpr ⟨(), after, writes, gives_pure.mpr ⟨rfl, rfl⟩⟩)
      (keeps.mono fun other foreign same => foreign (.inr ?_)) ?_ trivial
    · rw [sameActivation]
      unfold Activation.ceiling
      omega
    · refine represents.of_seat worked.seat (worked.sits sits)
        (worked.inRoom sits represents.room.inside) keeps ?_ List.length_set ?_ rfl
        (represents.monitors_of_keeps keeps fun other above below => by omega)
      · rw [sameActivation]
        exact represents.entries.of_keeps sits keeps fun other above below => by omega
      · intro other held found
        rw [sameActivation]
        rcases eq_or_ne index other with rfl | different
        · rw [List.getElem?_set_self inside] at found
          obtain rfl := Option.some.inj found
          exact holdsLocal_iff.mpr ⟨isLocal, stackIs ▸ Stack.holds_put_same covers⟩
        · rw [List.getElem?_set_ne different] at found
          obtain ⟨isOther, holds⟩ := holdsLocal_iff.mp (represents.locals other held found)
          have otherPlace := sits.toNat_local isOther
          unfold Activation.ceiling at otherPlace
          exact holdsLocal_iff.mpr ⟨isOther, keeps.holds holds (by omega)⟩
  · refine .of_error (if_neg inside) ?_ trivial
    rw [← represents.method]
    exact raises_bind.mpr (.inl (raises_bind.mpr (.inl (raises_localSlot (by omega)))))

/-- A word of a monitor that there is is stored. -/
theorem gives_storeMonitor
    {part : MonitorPart}
    (at? : before.activation.monitorAt? index = .ok (some address))
    (covers : before.stack.Covers (part.address address)) :
    (storeMonitor index part word).Gives before (some address)
      { before with stack := before.stack.put (part.address address) word } :=
  gives_bind.mpr ⟨_, before, gives_current.mpr ⟨rfl, rfl⟩, gives_bind.mpr ⟨_, before,
    gives_check.mpr ⟨at?, rfl⟩, gives_bind.mpr ⟨(), _, gives_onStack.mpr ⟨_,
      Stack.gives_write.mpr ⟨covers, rfl⟩, rfl⟩, gives_pure.mpr ⟨rfl, rfl⟩⟩⟩⟩

/-- Where there is no such monitor, nothing is stored. -/
theorem gives_storeMonitor_of_none
    {part : MonitorPart}
    (at? : before.activation.monitorAt? index = .ok none) :
    (storeMonitor index part word).Gives before none before :=
  gives_bind.mpr ⟨_, before, gives_current.mpr ⟨rfl, rfl⟩, gives_bind.mpr ⟨_, before,
    gives_check.mpr ⟨at?, rfl⟩, gives_pure.mpr ⟨rfl, rfl⟩⟩⟩

/--
A store to a monitor follows the record.  The other part of the same monitor is the
nearest word that has to stay.
-/
theorem follows_storeMonitor
    (represents : contents.Represents before)
    (index : Nat)
    (part : MonitorPart) :
    Follows Contents.refusal (.storeMonitor index part word) contents before
      fun _ _ => True := by
  have sits := represents.sits
  have at? := represents.monitorAt?_eq index
  by_cases inside : index < contents.monitors.length
  · rw [if_pos inside] at at?
    have place := represents.toNat_monitorAt inside
    have partPlace := represents.toNat_part inside part
    have few := part.bytes_le
    have block := represents.monitorEnd
    have top := represents.toNat_top
    have baseIs := congrArg UInt64.toNat represents.monitorBase
    have fpPlace := sits.monitorBase
    have limitLe : before.activation.stackLimit.toNat ≤ before.activation.stackTop.toNat :=
      represents.room.inside
    have covers := (represents.monitors index contents.monitors[index]
      (List.getElem?_eq_getElem inside) part).covers
    have keeps : Stack.Keeps (· ≠ (part.address (contents.monitorAt index)).toNat) before.stack
        (before.stack.put (part.address (contents.monitorAt index)) word) :=
      .put _ _ fun different => different rfl
    refine .of_ok (if_pos inside) (gives_storeMonitor at? covers)
      (keeps.mono fun other foreign same => foreign (.inl ?_)) ?_ trivial
    · dsimp only
      omega
    · refine represents.of_seat (.refl _) (sits.of_keeps keeps) represents.room.inside keeps
        (represents.entries.of_keeps sits keeps fun other above below => by omega) rfl
        (represents.locals_of_keeps keeps rfl rfl fun other above below => by omega)
        (List.length_modify ..) fun other monitor found otherPart => ?_
      rw [List.getElem?_modify] at found
      obtain ⟨former, wasThere, rfl⟩ := Option.map_eq_some_iff.mp found
      have isOther := (List.getElem?_eq_some_iff.mp wasThere).1
      have held := represents.monitors other former wasThere otherPart
      have otherPlace := represents.toNat_monitorAt isOther
      have otherPartPlace := represents.toNat_part isOther otherPart
      have otherFew := otherPart.bytes_le
      by_cases same : index = other
      · subst same
        rw [if_pos rfl]
        rcases eq_or_ne otherPart part with rfl | different
        · rw [MonitorPart.word_put_same]
          exact Stack.holds_put_same covers
        · rw [MonitorPart.word_put_of_ne different]
          have apart := MonitorPart.bytes_ne different
          exact keeps.holds held (by omega)
      · rw [if_neg same]
        exact keeps.holds held (by omega)
  · rw [if_neg inside] at at?
    exact follows_of_looks represents (if_neg inside) (gives_storeMonitor_of_none at?)

/--
Growing follows the record where the stack has room for one more monitor.  The block
grows downward, so that the new monitor has the next number.
-/
theorem follows_growMonitors
    (represents : contents.Represents before)
    (headroom : before.stack.limit.toNat + 16 ≤ before.activation.stackLimit.toNat) :
    Follows Contents.refusal .growMonitors contents before fun _ _ => True := by
  have sits := represents.sits
  have block := represents.monitorEnd
  have inRoom : before.activation.stackLimit.toNat ≤ before.activation.stackTop.toNat :=
    represents.room.inside
  obtain ⟨monitor, after, grows⟩ := exists_gives_growMonitors before sits represents.entries
    (by omega)
  obtain ⟨isGrown, monitorIs⟩ := grown_of_gives_growMonitors sits.monitorWords grows
  obtain ⟨evolves, -, lower⟩ := evolves_growMonitors grows
  obtain ⟨lock, owner, keeps⟩ := clears_of_gives_growMonitors sits grows
  have endPlace := lower sits
  have limitPlace := Word.toNat_offset before.activation.stackLimit (-2)
  have small := before.activation.stackLimit.toNat_lt
  have room := keepsRoom_growMonitors grows (by omega) sits _ represents.room
  have roomInside : after.activation.stackLimit.toNat ≤ after.activation.stackTop.toNat :=
    room.inside
  have limitIs : after.activation.stackLimit = before.activation.stackLimit.offset (-2) := by
    rw [isGrown, Session.grown]
  have baseIs : after.activation.monitorBase = before.activation.monitorBase := by
    rw [isGrown, Session.grown]
  have fpPlace := sits.monitorBase
  have baseSame := congrArg UInt64.toNat represents.monitorBase
  have topLe := sits.topLe
  have endSmall := before.activation.monitorEnd.toNat_lt
  have newest : monitor = contents.monitorAt contents.monitors.length := by
    have monitorPlace := Word.toNat_offset before.activation.monitorEnd (-2)
    have endIs := congrArg UInt64.toNat monitorIs
    exact Word.eq_offset (by omega)
  refine .of_ok rfl (gives_bind.mpr ⟨monitor, after, grows, gives_pure.mpr ⟨newest ▸ rfl, rfl⟩⟩)
    (keeps.mono fun place foreign => ?_) ?_ trivial
  · have sameFp := evolves.fp
    have sameCount := evolves.maxLocals
    unfold Activation.Owns at foreign
    rw [baseIs] at foreign
    omega
  · constructor
    case sits => exact evolves.sits sits
    case room => exact room
    case low =>
      rw [keeps.limit, limitIs]
      omega
    case method => exact evolves.method.trans represents.method
    case entries => exact holdsEntries_of_gives_growMonitors sits represents.entries grows
    case localCount => exact evolves.maxLocals.trans represents.localCount
    case locals =>
      exact represents.locals_of_keeps keeps evolves.locals evolves.maxLocals
        fun place above below => .inr (by omega)
    case monitorBase => exact baseIs.trans represents.monitorBase
    case monitorEnd =>
      rw [List.length_append]
      change _ + 16 * (_ + 1) = contents.monitorBase.toNat
      omega
    case monitors =>
      intro index held found part
      rcases Nat.lt_or_ge index contents.monitors.length with isOld | isNew
      · rw [List.getElem?_append_left isOld] at found
        exact represents.monitors_of_keeps keeps (fun place above below => .inr above)
          index held found part
      · obtain ⟨rfl, rfl⟩ : index = contents.monitors.length ∧ held = ⟨0, 0⟩ := by
          rw [List.getElem?_append_right isNew] at found
          grind
        cases part with
        | lock => exact newest ▸ lock
        | owner => exact newest ▸ owner

/-- Every access follows the record where the stack has room for what it grows. -/
theorem follows
    (represents : contents.Represents before)
    (headroom : before.stack.limit.toNat + 8 * access.growth ≤
      before.activation.stackLimit.toNat) :
    Follows Contents.refusal access contents before fun _ _ => True := by
  cases access with
  | push word => exact follows_push represents
  | pop => exact follows_pop represents
  | peek depth => exact follows_peek represents depth
  | readLocal index => exact follows_readLocal represents index
  | writeLocal index word => exact follows_writeLocal represents index
  | storeMonitor index part word => exact follows_storeMonitor represents index part
  | growMonitors => exact follows_growMonitors represents headroom

/-- What is done next goes on from what an access leaves. -/
theorem Follows.andThen
    (follows : Follows full access contents before fun _ _ => True)
    (ofOk : ∀ answer next after, contents.step full access = .ok (answer, next) →
      next.Represents after → after.stack.limit = before.stack.limit → goesOn next after)
    (ofError : ∀ cause, contents.step full access = .error cause → goesOn contents before) :
    Follows full access contents before goesOn := by
  unfold Follows at follows ⊢
  cases stepped : contents.step full access with
  | ok result =>
      rw [stepped] at follows
      obtain ⟨after, gives, keeps, represents, -⟩ := follows
      exact ⟨after, gives, keeps, represents, ofOk _ _ after stepped represents keeps.limit⟩
  | error cause =>
      rw [stepped] at follows
      exact ⟨follows.1, ofError cause stepped⟩

/--
However many accesses there are, they follow what the record becomes.  The limit of
the entries moves down by what the accesses have grown.
-/
theorem followsAll
    {accesses : List Access}
    (represents : contents.Represents before)
    (headroom : before.stack.limit.toNat + 8 * (accesses.map Access.growth).sum ≤
      before.activation.stackLimit.toNat) :
    FollowsAll Contents.refusal accesses contents before := by
  induction accesses generalizing contents before with
  | nil => trivial
  | cons access rest inductionHypothesis =>
      rw [List.map_cons, List.sum_cons] at headroom
      refine (follows represents (by omega)).andThen
        (fun answer next after stepped nextRepresents sameLimit => ?_)
        fun cause stepped => ?_
      · refine inductionHypothesis nextRepresents ?_
        obtain ⟨capacity, base, grown⟩ := Contents.extent_of_step stepped
        have extent := represents.room.extent
        have block := represents.monitorEnd
        have nextExtent := nextRepresents.room.extent
        have nextBlock := nextRepresents.monitorEnd
        rw [capacity] at nextExtent
        rw [base] at nextBlock
        rw [sameLimit]
        omega
      · have still := Contents.growth_of_step_error stepped
        exact inductionHypothesis represents (by omega)

end Workspace

namespace Session

variable {context : ManagerContext τ} {before after : Session τ} {callee : Method}
  {top callerFp returnPc : Address} {fresh : Activation} {arguments : List Word}

/-- What was just laid out represents a fresh record, with its arguments as first locals. -/
theorem LaysOut.represents
    {stack laid : Stack}
    {placement : Placement}
    {thread : ThreadId}
    {caller : Option Nat}
    (laysOut : LaysOut callee placement top callerFp returnPc stack laid)
    (shaped : Activation.ofShape thread (shapeAt callee placement caller) .x86_64 = .ok fresh)
    (few : callee.maxStack.toNat < 0x1000000000000000)
    (read : (stack.readAll top callee.parameterSlots).Gives arguments.reverse) :
    (Contents.fresh callee arguments fresh.monitorBase).Represents ⟨fresh, laid⟩ := by
  have untouched := laysOut.untouched shaped
  have sits := untouched.sits
  obtain ⟨length, words⟩ := Stack.gives_readAll.mp read
  rw [List.length_reverse] at length
  obtain ⟨sameCount, -⟩ := locals_of_layout laysOut shaped
  have parameters : callee.parameterSlots ≤ callee.maxLocals := Nat.le_max_right ..
  constructor
  case sits => exact sits
  case room => exact room_of_layout laysOut shaped few
  case low => exact untouched.low
  case method =>
    obtain ⟨_, _, -, rfl⟩ := Activation.ofShape_eq_ok shaped
    rfl
  case entries =>
    refine sits.holdsEntries_iff.mpr ⟨?_, by simp [Contents.fresh]⟩
    exact congrArg UInt64.toNat untouched.noEntries
  case localCount =>
    simp only [Contents.fresh, List.length_append, List.length_replicate]
    omega
  case locals =>
    intro index word found
    rcases Nat.lt_or_ge index arguments.length with isArgument | isExtra
    · rw [Contents.fresh, List.getElem?_append_left isArgument] at found
      refine laysOut.holdsLocal_argument shaped (by omega) (words _ word ?_)
      rw [List.getElem?_reverse (by omega), ← found]
      congr 1
      omega
    · rw [Contents.fresh, List.getElem?_append_right isExtra,
        List.getElem?_replicate] at found
      obtain ⟨inside, isZero⟩ : index - arguments.length <
          callee.maxLocals - callee.parameterSlots ∧ (0 : Word) = word := by
        simpa using found
      subst isZero
      exact laysOut.holdsLocal_zero shaped (by omega) (by omega)
  case monitorBase => rfl
  case monitorEnd =>
    obtain ⟨_, _, -, rfl⟩ := Activation.ofShape_eq_ok shaped
    simp [Contents.fresh, Activation.monitorEnd]
  case monitors =>
    intro index monitor found
    simp [Contents.fresh] at found

/--
An activation that was laid out goes on as a record does.

All words are counted without bound: those of the activation and those by which it grows
must fit above the stack limit.  The words above the activation are its arguments.
-/
theorem followsAll_of_pushActivation
    {link : Option Nat}
    {pushed : Nat}
    (accesses : List Access)
    (x86 : context.env.layout = .x86_64)
    (covers : before.machine.stack.Covers top)
    (within : top.toNat + 8 * callee.parameterSlots ≤ before.machine.stack.base.toNat)
    (room : before.machine.stack.HasWords
      (callee.neededWords + (accesses.map Access.growth).sum) top.toNat)
    (gives : (pushActivation context callee top callerFp returnPc link).Gives
      before pushed after) :
    ∃ fresh arguments, after.manager.activation? pushed = some fresh ∧
      (before.machine.stack.readAll top callee.parameterSlots).Gives arguments.reverse ∧
      (Contents.fresh callee arguments fresh.monitorBase).Represents
        ⟨fresh, after.machine.stack⟩ ∧
      Workspace.FollowsAll Contents.refusal accesses
        (Contents.fresh callee arguments fresh.monitorBase) ⟨fresh, after.machine.stack⟩ := by
  obtain ⟨placement, fresh, rfl, managed, laysOut, shaped⟩ :=
    laysOut_of_pushActivation x86 gives covers within
  obtain ⟨aligned, limitLe, topBelow⟩ := covers
  have baseSmall := before.machine.stack.base.toNat_lt
  have stackExtent := before.machine.stack.toNat_limit
  have allocated := before.machine.stack.allocated
  unfold Stack.HasWords Method.neededWords Method.frameWords at room
  have argumentsCover : ∀ index < callee.parameterSlots,
      before.machine.stack.Covers (top.offset index) := by
    intro index inside
    have place : (top.offset index).toNat = top.toNat + 8 * index :=
      Word.toNat_offset_of_fits (by omega) (by omega)
    refine ⟨?_, ?_, ?_⟩ <;> omega
  obtain ⟨words, length, holds⟩ := Stack.exists_words argumentsCover
  have read : (before.machine.stack.readAll top callee.parameterSlots).Gives
      words.reverse.reverse := by
    rw [List.reverse_reverse]
    exact Stack.gives_readAll.mpr ⟨length, holds⟩
  have represents := laysOut.represents shaped (by omega) read
  refine ⟨fresh, words.reverse, ?_, read, represents, Workspace.followsAll represents ?_⟩
  · exact FrameManager.activation?_of_push (congrArg FrameManager.activations managed)
  · obtain ⟨-, ceilingIs⟩ := sits_of_layout laysOut shaped
    obtain ⟨countIs, -⟩ := locals_of_layout laysOut shaped
    have fpPlace := represents.sits.monitorBase
    have extent := represents.room.extent
    have block : fresh.monitorEnd.toNat + 16 * 0 = fresh.monitorBase.toNat :=
      represents.monitorEnd
    have parameters : callee.parameterSlots ≤ callee.maxLocals := Nat.le_max_right ..
    have sameLimit := (keeps_of_layout laysOut).limit
    unfold Activation.ceiling at ceilingIs
    simp only [Contents.fresh] at extent fpPlace
    dsimp only
    rw [sameLimit]
    omega

/-- An entry that is one too many is refused for that reason, wherever the activation lies. -/
def OverflowsAsDeclared (context : ManagerContext τ) : Prop :=
  ∀ (before after : Session τ) callee top callerFp returnPc link pushed (accesses : List Access),
    before.machine.stack.Covers top →
    top.toNat + 8 * callee.parameterSlots ≤ before.machine.stack.base.toNat →
    before.machine.stack.HasWords
      (callee.neededWords + (accesses.map Access.growth).sum) top.toNat →
    (pushActivation context callee top callerFp returnPc link).Gives before pushed after →
      ∃ fresh arguments, after.manager.activation? pushed = some fresh ∧
        (before.machine.stack.readAll top callee.parameterSlots).Gives arguments.reverse ∧
        (Contents.fresh callee arguments fresh.monitorBase).Represents
          ⟨fresh, after.machine.stack⟩ ∧
        Workspace.FollowsAll Contents.overflow accesses
          (Contents.fresh callee arguments fresh.monitorBase) ⟨fresh, after.machine.stack⟩

end Session

/-!
A stack whose lowest address is zero, and an activation that reaches down to it.
-/

namespace Bottom

/-- A method with two entries. -/
def method : Method :=
  { Pair.caller with maxStack := 2 }

def context : ManagerContext Unit :=
  { Pair.context with env := { Pair.context.env with methods := ⟨[method]⟩ } }

/-- A stack of 26 words. -/
def ready : Session Unit :=
  { Pair.fresh with
    machine := { Pair.fresh.machine with
      stack := {
        base := 0xd0
        words := Array.replicate 26 0
        base_aligned := by decide
        fits := by simp
        allocated := by simp
      } } }

/-- The session once the method is laid out below the words of a caller. -/
def laid : Session Unit :=
  (Session.pushActivation context method 0x68 0 0x3040 none ready).2

theorem pushes :
    (Session.pushActivation context method 0x68 0 0x3040 none).Gives ready 0 laid := by
  refine ⟨?_, rfl⟩
  unfold Probe.Gives
  decide +kernel

/-- Three entries, which is one too many. -/
def accesses : List Access :=
  [.push 1, .push 2, .push 3]

theorem covers : ready.machine.stack.Covers 0x68 := by
  unfold Stack.Covers
  decide +kernel

theorem fits : ready.machine.stack.HasWords
    (method.neededWords + (accesses.map Access.growth).sum) ((0x68 : Address).toNat) := by
  unfold Stack.HasWords
  decide +kernel

/-- Three pushes go on as the record does, refusal included. -/
theorem followsAll_pushes :
    context.env.layout = .x86_64 ∧ ready.machine.stack.Covers 0x68 ∧
      (0x68 : Address).toNat + 8 * method.parameterSlots ≤ ready.machine.stack.base.toNat ∧
      ready.machine.stack.HasWords (method.neededWords + (accesses.map Access.growth).sum)
        ((0x68 : Address).toNat) ∧
      (Session.pushActivation context method 0x68 0 0x3040 none).Gives ready 0 laid ∧
      ∃ fresh arguments, laid.manager.activation? 0 = some fresh ∧
        (ready.machine.stack.readAll 0x68 method.parameterSlots).Gives arguments.reverse ∧
        (Contents.fresh method arguments fresh.monitorBase).Represents
          ⟨fresh, laid.machine.stack⟩ ∧
        Workspace.FollowsAll Contents.refusal accesses
          (Contents.fresh method arguments fresh.monitorBase) ⟨fresh, laid.machine.stack⟩ :=
  ⟨rfl, covers, by decide +kernel, fits, pushes,
    Session.followsAll_of_pushActivation accesses rfl covers (by decide +kernel) fits pushes⟩

/-- The third push does not say that the expression stack is full. -/
theorem not_overflowsAsDeclared : ¬Session.OverflowsAsDeclared context := by
  intro declared
  obtain ⟨fresh, arguments, found, -, -, follows⟩ := declared ready laid method 0x68 0 0x3040
    none 0 accesses covers (by decide +kernel) fits pushes
  obtain ⟨_, -, -, -, full, -, -, represents, raises, -⟩ := follows
  have refused := Workspace.raises_perform_push_of_full represents rfl 3
  have same := Failure.error.inj (Except.error.inj (refused.1.symm.trans raises.1))
  have base : (laid.manager.activation? 0).map Activation.monitorBase = some 0x10 := by
    decide +kernel
  rw [found] at base
  obtain base : fresh.monitorBase = 0x10 := Option.some.inj base
  rw [Contents.refusal, if_pos] at same
  · exact nomatch same
  · unfold Contents.lowest
    change fresh.monitorBase.offset (-2) = 0
    rw [base]
    decide +kernel

end Bottom

end ManagedStack
