import ManagedStack.Proofs.CodeSpace
import ManagedStack.Proofs.Streams

namespace ManagedStack

/-!
# What a walk's register maps say

A step to the caller records where the callee saved registers.  It forgets what
earlier steps recorded only if it crosses an entry frame, so that the map of a walked
frame says of each register where the last step that recorded it did so, down to the
last entry frame that was crossed.  Whether the outgoing arguments of a frame are
still its own depends on the step that reached it and on no other.
-/

namespace OopMap

/-- The slot of the last entry for a register among those that were saved. -/
def savedSlot?
    (map : OopMap)
    (register : Register) :
    Option UInt32 :=
  map.calleeSaved.reverse.lookup register

end OopMap

namespace RegisterMap

variable {map : RegisterMap} {register : Register}

/-- No register without a save slot is ever located. -/
theorem location?_of_large (large : 16 ≤ register.number) :
    map.location? register = none :=
  dif_neg (Nat.not_lt.mpr large)

@[simp] theorem location?_withArgumentOops (included : Bool) :
    (map.withArgumentOops included).location? register = map.location? register :=
  rfl

@[simp] theorem includeArgumentOops_record (recorded : Register) (address : Address) :
    (map.record recorded address).includeArgumentOops = map.includeArgumentOops :=
  rfl

/-- A recorded register is found where it was recorded, and any other as before. -/
theorem location?_record
    (recorded : Register)
    (address : Address)
    (inRange : register.number < 16) :
    (map.record recorded address).location? register =
      if register = recorded then some address else map.location? register := by
  split
  · rename_i same
    exact same ▸ location?_record_same map register address inRange
  · rename_i other
    exact location?_record_of_ne map address (Ne.symm other)

/-- An entry frame is crossed with no location. -/
theorem location?_crossEntry (tracks : map.tracking = true) :
    map.crossEntry.location? register = none := by
  unfold crossEntry location?
  simp [tracks]

/-- A fresh map has no location. -/
theorem location?_empty (tracking : Bool) :
    (empty tracking).location? register = none := by
  unfold empty location?
  simp

end RegisterMap

namespace Frame

variable {layout : FrameLayout} {view : View} {frame caller : Frame}
  {map after : RegisterMap} {register : Register}

/-- The blob of a frame whose size its blob knows. -/
def fixedBlob? (frame : Frame) : Option Blob :=
  match frame.kind with
  | .compiled => frame.blob
  | .nativeWrapper => frame.blob
  | .stub => frame.blob
  | _ => none

theorem fixedBlob?_eq_some {blob : Blob} :
    frame.fixedBlob? = some blob ↔ frame.IsFixedSize ∧ frame.blob = some blob := by
  unfold fixedBlob? IsFixedSize
  cases frame.kind <;> simp

/-- The slot in which a frame saved the frame pointer of its caller. -/
def savedLink?
    (layout : FrameLayout)
    (frame : Frame) :
    Option Address :=
  if frame.kind = .interpreted then
    some (frame.slot layout.link)
  else
    frame.fixedBlob?.map (frame.fixedLinkSlot layout)

/-- The slot in which the reference map of a blob says that a register was saved. -/
def savedInMap?
    (frame : Frame)
    (blob : Blob)
    (register : Register) :
    Option Address :=
  (blob.oopMapAt? frame.pc).bind fun oopMap =>
    (oopMap.savedSlot? register).map fun slot =>
      frame.unextendedSp.offset slot.toNat

/-- The slot at which the step from a frame itself records a register. -/
def recorded?
    (layout : FrameLayout)
    (frame : Frame)
    (register : Register) :
    Option Address :=
  if register = Register.rbp then
    frame.savedLink? layout
  else if register.number < Register.count then
    frame.fixedBlob?.bind fun blob => frame.savedInMap? blob register
  else
    none

/-- Nothing is recorded of a register without a save slot. -/
theorem recorded?_of_large (large : 16 ≤ register.number) :
    frame.recorded? layout register = none := by
  have other : register ≠ Register.rbp := by
    rintro rfl
    exact absurd large (by decide)
  unfold recorded? Register.count
  rw [if_neg other, if_neg (Nat.not_lt.mpr large)]

/-- Of several entries for a register the last one counts. -/
theorem location?_recordCalleeSaved
    (unextendedSp : Address)
    (oopMap : OopMap)
    (inRange : register.number < 16) :
    (recordCalleeSaved unextendedSp oopMap map).location? register =
      ((oopMap.savedSlot? register).map fun slot =>
        unextendedSp.offset slot.toNat).or (map.location? register) := by
  unfold recordCalleeSaved OopMap.savedSlot?
  induction oopMap.calleeSaved generalizing map with
  | nil => rfl
  | cons saved rest inductionHypothesis =>
      obtain ⟨recorded, slot⟩ := saved
      rw [List.foldl_cons, inductionHypothesis, map.location?_record _ _ inRange,
        List.reverse_cons, List.lookup_append]
      cases rest.reverse.lookup register with
      | some later => rfl
      | none =>
          by_cases same : register = recorded
          · simp [same]
          · have other : (register == recorded) = false := beq_false_of_ne same
            simp [List.lookup_cons, same, other]

/-- Recording saved registers changes nothing but locations. -/
theorem flags_recordCalleeSaved
    (unextendedSp : Address)
    (oopMap : OopMap) :
    (recordCalleeSaved unextendedSp oopMap map).tracking = map.tracking ∧
      (recordCalleeSaved unextendedSp oopMap map).includeArgumentOops =
        map.includeArgumentOops := by
  unfold recordCalleeSaved
  induction oopMap.calleeSaved generalizing map with
  | nil => exact ⟨rfl, rfl⟩
  | cons saved rest inductionHypothesis => exact inductionHypothesis

theorem location?_recordCompiledStep
    (blob : Blob)
    (inRange : register.number < 16) :
    (frame.recordCompiledStep blob map).location? register =
      (frame.savedInMap? blob register).or (map.location? register) := by
  unfold recordCompiledStep savedInMap?
  cases blob.oopMapAt? frame.pc with
  | none => rfl
  | some oopMap => exact location?_recordCalleeSaved _ _ inRange

/-- Generated code says whose the arguments are, and a map goes on tracking. -/
theorem flags_recordCompiledStep
    (frame : Frame)
    (blob : Blob)
    (map : RegisterMap) :
    (frame.recordCompiledStep blob map).tracking = map.tracking ∧
      (frame.recordCompiledStep blob map).includeArgumentOops =
        blob.callerMustGcArguments := by
  unfold recordCompiledStep
  cases blob.oopMapAt? frame.pc with
  | none => exact ⟨rfl, rfl⟩
  | some oopMap => exact flags_recordCalleeSaved _ _

/-- A map that tracks registers records the link. -/
theorem linkMap_of_tracking
    (address : Address)
    (tracks : map.tracking = true) :
    linkMap address map = map.record Register.rbp address :=
  if_pos tracks

/-- A map that tracks registers records what the reference map says, and the link. -/
theorem fixedMap_of_tracking
    (blob : Blob)
    (tracks : map.tracking = true) :
    frame.fixedMap layout blob map =
      (frame.recordCompiledStep blob map).record Register.rbp
        (frame.fixedLinkSlot layout blob) := by
  unfold fixedMap
  rw [if_pos tracks]
  exact linkMap_of_tracking _ ((frame.flags_recordCompiledStep blob map).1.trans tracks)

/-- A step does not stop keeping track of registers. -/
theorem StepsTo.tracking_eq
    (without : view.adapters = .noAdapters)
    (steps : StepsTo layout view frame map caller after)
    (tracks : map.tracking = true) :
    after.tracking = true := by
  have tracksToo : (map.withArgumentOops false).tracking = true := tracks
  cases steps with
  | interpreted =>
      rw [linkMap_of_tracking _ tracksToo]
      exact tracks
  | fixed =>
      rw [fixedMap_of_tracking _ tracksToo]
      exact (frame.flags_recordCompiledStep _ _).1.trans tracks
  | linked => exact tracks
  | entry => exact tracks
  | adapter _ resolves =>
      rw [without] at resolves
      exact (AdapterResolver.not_gives_noAdapters resolves).elim

/-- A step adds what it records, and forgets the rest only across an entry frame. -/
theorem StepsTo.location?_eq
    (without : view.adapters = .noAdapters)
    (steps : StepsTo layout view frame map caller after)
    (tracks : map.tracking = true)
    (register : Register) :
    after.location? register =
      (frame.recorded? layout register).or
        (if frame.kind = .entry then none else map.location? register) := by
  by_cases inRange : register.number < 16
  · have tracksToo : (map.withArgumentOops false).tracking = true := tracks
    cases steps with
    | interpreted kind =>
        rw [linkMap_of_tracking _ tracksToo, RegisterMap.location?_record _ _ inRange]
        by_cases isLink : register = Register.rbp <;>
          simp [recorded?, savedLink?, fixedBlob?, kind, isLink]
    | fixed kind runsIn =>
        have isFixed := fixedBlob?_eq_some.mpr ⟨kind, runsIn⟩
        have others : frame.kind ≠ .entry ∧ frame.kind ≠ .interpreted := by
          rcases kind with kind | kind | kind <;> simp [kind]
        have counted : register.number < Register.count := inRange
        rw [fixedMap_of_tracking _ tracksToo, RegisterMap.location?_record _ _ inRange,
          location?_recordCompiledStep _ inRange]
        by_cases isLink : register = Register.rbp <;>
          simp [recorded?, savedLink?, isFixed, others, counted, isLink]
    | linked kind => simp [recorded?, savedLink?, fixedBlob?, kind]
    | entry kind =>
        rw [RegisterMap.location?_crossEntry tracksToo]
        simp [recorded?, savedLink?, fixedBlob?, kind]
    | adapter _ resolves =>
        rw [without] at resolves
        exact (AdapterResolver.not_gives_noAdapters resolves).elim
  · have large := Nat.le_of_not_lt inRange
    simp only [RegisterMap.location?_of_large large, recorded?_of_large large,
      Option.none_or, ite_self]

/-- A frame leaves the arguments of the call to it to its caller. -/
def LeavesArguments (frame : Frame) : Prop :=
  frame.kind = .entry ∨
    ∃ blob, frame.fixedBlob? = some blob ∧ blob.callerMustGcArguments = true

/-- A step says whose the outgoing arguments are, whatever was said before it. -/
theorem StepsTo.includeArgumentOops_iff
    (without : view.adapters = .noAdapters)
    (steps : StepsTo layout view frame map caller after)
    (tracks : map.tracking = true) :
    after.includeArgumentOops = true ↔ frame.LeavesArguments := by
  have tracksToo : (map.withArgumentOops false).tracking = true := tracks
  cases steps with
  | interpreted kind =>
      rw [linkMap_of_tracking _ tracksToo]
      simp [LeavesArguments, fixedBlob?, kind, RegisterMap.withArgumentOops]
  | @fixed blob _ _ kind runsIn =>
      have isFixed := fixedBlob?_eq_some.mpr ⟨kind, runsIn⟩
      have notEntry : frame.kind ≠ .entry := by
        rcases kind with kind | kind | kind <;> simp [kind]
      have left := (frame.flags_recordCompiledStep blob (map.withArgumentOops false)).2
      rw [fixedMap_of_tracking _ tracksToo, RegisterMap.includeArgumentOops_record, left]
      simp [LeavesArguments, isFixed, notEntry]
  | linked kind =>
      simp [LeavesArguments, fixedBlob?, kind, RegisterMap.withArgumentOops]
  | entry kind => exact iff_of_true rfl (.inl kind)
  | adapter _ resolves =>
      rw [without] at resolves
      exact (AdapterResolver.not_gives_noAdapters resolves).elim

end Frame

namespace FrameStream

variable {view : View} {stream : FrameStream} {first : Frame} {map : RegisterMap}
  {layout : FrameLayout} {items : List (Except FrameError WalkedFrame)}
  {number : Nat} {callee caller walked : WalkedFrame} {register : Register}
  {address : Address}

/-- A frame that is yielded after an item is the caller of the frame before it. -/
theorem Yields.leadsTo
    (yields : Yields view stream items)
    (isNext : items[number + 1]? = some (.ok caller)) :
    ∃ callee, items[number]? = some (.ok callee) ∧ callee.LeadsTo view caller := by
  induction yields generalizing number with
  | ended => cases isNext
  | @item stream rest item items advances yields inductionHypothesis =>
      cases number with
      | succ number => exact inductionHypothesis isNext
      | zero =>
          obtain ⟨_ | cause | frame, map⟩ := stream
          · cases Probe.gives_pure.mp advances
          · cases Probe.gives_pure.mp advances
            obtain rfl := yields.eq_nil
            cases isNext
          · obtain ⟨next, after, follows, ⟨⟩⟩ := gives_advance.mp advances
            rcases gives_following.mp follows with
              ⟨cause, rfl, -⟩ | ⟨rfl, -, -⟩ | ⟨caller, rfl, -, gives⟩
            · obtain rfl := yields.eq_singleton
              cases isNext
            · obtain rfl := yields.eq_nil
              cases isNext
            · obtain ⟨_, _, _, -, -, rfl⟩ := yields_frame_iff.mp yields
              cases isNext
              exact ⟨_, rfl, gives⟩

/-- A stream that has a frame yields it first, with the map it has. -/
theorem Yields.eq_of_first
    (yields : Yields view ⟨some (.ok first), map⟩ items)
    (isFirst : items[0]? = some (.ok walked)) :
    walked = ⟨first, map⟩ := by
  obtain ⟨_, _, _, -, -, rfl⟩ := yields_frame_iff.mp yields
  cases isFirst
  rfl

/-- One of the first frames recorded a register, and no later one of them did so. -/
def LastRecorded
    (layout : FrameLayout)
    (items : List (Except FrameError WalkedFrame))
    (number : Nat)
    (register : Register)
    (address : Address) :
    Prop :=
  ∃ earlier callee, earlier < number ∧ items[earlier]? = some (.ok callee) ∧
    callee.frame.recorded? layout register = some address ∧
      ∀ between passed, earlier < between → between < number →
        items[between]? = some (.ok passed) →
          passed.frame.recorded? layout register = none ∧ passed.frame.kind ≠ .entry

theorem not_lastRecorded_zero : ¬LastRecorded layout items 0 register address := by
  rintro ⟨earlier, -, before, -⟩
  exact absurd before (Nat.not_lt_zero earlier)

/-- The last step recorded the register, or did not and left what was recorded. -/
theorem lastRecorded_succ_iff (isLast : items[number]? = some (.ok callee)) :
    LastRecorded layout items (number + 1) register address ↔
      callee.frame.recorded? layout register = some address ∨
        callee.frame.recorded? layout register = none ∧ callee.frame.kind ≠ .entry ∧
          LastRecorded layout items number register address := by
  constructor
  · rintro ⟨earlier, recorder, before, found, recorded, kept⟩
    rcases Nat.lt_succ_iff_lt_or_eq.mp before with before | rfl
    · obtain ⟨unrecorded, inside⟩ :=
        kept number callee before (Nat.lt_succ_self number) isLast
      exact .inr ⟨unrecorded, inside, earlier, recorder, before, found, recorded,
        fun between passed above below =>
          kept between passed above (Nat.lt_succ_of_lt below)⟩
    · obtain ⟨⟩ := isLast.symm.trans found
      exact .inl recorded
  · rintro (recorded | ⟨unrecorded, inside, earlier, recorder, before, found, recorded, kept⟩)
    · exact ⟨number, callee, Nat.lt_succ_self number, isLast, recorded,
        fun between _ above below => absurd above (Nat.not_lt.mpr (Nat.le_of_lt_succ below))⟩
    · refine ⟨earlier, recorder, Nat.lt_succ_of_lt before, found, recorded,
        fun between passed above below isPassed => ?_⟩
      rcases Nat.lt_succ_iff_lt_or_eq.mp below with below | rfl
      · exact kept between passed above below isPassed
      · obtain ⟨⟩ := isLast.symm.trans isPassed
        exact ⟨unrecorded, inside⟩

/-- All maps of a walk track registers if the first one does. -/
theorem Yields.tracking_eq
    (without : view.adapters = .noAdapters)
    (yields : Yields view (ofFrame first true) items)
    (found : items[number]? = some (.ok walked)) :
    walked.map.tracking = true := by
  induction number generalizing walked with
  | zero => exact yields.eq_of_first found ▸ rfl
  | succ number inductionHypothesis =>
      obtain ⟨callee, isCallee, leads⟩ := yields.leadsTo found
      obtain ⟨gives, -⟩ := Frame.gives_senderAbove.mp leads
      exact (Frame.gives_sender_iff.mp gives).tracking_eq without
        (inductionHypothesis isCallee)

/-- The step between two frames of a walk, from a map that tracks registers. -/
theorem Yields.stepsTo
    (without : view.adapters = .noAdapters)
    (yields : Yields view (ofFrame first true) items)
    (isCallee : items[number]? = some (.ok callee))
    (isCaller : items[number + 1]? = some (.ok caller)) :
    callee.map.tracking = true ∧
      Frame.StepsTo view.layout view callee.frame callee.map caller.frame caller.map := by
  obtain ⟨reaching, isReaching, leads⟩ := yields.leadsTo isCaller
  obtain ⟨⟩ := isCallee.symm.trans isReaching
  obtain ⟨gives, -⟩ := Frame.gives_senderAbove.mp leads
  exact ⟨yields.tracking_eq without isCallee, Frame.gives_sender_iff.mp gives⟩

/-- A register is located where it was last recorded since an entry frame. -/
theorem Yields.location?_iff
    (without : view.adapters = .noAdapters)
    (yields : Yields view (ofFrame first true) items)
    (found : items[number]? = some (.ok walked)) :
    walked.map.location? register = some address ↔
      LastRecorded view.layout items number register address := by
  induction number generalizing walked with
  | zero =>
      obtain rfl := yields.eq_of_first found
      simp [RegisterMap.location?_empty, not_lastRecorded_zero]
  | succ number inductionHypothesis =>
      obtain ⟨callee, isCallee, -⟩ := yields.leadsTo found
      obtain ⟨tracks, steps⟩ := yields.stepsTo without isCallee found
      rw [steps.location?_eq without tracks, lastRecorded_succ_iff isCallee,
        ← inductionHypothesis isCallee]
      cases callee.frame.recorded? view.layout register with
      | some recorded => simp
      | none => by_cases isEntry : callee.frame.kind = .entry <;> simp [isEntry]

/-- The maps of walked frames say what the steps of the walk recorded. -/
structure RecordsSteps
    (layout : FrameLayout)
    (items : List (Except FrameError WalkedFrame)) :
    Prop where
  /-- The frame that a walk begins with has an empty map. -/
  begins : ∀ walked, items[0]? = some (.ok walked) →
    (∀ register, walked.map.location? register = none) ∧
      walked.map.includeArgumentOops = false
  /-- Any other is reached from the one before it. -/
  follows : ∀ number caller, items[number + 1]? = some (.ok caller) →
    ∃ callee, items[number]? = some (.ok callee)
  located : ∀ number walked register address, items[number]? = some (.ok walked) →
    (walked.map.location? register = some address ↔
      LastRecorded layout items number register address)
  /-- A step's own records are seen, and others only if it does not cross an entry. -/
  steps : ∀ number callee caller register, items[number]? = some (.ok callee) →
    items[number + 1]? = some (.ok caller) →
      caller.map.location? register =
        (callee.frame.recorded? layout register).or
          (if callee.frame.kind = .entry then none
            else callee.map.location? register)
  arguments : ∀ number callee caller, items[number]? = some (.ok callee) →
    items[number + 1]? = some (.ok caller) →
      (caller.map.includeArgumentOops = true ↔ callee.frame.LeavesArguments)

/-- A walk that tracks registers keeps what it recorded, up to the next entry frame. -/
theorem recordsSteps_of_yields
    (without : view.adapters = .noAdapters)
    (yields : Yields view (ofFrame first true) items) :
    RecordsSteps view.layout items where
  begins walked isFirst := by
    obtain rfl := yields.eq_of_first isFirst
    exact ⟨fun register => RegisterMap.location?_empty true, rfl⟩
  follows number caller isCaller := by
    obtain ⟨callee, isCallee, -⟩ := yields.leadsTo isCaller
    exact ⟨callee, isCallee⟩
  located number walked register address found := yields.location?_iff without found
  steps number callee caller register isCallee isCaller := by
    obtain ⟨tracks, steps⟩ := yields.stepsTo without isCallee isCaller
    exact steps.location?_eq without tracks register
  arguments number callee caller isCallee isCaller := by
    obtain ⟨tracks, steps⟩ := yields.stepsTo without isCallee isCaller
    exact steps.includeArgumentOops_iff without tracks

/-- The map of each frame that a step reaches says what that step recorded alone. -/
def MapsBelongToSteps : Prop :=
  ∀ (view : View) (sp fp pc : Address) (items : List (Except FrameError WalkedFrame)),
    view.layout = .x86_64 → view.adapters = .noAdapters → view.code.Built →
      Yields view (ofFrame (Frame.plainFrame view sp fp pc) true) items →
        ∀ number callee caller, items[number]? = some (.ok callee) →
          items[number + 1]? = some (.ok caller) →
            (∀ register, caller.map.location? register =
              callee.frame.recorded? view.layout register) ∧
              (caller.map.includeArgumentOops = true ↔ callee.frame.LeavesArguments)

end FrameStream

namespace Inherited

/-- A stub that saves a register in the lowest word of its frame. -/
def saving : Blob :=
  { Blob.ofRange "saving" 0x3000 0x4000 .runtimeStub with
    frameSize := 4
    oopMaps := some ⟨[{ pcOffset := 8, calleeSaved := [(⟨3⟩, 0)] }]⟩ }

/-- A stub that says nothing of registers. -/
def silent : Blob :=
  { Blob.ofRange "silent" 0x4000 0x5000 .runtimeStub with frameSize := 4 }

def callStub : Blob :=
  .ofRange "call_stub" 0x6000 0x7000 (.callStub 0x6040)

/-- The saving stub, called by the silent one, called by a first entry frame. -/
def stack : Stack where
  base := 0x8000
  words := ((((Array.replicate 32 0).setIfInBounds 3 0x4008).setIfInBounds 6
    0x7fc0).setIfInBounds 7 0x6040).setIfInBounds 18 0x7fd0
  base_aligned := Stack.aligned_8000
  fits := by simp
  allocated := by simp

def view : View where
  code := ⟨[saving, silent, callStub]⟩
  methods := {}
  layout := .x86_64
  diagnostics := {}
  adapters := .noAdapters
  stack := stack
  records := {}

theorem built : view.code.Built :=
  CodeCache.built_of_foldlM .empty
    (rfl : [saving, silent, callStub].foldlM CodeCache.insert {} = .ok view.code)

/-- The view of a frame that is resolved. -/
def frameIn
    (blob : Blob)
    (sp fp pc : Address) :
    Frame where
  sp := sp
  unextendedSp := sp
  fp := fp
  pc := pc
  blob := some blob
  deoptState := .notDeoptimized

def innermost : Frame :=
  frameIn saving 0x7f00 0 0x3008

def middle : Frame :=
  frameIn silent 0x7f20 0 0x4008

def outermost : Frame :=
  frameIn callStub 0x7f40 0x7fc0 0x6040

/-- What the step from the saving stub records. -/
def reached : RegisterMap :=
  ((RegisterMap.empty true).record ⟨3⟩ 0x7f00).record Register.rbp 0x7f10

/-- What the step from the silent stub makes of it. -/
def further : RegisterMap :=
  reached.record Register.rbp 0x7f30

def walked : List (Except FrameError WalkedFrame) :=
  [.ok ⟨innermost, .empty true⟩, .ok ⟨middle, reached⟩, .ok ⟨outermost, further⟩]

theorem yields_walked :
    FrameStream.Yields view
      (.ofFrame (Frame.plainFrame view 0x7f00 0 0x3008) true) walked := by
  have last : FrameStream.Yields view ⟨some (.ok outermost), further⟩
      [.ok ⟨outermost, further⟩] :=
    FrameStream.yields_frame_iff.mpr
      ⟨none, further, [], ⟨rfl, rfl⟩, FrameStream.yields_ended further, rfl⟩
  have second : FrameStream.Yields view ⟨some (.ok middle), reached⟩
      [.ok ⟨middle, reached⟩, .ok ⟨outermost, further⟩] :=
    FrameStream.yields_frame_iff.mpr
      ⟨some (.ok outermost), further, _, ⟨rfl, rfl⟩, last, rfl⟩
  exact FrameStream.yields_frame_iff.mpr
    ⟨some (.ok middle), reached, _, ⟨rfl, rfl⟩, second, rfl⟩

/-- Two steps up, the register is still where the first of them recorded it. -/
theorem recordsSteps_walked :
    view.adapters = .noAdapters ∧
      FrameStream.Yields view
          (.ofFrame (Frame.plainFrame view 0x7f00 0 0x3008) true) walked ∧
        FrameStream.LastRecorded .x86_64 walked 2 ⟨3⟩ 0x7f00 ∧
          FrameStream.RecordsSteps .x86_64 walked := by
  have records : FrameStream.RecordsSteps .x86_64 walked :=
    FrameStream.recordsSteps_of_yields rfl yields_walked
  exact ⟨rfl, yields_walked, (records.located 2 _ ⟨3⟩ 0x7f00 rfl).mp rfl, records⟩

/-- The step from the silent stub recorded nothing of the register that is located. -/
theorem not_mapsBelongToSteps :
    middle.recorded? .x86_64 ⟨3⟩ = none ∧ further.location? ⟨3⟩ = some 0x7f00 ∧
      ¬FrameStream.MapsBelongToSteps := by
  refine ⟨rfl, rfl, fun belong => ?_⟩
  obtain ⟨located, -⟩ := belong view 0x7f00 0 0x3008 walked rfl rfl built yields_walked 1
    _ _ rfl rfl
  cases located ⟨3⟩

end Inherited

end ManagedStack
