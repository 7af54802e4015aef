import Mathlib.Data.List.Chain
import ManagedStack.Proofs.Senders

namespace ManagedStack

/-!
# Walks as lists of frames

A walk that succeeds is a list of frames each of which is the caller of the one
before it.  Every step moves up the stack, and a step from an interpreted frame moves
past its frame pointer, so that no two frames of a walk share a word between the
stack pointer and the frame pointer of an interpreted one.
-/

open Operation

namespace Frame

variable {view : View} {frame caller : Frame} {map after : RegisterMap}

@[simp] theorem gives_senderAbove :
    (frame.senderAbove view).Gives map caller after ↔
      (frame.sender view).Gives map caller after ∧ frame.sp < caller.sp := by
  simp only [senderAbove, gives_bind, gives_guard_report, gives_pure,
    UInt64.not_le]
  constructor
  · rintro ⟨found, between, gives, above, rfl, rfl⟩
    exact ⟨gives, above⟩
  · rintro ⟨gives, above⟩
    exact ⟨caller, after, gives, above, rfl, rfl⟩

end Frame

namespace FrameStream

variable {view : View} {frame : Frame} {map after : RegisterMap}
  {stream : FrameStream} {items : List (Except FrameError WalkedFrame)}
  {walked : WalkedFrame} {frames rest : List WalkedFrame}

/-- What follows a frame is nothing, an error, or the caller above it. -/
theorem gives_following {next : Option (Except FrameError Frame)} :
    (following view frame : Operation RegisterMap ε _).Gives map next after ↔
      (∃ cause, next = some (.error cause) ∧
          ((frame.isFirst view).Raises cause ∧ after = map ∨
            (frame.isFirst view).Gives false ∧
              (frame.senderAbove view).Raises map cause after)) ∨
        next = none ∧ (frame.isFirst view).Gives true ∧ after = map ∨
          ∃ caller, next = some (.ok caller) ∧
            (frame.isFirst view).Gives false ∧
              (frame.senderAbove view).Gives map caller after := by
  unfold following
  rw [gives_bind]
  simp only [gives_attempt, gives_ofProbe, raises_ofProbe]
  constructor
  · rintro ⟨_, _, ⟨first, rfl, isFirst, rfl⟩ | ⟨cause, rfl, fails, rfl⟩, goesOn⟩
    · cases first with
      | true =>
          obtain ⟨rfl, rfl⟩ := gives_pure.mp goesOn
          exact .inr (.inl ⟨rfl, isFirst, rfl⟩)
      | false =>
          obtain ⟨_, _, tried, ends⟩ := gives_bind.mp goesOn
          obtain ⟨rfl, rfl⟩ := gives_pure.mp ends
          rcases gives_attempt.mp tried with ⟨caller, rfl, gives⟩ | ⟨cause, rfl, fails⟩
          · exact .inr (.inr ⟨caller, rfl, isFirst, gives⟩)
          · exact .inl ⟨cause, rfl, .inr ⟨isFirst, fails⟩⟩
    · obtain ⟨rfl, rfl⟩ := gives_pure.mp goesOn
      exact .inl ⟨cause, rfl, .inl ⟨fails, rfl⟩⟩
  · rintro (⟨cause, rfl, ⟨fails, rfl⟩ | ⟨isFirst, fails⟩⟩ | ⟨rfl, isFirst, rfl⟩ |
      ⟨caller, rfl, isFirst, gives⟩)
    · exact ⟨_, _, .inr ⟨cause, rfl, fails, rfl⟩, gives_pure.mpr ⟨rfl, rfl⟩⟩
    · exact ⟨_, _, .inl ⟨false, rfl, isFirst, rfl⟩, gives_bind.mpr
        ⟨_, _, gives_attempt.mpr (.inr ⟨cause, rfl, fails⟩),
          gives_pure.mpr ⟨rfl, rfl⟩⟩⟩
    · exact ⟨_, _, .inl ⟨true, rfl, isFirst, rfl⟩, gives_pure.mpr ⟨rfl, rfl⟩⟩
    · exact ⟨_, _, .inl ⟨false, rfl, isFirst, rfl⟩, gives_bind.mpr
        ⟨_, _, gives_attempt.mpr (.inl ⟨caller, rfl, gives⟩),
          gives_pure.mpr ⟨rfl, rfl⟩⟩⟩

/-- The walk lists at most this many frames of a stream, and no error. -/
inductive Lists (view : View) :
    Nat → FrameStream → List WalkedFrame → Prop where
  | full (stream : FrameStream) : Lists view 0 stream []
  | ended
      (count : Nat)
      (map : RegisterMap) :
      Lists view (count + 1) ⟨none, map⟩ []
  | frame
      {count : Nat}
      {frame : Frame}
      {map after : RegisterMap}
      {next : Option (Except FrameError Frame)}
      {rest : List WalkedFrame}
      (follows : (following view frame :
        Operation RegisterMap FrameError _).Gives map next after)
      (lists : Lists view count ⟨next, after⟩ rest) :
      Lists view (count + 1) ⟨some (.ok frame), map⟩ (⟨frame, map⟩ :: rest)

/-- A stream that has a frame yields it and finds what follows. -/
theorem gives_advance
    {advanced : Option (Except FrameError WalkedFrame × FrameStream)} :
    (advance view ⟨some (.ok frame), map⟩ : Probe ε _).Gives advanced ↔
      ∃ next after,
        (following view frame : Operation RegisterMap ε _).Gives
            map next after ∧
          advanced = some (.ok ⟨frame, map⟩, ⟨next, after⟩) := by
  unfold advance
  change (((following view frame map).1 >>= fun next => _ :
    Probe ε _)).Gives advanced ↔ _
  simp only [Probe.gives_bind, Probe.gives_answer, Operation.Gives]
  constructor
  · rintro ⟨next, gives, rfl⟩
    exact ⟨next, _, ⟨gives, rfl⟩, rfl⟩
  · rintro ⟨next, _, ⟨gives, rfl⟩, rfl⟩
    exact ⟨next, gives, rfl⟩

theorem mapM_cons_eq_ok
    {item : Except FrameError WalkedFrame} :
    (item :: items).mapM id = .ok frames ↔
      ∃ walked rest, item = .ok walked ∧ items.mapM id = .ok rest ∧
        frames = walked :: rest := by
  rw [List.mapM_cons]
  cases item <;> cases rest : items.mapM id <;>
    simp [bind, Except.bind, pure, Except.pure, eq_comm]

/--
Frames are listed exactly if all items that are taken are frames.  A stream that has
failed gives an error.
-/
theorem gives_take_iff {count : Nat} :
    (∃ items, (take view count stream : Probe FrameError _).Gives items ∧
        items.mapM id = .ok frames) ↔
      Lists view count stream frames := by
  induction count generalizing stream frames with
  | zero =>
      simp only [take, Probe.gives_pure, exists_eq_left, List.mapM_nil]
      constructor
      · rintro ⟨⟩
        exact .full stream
      · rintro ⟨⟩
        rfl
  | succ count inductionHypothesis =>
      rw [take]
      simp only [Probe.gives_bind]
      obtain ⟨next, map⟩ := stream
      rcases next with _ | cause | frame
      · constructor
        · rintro ⟨items, ⟨advanced, isNone, ends⟩, collected⟩
          obtain rfl := Probe.gives_pure.mp isNone
          obtain rfl := Probe.gives_pure.mp ends
          obtain rfl : [] = frames := Except.ok.inj collected
          exact .ended count map
        · rintro ⟨⟩
          exact ⟨[], ⟨none, rfl, rfl⟩, rfl⟩
      · constructor
        · rintro ⟨items, ⟨advanced, isError, ends⟩, collected⟩
          obtain rfl := Probe.gives_pure.mp isError
          simp only [Probe.gives_bind, Probe.gives_pure] at ends
          obtain ⟨others, -, rfl⟩ := ends
          obtain ⟨_, _, ⟨⟩, -⟩ := mapM_cons_eq_ok.mp collected
        · rintro ⟨⟩
      · simp only [gives_advance]
        constructor
        · rintro ⟨items, ⟨_, ⟨next, after, follows, rfl⟩, ends⟩, collected⟩
          simp only [Probe.gives_bind, Probe.gives_pure] at ends
          obtain ⟨others, taken, rfl⟩ := ends
          obtain ⟨_, rest, ⟨⟩, restCollected, rfl⟩ :=
            mapM_cons_eq_ok.mp collected
          exact .frame follows
            (inductionHypothesis.mp ⟨others, taken, restCollected⟩)
        · rintro (_ | _ | @⟨_, _, _, after, next, rest, follows, lists⟩)
          obtain ⟨others, taken, restCollected⟩ := inductionHypothesis.mpr lists
          refine ⟨.ok ⟨frame, map⟩ :: others, ⟨_, ⟨next, after, follows, rfl⟩, ?_⟩,
            mapM_cons_eq_ok.mpr ⟨_, _, rfl, restCollected, rfl⟩⟩
          simpa only [Probe.gives_bind, Probe.gives_pure] using
            ⟨others, taken, rfl⟩

/-- A walk succeeds exactly with the frames that it lists. -/
theorem gives_frames :
    (stream.frames view).Gives frames ↔ Lists view itemLimit stream frames := by
  rw [← gives_take_iff]
  unfold FrameStream.frames
  rw [Probe.gives_bind]
  refine exists_congr fun items => and_congr_right fun _ => ?_
  rcases items.mapM id with cause | found
  · simp
  · simp [eq_comm]

section Search

variable {next : Option (Except FrameError Frame)} {accepts : WalkedFrame → Bool}
  {count : Nat}

/-- A search stops at a frame that it accepts. -/
theorem gives_find?_here
    (follows : (following view frame : Operation RegisterMap FrameError _).Gives map
      next after)
    (accepted : accepts ⟨frame, map⟩ = true) :
    (find? view accepts (count + 1) ⟨some (.ok frame), map⟩).Gives
      (some ⟨frame, map⟩) := by
  rw [find?, Probe.gives_bind]
  refine ⟨_, gives_advance.mpr ⟨next, after, follows, rfl⟩, ?_⟩
  simp [accepted]

/-- It goes on where it does not accept. -/
theorem gives_find?_further
    {found : Option WalkedFrame}
    (follows : (following view frame : Operation RegisterMap FrameError _).Gives map
      next after)
    (refused : accepts ⟨frame, map⟩ = false)
    (finds : (find? view accepts count ⟨next, after⟩).Gives found) :
    (find? view accepts (count + 1) ⟨some (.ok frame), map⟩).Gives found := by
  rw [find?, Probe.gives_bind]
  refine ⟨_, gives_advance.mpr ⟨next, after, follows, rfl⟩, ?_⟩
  simpa [refused] using finds

end Search

end FrameStream

namespace Frame

variable {view : View} {frame : Frame} {map : RegisterMap}

theorem concludes_senderAbove
    (negates : fitsSigned (-view.layout.senderSp) = true)
    (reliable : view.adapters.Reliable) :
    (frame.senderAbove view).Concludes map :=
  .bind (concludes_sender negates reliable) fun _ _ _ =>
    .ite (fun _ => .bind .report fun _ _ _ => .fail) fun _ => .pure

/-- A walk gets past every frame, if only to an error. -/
theorem exists_gives_following
    (negates : fitsSigned (-view.layout.senderSp) = true)
    (reliable : view.adapters.Reliable)
    (map : RegisterMap) :
    ∃ next after, (FrameStream.following view frame :
      Operation RegisterMap FrameError _).Gives map next after := by
  have looks : (frame.isFirst view).Concludes := concludes_isFirst
  have steps : (frame.senderAbove view).Concludes map :=
    concludes_senderAbove negates reliable
  rcases looks with ⟨first, isFirst⟩ | ⟨cause, fails⟩
  · cases first with
    | true =>
        exact ⟨_, _, FrameStream.gives_following.mpr (.inr (.inl ⟨rfl, isFirst, rfl⟩))⟩
    | false =>
        rcases steps with ⟨caller, after, gives⟩ | ⟨cause, after, raises⟩
        · exact ⟨_, _, FrameStream.gives_following.mpr
            (.inr (.inr ⟨caller, rfl, isFirst, gives⟩))⟩
        · exact ⟨_, _, FrameStream.gives_following.mpr
            (.inl ⟨cause, rfl, .inr ⟨isFirst, raises⟩⟩)⟩
  · exact ⟨_, _, FrameStream.gives_following.mpr
      (.inl ⟨cause, rfl, .inl ⟨fails, rfl⟩⟩)⟩

end Frame

/-- The step from one walked frame found the other as the caller above it. -/
def WalkedFrame.LeadsTo
    (view : View)
    (walked next : WalkedFrame) :
    Prop :=
  (walked.frame.senderAbove view).Gives walked.map next.frame next.map

/-- What is listed after a frame begins with the caller of the frame. -/
theorem FrameStream.Lists.isChain
    {view : View}
    {count : Nat}
    {stream : FrameStream}
    {frames : List WalkedFrame}
    (lists : Lists view count stream frames) :
    frames.IsChain (WalkedFrame.LeadsTo view) := by
  induction lists with
  | full => exact .nil
  | ended => exact .nil
  | @frame count frame map after next rest follows lists inductionHypothesis =>
      refine inductionHypothesis.cons fun caller isCaller => ?_
      cases lists with
      | full => cases isCaller
      | ended => cases isCaller
      | frame =>
          obtain rfl := Option.some.inj isCaller
          rcases gives_following.mp follows with
            ⟨_, ⟨⟩, -⟩ | ⟨⟨⟩, -⟩ | ⟨_, ⟨⟩, -, gives⟩
          exact gives

namespace Frame

variable {view : View} {frame caller lower upper : Frame}
  {map after : RegisterMap}

/-- The words that one frame has to itself end where the other one begins. -/
structure Below (lower upper : Frame) : Prop where
  sp : lower.sp.toNat < upper.sp.toNat
  fp : lower.kind = .interpreted → lower.fp.toNat + 16 ≤ upper.sp.toNat

instance : Trans Below Below Below where
  trans first second :=
    ⟨Nat.lt_trans first.sp second.sp, fun kind =>
      Nat.le_trans (first.fp kind) (Nat.le_of_lt second.sp)⟩

@[simp] theorem sp_resolved (records : DeoptRecords) (frame : Frame) :
    (frame.resolved records).sp = frame.sp := by
  unfold resolved
  split <;> rfl

@[simp] theorem sp_adjust (frame : Frame) : frame.adjust.sp = frame.sp := by
  unfold adjust
  split
  · split <;> rfl
  · rfl

@[simp] theorem sp_extendedFrame {sp unextendedSp fp pc : Address} :
    (extendedFrame view sp unextendedSp fp pc).sp = sp := by
  simp [extendedFrame, unresolved]

@[simp] theorem sp_plainFrame {sp fp pc : Address} :
    (plainFrame view sp fp pc).sp = sp := by
  simp [plainFrame, unresolved]

/-- Above a link and a return address the caller's stack pointer is exact. -/
theorem toNat_slot_two
    (link : view.stack.Covers (frame.slot 0))
    (returns : view.stack.Covers (frame.slot 1)) :
    (frame.slot 2).toNat = frame.fp.toNat + 16 := by
  unfold slot at *
  rw [Word.offset_zero] at link
  have place := link.toNat_offset returns (by omega) (by omega)
  have high := returns.2.2
  have small := view.stack.base_le
  exact Word.toNat_offset_of_fits (by omega) (by omega)

/-- The caller of a frame lies above it, and above an interpreted frame's link. -/
theorem below_of_senderAbove
    (x86 : view.layout = .x86_64)
    (gives : (frame.senderAbove view).Gives map caller after) :
    frame.Below caller := by
  obtain ⟨gives, above⟩ := gives_senderAbove.mp gives
  refine ⟨UInt64.lt_iff_toNat_lt.mp above, fun interpreted => ?_⟩
  cases (gives_sender x86).mp gives with
  | interpreted _ _ saved returns =>
      rw [sp_extendedFrame]
      exact (toNat_slot_two saved.covers returns.covers).ge
  | fixed kind => simp [IsFixedSize, interpreted] at kind
  | linked kind => simp [interpreted] at kind
  | entry kind => cases interpreted.symm.trans kind
  | adapter kind => cases interpreted.symm.trans kind

end Frame

/-- Of two frames of a walk the earlier one lies below. -/
theorem pairwise_below_of_isChain
    {view : View}
    {frames : List WalkedFrame}
    (x86 : view.layout = .x86_64)
    (chain : frames.IsChain (WalkedFrame.LeadsTo view)) :
    frames.Pairwise fun lower upper => lower.frame.Below upper.frame := by
  have below : (frames.map WalkedFrame.frame).IsChain Frame.Below := by
    rw [List.isChain_map]
    exact chain.imp fun _ _ => Frame.below_of_senderAbove x86
  exact List.pairwise_map.mp (List.isChain_iff_pairwise.mp below)

end ManagedStack
