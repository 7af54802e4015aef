import ManagedStack.Proofs.Searching
import ManagedStack.Proofs.Transparency

namespace ManagedStack

/-!
# Where a stream ends well, the searches agree with it

The frames that a stream without errors yields are the callers of its first frame, up
to an entry frame without callers of its own.  Which frames these are does not depend
on what the stream tracks, and each search finds the first of them that runs managed
code, or finds out that there is none.  The search that validates its steps may give
up early, but what it finds is what the stream comes to first.
-/

open Operation

namespace Frame

variable {view : View} {frame caller : Frame} {map after : RegisterMap}

/-- These are the callers of a frame, each above the one before, up to the first. -/
inductive HasCallers (view : View) : Frame → List Frame → Prop where
  | first
      {frame : Frame}
      (isFirst : (frame.isFirst view).Gives true) :
      HasCallers view frame []
  | caller
      {frame caller : Frame}
      {callers : List Frame}
      (notFirst : (frame.isFirst view).Gives false)
      (hasCaller : HasCaller view frame caller)
      (above : frame.sp < caller.sp)
      (further : HasCallers view caller callers) :
      HasCallers view frame (caller :: callers)

/-- A frame with a caller is not the first one. -/
theorem HasCaller.notFirst (hasCaller : HasCaller view frame caller) :
    (frame.isFirst view).Gives false := by
  obtain ⟨map, after, gives⟩ := hasCaller
  unfold isFirst
  split
  · rename_i isEntry
    cases gives_sender_iff.mp gives with
    | entry _ points keeps nonempty _ _ =>
        refine Probe.gives_bind.mpr ⟨⟨_⟩, gives_callWrapper.mpr ⟨isEntry, points⟩, ?_⟩
        exact Probe.gives_bind.mpr ⟨_, gives_anchor.mpr keeps,
          Probe.gives_pure.mpr nonempty.symm⟩
    | interpreted kind _ _ _ => cases isEntry.symm.trans kind
    | fixed kind _ _ _ _ _ => simp [IsFixedSize, isEntry] at kind
    | linked kind _ _ => cases isEntry.symm.trans kind
    | adapter kind _ => cases isEntry.symm.trans kind
  · exact Probe.gives_pure.mpr rfl

theorem notFirst_of_isJava (isJava : frame.isJava = true) :
    (frame.isFirst view).Gives false := by
  have notEntry : frame.kind ≠ .entry := by
    intro isEntry
    simp [Frame.isJava, isEntry] at isJava
  simp [isFirst, notEntry]

end Frame

namespace FrameStream

variable {view : View} {frame caller : Frame} {map after : RegisterMap}
  {walked : List WalkedFrame} {callers : List Frame}

/-- A stream without errors yields a frame and its callers. -/
theorem Yields.hasCallers
    (yields : Yields view ⟨some (.ok frame), map⟩ (walked.map .ok)) :
    ∃ callers, Frame.HasCallers view frame callers ∧
      walked.map WalkedFrame.frame = frame :: callers := by
  induction walked generalizing frame map with
  | nil =>
      obtain ⟨_, _, _, -, -, ⟨⟩⟩ := yields_frame_iff.mp yields
  | cons first rest inductionHypothesis =>
      obtain ⟨next, after, later, follows, yields, same⟩ := yields_frame_iff.mp yields
      obtain ⟨⟨⟩, rfl⟩ := List.cons.inj same
      rcases gives_following.mp follows with
        ⟨cause, rfl, -⟩ | ⟨rfl, isFirst, -⟩ | ⟨caller, rfl, notFirst, gives⟩
      · have errors := yields.eq_singleton
        cases rest with
        | nil => cases errors
        | cons second rest => cases (List.cons.inj errors).1
      · obtain rfl := List.map_eq_nil_iff.mp yields.eq_nil
        exact ⟨[], .first isFirst, rfl⟩
      · obtain ⟨callers, further, frames⟩ := inductionHypothesis yields
        obtain ⟨gives, above⟩ := Frame.gives_senderAbove.mp gives
        exact ⟨caller :: callers, .caller notFirst ⟨_, _, gives⟩ above further,
          congrArg (_ :: ·) frames⟩

/-- A frame is followed by its caller. -/
theorem gives_following_caller
    (reliable : view.adapters.Reliable)
    (hasCaller : Frame.HasCaller view frame caller)
    (above : frame.sp < caller.sp)
    (map : RegisterMap) :
    ∃ after, (following view frame : Operation RegisterMap FrameError _).Gives map
      (some (.ok caller)) after := by
  obtain ⟨after, gives⟩ := hasCaller.gives reliable map
  exact ⟨after, gives_following.mpr (.inr (.inr ⟨caller, rfl, hasCaller.notFirst,
    Frame.gives_senderAbove.mpr ⟨gives, above⟩⟩))⟩

/-- A frame and its callers are what a stream yields, whatever it tracks. -/
theorem exists_yields_of_hasCallers
    (reliable : view.adapters.Reliable)
    (hasCallers : Frame.HasCallers view frame callers)
    (map : RegisterMap) :
    ∃ walked : List WalkedFrame,
      Yields view ⟨some (.ok frame), map⟩ (walked.map .ok) ∧
        walked.map WalkedFrame.frame = frame :: callers := by
  induction hasCallers generalizing map with
  | @first frame isFirst =>
      have follows : (following view frame : Operation RegisterMap FrameError _).Gives
          map none map :=
        gives_following.mpr (.inr (.inl ⟨rfl, isFirst, rfl⟩))
      exact ⟨[⟨frame, map⟩], yields_frame_iff.mpr ⟨_, _, [], follows,
        yields_ended map, rfl⟩, rfl⟩
  | @caller frame caller callers _ hasCaller above _ inductionHypothesis =>
      obtain ⟨after, follows⟩ := gives_following_caller reliable hasCaller above map
      obtain ⟨walked, yields, frames⟩ := inductionHypothesis after
      exact ⟨⟨frame, map⟩ :: walked, yields_frame_iff.mpr ⟨_, _, _, follows, yields, rfl⟩,
        congrArg (frame :: ·) frames⟩

/-- A list of frames that is complete is what the stream yields. -/
theorem Lists.yields
    {count : Nat}
    {stream : FrameStream}
    (lists : Lists view count stream walked)
    (complete : walked.length < count) :
    Yields view stream (walked.map .ok) := by
  induction lists with
  | full => cases complete
  | ended count map => exact yields_ended map
  | frame follows _ inductionHypothesis =>
      have yields := inductionHypothesis (Nat.lt_of_succ_lt_succ complete)
      exact yields_frame_iff.mpr ⟨_, _, _, follows, yields, rfl⟩

/-- The items after a frame are those of the stream that follows it. -/
theorem gives_take_frame
    {count : Nat}
    {next : Option (Except FrameError Frame)}
    {items : List (Except FrameError WalkedFrame)}
    (follows : (following view frame : Operation RegisterMap FrameError _).Gives map
      next after)
    (taken : (take view count ⟨next, after⟩ : Probe FrameError _).Gives items) :
    (take view (count + 1) ⟨some (.ok frame), map⟩ : Probe FrameError _).Gives
      (.ok ⟨frame, map⟩ :: items) := by
  rw [take, Probe.gives_bind]
  refine ⟨_, gives_advance.mpr ⟨next, after, follows, rfl⟩, ?_⟩
  exact Probe.gives_bind.mpr ⟨items, taken, Probe.gives_pure.mpr rfl⟩

end FrameStream

namespace Frame

variable {view : View} {frame caller found : Frame} {map after : RegisterMap}
  {callers : List Frame}

/-- A search among a frame and its callers finds the first that runs managed code. -/
theorem HasCallers.gives_skipWhile
    (reliable : view.adapters.Reliable)
    (hasCallers : HasCallers view frame callers)
    {steps : Nat}
    (enough : callers.length < steps)
    (map : RegisterMap) :
    ∃ found after,
      (skipWhile view (isNotJavaOrFirst view) steps frame).Gives map found after ∧
        match (frame :: callers).find? isJava with
        | some java => found = java
        | none => found.isJava = false ∧ (found.isFirst view).Gives true := by
  have stops {reached : Frame} {rounds : Nat} {before : RegisterMap}
      (stop : (isNotJavaOrFirst view reached).Gives false) :
      (skipWhile view (isNotJavaOrFirst view) (rounds + 1) reached).Gives before
        reached before :=
    gives_of_ending (ending_loop_of_done (gives_skipRound_done stop before))
  induction hasCallers generalizing steps map with
  | @first frame isFirst =>
      obtain ⟨rounds, rfl⟩ := Nat.exists_eq_add_of_lt enough
      refine ⟨frame, map, stops ?_, ?_⟩
      · unfold isNotJavaOrFirst
        split
        · exact Probe.gives_pure.mpr rfl
        · exact Probe.gives_bind.mpr ⟨true, isFirst, rfl⟩
      · cases isJava : frame.isJava <;> simp [isJava, isFirst]
  | @caller frame caller callers notFirst hasCaller _ _ inductionHypothesis =>
      obtain ⟨rounds, rfl⟩ := Nat.exists_eq_add_of_lt enough
      cases isJava : frame.isJava with
      | true =>
          refine ⟨frame, map, stops ?_, by simp [isJava]⟩
          simp [isNotJavaOrFirst, isJava]
      | false =>
          have skips : (isNotJavaOrFirst view frame).Gives true := by
            rw [isNotJavaOrFirst, if_neg (by simp [isJava])]
            exact Probe.gives_bind.mpr ⟨false, notFirst, rfl⟩
          obtain ⟨between, gives⟩ := hasCaller.gives reliable map
          have goesOn := gives_skipRound_again.mpr ⟨skips, gives⟩
          have fewer : callers.length < callers.length + 1 + rounds := by omega
          obtain ⟨found, after, finds, isRight⟩ := inductionHypothesis fewer between
          refine ⟨found, after, ?_, by simpa [isJava] using isRight⟩
          exact gives_of_ending
            ((ending_loop_of_again goesOn).trans (ending_of_gives finds))

/-- What both searches for managed code come to among the callers of a frame. -/
theorem HasCallers.gives_javaOrFirst
    (reliable : view.adapters.Reliable)
    (hasCaller : HasCaller view frame caller)
    (hasCallers : HasCallers view caller callers)
    {steps : Nat}
    (enough : callers.length < steps) :
    ∃ found, (frame.javaOrFirst view steps).Gives found ∧
      match (caller :: callers).find? isJava with
      | some java => found = java
      | none => found.isJava = false ∧ (found.isFirst view).Gives true := by
  obtain ⟨between, gives⟩ := hasCaller.gives reliable (RegisterMap.empty false)
  obtain ⟨found, after, finds, isRight⟩ :=
    hasCallers.gives_skipWhile reliable enough between
  have searches := gives_bind.mpr ⟨caller, between, gives, finds⟩
  exact ⟨found, searches.1, isRight⟩

/-- They find the first caller that runs managed code, or that there is none. -/
theorem HasCallers.gives_searches
    (reliable : view.adapters.Reliable)
    (hasCaller : HasCaller view frame caller)
    (hasCallers : HasCallers view caller callers)
    {steps : Nat}
    (enough : callers.length < steps) :
    match (caller :: callers).find? isJava with
    | some java =>
        (frame.javaSender view steps).Gives java ∧
          (frame.isFirstJava view steps).Gives false
    | none =>
        (frame.javaSender view steps).Raises (.notJavaFrame frame.sp) ∧
          (frame.isFirstJava view steps).Gives true := by
  obtain ⟨found, finds, isRight⟩ :=
    hasCallers.gives_javaOrFirst reliable hasCaller enough
  cases search : (caller :: callers).find? isJava with
  | some java =>
      obtain rfl : found = java := by simpa [search] using isRight
      have isJava : found.isJava = true := List.find?_some search
      refine ⟨Probe.gives_bind.mpr ⟨found, finds, ?_⟩,
        Probe.gives_bind.mpr ⟨found, finds, notFirst_of_isJava isJava⟩⟩
      rw [if_pos isJava]
      exact Probe.gives_pure.mpr rfl
  | none =>
      obtain ⟨notJava, isFirst⟩ : found.isJava = false ∧ (found.isFirst view).Gives true := by
        simpa [search] using isRight
      refine ⟨Probe.raises_bind.mpr (.inr ⟨found, finds, ?_⟩),
        Probe.gives_bind.mpr ⟨found, finds, isFirst⟩⟩
      rw [if_neg (by simp [notJava])]
      exact Probe.raises_fail.mpr rfl

/-- The stream from a frame comes to this one as its first that runs managed code. -/
def StreamsToJava
    (view : View)
    (stream : FrameStream)
    (found : Frame) :
    Prop :=
  ∃ (before : List WalkedFrame) (last : WalkedFrame),
    (stream.take view (before.length + 1) : Probe FrameError _).Gives
        ((before ++ [last]).map .ok) ∧
      last.frame = found ∧ (∀ walked ∈ before, walked.frame.isJava = false) ∧
        found.isJava = true

theorem streamsToJava_here
    (negates : fitsSigned (-view.layout.senderSp) = true)
    (reliable : view.adapters.Reliable)
    (isJava : frame.isJava = true)
    (map : RegisterMap) :
    StreamsToJava view ⟨some (.ok frame), map⟩ frame := by
  obtain ⟨next, after, follows⟩ : ∃ next after, (FrameStream.following view frame :
      Operation RegisterMap FrameError _).Gives map next after :=
    exists_gives_following negates reliable map
  exact ⟨[], ⟨frame, map⟩, FrameStream.gives_take_frame follows (Probe.gives_pure.mpr rfl),
    rfl, List.forall_mem_nil _, isJava⟩

theorem streamsToJava_further
    (reliable : view.adapters.Reliable)
    (notJava : frame.isJava = false)
    (hasCaller : HasCaller view frame caller)
    (above : frame.sp < caller.sp)
    (further : ∀ map, StreamsToJava view ⟨some (.ok caller), map⟩ found)
    (map : RegisterMap) :
    StreamsToJava view ⟨some (.ok frame), map⟩ found := by
  obtain ⟨after, follows⟩ := FrameStream.gives_following_caller reliable hasCaller above
    map
  obtain ⟨before, last, taken, isFound, notBefore, isJava⟩ := further after
  exact ⟨⟨frame, map⟩ :: before, last, FrameStream.gives_take_frame follows taken, isFound,
    List.forall_mem_cons.mpr ⟨notJava, notBefore⟩, isJava⟩

/-- What the search that validates its steps finds is what a stream comes to. -/
theorem streamsToJava_of_gives_loop
    (negates : fitsSigned (-view.layout.senderSp) = true)
    (reliable : view.adapters.Reliable)
    {bounds : Bounds}
    {rounds : Nat}
    (notJava : frame.isJava = false)
    (finds : (loop (profiledRound view bounds) rounds frame).Gives map (some found) after)
    (known : RegisterMap) :
    StreamsToJava view ⟨some (.ok frame), known⟩ found := by
  induction rounds generalizing frame map known with
  | zero => cases finds.1
  | succ rounds inductionHypothesis =>
      rw [loop_succ] at finds
      obtain ⟨ends, between, stepped, rest⟩ := gives_bind.mp finds
      rcases gives_profiledRound stepped with rfl | ⟨caller, climbs, -, rfl⟩
      · cases (gives_answer.mp rest).1
      obtain ⟨gives, above⟩ := gives_senderAbove.mp climbs
      have hasCaller : HasCaller view frame caller := ⟨map, between, gives⟩
      cases isJava : caller.isJava with
      | true =>
          simp only [isJava, if_true] at rest
          obtain rfl : found = caller := Option.some.inj (gives_answer.mp rest).1
          exact streamsToJava_further reliable notJava hasCaller above
            (streamsToJava_here negates reliable isJava) known
      | false =>
          simp only [isJava, Bool.false_eq_true, if_false] at rest
          exact streamsToJava_further reliable notJava hasCaller above
            (inductionHypothesis isJava rest) known

theorem streamsToJava_of_profiled
    (negates : fitsSigned (-view.layout.senderSp) = true)
    (reliable : view.adapters.Reliable)
    {bounds : Bounds}
    (finds : (frame.profiledJavaSender? view bounds).Gives (some found))
    (tracking : Bool) :
    StreamsToJava view (.ofFrame frame tracking) found := by
  rcases Probe.gives_ite.mp finds with ⟨isJava, here⟩ | ⟨notJava, searches⟩
  · obtain rfl : found = frame := Option.some.inj (Probe.gives_pure.mp here)
    exact streamsToJava_here negates reliable isJava _
  · obtain ⟨safe, -, searches⟩ := Probe.gives_bind.mp searches
    rcases Probe.gives_ite.mp searches with ⟨-, loops⟩ | ⟨-, gaveUp⟩
    · have finds : (loop (profiledRound view bounds) FrameStream.itemLimit frame).Gives
          (RegisterMap.empty false) (some found) _ :=
        ⟨loops, rfl⟩
      exact streamsToJava_of_gives_loop negates reliable (by simpa using notJava) finds _
    · cases Probe.gives_pure.mp gaveUp

/--
A stream that yields a frame, its callers and no error yields the same frames whatever
it tracks; the searches from the frame find the first of the callers that runs managed
code, or that there is none.  What the search that validates its steps finds is the
first such frame of the stream.
-/
theorem walkers_agree
    (negates : fitsSigned (-view.layout.senderSp) = true)
    (reliable : view.adapters.Reliable)
    (frame : Frame) :
    (∀ (tracking : Bool) (walked : List WalkedFrame),
        FrameStream.Yields view (.ofFrame frame tracking) (walked.map .ok) →
        2 ≤ walked.length →
        (∀ other, ∃ twins : List WalkedFrame,
            FrameStream.Yields view (.ofFrame frame other) (twins.map .ok) ∧
              twins.map WalkedFrame.frame = walked.map WalkedFrame.frame) ∧
          ∀ steps, walked.length ≤ steps →
            match (walked.map WalkedFrame.frame).tail.find? isJava with
            | some java =>
                (frame.javaSender view steps).Gives java ∧
                  (frame.isFirstJava view steps).Gives false
            | none =>
                (frame.javaSender view steps).Raises (.notJavaFrame frame.sp) ∧
                  (frame.isFirstJava view steps).Gives true) ∧
      ∀ bounds found, (frame.profiledJavaSender? view bounds).Gives (some found) →
        ∀ tracking, StreamsToJava view (.ofFrame frame tracking) found := by
  refine ⟨fun tracking walked yields several => ?_,
    fun bounds found finds => streamsToJava_of_profiled negates reliable finds⟩
  obtain ⟨callers, hasCallers, frames⟩ := yields.hasCallers
  have counted : walked.length = callers.length + 1 := by
    simpa using congrArg List.length frames
  rw [frames]
  refine ⟨fun other => FrameStream.exists_yields_of_hasCallers reliable hasCallers _, ?_⟩
  intro steps enough
  cases hasCallers with
  | first => simp at counted; omega
  | @caller _ caller callers _ hasCaller above further =>
      simp only [List.length_cons] at counted
      exact further.gives_searches reliable hasCaller (by omega)

end Frame

namespace Nested

/-- The stub that the method called is found to have been called by it. -/
theorem walkers_agree_start :
    fitsSigned (-(before.view env).layout.senderSp) = true ∧
      (before.view env).adapters.Reliable ∧
      FrameStream.Yields (before.view env) (.ofFrame start false) (frames.map .ok) ∧
      2 ≤ frames.length ∧
      (start.profiledJavaSender? (before.view env) stack.bounds).Gives (some called) ∧
      (∀ other, ∃ twins : List WalkedFrame,
        FrameStream.Yields (before.view env) (.ofFrame start other) (twins.map .ok) ∧
          twins.map WalkedFrame.frame = [start, called, handling, entry]) ∧
      (∀ steps, 4 ≤ steps →
        (start.javaSender (before.view env) steps).Gives called ∧
          (start.isFirstJava (before.view env) steps).Gives false) ∧
      ∀ tracking, Frame.StreamsToJava (before.view env) (.ofFrame start tracking) called := by
  have negates : fitsSigned (-(before.view env).layout.senderSp) = true := rfl
  have reliable : (before.view env).adapters.Reliable :=
    AdapterResolver.reliable_noAdapters
  have lists := FrameStream.gives_frames.mp walks
  have yields : FrameStream.Yields (before.view env) (.ofFrame start false)
      (frames.map .ok) :=
    lists.yields (by decide)
  have finds : (start.profiledJavaSender? (before.view env) stack.bounds).Gives
      (some called) := by
    unfold Probe.Gives
    decide +kernel
  obtain ⟨streamed, profiled⟩ := Frame.walkers_agree negates reliable start
  obtain ⟨twins, searched⟩ := streamed false frames yields (by decide)
  have first : (frames.map WalkedFrame.frame).tail.find? Frame.isJava = some called :=
    List.find?_cons_of_pos (by decide)
  simp only [first] at searched
  exact ⟨negates, reliable, yields, by decide, finds, twins, searched,
    profiled stack.bounds called finds⟩

end Nested

end ManagedStack
