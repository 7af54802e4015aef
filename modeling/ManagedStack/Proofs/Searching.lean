import Mathlib.Logic.Relation
import ManagedStack.Proofs.CodeSpace
import ManagedStack.Proofs.Profiling
import ManagedStack.Proofs.Streams

namespace ManagedStack

/-!
# Searches that can go round in a circle

A search for a caller of some kind steps from frame to frame and, unlike a stream,
takes any caller that it finds, above or below.  The frames that steps lead to are
named by the words of the stack, so that there are four of them for each word at
most.  A search therefore either comes to its end within as many steps, or comes to
a frame for the second time; then it never ends, since a step does not depend on
what was seen before.  A search that validates every step and makes sure that it
moves up the stack always ends.
-/

open Operation

/-- The word at an address, which is zero where the stack has none. -/
def Stack.wordAt
    (stack : Stack)
    (address : Address) :
    Word :=
  (stack.read? address).toOption.getD 0

theorem Stack.Holds.wordAt_eq
    {stack : Stack}
    {address : Address}
    {word : Word}
    (holds : stack.Holds address word) :
    stack.wordAt address = word := by
  unfold Holds at holds
  simp [wordAt, holds, Except.toOption]

namespace View

/-- The frame that an anchor stands for. -/
def anchored
    (view : View)
    (anchor : FrameAnchor) :
    Frame :=
  let returnPc := view.stack.wordAt (anchor.sp.offset (-1))
  Frame.plainFrame view anchor.sp anchor.fp
    (if anchor.pc = 0 then returnPc else anchor.pc)

/--
The callers that a word can name: as the return address of an interpreted frame, of
one outside the code space or of one of fixed size, or as the first word of an
anchor.
-/
def callersAt
    (view : View)
    (address : Address) :
    List Frame :=
  let word (words : Int) := view.stack.wordAt (address.offset words)
  let slot (field : Int) := address.offset (field - view.layout.returnAddress)
  let field (field : Int) := view.stack.wordAt (slot field)
  [Frame.extendedFrame view (slot view.layout.senderSp)
      (field view.layout.interpreterSenderSp) (field view.layout.link) (word 0),
    Frame.plainFrame view (slot view.layout.senderSp) (field view.layout.link)
      (word 0),
    Frame.extendedFrame view (address.offset 1) (address.offset 1)
      (word (1 - view.layout.senderSp)) (word 0),
    view.anchored ⟨word 0, word 1, word 2⟩]

/-- The callers that the words of the stack name. -/
def callers (view : View) : List Frame :=
  view.stack.addresses.flatMap view.callersAt

theorem length_callers (view : View) :
    view.callers.length = 4 * view.stack.words.size := by
  have four (address : Address) : (view.callersAt address).length = 4 := rfl
  simp [callers, List.length_flatMap, four, Nat.mul_comm]

end View

namespace Frame

variable {view : View} {frame caller other : Frame} {map after : RegisterMap}
  {skips : Frame → Probe FrameError Bool}

/-- A step leads from one frame to the other, whatever register map it is taken with. -/
def HasCaller
    (view : View)
    (frame caller : Frame) :
    Prop :=
  ∃ map after, (frame.sender view).Gives map caller after

theorem HasCaller.gives
    (hasCaller : HasCaller view frame caller)
    (reliable : view.adapters.Reliable)
    (map : RegisterMap) :
    ∃ after, (frame.sender view).Gives map caller after := by
  obtain ⟨known, left, gives⟩ := hasCaller
  obtain ⟨after, steps⟩ := (gives_sender_iff.mp gives).of_map (fun _ => reliable) map
  exact ⟨after, gives_sender_iff.mpr steps⟩

theorem HasCaller.unique
    (one : HasCaller view frame caller)
    (another : HasCaller view frame other)
    (reliable : view.adapters.Reliable) :
    caller = other := by
  obtain ⟨map, after, gives⟩ := one
  obtain ⟨left, givesOther⟩ := another.gives reliable map
  exact gives.1.unique givesOther.1

/-- A caller is named by a word that its callee's step has read. -/
theorem HasCaller.mem_callers
    (hasCaller : HasCaller view frame caller)
    (without : view.adapters = .noAdapters) :
    caller ∈ view.callers := by
  obtain ⟨map, after, gives⟩ := hasCaller
  have named {address : Address} {word : Word}
      (holds : view.stack.Holds address word)
      (isOne : caller ∈ view.callersAt address) : caller ∈ view.callers :=
    List.mem_flatMap.mpr ⟨address, holds.covers.mem_addresses, isOne⟩
  have slotOf (field : Int) : (frame.slot view.layout.returnAddress).offset
      (field - view.layout.returnAddress) = frame.slot field := by
    have words : view.layout.returnAddress +
        (field - view.layout.returnAddress) = field := by omega
    rw [slot, Word.offset_offset, words, slot]
  cases gives_sender_iff.mp gives with
  | interpreted _ senderSp saved returns =>
      refine named returns (List.mem_cons.mpr (.inl ?_))
      simp only [slotOf, Word.offset_zero, senderSp.wordAt_eq, saved.wordAt_eq,
        returns.wordAt_eq]
  | adapter _ resolves =>
      rw [without] at resolves
      exact (AdapterResolver.not_gives_noAdapters resolves).elim
  | linked _ saved returns =>
      refine named returns (List.mem_cons_of_mem _ (List.mem_cons.mpr (.inl ?_)))
      simp only [slotOf, Word.offset_zero, saved.wordAt_eq, returns.wordAt_eq]
  | @fixed blob _ _ _ _ _ _ saved returns =>
      refine named returns (List.mem_cons_of_mem _ (List.mem_cons_of_mem _
        (List.mem_cons.mpr (.inl ?_))))
      have above : ((frame.fixedSenderSp blob).offset (-1)).offset 1 =
          frame.fixedSenderSp blob := by simp
      have linkSlot : ((frame.fixedSenderSp blob).offset (-1)).offset
          (1 - view.layout.senderSp) = frame.fixedLinkSlot view.layout blob := by
        have words : -1 + (1 - view.layout.senderSp) = -view.layout.senderSp := by omega
        rw [fixedLinkSlot, Word.offset_offset, words]
      simp only [above, linkSlot, Word.offset_zero, saved.wordAt_eq, returns.wordAt_eq]
  | @entry wrapper pc anchor _ _ keeps _ _ resumes =>
      refine named keeps.sp (List.mem_cons_of_mem _ (List.mem_cons_of_mem _
        (List.mem_cons_of_mem _ (List.mem_singleton.mpr ?_))))
      have resumed : (if anchor.pc = 0 then view.stack.wordAt (anchor.sp.offset (-1))
          else anchor.pc) = pc := by
        rcases resumes with ⟨known, rfl⟩ | ⟨unknown, holds⟩
        · exact if_neg known
        · exact (if_pos unknown).trans holds.wordAt_eq
      simp [View.anchored, keeps.sp.wordAt_eq, keeps.fp.wordAt_eq, keeps.pc.wordAt_eq,
        resumed]

/-! One round of a search. -/

/-- The search goes on past a frame to its caller. -/
def SkipsTo
    (view : View)
    (skips : Frame → Probe FrameError Bool)
    (frame caller : Frame) :
    Prop :=
  (skips frame).Gives true ∧ HasCaller view frame caller

theorem gives_skipRound_again :
    (skipRound view skips frame).Gives map (.again caller) after ↔
      (skips frame).Gives true ∧ (frame.sender view).Gives map caller after := by
  simp only [skipRound, gives_bind, gives_lift]
  constructor
  · rintro ⟨goesOn, _, ⟨looks, rfl⟩, ends⟩
    cases goesOn with
    | true =>
        obtain ⟨_, _, gives, ends⟩ := gives_bind.mp ends
        obtain ⟨⟨⟩, rfl⟩ := gives_pure.mp ends
        exact ⟨looks, gives⟩
    | false =>
        obtain ⟨⟨⟩, -⟩ := gives_pure.mp ends
  · rintro ⟨looks, gives⟩
    exact ⟨true, map, ⟨looks, rfl⟩,
      gives_bind.mpr ⟨caller, after, gives, gives_pure.mpr ⟨rfl, rfl⟩⟩⟩

theorem gives_skipRound_done
    (stops : (skips frame).Gives false)
    (map : RegisterMap) :
    (skipRound view skips frame).Gives map (.done frame) map := by
  simp only [skipRound, gives_bind, gives_lift]
  exact ⟨false, map, ⟨stops, rfl⟩, gives_pure.mpr ⟨rfl, rfl⟩⟩

theorem concludes_skipRound
    (negates : fitsSigned (-view.layout.senderSp) = true)
    (reliable : view.adapters.Reliable)
    (decides : (skips frame).Concludes) :
    (skipRound view skips frame).Concludes map :=
  .bind (concludes_ofProbe decides) fun _ _ _ =>
    .ite (fun _ => .bind (concludes_sender negates reliable) fun _ _ _ => .pure)
      fun _ => .pure

theorem concludes_isNotJavaOrFirst : (isNotJavaOrFirst view frame).Concludes :=
  .ite (fun _ => .pure) fun _ => .bind concludes_isFirst fun _ _ => .pure

/-! Circles. -/

/-- The search comes from this frame to one that it comes to again. -/
def Circles
    (view : View)
    (skips : Frame → Probe FrameError Bool)
    (frame : Frame) :
    Prop :=
  ∃ visited, Relation.ReflTransGen (SkipsTo view skips) frame visited ∧
    Relation.TransGen (SkipsTo view skips) visited visited

/-- The search from the caller of this frame comes to a frame twice. -/
def SearchCircles
    (frame : Frame)
    (view : View)
    (skips : Frame → Probe FrameError Bool) :
    Prop :=
  ∃ caller, HasCaller view frame caller ∧ Circles view skips caller

/-- A circling search has a next frame, from which it circles. -/
theorem Circles.next (circles : Circles view skips frame) :
    ∃ caller, SkipsTo view skips frame caller ∧ Circles view skips caller := by
  obtain ⟨visited, reaches, returns⟩ := circles
  rcases reaches.cases_head with rfl | ⟨caller, skipsTo, reaches⟩
  · obtain ⟨caller, skipsTo, reaches⟩ := Relation.TransGen.head'_iff.mp returns
    exact ⟨caller, skipsTo, frame, reaches, returns⟩
  · exact ⟨caller, skipsTo, visited, reaches, returns⟩

/-- One step of a circle does not move up the stack. -/
theorem Circles.exists_not_above (circles : Circles view skips frame) :
    ∃ lower upper, Relation.ReflTransGen (SkipsTo view skips) frame lower ∧
      SkipsTo view skips lower upper ∧ upper.sp ≤ lower.sp := by
  by_contra ascends
  obtain ⟨visited, reaches, returns⟩ := circles
  have above {reached : Frame}
      (path : Relation.TransGen (SkipsTo view skips) visited reached) :
      visited.sp < reached.sp := by
    have step {lower upper : Frame}
        (reachesLower : Relation.ReflTransGen (SkipsTo view skips) visited lower)
        (skipsTo : SkipsTo view skips lower upper) : lower.sp < upper.sp :=
      UInt64.not_le.mp fun notAbove =>
        ascends ⟨lower, upper, reaches.trans reachesLower, skipsTo, notAbove⟩
    induction path with
    | single skipsTo => exact step .refl skipsTo
    | tail path skipsTo inductionHypothesis =>
        exact UInt64.lt_trans inductionHypothesis (step path.to_reflTransGen skipsTo)
  exact UInt64.lt_irrefl _ (above returns)

open Classical in
/-- The callers that a search can come to from a frame. -/
noncomputable def callersAhead
    (view : View)
    (skips : Frame → Probe FrameError Bool)
    (frame : Frame) :
    Finset Frame :=
  view.callers.toFinset.filter (Relation.TransGen (SkipsTo view skips) frame)

theorem card_callersAhead_le
    (view : View)
    (skips : Frame → Probe FrameError Bool)
    (frame : Frame) :
    (callersAhead view skips frame).card ≤ 4 * view.stack.words.size := by
  classical
  exact view.length_callers ▸ card_ahead_le view.callers _

/-- A step that does not begin a circle leaves one frame behind. -/
theorem card_callersAhead_lt
    (without : view.adapters = .noAdapters)
    (straight : ¬Circles view skips caller)
    (skipsTo : SkipsTo view skips frame caller) :
    (callersAhead view skips caller).card < (callersAhead view skips frame).card := by
  classical
  have isPassed : ¬Relation.TransGen (SkipsTo view skips) caller caller :=
    fun returns => straight ⟨caller, .refl, returns⟩
  exact card_ahead_lt (skipsTo.2.mem_callers without) (.single skipsTo) isPassed
    fun _ further => further.head skipsTo

end Frame

/--
A search that is allowed some steps runs out of them however many there are, if it
circles; else it returns within a bound, and more steps make no difference.
-/
structure ReturnsUnless
    (circles : Prop)
    (bound : Nat)
    (outcome : Nat → Except (Failure ε) α) :
    Prop where
  runsOut : circles → ∀ steps, outcome steps = .error .outOfSteps
  settles : ¬circles → ∃ ended, HasReturned ended ∧
    ∀ steps, bound ≤ steps → outcome steps = ended

/-- What comes after a search does not change whether it returns. -/
theorem ReturnsUnless.bind
    {circles : Prop}
    {bound : Nat}
    {search : Nat → Probe ε α}
    {next : α → Probe ε β}
    (returns : ReturnsUnless circles bound fun steps => (search steps).outcome)
    (concludes : ∀ value, (next value).Concludes) :
    ReturnsUnless circles bound fun steps => (search steps >>= next).outcome := by
  have outcome_bind (probe : Probe ε α) : (probe >>= next).outcome =
      probe.outcome.bind fun value => (next value).outcome := by
    change (probe.andThen next).outcome = _
    obtain ⟨failure | value, notes⟩ := probe <;> rfl
  constructor
  case runsOut =>
    intro circles steps
    rw [outcome_bind, returns.runsOut circles steps]
    rfl
  case settles =>
    intro straight
    obtain ⟨ended, hasReturned, settles⟩ := returns.settles straight
    refine ⟨ended.bind fun value => (next value).outcome, ?_, fun steps enough => ?_⟩
    · rcases ended with failure | value
      · exact .error (hasReturned failure rfl)
      · exact (concludes value).hasReturned
    · rw [outcome_bind, settles steps enough]

namespace Frame

variable {view : View} {frame caller : Frame} {map : RegisterMap}
  {skips : Frame → Probe FrameError Bool}

section Searches

variable (negates : fitsSigned (-view.layout.senderSp) = true)
  (without : view.adapters = .noAdapters)
include negates without

/--
Stepping past frames returns, unless it comes to a frame twice.  Off a circle no frame
comes twice, so that every step leaves one caller fewer ahead.
-/
theorem returnsUnless_skipWhile
    (decides : ∀ frame, (skips frame).Concludes)
    (frame : Frame)
    (map : RegisterMap) :
    ReturnsUnless (Circles view skips frame) (4 * view.stack.words.size + 1)
      fun steps => (skipWhile view skips steps frame map).1.outcome := by
  have reliable : view.adapters.Reliable := without ▸ AdapterResolver.reliable_noAdapters
  constructor
  case runsOut =>
    intro circles steps
    have goesOn {visited : Frame}
        (before : RegisterMap)
        (circles : Circles view skips visited) :
        ∃ next after, (skipRound view skips visited).Gives before (.again next) after ∧
          Circles view skips next := by
      obtain ⟨next, ⟨looks, hasCaller⟩, circlesOn⟩ := circles.next
      obtain ⟨after, gives⟩ := hasCaller.gives reliable before
      exact ⟨next, after, gives_skipRound_again.mpr ⟨looks, gives⟩, circlesOn⟩
    exact outcome_loop_of_forever (Circles view skips) goesOn circles steps map
  case settles =>
    intro straight
    have straightens {visited next : Frame} {before after : RegisterMap}
        (straight : ¬Circles view skips visited)
        (goesOn : (skipRound view skips visited).Gives before (.again next) after) :
        ¬Circles view skips next ∧
          (callersAhead view skips next).card < (callersAhead view skips visited).card := by
      obtain ⟨looks, gives⟩ := gives_skipRound_again.mp goesOn
      have skipsTo : SkipsTo view skips visited next := ⟨looks, before, after, gives⟩
      have straightOn : ¬Circles view skips next := fun ⟨again, reaches, returns⟩ =>
        straight ⟨again, reaches.head skipsTo, returns⟩
      exact ⟨straightOn, card_callersAhead_lt without straightOn skipsTo⟩
    obtain ⟨ended, hasReturned, settles⟩ :=
      exists_outcome_loop (skipRound view skips) (fun frame => ¬Circles view skips frame)
        (fun frame => (callersAhead view skips frame).card)
        (fun failure => ∃ cause, failure = .error cause)
        (fun _ => (concludes_skipRound negates reliable (decides _)).hasReturned)
        straightens frame straight map
    have room := card_callersAhead_le view skips frame
    exact ⟨ended, hasReturned, fun steps enough => settles steps (by omega)⟩

/-- So does a search that begins at the caller of a frame. -/
theorem returnsUnless_search
    (decides : ∀ frame, (skips frame).Concludes)
    (frame : Frame)
    (map : RegisterMap) :
    ReturnsUnless (frame.SearchCircles view skips) (4 * view.stack.words.size + 1)
      fun steps => ((do
        let caller ← frame.sender view
        skipWhile view skips steps caller) map).1.outcome := by
  have reliable : view.adapters.Reliable := without ▸ AdapterResolver.reliable_noAdapters
  have outcomeOf (steps : Nat) := congrArg Prod.fst
    (ending_bind (frame.sender view) (skipWhile view skips steps) map)
  rcases stepped : (frame.sender view).ending map with ⟨failure | caller, after⟩
  · simp only [stepped] at outcomeOf
    constructor
    case runsOut =>
      rintro ⟨caller, hasCaller, -⟩
      obtain ⟨_, gives⟩ := hasCaller.gives reliable map
      cases (ending_of_gives gives).symm.trans stepped
    case settles =>
      intro _
      have returned := (concludes_sender negates reliable : (frame.sender view).Concludes map)
        |>.hasReturned
      exact ⟨_, .error (returned failure (congrArg Prod.fst stepped)),
        fun steps _ => outcomeOf steps⟩
  · simp only [stepped] at outcomeOf
    have hasCaller : HasCaller view frame caller :=
      ⟨map, after, gives_of_ending stepped⟩
    have fromCaller := returnsUnless_skipWhile negates without decides caller after
    constructor
    case runsOut =>
      rintro ⟨other, hasOther, circles⟩ steps
      rw [← hasCaller.unique hasOther reliable] at circles
      exact (outcomeOf steps).trans (fromCaller.runsOut circles steps)
    case settles =>
      intro straight
      obtain ⟨ended, hasReturned, settles⟩ :=
        fromCaller.settles fun circles => straight ⟨caller, hasCaller, circles⟩
      exact ⟨ended, hasReturned, fun steps enough =>
        (outcomeOf steps).trans (settles steps enough)⟩

theorem returnsUnless_realSender
    (frame : Frame)
    (map : RegisterMap) :
    ReturnsUnless (frame.SearchCircles view fun frame => pure frame.isPassedOver)
      (4 * view.stack.words.size + 1)
      fun steps => (frame.realSender view steps map).1.outcome :=
  returnsUnless_search negates without (fun _ => .pure) frame map

theorem returnsUnless_javaOrFirst (frame : Frame) :
    ReturnsUnless (frame.SearchCircles view (isNotJavaOrFirst view))
      (4 * view.stack.words.size + 1)
      fun steps => (frame.javaOrFirst view steps).outcome :=
  returnsUnless_search negates without (fun _ => concludes_isNotJavaOrFirst) frame _

/-- What is asked of the frame that a search has found is answered or fails. -/
theorem returnsUnless_javaSender (frame : Frame) :
    ReturnsUnless (frame.SearchCircles view (isNotJavaOrFirst view))
      (4 * view.stack.words.size + 1)
      fun steps => (frame.javaSender view steps).outcome :=
  (returnsUnless_javaOrFirst negates without frame).bind fun _ =>
    .ite (fun _ => .pure) fun _ => .fail

theorem returnsUnless_isFirstJava (frame : Frame) :
    ReturnsUnless (frame.SearchCircles view (isNotJavaOrFirst view))
      (4 * view.stack.words.size + 1)
      fun steps => (frame.isFirstJava view steps).outcome :=
  (returnsUnless_javaOrFirst negates without frame).bind fun _ => concludes_isFirst

end Searches

/--
The searches end as long as they come to no frame twice, and the one that validates
its steps ends in any case.  A search that does come to a frame twice has taken a
step that does not move up the stack.
-/
theorem searches_end
    (negates : fitsSigned (-view.layout.senderSp) = true)
    (without : view.adapters = .noAdapters)
    (frame : Frame) :
    (∀ map, ReturnsUnless
        (frame.SearchCircles view fun frame => pure frame.isPassedOver)
        (4 * view.stack.words.size + 1)
        fun steps => (frame.realSender view steps map).1.outcome) ∧
      ReturnsUnless (frame.SearchCircles view (isNotJavaOrFirst view))
        (4 * view.stack.words.size + 1)
        (fun steps => (frame.javaSender view steps).outcome) ∧
      ReturnsUnless (frame.SearchCircles view (isNotJavaOrFirst view))
        (4 * view.stack.words.size + 1)
        (fun steps => (frame.isFirstJava view steps).outcome) ∧
      (∀ skips, frame.SearchCircles view skips →
        ∃ caller lower upper, HasCaller view frame caller ∧
          Relation.ReflTransGen (SkipsTo view skips) caller lower ∧
            SkipsTo view skips lower upper ∧ upper.sp ≤ lower.sp) ∧
      ∀ bounds, FailsOnlyBy (ValidationGivenUp view bounds)
        (frame.profiledJavaSender? view bounds).outcome := by
  have reliable : view.adapters.Reliable := without ▸ AdapterResolver.reliable_noAdapters
  refine ⟨returnsUnless_realSender negates without frame,
    returnsUnless_javaSender negates without frame,
    returnsUnless_isFirstJava negates without frame, ?_,
    profiledJavaSender?_ends negates reliable frame⟩
  rintro skips ⟨caller, hasCaller, circles⟩
  obtain ⟨lower, upper, reaches, skipsTo, notAbove⟩ := circles.exists_not_above
  exact ⟨caller, lower, upper, hasCaller, reaches, skipsTo, notAbove⟩

/-- Whatever the words of a stack are, every search comes to an answer or an error. -/
def SearchesReturn : Prop :=
  ∀ (view : View) (frame : Frame), view.layout = .x86_64 → view.code.Built →
    view.adapters = .noAdapters →
      (∀ map, ∃ steps, HasReturned (frame.realSender view steps map).1.outcome) ∧
        (∃ steps, HasReturned (frame.javaSender view steps).outcome) ∧
          (∃ steps, HasReturned (frame.isFirstJava view steps).outcome) ∧
            ∀ bounds, HasReturned (frame.profiledJavaSender? view bounds).outcome

end Frame

namespace Circular

/-- A stub whose frames are said to take all addresses. -/
def endless : Blob :=
  { Blob.ofRange "endless" 0x5000 0x6000 .runtimeStub with
    frameSize := 0x2000000000000000 }

/-- The same two words, with a stub at the return address. -/
def stubView : View :=
  { view with code := ⟨[endless]⟩ }

/-- The frame of the stub, which is its own caller as well. -/
def stub : Frame :=
  Frame.extendedFrame stubView 0x8000 0x8000 0x7ff0 0x5000

theorem built_stubView : stubView.code.Built :=
  CodeCache.built_of_foldlM .empty
    (rfl : [endless].foldlM CodeCache.insert {} = .ok stubView.code)

theorem searchCircles_native :
    native.SearchCircles view (Frame.isNotJavaOrFirst view) := by
  have hasCaller : Frame.HasCaller view native native :=
    ⟨.empty false, .empty false, rfl, rfl⟩
  exact ⟨native, hasCaller, native, .refl, .single ⟨rfl, hasCaller⟩⟩

theorem searchCircles_stub :
    stub.SearchCircles stubView fun frame => pure frame.isPassedOver := by
  have hasCaller : Frame.HasCaller stubView stub stub :=
    ⟨.empty false, .empty false, rfl, rfl⟩
  exact ⟨stub, hasCaller, stub, .refl, .single ⟨rfl, hasCaller⟩⟩

/-- A search from a frame that is its own caller never ends. -/
theorem not_searchesReturn :
    (∀ steps, (native.javaSender view steps).outcome = .error .outOfSteps) ∧
      (∀ steps, (native.isFirstJava view steps).outcome = .error .outOfSteps) ∧
        (∀ map steps,
          (stub.realSender stubView steps map).1.outcome = .error .outOfSteps) ∧
          view.code.Built ∧ stubView.code.Built ∧ ¬Frame.SearchesReturn := by
  have negates : fitsSigned (-view.layout.senderSp) = true := rfl
  have negatesToo : fitsSigned (-stubView.layout.senderSp) = true := rfl
  have never (steps : Nat) : (native.javaSender view steps).outcome = .error .outOfSteps :=
    (Frame.returnsUnless_javaSender negates rfl native).runsOut searchCircles_native steps
  have neverFirst (steps : Nat) :
      (native.isFirstJava view steps).outcome = .error .outOfSteps :=
    (Frame.returnsUnless_isFirstJava negates rfl native).runsOut searchCircles_native steps
  refine ⟨never, neverFirst, fun map =>
    (Frame.returnsUnless_realSender negatesToo rfl stub map).runsOut searchCircles_stub,
    .empty, built_stubView, fun returns => ?_⟩
  obtain ⟨-, ⟨steps, hasReturned⟩, -⟩ := returns view native rfl .empty rfl
  obtain ⟨_, ⟨⟩⟩ := hasReturned _ (never steps)

/-- The search past stubs and adapters stops at the same frame, within nine steps. -/
theorem searches_end_native :
    fitsSigned (-view.layout.senderSp) = true ∧ view.adapters = .noAdapters ∧
      (∃ ended, HasReturned ended ∧ ∀ steps, 9 ≤ steps →
        (native.realSender view steps (.empty true)).1.outcome = ended) := by
  have negates : fitsSigned (-view.layout.senderSp) = true := rfl
  refine ⟨negates, rfl, ((Frame.searches_end negates rfl native).1 (.empty true)).settles ?_⟩
  rintro ⟨caller, hasCaller, circles⟩
  obtain ⟨next, skipsTo, -⟩ := circles.next
  obtain rfl : caller = native := hasCaller.unique
    ⟨.empty false, .empty false, rfl, rfl⟩ AdapterResolver.reliable_noAdapters
  cases skipsTo.1

end Circular

end ManagedStack
