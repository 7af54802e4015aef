import ManagedStack.Proofs.Ascending
import ManagedStack.Proofs.Loops

namespace ManagedStack

/-!
# How long a walk can be

A stream asks each frame for its caller and goes on for as long as the callers move
up the stack, whatever the words of the stack are.  A step that does not cross an
entry frame reads the return address just below the stack pointer that it finds, and
a step that crosses one takes the stack pointer from a word of the stack.  So there
are at most two stack pointers of callers for each word, and as the stack pointers of
a walk ascend, each of them is met at most once.
-/

open Operation

namespace FrameLayout

/-- The return address of a frame is the word below its caller's stack pointer. -/
structure ReturnsBelow (layout : FrameLayout) : Prop where
  senderSp : layout.senderSp = layout.returnAddress + 1
  negates : fitsSigned (-layout.senderSp) = true

theorem returnsBelow_x86_64 : x86_64.ReturnsBelow where
  senderSp := rfl
  negates := rfl

end FrameLayout

namespace Stack

/-- The addresses of the words of the stack, the lowest first. -/
def addresses (stack : Stack) : List Address :=
  (List.range stack.words.size).map fun (index : Nat) =>
    stack.limit.offset index

@[simp] theorem length_addresses (stack : Stack) :
    stack.addresses.length = stack.words.size := by
  simp [addresses]

theorem Covers.mem_addresses
    {stack : Stack}
    {address : Address}
    (covers : stack.Covers address) :
    address ∈ stack.addresses := by
  have found := index?_of_covers covers
  have inside := index?_lt found
  have aligned := stack.limit_aligned
  obtain ⟨addressAligned, above, -⟩ := covers
  refine List.mem_map.mpr ⟨_, List.mem_range.mpr inside, (Word.eq_offset ?_).symm⟩
  omega

theorem Holds.mem_words
    {stack : Stack}
    {address : Address}
    {word : Word}
    (holds : stack.Holds address word) :
    word ∈ stack.words.toList := by
  have found := index?_of_covers holds.covers
  have inside := index?_lt found
  simp only [Holds, read?, found, inside, Array.getElem?_eq_getElem,
    Except.ok.injEq] at holds
  exact holds ▸ Array.mem_toList_iff.mpr (Array.getElem_mem inside)

/-- The stack pointers that a step can find for a caller. -/
def callerSps (stack : Stack) : List Address :=
  stack.addresses.map (fun address => address.offset 1) ++ stack.words.toList

theorem length_callerSps (stack : Stack) :
    stack.callerSps.length = 2 * stack.words.size := by
  simp only [callerSps, List.length_append, List.length_map, length_addresses,
    Array.length_toList]
  omega

theorem Covers.offset_mem_callerSps
    {stack : Stack}
    {address : Address}
    (covers : stack.Covers address) :
    address.offset 1 ∈ stack.callerSps :=
  List.mem_append_left _ (List.mem_map_of_mem covers.mem_addresses)

/-- Those of them that a walk can still meet above a stack pointer. -/
def callerSpsAbove
    (stack : Stack)
    (sp : Address) :
    Finset Address :=
  stack.callerSps.toFinset.filter (sp < ·)

theorem card_callerSpsAbove_le
    (stack : Stack)
    (sp : Address) :
    (stack.callerSpsAbove sp).card ≤ 2 * stack.words.size :=
  stack.length_callerSps ▸ card_ahead_le stack.callerSps (sp < ·)

/-- A step up the stack uses up the stack pointer that it finds. -/
theorem card_callerSpsAbove_lt
    {stack : Stack}
    {sp callerSp : Address}
    (above : sp < callerSp)
    (found : callerSp ∈ stack.callerSps) :
    (stack.callerSpsAbove callerSp).card < (stack.callerSpsAbove sp).card :=
  card_ahead_lt found above (UInt64.lt_irrefl callerSp) fun _ further =>
    UInt64.lt_trans above further

end Stack

/-- Every step finds one of the stack pointers that there are for callers. -/
theorem Frame.StepsTo.sp_mem_callerSps
    {layout : FrameLayout}
    {view : View}
    {frame caller : Frame}
    {map after : RegisterMap}
    (returnsBelow : layout.ReturnsBelow)
    (without : view.adapters = .noAdapters)
    (steps : StepsTo layout view frame map caller after) :
    caller.sp ∈ view.stack.callerSps := by
  have ofReturn {pc : Word}
      (returns : view.stack.Holds (frame.slot layout.returnAddress) pc) :
      frame.slot layout.senderSp ∈ view.stack.callerSps := by
    have same : frame.slot layout.senderSp =
        (frame.slot layout.returnAddress).offset 1 := by
      simp [slot, returnsBelow.senderSp]
    exact same ▸ returns.covers.offset_mem_callerSps
  cases steps with
  | interpreted _ _ _ returns => simpa using ofReturn returns
  | linked _ _ returns => simpa using ofReturn returns
  | fixed _ _ _ _ _ returns =>
      simpa using returns.covers.offset_mem_callerSps
  | entry _ _ keeps _ _ _ =>
      rw [sp_plainFrame]
      exact List.mem_append_right _ keeps.sp.mem_words
  | adapter _ resolves =>
      rw [without] at resolves
      exact (AdapterResolver.not_gives_noAdapters resolves).elim

namespace FrameStream

variable {view : View} {stream : FrameStream}
  {items : List (Except FrameError WalkedFrame)}

/-- What a stream answers when it is asked for its next item again and again. -/
def answers
    (view : View) :
    Nat → FrameStream → Probe ε (List (Option (Except FrameError WalkedFrame)))
  | 0, _ => pure []
  | count + 1, stream => do
      match ← stream.advance view with
      | none =>
          let later ← answers view count stream
          return none :: later
      | some (item, rest) =>
          let later ← answers view count rest
          return some item :: later

/-- A stream yields these items, in order, and then ends. -/
inductive Yields (view : View) :
    FrameStream → List (Except FrameError WalkedFrame) → Prop where
  | ended
      {stream : FrameStream}
      (nothing : (stream.advance view : Probe FrameError _).Gives none) :
      Yields view stream []
  | item
      {stream rest : FrameStream}
      {item : Except FrameError WalkedFrame}
      {items : List (Except FrameError WalkedFrame)}
      (advances : (stream.advance view : Probe FrameError _).Gives
        (some (item, rest)))
      (yields : Yields view rest items) :
      Yields view stream (item :: items)

/-- Each question is answered by the item of its turn, and by none after the last. -/
theorem Yields.gives_answers
    (yields : Yields view stream items)
    (count : Nat) :
    (answers view count stream : Probe FrameError _).Gives
      ((List.range count).map (items[·]?)) := by
  induction count generalizing stream items with
  | zero => exact Probe.gives_pure.mpr rfl
  | succ count inductionHypothesis =>
      rw [List.range_succ_eq_map, List.map_cons, List.map_map, answers,
        Probe.gives_bind]
      cases yields with
      | ended nothing =>
          have later := inductionHypothesis (.ended nothing)
          exact ⟨_, nothing, Probe.gives_bind.mpr ⟨_, later,
            by simp [Function.comp_def]⟩⟩
      | item advances yields =>
          have later := inductionHypothesis yields
          exact ⟨_, advances, Probe.gives_bind.mpr ⟨_, later,
            by simp [Function.comp_def]⟩⟩

theorem yields_ended (map : RegisterMap) : Yields view ⟨none, map⟩ [] :=
  .ended (Probe.gives_pure.mpr rfl)

/-- An error is the last item of its stream. -/
theorem yields_error
    (cause : FrameError)
    (map : RegisterMap) :
    Yields view ⟨some (.error cause), map⟩ [.error cause] :=
  .item (Probe.gives_pure.mpr rfl) (yields_ended map)

/-- Nothing is yielded where nothing is next. -/
theorem Yields.eq_nil
    {map : RegisterMap}
    (yields : Yields view ⟨none, map⟩ items) :
    items = [] := by
  cases yields with
  | ended => rfl
  | item advances => cases Probe.gives_pure.mp advances

/-- Nothing is yielded after an error. -/
theorem Yields.eq_singleton
    {cause : FrameError}
    {map : RegisterMap}
    (yields : Yields view ⟨some (.error cause), map⟩ items) :
    items = [.error cause] := by
  cases yields with
  | ended nothing => cases Probe.gives_pure.mp nothing
  | item advances yields =>
      cases Probe.gives_pure.mp advances
      rw [yields.eq_nil]

/-- A frame is followed by what its step comes to. -/
theorem yields_frame_iff
    {frame : Frame}
    {map : RegisterMap} :
    Yields view ⟨some (.ok frame), map⟩ items ↔
      ∃ next after later,
        (following view frame : Operation RegisterMap FrameError _).Gives map
            next after ∧
          Yields view ⟨next, after⟩ later ∧ items = .ok ⟨frame, map⟩ :: later := by
  constructor
  · intro yields
    cases yields with
    | ended nothing =>
        obtain ⟨_, _, -, ⟨⟩⟩ := gives_advance.mp nothing
    | item advances yields =>
        obtain ⟨next, after, follows, ⟨⟩⟩ := gives_advance.mp advances
        exact ⟨next, after, _, follows, yields, rfl⟩
  · rintro ⟨next, after, later, follows, yields, rfl⟩
    exact .item (gives_advance.mpr ⟨next, after, follows, rfl⟩) yields

/-- An error stands at the end of the items, if anywhere. -/
def ErrorsLast (items : List (Except FrameError WalkedFrame)) : Prop :=
  ∀ item ∈ items.dropLast, ∃ walked, item = .ok walked

theorem ErrorsLast.cons
    (walked : WalkedFrame)
    (errorsLast : ErrorsLast items) :
    ErrorsLast (.ok walked :: items) := by
  intro item inside
  cases items with
  | nil => cases inside
  | cons next later =>
      rcases List.mem_cons.mp inside with rfl | inside
      · exact ⟨walked, rfl⟩
      · exact errorsLast item inside

/-- From a frame on, a stream has two more items than stack pointers to meet. -/
theorem exists_yields
    (returnsBelow : view.layout.ReturnsBelow)
    (without : view.adapters = .noAdapters)
    (frame : Frame)
    (map : RegisterMap) :
    ∃ items, Yields view ⟨some (.ok frame), map⟩ items ∧
      items.length ≤ (view.stack.callerSpsAbove frame.sp).card + 2 ∧
        ErrorsLast items := by
  have reliable : view.adapters.Reliable := without ▸ AdapterResolver.reliable_noAdapters
  induction size : (view.stack.callerSpsAbove frame.sp).card
    using Nat.strong_induction_on generalizing frame map with
  | _ room inductionHypothesis =>
      obtain ⟨next, after, follows⟩ : ∃ next after, (following view frame :
          Operation RegisterMap FrameError _).Gives map next after :=
        Frame.exists_gives_following returnsBelow.negates reliable map
      have prepend {later : List (Except FrameError WalkedFrame)}
          (yields : Yields view ⟨next, after⟩ later) :
          Yields view ⟨some (.ok frame), map⟩ (.ok ⟨frame, map⟩ :: later) :=
        yields_frame_iff.mpr ⟨next, after, later, follows, yields, rfl⟩
      rcases gives_following.mp follows with
        ⟨cause, rfl, -⟩ | ⟨rfl, -, -⟩ | ⟨caller, rfl, -, gives⟩
      · refine ⟨_, prepend (yields_error cause after), ?_, ?_⟩
        · simp
        · exact ErrorsLast.cons _ (by simp [ErrorsLast])
      · refine ⟨_, prepend (yields_ended after), ?_, ?_⟩
        · simp
        · simp [ErrorsLast]
      · obtain ⟨gives, above⟩ := Frame.gives_senderAbove.mp gives
        have found : caller.sp ∈ view.stack.callerSps :=
          (Frame.gives_sender_iff.mp gives).sp_mem_callerSps returnsBelow without
        have fewer := Stack.card_callerSpsAbove_lt above found
        obtain ⟨later, yields, short, errorsLast⟩ :=
          inductionHypothesis _ (size ▸ fewer) caller after rfl
        refine ⟨_, prepend yields, ?_, errorsLast.cons _⟩
        simp only [List.length_cons]
        omega

/--
Where there are no adapter frames, a stream over a stack of so many words yields at
most twice as many items and two more, only the last of which may be an error, and
then nothing, however often it is asked.
-/
theorem answers_bounded
    (returnsBelow : view.layout.ReturnsBelow)
    (without : view.adapters = .noAdapters)
    (frame : Frame)
    (tracking : Bool) :
    ∃ items : List (Except FrameError WalkedFrame),
      items.length ≤ 2 * view.stack.words.size + 2 ∧ ErrorsLast items ∧
        ∀ count,
          (answers view count (ofFrame frame tracking) : Probe FrameError _).Gives
            ((List.range count).map (items[·]?)) := by
  obtain ⟨items, yields, short, errorsLast⟩ :=
    exists_yields returnsBelow without frame (RegisterMap.empty tracking)
  have room := view.stack.card_callerSpsAbove_le frame.sp
  exact ⟨items, by omega, errorsLast, yields.gives_answers⟩

end FrameStream

namespace Circular

/-- Two words, which are a link to themselves and a return address outside all code. -/
def stack : Stack where
  base := 0x8000
  words := #[0x7ff0, 0x5000]
  base_aligned := Stack.aligned_8000
  fits := by decide
  allocated := by decide

def view : View where
  code := {}
  methods := {}
  layout := .x86_64
  diagnostics := {}
  adapters := .noAdapters
  stack := stack
  records := {}

/-- The frame that the two words say is its own caller. -/
def native : Frame :=
  Frame.plainFrame view 0x8000 0x7ff0 0x5000

/-- Even a stack whose links go round in a circle is walked in six items at most. -/
theorem answers_bounded_native :
    view.layout.ReturnsBelow ∧ view.adapters = .noAdapters ∧
      ∃ items : List (Except FrameError WalkedFrame),
        items.length ≤ 6 ∧ FrameStream.ErrorsLast items ∧
          ∀ count,
            (FrameStream.answers view count (.ofFrame native true) :
              Probe FrameError _).Gives ((List.range count).map (items[·]?)) := by
  have returnsBelow : view.layout.ReturnsBelow := FrameLayout.returnsBelow_x86_64
  exact ⟨returnsBelow, rfl, FrameStream.answers_bounded returnsBelow rfl native true⟩

end Circular

end ManagedStack
