import ManagedStack.Frame.Validation
import ManagedStack.Proofs.CodeSpace
import ManagedStack.Proofs.Memory

namespace ManagedStack

/-!
# Validators stay inside their bounds

A look at a stack is *confined* to bounds when it answers, misses no word of the
stack, and answers the same on every stack that has the same words inside the
bounds.  A chain of confined looks is confined, so that the validators are as soon
as none of their sums leaves the range of a word.  There are two such sums: where
the code of a blob has built its frame, and how large an interpreted frame may be.
-/

/-- No access outside a stack is among the notes of a chain of probes. -/
theorem Notes.faultCount_append (first second : Notes) :
    (first ++ second).faultCount = first.faultCount + second.faultCount :=
  List.countP_append

/-- The notes of a probe that answers come before those of the next one. -/
theorem Probe.notes_bind
    {first : Probe ε α}
    {next : α → Probe ε β}
    {value : α}
    (gives : first.Gives value) :
    (first >>= next).notes = first.notes ++ (next value).notes := by
  change (first.andThen next).notes = _
  obtain ⟨outcome, notes⟩ := first
  obtain rfl : outcome = .ok value := gives
  rfl

namespace Bounds

/-- The word at this place lies inside the bounds. -/
def Encloses
    (bounds : Bounds)
    (place : Nat) :
    Prop :=
  bounds.low.toNat ≤ place ∧ place + 8 ≤ bounds.high.toNat

/-- The bounds lie inside a stack. -/
structure Inside
    (bounds : Bounds)
    (stack : Stack) :
    Prop where
  limit : stack.limit ≤ bounds.low
  base : bounds.high ≤ stack.base

theorem encloses_of_contains
    {bounds : Bounds}
    {address : Address}
    (contains : bounds.contains address = true) :
    bounds.Encloses address.toNat := by
  unfold Bounds.contains Word.add? at contains
  have eight : (8 : Word).toNat = 8 := rfl
  have size : UInt64.size = 0x10000000000000000 := rfl
  split at contains
  · rename_i stop fits
    split at fits
    · rename_i small
      obtain rfl := Option.some.inj fits
      simp only [Bool.and_eq_true, decide_eq_true_eq, UInt64.le_iff_toNat_le,
        UInt64.toNat_add] at contains
      unfold Encloses
      omega
    · cases fits
  · simp at contains

end Bounds

/-- A look at a stack answers and sees only the words inside the bounds. -/
structure Confined
    (bounds : Bounds)
    (stack : Stack)
    (look : Stack → Probe ε α) :
    Prop where
  answers : ∃ value, (look stack).Gives value
  faultless : (look stack).notes.faultCount = 0
  blind : ∀ other, stack.Keeps bounds.Encloses other → look other = look stack

namespace Confined

variable {bounds : Bounds} {stack : Stack}

theorem ofPure (value : α) :
    Confined bounds stack fun _ => (pure value : Probe ε α) where
  answers := ⟨value, rfl⟩
  faultless := rfl
  blind := fun _ _ => rfl

theorem ofReport (event : Event) :
    Confined bounds stack fun _ => (Probe.report event : Probe ε Unit) where
  answers := ⟨(), rfl⟩
  faultless := rfl
  blind := fun _ _ => rfl

theorem ofCheck
    {checked : Except Abort α}
    {value : α}
    (isOk : checked = .ok value) :
    Confined bounds stack fun _ => (Probe.check checked : Probe ε α) where
  answers := ⟨value, Probe.gives_check.mpr isOk⟩
  faultless := by rw [isOk]; rfl
  blind := fun _ _ => rfl

/--
A chain is confined when its links are.  Only the value that the first link gives
reaches the second.
-/
theorem bind
    {first : Stack → Probe ε α}
    {next : α → Stack → Probe ε β}
    (firstConfined : Confined bounds stack first)
    (nextConfined : ∀ value, (first stack).Gives value →
      Confined bounds stack (next value)) :
    Confined bounds stack fun current =>
      first current >>= fun value => next value current := by
  obtain ⟨middle, gives⟩ := firstConfined.answers
  have goesOn := nextConfined middle gives
  constructor
  case answers =>
    obtain ⟨value, given⟩ := goesOn.answers
    exact ⟨value, Probe.gives_bind.mpr ⟨middle, gives, given⟩⟩
  case faultless =>
    rw [Probe.notes_bind gives, Notes.faultCount_append,
      firstConfined.faultless, goesOn.faultless]
  case blind =>
    intro other keeps
    have sameGives : (first other).Gives middle := by
      rw [firstConfined.blind other keeps]
      exact gives
    rw [firstConfined.blind other keeps]
    change (first stack).andThen _ = (first stack).andThen _
    unfold Probe.andThen
    rw [show (first stack).outcome = .ok middle from gives]
    dsimp only
    rw [goesOn.blind other keeps]

/-- A choice is confined when the chosen side is. -/
theorem ofChoice
    {condition : Prop}
    {decides : Stack → Decidable condition}
    {yes no : Stack → Probe ε α}
    (yesConfined : condition → Confined bounds stack yes)
    (noConfined : ¬condition → Confined bounds stack no) :
    Confined bounds stack fun current =>
      @ite _ condition (decides current) (yes current) (no current) := by
  by_cases holds : condition
  · simpa only [holds, if_true] using yesConfined holds
  · simpa only [holds, if_false] using noConfined holds

/-- A read inside bounds that lie inside the stack finds its word or refuses. -/
theorem ofReadWithin
    (inside : bounds.Inside stack)
    (address : Address) :
    Confined bounds stack fun current =>
      (current.readWithin bounds address : Probe ε (Option Word)) := by
  unfold Stack.readWithin
  by_cases refused : (!address.isAligned || !bounds.contains address) = true
  · simp only [refused, if_true]
    exact ofPure none
  simp only [refused, Bool.false_eq_true, if_false]
  obtain ⟨aligned, contained⟩ :
      address.isAligned = true ∧ bounds.contains address = true := by
    simpa using refused
  have encloses := Bounds.encloses_of_contains contained
  have above := encloses.1
  have below := encloses.2
  have low := UInt64.le_iff_toNat_le.mp inside.limit
  have high := UInt64.le_iff_toNat_le.mp inside.base
  have covers : stack.Covers address :=
    ⟨by simpa [Word.isAligned, Word.bytes] using aligned, by omega, by omega⟩
  obtain ⟨word, holds⟩ := Stack.exists_holds covers
  have found : stack.read? address = .ok word := holds
  constructor
  case answers => exact ⟨some word, by rw [found]; rfl⟩
  case faultless => rw [found]; rfl
  case blind =>
    intro other keeps
    rw [keeps.word address encloses]

end Confined

/-- The view with another stack. -/
def View.withStack
    (view : View)
    (stack : Stack) :
    View :=
  { view with stack := stack }

@[simp] theorem View.toEnv_withStack (view : View) (stack : Stack) :
    (view.withStack stack).toEnv = view.toEnv :=
  rfl

@[simp] theorem View.stack_withStack (view : View) (stack : Stack) :
    (view.withStack stack).stack = stack :=
  rfl

namespace Frame

variable {view : View} {bounds : Bounds} {frame : Frame}

/-- The sums that the validators build for a frame and the methods fit a word. -/
structure Measurable
    (view : View)
    (frame : Frame) :
    Prop where
  complete : ∀ blob ∈ frame.blob, ∀ offset ∈ blob.frameCompleteOffset,
    blob.contains frame.pc = true →
      blob.start.toNat + offset.toNat < UInt64.size
  allowance : ∀ method ∈ view.methods.methods,
    view.layout.interpreterFrameSlackWords.toNat + method.maxStack.toNat <
      UInt64.size

/-- Resolving a frame looks at the records alone. -/
theorem confined_plain (sp fp pc : Address) :
    Confined bounds view.stack fun stack =>
      (plain (view.withStack stack) sp fp pc : Probe ε Frame) := by
  change Confined bounds view.stack fun _ => (plain view sp fp pc : Probe ε Frame)
  unfold plain resolve
  split
  · split
    · exact .ofPure _
    · exact (Confined.ofReport _).bind fun _ _ => .ofPure _
  · exact .ofPure _

section Confined

variable (inside : bounds.Inside view.stack)
include inside

theorem confined_fieldWithin
    (frame : Frame)
    (offset : Int) :
    Confined bounds view.stack fun stack =>
      (frame.fieldWithin (view.withStack stack) bounds offset :
        Probe ε (Option Word)) :=
  .ofReadWithin inside _

theorem confined_savedLinkIfSafe?
    (negates : fitsSigned (-view.layout.senderSp) = true)
    (senderSp : Address) :
    Confined bounds view.stack fun stack =>
      (savedLinkIfSafe? (view.withStack stack) bounds senderSp :
        Probe ε (Option Address)) := by
  unfold savedLinkIfSafe?
  have negated : negateSigned view.layout.senderSp =
      .ok (-view.layout.senderSp) := by
    simp [negateSigned, negates]
  exact (Confined.ofCheck negated).bind fun linkOffset _ =>
    (Confined.ofReadWithin inside _).bind fun saved _ => .ofPure _

theorem confined_isCallWrapperSafe (fp : Address) :
    Confined bounds view.stack fun stack =>
      (isCallWrapperSafe (view.withStack stack) bounds fp : Probe ε Bool) := by
  unfold isCallWrapperSafe
  simp only [View.toEnv_withStack, View.stack_withStack]
  exact (Confined.ofReadWithin inside _).bind fun wrapper _ => .ofPure _

theorem confined_isInterpretedValid
    (allowance : ∀ method ∈ view.methods.methods,
      view.layout.interpreterFrameSlackWords.toNat + method.maxStack.toNat <
        UInt64.size) :
    Confined bounds view.stack fun stack =>
      (frame.isInterpretedValid (view.withStack stack) bounds :
        Probe ε Bool) := by
  unfold isInterpretedValid
  simp only [View.toEnv_withStack]
  refine .ofChoice (fun _ => .ofPure _) fun _ => ?_
  refine (confined_fieldWithin inside frame _).bind fun word _ => ?_
  rcases found : word.bind view.methods.find? with _ | method
  · exact .ofPure _
  obtain ⟨_, -, isMethod⟩ := Option.bind_eq_some_iff.mp found
  have fits := allowance method (List.mem_of_find?_eq_some isMethod)
  refine (Confined.ofCheck (Word.plus_of_fits fits)).bind fun allowance _ => ?_
  refine .ofChoice (fun _ => .ofPure _) fun _ => ?_
  refine (confined_fieldWithin inside frame _).bind fun position _ => ?_
  refine .ofChoice (fun _ => .ofPure _) fun _ => ?_
  refine (confined_fieldWithin inside frame _).bind fun cache _ => ?_
  refine .ofChoice (fun _ => .ofPure _) fun _ => ?_
  exact (confined_fieldWithin inside frame _).bind fun locals _ => .ofPure _

variable
  (negates : fitsSigned (-view.layout.senderSp) = true)
  (allowance : ∀ method ∈ view.methods.methods,
    view.layout.interpreterFrameSlackWords.toNat + method.maxStack.toNat <
      UInt64.size)
include negates allowance

theorem confined_isReturnSafe (senderSp pc : Address) :
    Confined bounds view.stack fun stack =>
      (isReturnSafe (view.withStack stack) bounds senderSp pc :
        Probe ε Bool) := by
  unfold isReturnSafe
  simp only [View.toEnv_withStack]
  rcases view.code.find? pc with _ | blob
  · exact .ofPure _
  dsimp only
  refine .ofChoice (fun _ => ?interpreted) fun _ => .ofChoice (fun _ => .ofPure _)
    fun _ => .ofChoice (fun _ => ?entry) fun _ => .ofPure _
  case interpreted =>
    refine (confined_savedLinkIfSafe? inside negates senderSp).bind fun link _ => ?_
    cases link with
    | none => exact .ofPure _
    | some link =>
        exact (confined_plain _ _ _).bind fun caller _ =>
          confined_isInterpretedValid inside allowance
  case entry =>
    refine (confined_savedLinkIfSafe? inside negates senderSp).bind fun link _ => ?_
    cases link with
    | none => exact .ofPure _
    | some link =>
        exact (confined_plain _ _ _).bind fun caller _ =>
          confined_isCallWrapperSafe inside _

end Confined

theorem confined_returnWithin?
    (inside : bounds.Inside view.stack)
    (blob : Blob) :
    Confined bounds view.stack fun stack =>
      (frame.returnWithin? (view.withStack stack) bounds blob :
        Probe ε (Option (Address × Word))) := by
  unfold returnWithin?
  simp only [View.toEnv_withStack, View.stack_withStack, senderSp]
  refine .ofChoice (fun _ => .ofChoice (fun _ => ?_) fun _ => .ofPure _) fun _ => ?_
  · exact (confined_fieldWithin inside frame _).bind fun pc _ => .ofPure _
  · rcases frame.fixedSizeSenderSp? blob with _ | senderSp
    · exact .ofPure _
    · exact (Confined.ofReadWithin inside _).bind fun pc _ => .ofPure _

theorem confined_isNativeSafe (inside : bounds.Inside view.stack) :
    Confined bounds view.stack fun stack =>
      (frame.isNativeSafe (view.withStack stack) bounds : Probe ε Bool) := by
  unfold isNativeSafe
  simp only [View.toEnv_withStack]
  refine .ofChoice (fun _ => ?_) fun _ => .ofPure _
  exact (confined_fieldWithin inside frame _).bind fun pc _ => .ofPure _

theorem confined_isSafeForSender
    (inside : bounds.Inside view.stack)
    (negates : fitsSigned (-view.layout.senderSp) = true)
    (measurable : frame.Measurable view) :
    Confined bounds view.stack fun stack =>
      (frame.isSafeForSender (view.withStack stack) bounds : Probe ε Bool) := by
  unfold isSafeForSender
  refine .ofChoice (fun _ => .ofPure _) fun _ => ?_
  rcases runsIn : frame.blob with _ | blob
  · exact confined_isNativeSafe inside
  dsimp only
  obtain ⟨complete, built⟩ : ∃ complete,
      blob.isFrameCompleteAt frame.pc = .ok complete := by
    unfold Blob.isFrameCompleteAt
    rcases hasOffset : blob.frameCompleteOffset with _ | offset
    · exact ⟨_, rfl⟩
    · by_cases within : blob.contains frame.pc = true
      · have fits := measurable.complete blob runsIn offset hasOffset within
        simp only [within, if_true, Word.plus_of_fits fits]
        exact ⟨_, rfl⟩
      · exact ⟨_, if_neg within⟩
  refine (Confined.ofCheck built).bind fun complete _ => ?_
  refine .ofChoice (fun _ => .ofPure _) fun _ => ?_
  refine .ofChoice (fun _ => .ofChoice (fun _ => ?_) fun _ => .ofPure _) fun _ => ?_
  · exact confined_isCallWrapperSafe inside _
  · refine (confined_returnWithin? inside blob).bind fun found _ => ?_
    cases found with
    | none => exact .ofPure _
    | some found =>
        dsimp only
        refine .ofChoice (fun _ => .ofPure _) fun _ => ?_
        exact confined_isReturnSafe inside negates measurable.allowance _ _

/--
Both validators answer, miss no word of the stack, and see only words inside the
bounds, as long as no sum that they build leaves the range of a word.
-/
theorem validators_confined
    (inside : bounds.Inside view.stack)
    (negates : fitsSigned (-view.layout.senderSp) = true)
    (measurable : frame.Measurable view) :
    Confined bounds view.stack
        (fun stack =>
          (frame.isSafeForSender (view.withStack stack) bounds :
            Probe FrameError Bool)) ∧
      Confined bounds view.stack
        (fun stack =>
          (frame.isInterpretedValid (view.withStack stack) bounds :
            Probe FrameError Bool)) :=
  ⟨confined_isSafeForSender inside negates measurable,
    confined_isInterpretedValid inside measurable.allowance⟩

/-- Whatever the frame, both validators answer for bounds inside the stack. -/
def ValidatorsAnswer : Prop :=
  ∀ (view : View) (bounds : Bounds) (sp unextendedSp fp pc : Address)
    (frame : Frame),
    view.layout = .x86_64 → view.code.Built → bounds.Inside view.stack →
      (extended view sp unextendedSp fp pc : Probe FrameError Frame).Gives frame →
        (∃ answer, (frame.isSafeForSender view bounds :
          Probe FrameError Bool).Gives answer) ∧
        ∃ answer, (frame.isInterpretedValid view bounds :
          Probe FrameError Bool).Gives answer

end Frame

namespace Extremes

/-- A method that asks for more stack words than there are addresses for. -/
def method : Method where
  id := 0x10
  name := "Main.recurse"
  signature := ⟨[], .void⟩
  maxStack := 0xffffffffffffffff

def interpreter : Blob :=
  .ofRange "interpreter" 0x1000 0x2000 .interpreter

/-- A stub that builds its frame past the last address. -/
def stub : Blob :=
  { Blob.ofRange "stub" 0x3000 0x4000 .runtimeStub with
    frameCompleteOffset := some 0xffffffffffffffff }

/-- A stack of zeros but for one method word. -/
def stack : Stack where
  base := 0x8000
  words := (Array.replicate 32 0).setIfInBounds 21 method.id
  base_aligned := Stack.aligned_8000
  fits := by simp
  allocated := by simp

def view : View where
  code := ⟨[interpreter, stub]⟩
  methods := ⟨[method]⟩
  layout := .x86_64
  diagnostics := {}
  adapters := .noAdapters
  stack := stack
  records := {}

theorem built : view.code.Built :=
  CodeCache.built_of_foldlM .empty
    (rfl : [interpreter, stub].foldlM CodeCache.insert {} = .ok view.code)

theorem inside : stack.bounds.Inside view.stack :=
  ⟨UInt64.le_refl _, UInt64.le_refl _⟩

/-- The view of a frame of the interpreter or of the stub. -/
def frameIn
    (blob : Blob)
    (pc : Address) :
    Frame where
  sp := 0x7f00
  unextendedSp := 0x7f00
  fp := 0x7fc0
  pc := pc
  blob := some blob
  deoptState := .notDeoptimized

/-- With a method that asks for little, a frame of the interpreter is measurable. -/
theorem validators_confined_interpreter :
    let ordinary : View :=
      { view with methods := ⟨[{ method with maxStack := 8 }]⟩ }
    (frameIn interpreter 0x1008).Measurable ordinary ∧
      Confined stack.bounds stack
          (fun current =>
            ((frameIn interpreter 0x1008).isSafeForSender
              (ordinary.withStack current) stack.bounds :
                Probe FrameError Bool)) ∧
        Confined stack.bounds stack
          (fun current =>
            ((frameIn interpreter 0x1008).isInterpretedValid
              (ordinary.withStack current) stack.bounds :
                Probe FrameError Bool)) := by
  intro ordinary
  have measurable : (frameIn interpreter 0x1008).Measurable ordinary := by
    constructor
    · rintro blob runsIn offset hasOffset -
      obtain rfl := Option.some.inj runsIn
      obtain rfl := Option.some.inj hasOffset
      decide
    · intro method known
      obtain rfl := List.mem_singleton.mp known
      decide
  have isInside : stack.bounds.Inside ordinary.stack := inside
  exact ⟨measurable, Frame.validators_confined isInside (by decide) measurable⟩

/--
The offset of a stub and the allowance of a method are added up without a check, and
the sums can leave the range of a word.
-/
theorem not_validatorsAnswer :
    ((frameIn stub 0x3008).isSafeForSender view stack.bounds :
        Probe FrameError Bool).GivesUp (.overflow .add) ∧
      ((frameIn interpreter 0x1008).isInterpretedValid view stack.bounds :
        Probe FrameError Bool).GivesUp (.overflow .add) ∧
      ¬Frame.ValidatorsAnswer := by
  have unsafeGivesUp : ((frameIn stub 0x3008).isSafeForSender view
      stack.bounds : Probe FrameError Bool).GivesUp (.overflow .add) :=
    rfl
  refine ⟨unsafeGivesUp, rfl, fun answer => ?_⟩
  obtain ⟨⟨given, gives⟩, -⟩ := answer view stack.bounds 0x7f00 0x7f00 0x7fc0 0x3008
    (frameIn stub 0x3008) rfl built inside rfl
  cases unsafeGivesUp.symm.trans gives

end Extremes

end ManagedStack
