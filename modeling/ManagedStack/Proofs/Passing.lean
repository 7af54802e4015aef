import Mathlib.Data.List.Nodup
import ManagedStack.Proofs.Arguments
import ManagedStack.Proofs.Roots
import ManagedStack.Proofs.Senders

namespace ManagedStack

/-!
# References among arguments on the stack

Arguments lie on the stack with the last one lowest, so that each lies above the slots
of those that come after it.  Three loops derive from a signature which of them are
references: the caller counts down from all slots, an entry frame from all but one, and
a native callee goes up through a mask and down from its locals pointer.  They meet at
the same addresses.
-/

namespace Arguments

variable {top : Address} {types : List BasicType}

/-- The slots of the references among arguments that end at an address, in order. -/
def places
    (top : Address)
    (types : List BasicType) :
    List Address :=
  (references types).map fun number => top.offset (slotsAfter types number)

theorem places_cons
    {type : BasicType}
    {rest : List BasicType} :
    places top (type :: rest) =
      (if type.isReference then [top.offset (slots rest)] else []) ++ places top rest :=
  map_references_cons _

/-- Arguments that have room in all addresses lie in different places. -/
theorem nodup_places (fits : slots types ≤ 0x2000000000000000) :
    (places top types).Nodup := by
  refine List.pairwise_map.mpr ?_
  have ascending : (references types).Pairwise (· < ·) :=
    List.pairwise_lt_range.sublist List.filter_sublist
  refine ascending.imp_of_mem fun {first second} isFirst isSecond before => ?_
  obtain ⟨type, found, isReference⟩ := mem_references.mp isFirst
  have taken := BasicType.slots_of_isReference isReference
  have fewer := slotsAfter_lt isSecond before
  have room := firstSlot_add_slotsAfter found
  exact Word.offset_ne_offset (by omega) (by omega) (by omega)

/-- References that take more words than there are addresses for share one. -/
theorem not_nodup_places_replicate
    {count : Nat}
    (crowded : 0x2000000000000000 < count) :
    ¬ (places top (List.replicate count .object)).Nodup := by
  intro distinct
  have listed (number : Nat) (inside : number < count) :
      number ∈ references (List.replicate count .object) :=
    mem_references.mpr ⟨.object, List.getElem?_replicate_of_lt inside, rfl⟩
  have same : top.offset (slotsAfter (List.replicate count .object) 0) =
      top.offset (slotsAfter (List.replicate count .object) 0x2000000000000000) := by
    rw [slotsAfter_replicate, slotsAfter_replicate, Word.offset_eq_offset_iff]
    omega
  have together := List.inj_on_of_nodup_map distinct (listed 0 (by omega))
    (listed _ crowded) same
  cases together

end Arguments

namespace LivenessMask

/-- The marks of a part come after those of the part before it. -/
theorem oopIndices_append (first second : List SlotKind) :
    oopIndices (first ++ second) =
      oopIndices first ++ (oopIndices second).map (first.length + ·) := by
  unfold oopIndices
  rw [List.length_append, List.range_add, List.filter_append, List.filter_map]
  congr 1
  · refine List.filter_congr fun index inside => ?_
    rw [List.getElem?_append_left (List.mem_range.mp inside)]
  · congr 1
    refine List.filter_congr fun index _ => ?_
    simp [List.getElem?_append_right]

end LivenessMask

namespace Method

/-- A parameter takes as many slots of a native method's mask as its type says. -/
theorem length_parameterKinds
    {type : BasicType}
    (valued : type ≠ .void) :
    (parameterKinds type).length = type.slots := by
  cases type <;> first | rfl | exact absurd rfl valued

/-- A native method's mask marks the first slot of each reference. -/
theorem oopIndices_parameterKinds
    {types : List BasicType}
    (voidsLast : Arguments.VoidsLast types) :
    LivenessMask.oopIndices (types.flatMap parameterKinds) =
      (Arguments.references types).map (Arguments.firstSlot types) := by
  induction types with
  | nil => rfl
  | cons type rest inductionHypothesis =>
      obtain ⟨here, later⟩ := List.pairwise_cons.mp voidsLast
      have first : LivenessMask.oopIndices (parameterKinds type) =
          if type.isReference then [0] else [] := by
        cases type <;> rfl
      rw [List.flatMap_cons, LivenessMask.oopIndices_append, first,
        inductionHypothesis later, Arguments.map_references_cons, List.map_map]
      by_cases isVoid : type = .void
      · have none := Arguments.references_eq_nil fun type inRest => here type inRest isVoid
        simp [none]
      · simp [length_parameterKinds isVoid, Function.comp_def]

/-- The parameters of a native method fill its mask. -/
theorem locals_nativeMask (method : Method) :
    method.nativeMask.locals =
      (Frame.argumentTypes method.signature (!method.isStatic)).flatMap parameterKinds := by
  unfold nativeMask Frame.argumentTypes
  cases method.isStatic <;> rfl

end Method

namespace Frame

variable {view : View} {frame : Frame} {top : Address}

/-! ## The caller -/

/-- Counting down from all slots comes to the slots after each reference. -/
theorem referenceDistances_eq (types : List BasicType) :
    referenceDistances (Arguments.slots types) types =
      (Arguments.references types).map (Arguments.slotsAfter types) := by
  induction types with
  | nil => rfl
  | cons type rest inductionHypothesis =>
      rw [Arguments.map_references_cons]
      simp only [referenceDistances, Arguments.slots_cons, Nat.add_sub_cancel_left,
        inductionHypothesis, Arguments.slotsAfter_cons_zero, Arguments.slotsAfter_cons_succ]
      split <;> rfl

/-- A top that is found is found without a note. -/
theorem expressionTop_of_gives (gives : (frame.expressionTop view).Gives top) :
    frame.expressionTop view = pure top := by
  unfold expressionTop lastSp field at gives ⊢
  obtain ⟨word, held, same⟩ := Probe.gives_bind.mp gives
  rw [Stack.read_of_holds (Stack.gives_read.mp held), pure_bind,
    Probe.gives_pure.mp same]

theorem visitFromTop_eq
    (gives : (frame.expressionTop view).Gives top)
    (distances : List Nat) :
    frame.visitFromTop view distances =
      Probe.visiting (distances.map fun distance : Nat => top.offset distance) := by
  induction distances with
  | nil => rfl
  | cons distance rest inductionHypothesis =>
      simp only [visitFromTop, topSlot, expressionTop_of_gives gives, inductionHypothesis,
        pure_bind, Probe.visit_eq_visiting]
      exact Probe.visiting_then [_] _

/-- A caller visits the references among the arguments on top of its stack. -/
theorem visitOutgoingArguments_eq
    (gives : (frame.expressionTop view).Gives top)
    (signature : Signature)
    (hasReceiver : Bool) :
    frame.visitOutgoingArguments view signature hasReceiver =
      Probe.visiting (Arguments.places top (argumentTypes signature hasReceiver)) := by
  unfold visitOutgoingArguments
  rw [visitFromTop_eq gives, signature.slotsWith_eq, referenceDistances_eq, List.map_map]
  rfl

/-! ## The entry frame -/

/-- Counting down from all slots but one comes to the slots after each reference. -/
theorem visitEntryParameters_eq (types : List BasicType) :
    (frame.visitEntryParameters (Arguments.slots types - 1) types : Probe ε Unit) =
      Probe.visiting (Arguments.places frame.unextendedSp types) := by
  induction types with
  | nil => rfl
  | cons type rest inductionHypothesis =>
      have next : (Arguments.slots (type :: rest) - 1 : Int) - type.slots =
          Arguments.slots rest - 1 := by
        rw [Arguments.slots_cons]
        omega
      rw [Arguments.places_cons, visitEntryParameters, next, inductionHypothesis]
      cases isReference : type.isReference with
      | false => rfl
      | true =>
          have here : (Arguments.slots (type :: rest) - 1 : Int) = Arguments.slots rest := by
            rw [Arguments.slots_cons, BasicType.slots_of_isReference isReference]
            omega
          rw [here]
          exact Probe.visiting_then [_] _

theorem visitEntryArguments_eq (method : Method) :
    (frame.visitEntryArguments method : Probe ε Unit) =
      Probe.visiting (Arguments.places frame.unextendedSp
        (argumentTypes method.signature (!method.isStatic))) := by
  have slots : method.signature.slots = Arguments.slots method.signature.parameters :=
    method.signature.slotsWith_eq false
  simp only [visitEntryArguments, slots, visitEntryParameters_eq]
  cases method.isStatic with
  | true => rfl
  | false =>
      simp only [argumentTypes, Bool.not_false, if_true, Arguments.places_cons]
      exact Probe.visiting_then [frame.entryArgument _] _

/-- An entry frame whose arguments nobody else visits visits them before the handles. -/
theorem visitEntry_eq
    {map : RegisterMap}
    {wrapper : CallWrapper}
    {word : Word}
    {method : Method}
    (wraps : (frame.callWrapper view).Gives wrapper)
    (included : map.includeArgumentOops = true)
    (calls : (wrapper.callee view.stack).Gives word)
    (found : view.methods.find? word = some method) :
    frame.visitEntry view map = (do
      Probe.visiting (Arguments.places frame.unextendedSp
        (argumentTypes method.signature (!method.isStatic)))
      wrapper.visitHandles view.stack) := by
  obtain ⟨isEntry, points⟩ := gives_callWrapper.mp wraps
  have callWrapper : frame.callWrapper view = pure wrapper := by
    unfold Frame.callWrapper expectKind callWrapperAddress
    rw [if_pos isEntry, pure_bind, field_of_holds points, pure_bind]
  have callee : wrapper.callee view.stack = pure word :=
    Stack.read_of_holds (Stack.gives_read.mp calls)
  have known : (Probe.demand (view.methods.find? word) (.unknownMethod word) :
      Probe FrameError Method) = pure method := by
    rw [found]
    rfl
  simp only [visitEntry, callWrapper, pure_bind, included, if_true, callee, known,
    visitEntryArguments_eq]

end Frame

/-! ## The native callee -/

namespace Method

/-- A method is called with arguments of a signature and perhaps a receiver. -/
structure Takes
    (method : Method)
    (signature : Signature)
    (hasReceiver : Bool) :
    Prop where
  signature : method.signature = signature
  receiver : method.isStatic = !hasReceiver

/-- A native method is laid out below its arguments and has the mask somewhere. -/
structure SitsNative
    (method : Method)
    (layout : FrameLayout)
    (top : Address)
    (placement : Session.Placement)
    (mask : LivenessMask) :
    Prop where
  native : method.isNative = true
  placed : Session.place layout method top = .ok placement
  masked : ∃ bci, method.maskAt? bci = some mask

variable {method : Method} {signature : Signature} {hasReceiver : Bool}
  {layout : FrameLayout} {top : Address} {placement : Session.Placement}
  {mask : LivenessMask}

theorem Takes.parameterSlots_eq (takes : method.Takes signature hasReceiver) :
    method.parameterSlots =
      Arguments.slots (Frame.argumentTypes signature hasReceiver) := by
  rw [parameterSlots, takes.signature, takes.receiver, Bool.not_not,
    signature.slotsWith_eq]

/-- The mask of a native method marks the references, wherever its code stands. -/
theorem SitsNative.oopLocals_eq
    (sits : method.SitsNative layout top placement mask)
    (takes : method.Takes signature hasReceiver)
    (voidsLast : Arguments.VoidsLast signature.parameters) :
    mask.oopLocals =
      (Arguments.references (Frame.argumentTypes signature hasReceiver)).map
        (Arguments.firstSlot (Frame.argumentTypes signature hasReceiver)) := by
  obtain ⟨bci, masked⟩ := sits.masked
  rw [maskAt?, if_pos sits.native, Option.some_inj] at masked
  rw [← masked, LivenessMask.oopLocals, locals_nativeMask, takes.signature,
    takes.receiver, Bool.not_not,
    oopIndices_parameterKinds (Frame.voidsLast_argumentTypes voidsLast)]

/-- The locals that the mask of a native method marks are the references. -/
theorem SitsNative.locals_eq_places
    (sits : method.SitsNative layout top placement mask)
    (takes : method.Takes signature hasReceiver)
    (voidsLast : Arguments.VoidsLast signature.parameters) :
    mask.oopLocals.map (fun index : Nat => placement.locals.offset (-index)) =
      Arguments.places top (Frame.argumentTypes signature hasReceiver) := by
  obtain ⟨-, -, -, pointer, -⟩ := Session.place_eq_ok sits.placed
  rw [sits.oopLocals_eq takes voidsLast, List.map_map]
  refine List.map_congr_left fun number listed => ?_
  obtain ⟨type, found, isReference⟩ := Arguments.mem_references.mp listed
  have taken := BasicType.slots_of_isReference isReference
  have total := Arguments.firstSlot_add_slotsAfter found
  rw [Function.comp_apply, pointer, Word.offset_offset, takes.parameterSlots_eq]
  congr 1
  omega

/-- All locals that the mask of a native method marks are its parameters. -/
theorem SitsNative.lt_parameterSlots
    {index : Nat}
    (sits : method.SitsNative layout top placement mask)
    (takes : method.Takes signature hasReceiver)
    (voidsLast : Arguments.VoidsLast signature.parameters)
    (listed : index ∈ mask.oopLocals) :
    index < method.parameterSlots := by
  rw [sits.oopLocals_eq takes voidsLast] at listed
  obtain ⟨number, isReference, rfl⟩ := List.mem_map.mp listed
  obtain ⟨type, found, isReference⟩ := Arguments.mem_references.mp isReference
  have taken := BasicType.slots_of_isReference isReference
  have total := Arguments.firstSlot_add_slotsAfter found
  rw [takes.parameterSlots_eq]
  omega

end Method

namespace Frame

/-- An interpreted caller and an entry frame visit the same slots for a call. -/
structure CallersMeet
    (signature : Signature)
    (hasReceiver : Bool)
    (top : Address) :
    Prop where
  /-- The slots are those of the receiver and of the parameters that are references. -/
  listed : ∀ slot, slot ∈ Arguments.places top (argumentTypes signature hasReceiver) ↔
    ∃ number type, (argumentTypes signature hasReceiver)[number]? = some type ∧
      type.isReference = true ∧
      slot = top.offset
        (Arguments.slotsAfter (argumentTypes signature hasReceiver) number)
  /-- Arguments that take no more words than there are addresses for share none. -/
  distinct : signature.slotsWith hasReceiver ≤ 0x2000000000000000 →
    (Arguments.places top (argumentTypes signature hasReceiver)).Nodup
  caller : ∀ (view : View) (frame : Frame), (frame.expressionTop view).Gives top →
    frame.visitOutgoingArguments view signature hasReceiver =
      Probe.visiting (Arguments.places top (argumentTypes signature hasReceiver))
  entry : ∀ (view : View) (frame : Frame) (map : RegisterMap) (wrapper : CallWrapper)
    (word : Word) (method : Method),
    frame.unextendedSp = top → (frame.callWrapper view).Gives wrapper →
      map.includeArgumentOops = true → (wrapper.callee view.stack).Gives word →
        view.methods.find? word = some method → method.Takes signature hasReceiver →
          frame.visitEntry view map = (do
            Probe.visiting (Arguments.places top (argumentTypes signature hasReceiver))
            wrapper.visitHandles view.stack)

/--
Whoever derives the references among arguments that end at an address finds the same
slots.
-/
structure ArgumentsMeet
    (signature : Signature)
    (hasReceiver : Bool)
    (top : Address) :
    Prop extends CallersMeet signature hasReceiver top where
  callee : ∀ (layout : FrameLayout) (method : Method) (placement : Session.Placement)
    (mask : LivenessMask),
    method.SitsNative layout top placement mask → method.Takes signature hasReceiver →
      mask.oopLocals.map (fun index : Nat => placement.locals.offset (-index)) =
        Arguments.places top (argumentTypes signature hasReceiver)
  /-- A frame of the callee that does not lie above its arguments visits them. -/
  calleeVisits : signature.slotsWith hasReceiver ≤ 0x2000000000000000 →
    ∀ (view : View) (frame : Frame) (method : Method) (placement : Session.Placement)
      (mask : LivenessMask),
      method.SitsNative view.layout top placement mask →
        method.Takes signature hasReceiver →
          (frame.localsPointer view).Gives placement.locals →
            (∀ slot ∈ Arguments.places top (argumentTypes signature hasReceiver),
              frame.sp ≤ slot) →
              frame.visitLocals view
                  (mask.oopLocals.filter (· < method.parameterSlots)) =
                Probe.visiting
                  (Arguments.places top (argumentTypes signature hasReceiver))

/-- Both callers count the slots that come after a reference. -/
theorem callersMeet
    (signature : Signature)
    (hasReceiver : Bool)
    (top : Address) :
    CallersMeet signature hasReceiver top where
  listed slot := by
    simp only [Arguments.places, List.mem_map, Arguments.mem_references]
    constructor
    · rintro ⟨number, ⟨type, found, isReference⟩, rfl⟩
      exact ⟨number, type, found, isReference, rfl⟩
    · rintro ⟨number, type, found, isReference, rfl⟩
      exact ⟨number, ⟨type, found, isReference⟩, rfl⟩
  distinct fits := Arguments.nodup_places (signature.slotsWith_eq hasReceiver ▸ fits)
  caller _ _ gives := visitOutgoingArguments_eq gives signature hasReceiver
  entry view frame map wrapper word method atTop wraps included calls found takes := by
    obtain rfl := atTop
    rw [visitEntry_eq wraps included calls found, takes.signature, takes.receiver,
      Bool.not_not]

/--
The arguments of any call are found alike by both callers, and also by the callee if no
parameter without a value stands before a reference.
-/
theorem argumentsMeet_of_voidsLast
    (signature : Signature)
    (hasReceiver : Bool)
    (top : Address) :
    CallersMeet signature hasReceiver top ∧
      (Arguments.VoidsLast signature.parameters →
        ArgumentsMeet signature hasReceiver top) := by
  refine ⟨callersMeet signature hasReceiver top, fun voidsLast => {
    toCallersMeet := callersMeet signature hasReceiver top
    callee := fun layout method placement mask sits takes =>
      sits.locals_eq_places takes voidsLast
    calleeVisits := ?_ }⟩
  intro fits view frame method placement mask sits takes pointer inside
  have few (index : Nat) (listed : index ∈ mask.oopLocals) :
      index < method.parameterSlots :=
    sits.lt_parameterSlots takes voidsLast listed
  have all : mask.oopLocals.filter (· < method.parameterSlots) = mask.oopLocals :=
    List.filter_eq_self.mpr fun index listed => decide_eq_true (few index listed)
  rw [← sits.locals_eq_places takes voidsLast] at inside ⊢
  rw [all]
  refine visitLocals_of_pointer (field_of_holds (gives_field.mp pointer))
    (fun index listed => ?_) fun index listed => ?_
  · have bound := few index listed
    rw [takes.parameterSlots_eq, ← signature.slotsWith_eq] at bound
    omega
  · exact inside _ (List.mem_map.mpr ⟨index, listed, rfl⟩)

end Frame

namespace Passed

/-- A receiver and four parameters, which take seven slots. -/
def signature : Signature :=
  ⟨[.long, .object, .double, .array], .void⟩

theorem parsed :
    Signature.parse "(JLjava/lang/String;D[B)V" = .ok signature := by
  cbv

def method : Method where
  id := 0x10
  name := "Main.store"
  signature := signature
  isNative := true

def interpreter : Blob :=
  .ofRange "interpreter" 0x1000 0x2000 .interpreter

def callStub : Blob :=
  .ofRange "call_stub" 0x3000 0x4000 (.callStub 0x3040)

/-- Arguments from 0x7f00 on, below the fields of a caller and a wrapper record. -/
def stack : Stack where
  base := 0x8000
  words := ((((Array.replicate 64 0).setIfInBounds 24 0x7f30).setIfInBounds 42
    0x7fa0).setIfInBounds 46 0x7f00).setIfInBounds 52 method.id
  base_aligned := Stack.aligned_8000
  fits := by simp
  allocated := by simp

def view : View where
  code := ⟨[interpreter, callStub]⟩
  methods := ⟨[method]⟩
  layout := .x86_64
  diagnostics := {}
  adapters := .noAdapters
  stack := stack
  records := {}

/-- The view of a frame in a blob. -/
def frameIn
    (blob : Blob)
    (sp fp pc : Address) :
    Frame where
  sp := sp
  unextendedSp := sp
  fp := fp
  pc := pc
  blob := some blob
  deoptState := .notDeoptimized

def placement : Session.Placement where
  localWords := 7
  locals := 0x7f30
  returnSlot := 0x7ef8
  fp := 0x7ef0
  monitorBase := 0x7ea8
  lowest := 0x7ea8

def passing : RegisterMap :=
  { RegisterMap.empty true with includeArgumentOops := true }

/-- The receiver, the string and the array, as three frames find them. -/
theorem argumentsMeet_passed :
    Arguments.VoidsLast signature.parameters ∧
      (frameIn interpreter 0x7ef8 0x7f80 0x1008).visitOutgoingArguments view signature true =
        Probe.visiting [0x7f30, 0x7f18, 0x7f00] ∧
      (frameIn callStub 0x7f00 0x7f80 0x3040).visitEntry view passing =
        Probe.visiting [0x7f30, 0x7f18, 0x7f00] ∧
      (frameIn interpreter 0x7ea8 0x7ef0 0x1008).visitLocals view [0, 3, 6] =
        Probe.visiting [0x7f30, 0x7f18, 0x7f00] ∧
      Frame.ArgumentsMeet signature true 0x7f00 := by
  have voidsLast : Arguments.VoidsLast signature.parameters :=
    Arguments.voidsLast_of_void_not_mem (Signature.void_not_mem_of_parse parsed)
  have meets := (Frame.argumentsMeet_of_voidsLast signature true 0x7f00).2 voidsLast
  have takes : method.Takes signature true := ⟨rfl, rfl⟩
  have sits : method.SitsNative .x86_64 0x7f00 placement method.nativeMask :=
    ⟨rfl, rfl, 0, rfl⟩
  have places : Arguments.places 0x7f00 (Frame.argumentTypes signature true) =
      [0x7f30, 0x7f18, 0x7f00] :=
    rfl
  have inside : ∀ slot ∈ Arguments.places 0x7f00 (Frame.argumentTypes signature true),
      (0x7ea8 : Address) ≤ slot := by
    simp only [places, List.forall_mem_cons]
    exact ⟨by decide, by decide, by decide, nofun⟩
  have marked : method.nativeMask.oopLocals.filter (· < method.parameterSlots) =
      [0, 3, 6] := by
    decide
  have noHandles : (CallWrapper.mk 0x7fa0).visitHandles view.stack = pure () :=
    rfl
  rw [← places]
  refine ⟨voidsLast, meets.caller _ _ rfl, ?_, ?_, meets⟩
  · rw [meets.entry view (frameIn callStub 0x7f00 0x7f80 0x3040) passing ⟨0x7fa0⟩ 0x10 method
      rfl rfl rfl rfl rfl takes, noHandles]
    rfl
  · rw [← marked]
    exact meets.calleeVisits (by decide) view _ method placement _ sits takes rfl inside

end Passed

namespace Valueless

/-- A static native method whose void parameter stands before a reference. -/
def method : Method where
  id := 0x20
  name := "Main.void"
  signature := signature
  isStatic := true
  isNative := true

def placement : Session.Placement where
  localWords := 1
  locals := 0x7f00
  returnSlot := 0x7ef8
  fp := 0x7ef0
  monitorBase := 0x7ea8
  lowest := 0x7ea8

theorem takes : method.Takes signature false :=
  ⟨rfl, rfl⟩

theorem sits : method.SitsNative .x86_64 0x7f00 placement method.nativeMask :=
  ⟨rfl, rfl, 0, rfl⟩

/--
The caller finds the reference in the last slot, and the callee a slot below it.  And
references that take more words than there are addresses are not found in one each.
-/
theorem not_argumentsMeet :
    (Passed.frameIn Passed.interpreter 0x7ef8 0x7f80 0x1008).visitOutgoingArguments
        Passed.view signature false = Probe.visiting [0x7f00] ∧
      method.nativeMask.oopLocals.map
          (fun index : Nat => placement.locals.offset (-index)) = [0x7ef8] ∧
      (¬ Frame.ArgumentsMeet signature false 0x7f00) ∧
      ¬ (Arguments.places 0x7f00 (Frame.argumentTypes
        ⟨List.replicate (0x2000000000000000 + 1) .object, .void⟩ false)).Nodup := by
  have below : method.nativeMask.oopLocals.map
      (fun index : Nat => placement.locals.offset (-index)) = [0x7ef8] := by
    decide
  refine ⟨(Frame.callersMeet signature false 0x7f00).caller _ _ rfl, below,
    fun meets => ?_, Arguments.not_nodup_places_replicate (Nat.lt_succ_self _)⟩
  have same := meets.callee .x86_64 method placement method.nativeMask sits takes
  rw [below] at same
  exact absurd same (by decide)

end Valueless

end ManagedStack
