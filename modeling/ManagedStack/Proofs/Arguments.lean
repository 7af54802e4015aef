import ManagedStack.Frame.References

namespace ManagedStack

/-!
# Arguments by number

The arguments of a call are the receiver, if there is one, and the parameters, in
order.  Each takes the slots of its type, so that its first slot is known from the
arguments before it, and its distance from the last slot from those after it.  The
loops over a signature count slots in different ways; here is what they count.
-/

/-- A reference takes one slot. -/
theorem BasicType.slots_of_isReference
    {type : BasicType}
    (isReference : type.isReference = true) :
    type.slots = 1 := by
  cases type <;> first | rfl | cases isReference

/-- No reference is a floating point value. -/
theorem BasicType.isFloating_of_isReference
    {type : BasicType}
    (isReference : type.isReference = true) :
    type.isFloating = false := by
  cases type <;> first | rfl | cases isReference

namespace Arguments

/-- Slots that arguments of these types take. -/
def slots (types : List BasicType) : Nat :=
  types.foldr (fun type total => type.slots + total) 0

/-- How many slots come before an argument. -/
def firstSlot
    (types : List BasicType)
    (number : Nat) :
    Nat :=
  slots (types.take number)

/-- How many slots come after an argument. -/
def slotsAfter
    (types : List BasicType)
    (number : Nat) :
    Nat :=
  slots (types.drop (number + 1))

/-- The numbers of the arguments that are references, ascending. -/
def references (types : List BasicType) : List Nat :=
  (List.range types.length).filter fun number =>
    types[number]?.any BasicType.isReference

variable {type : BasicType} {rest types : List BasicType} {number : Nat}

@[simp] theorem slots_cons : slots (type :: rest) = type.slots + slots rest :=
  rfl

@[simp] theorem firstSlot_zero : firstSlot types 0 = 0 :=
  rfl

@[simp] theorem firstSlot_cons_succ :
    firstSlot (type :: rest) (number + 1) = type.slots + firstSlot rest number :=
  rfl

@[simp] theorem slotsAfter_cons_zero : slotsAfter (type :: rest) 0 = slots rest :=
  rfl

@[simp] theorem slotsAfter_cons_succ :
    slotsAfter (type :: rest) (number + 1) = slotsAfter rest number :=
  rfl

/-- The first argument, if it is a reference, and then those of the rest. -/
theorem references_cons :
    references (type :: rest) =
      (if type.isReference then [0] else []) ++ (references rest).map (· + 1) := by
  unfold references
  rw [List.length_cons, List.range_succ_eq_map, List.filter_cons, List.filter_map]
  cases isReference : type.isReference <;> simp [isReference, Function.comp_def]

/-- What is listed of references is listed of the first one and then of the rest. -/
theorem map_references_cons (place : Nat → α) :
    (references (type :: rest)).map place =
      (if type.isReference then [place 0] else []) ++
        (references rest).map fun number => place (number + 1) := by
  rw [references_cons, List.map_append, List.map_map]
  split <;> rfl

theorem mem_references :
    number ∈ references types ↔
      ∃ type, types[number]? = some type ∧ type.isReference = true := by
  simp only [references, List.mem_filter, List.mem_range, Option.any_eq_true,
    and_iff_right_iff_imp]
  rintro ⟨type, found, -⟩
  exact (List.getElem?_eq_some_iff.mp found).1

/-- Nothing without a value stands before a reference. -/
def VoidsLast (types : List BasicType) : Prop :=
  types.Pairwise fun earlier later => earlier = .void → later.isReference = false

/-- Arguments that all have values are among those. -/
theorem voidsLast_of_void_not_mem (valued : .void ∉ types) : VoidsLast types :=
  List.pairwise_iff_getElem.mpr fun _ _ inside _ _ isVoid =>
    (valued (isVoid ▸ List.getElem_mem inside)).elim

/-- Arguments of which none is a reference are not listed. -/
theorem references_eq_nil (others : ∀ type ∈ types, type.isReference = false) :
    references types = [] := by
  refine List.eq_nil_iff_forall_not_mem.mpr fun number listed => ?_
  obtain ⟨type, found, isReference⟩ := mem_references.mp listed
  exact Bool.false_ne_true ((others type (List.mem_of_getElem? found)).symm.trans isReference)

/-- As many slots as there are arguments come after one, if all are references. -/
theorem slotsAfter_replicate
    (count number : Nat) :
    slotsAfter (List.replicate count .object) number = count - (number + 1) := by
  have taken (left : Nat) : slots (List.replicate left .object) = left := by
    induction left with
    | zero => rfl
    | succ left inductionHypothesis =>
        rw [List.replicate_succ, slots_cons, inductionHypothesis]
        exact Nat.add_comm 1 left
  rw [slotsAfter, List.drop_replicate, taken]

/-- An argument stands between the slots before it and those after it. -/
theorem firstSlot_add_slotsAfter (found : types[number]? = some type) :
    firstSlot types number + type.slots + slotsAfter types number = slots types := by
  induction types generalizing number with
  | nil => simp at found
  | cons first rest inductionHypothesis =>
      cases number with
      | zero =>
          obtain rfl : first = type := by simpa using found
          simp
      | succ number =>
          have later := inductionHypothesis (by simpa using found)
          simp only [firstSlot_cons_succ, slotsAfter_cons_succ, slots_cons]
          omega

/-- The arguments before a reference come before all of its slots. -/
theorem slotsAfter_lt
    {first second : Nat}
    (isReference : second ∈ references types)
    (before : first < second) :
    slotsAfter types second < slotsAfter types first := by
  obtain ⟨type, found, isReference⟩ := mem_references.mp isReference
  have taken := BasicType.slots_of_isReference isReference
  have found : (types.drop (first + 1))[second - (first + 1)]? = some type := by
    rw [List.getElem?_drop, ← found]
    congr 1
    omega
  have here := firstSlot_add_slotsAfter found
  have same : slotsAfter (types.drop (first + 1)) (second - (first + 1)) =
      slotsAfter types second := by
    unfold slotsAfter
    rw [List.drop_drop]
    congr 2
    omega
  change _ < slots (types.drop (first + 1))
  omega

end Arguments

namespace Signature

/-- Nothing that is read as a parameter is void. -/
theorem void_not_mem_of_readParameters?
    {text : List Char}
    {parameters : List BasicType}
    (read : readParameters? text = some parameters) :
    .void ∉ parameters := by
  fun_induction readParameters? text generalizing parameters with
  | case1 =>
      obtain rfl := Option.some.inj read
      exact List.not_mem_nil
  | case2 => cases read
  | case3 => cases read
  | case4 first rest type tail _ valued inductionHypothesis =>
      obtain ⟨later, readLater, rfl⟩ := Option.map_eq_some_iff.mp read
      exact List.not_mem_cons_of_ne_of_not_mem (Ne.symm valued)
        (inductionHypothesis readLater)

/-- The parameters that a descriptor lists have values. -/
theorem void_not_mem_of_parse
    {descriptor : String}
    {signature : Signature}
    (parsed : parse descriptor = .ok signature) :
    .void ∉ signature.parameters := by
  unfold parse at parsed
  split at parsed
  · rename_i read
    obtain rfl := Except.ok.inj parsed
    unfold ofChars? at read
    split at read
    · simp only [Option.bind_eq_bind, Option.bind_eq_some_iff] at read
      obtain ⟨⟨parameterText, resultText⟩, -, parameters, readParameters, ⟨result, tail⟩, -,
        ended⟩ := read
      split at ended
      · obtain rfl := Option.some.inj ended
        exact void_not_mem_of_readParameters? readParameters
      · cases ended
    · cases read
  · cases parsed

/-- The slots of a signature are those of its arguments. -/
theorem slotsWith_eq
    (signature : Signature)
    (hasReceiver : Bool) :
    signature.slotsWith hasReceiver =
      Arguments.slots (Frame.argumentTypes signature hasReceiver) := by
  unfold slotsWith Frame.argumentTypes
  cases hasReceiver
  · rfl
  · exact Nat.add_comm _ 1

end Signature

/-- The receiver has a value, so all arguments have one if the parameters do. -/
theorem Frame.void_not_mem_argumentTypes_iff
    {signature : Signature}
    {hasReceiver : Bool} :
    .void ∉ argumentTypes signature hasReceiver ↔ .void ∉ signature.parameters := by
  unfold argumentTypes
  cases hasReceiver <;> simp

/-- The receiver has a value, so only the order of the parameters matters. -/
theorem Frame.voidsLast_argumentTypes
    {signature : Signature}
    {hasReceiver : Bool}
    (voidsLast : Arguments.VoidsLast signature.parameters) :
    Arguments.VoidsLast (argumentTypes signature hasReceiver) := by
  unfold argumentTypes
  split
  · exact List.pairwise_cons.mpr ⟨fun _ _ isVoid => (nomatch isVoid), voidsLast⟩
  · exact voidsLast

namespace Valueless

/-- A signature that no descriptor spells: a void parameter before a reference. -/
def signature : Signature :=
  ⟨[.void, .object], .void⟩

end Valueless

end ManagedStack
