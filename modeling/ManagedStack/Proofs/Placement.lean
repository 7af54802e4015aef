import ManagedStack.Proofs.Services

namespace ManagedStack

/-!
# Where a callee is laid out

With the x86-64 layout a callee takes the words below its arguments: first what its
locals need beyond the arguments, then return address and link, then nine fixed
slots.  Laying it out writes all of these and nothing at or above the last argument,
so that a run that succeeds has found every one of them on the stack, and the
activation sits.
-/

open Operation

namespace HeldActivation

/-- Where the last argument of the activation is. -/
def argumentTop (held : HeldActivation) : Address :=
  held.activation.locals.offset (1 - held.parameterSlots)

/-- What laying the activation out left in its frame for good. -/
structure Laid
    (stack : Stack)
    (callerFp returnPc : Address)
    (held : HeldActivation) :
    Prop where
  parameters : held.parameterSlots ≤ held.activation.maxLocals
  link : stack.Holds held.activation.fp callerFp
  returnAddress : stack.Holds (held.activation.fp.offset 1) returnPc
  senderSp : stack.Holds (held.activation.fp.offset (-1)) held.argumentTop
  method :
    stack.Holds (held.activation.fp.offset (-3)) held.activation.method
  locals :
    stack.Holds (held.activation.fp.offset (-6)) held.activation.locals

end HeldActivation

namespace Session

/-- Clearing locals writes them from the first downward. -/
theorem writes_clearLocals
    (locals : Address)
    (first count : Nat) :
    Stack.Writes
      (fun place => ∃ index < count,
        place = locals.offset (-(first + index : Nat)))
      (clearLocals locals first count) := by
  induction count generalizing first with
  | zero => exact (Stack.Writes.ofPure ()).congr (by simp)
  | succ count inductionHypothesis =>
      refine ((Stack.Writes.ofWrite _ 0).andThen fun _ =>
        inductionHypothesis (first + 1)).congr fun address => ?_
      constructor
      · rintro ⟨index, inside, rfl⟩
        cases index with
        | zero => exact .inl rfl
        | succ index =>
            refine .inr ⟨index, by omega, ?_⟩
            rw [Nat.add_right_comm, Nat.add_assoc]
      · rintro (rfl | ⟨index, inside, rfl⟩)
        · exact ⟨0, by omega, rfl⟩
        · refine ⟨index + 1, by omega, ?_⟩
          rw [Nat.add_right_comm, Nat.add_assoc]

/-- The fields of a fresh activation, by their distance from its frame pointer. -/
def fields
    (method : Method)
    (placement : Placement)
    (top callerFp returnPc : Address) :
    List (Int × Word) :=
  [(1, returnPc), (0, callerFp), (-1, top), (-2, placement.monitorBase),
    (-3, method.id), (-4, 0), (-5, method.constants), (-6, placement.locals),
    (-7, method.codeBase), (-8, 0), (-9, placement.monitorBase)]

/-- The fields are written one after the other. -/
theorem writeFields_eq
    {method : Method}
    {placement : Placement}
    {top callerFp returnPc : Address}
    (returnSlot : placement.returnSlot = placement.fp.offset 1) :
    writeFields .x86_64 method placement top callerFp returnPc =
      Stack.writeEach
        ((fields method placement top callerFp returnPc).map fun field =>
          (placement.fp.offset field.1, field.2)) := by
  simp [writeFields, fields, Stack.writeEach, returnSlot, FrameLayout.x86_64]

/-- Fields at different distances are at different addresses. -/
theorem fields_apart
    {method : Method}
    {placement : Placement}
    {top callerFp returnPc : Address} :
    ((fields method placement top callerFp returnPc).map fun field =>
        (placement.fp.offset field.1, field.2)).Pairwise
      fun first second => first.1 ≠ second.1 := by
  rw [List.pairwise_map]
  have distances : ((fields method placement top callerFp returnPc).map
      (·.1)).Pairwise fun first second : Int =>
        first ≠ second ∧ first - second < 0x2000000000000000 ∧
          second - first < 0x2000000000000000 := by
    change ([1, 0, -1, -2, -3, -4, -5, -6, -7, -8, -9] : List Int).Pairwise _
    decide
  rw [List.pairwise_map] at distances
  exact distances.imp fun ⟨different, near, nearToo⟩ =>
    Word.offset_ne_offset different near nearToo

/-- No field is farther away than the highest or the lowest. -/
theorem distance_of_field
    {method : Method}
    {placement : Placement}
    {top callerFp returnPc : Address}
    {field : Int × Word}
    (inside : field ∈ fields method placement top callerFp returnPc) :
    -9 ≤ field.1 ∧ field.1 ≤ 1 := by
  have distance := List.mem_map_of_mem (f := Prod.fst) inside
  change field.1 ∈ ([1, 0, -1, -2, -3, -4, -5, -6, -7, -8, -9] : List Int)
    at distance
  simp only [List.mem_cons, List.not_mem_nil, or_false] at distance
  omega

/-- There is a field at every distance from the lowest to the highest. -/
theorem exists_field
    (method : Method)
    (placement : Placement)
    (top callerFp returnPc : Address)
    (distance : Int)
    (above : -9 ≤ distance)
    (below : distance ≤ 1) :
    ∃ field ∈ fields method placement top callerFp returnPc,
      field.1 = distance := by
  have distances : distance ∈
      ([1, 0, -1, -2, -3, -4, -5, -6, -7, -8, -9] : List Int) := by
    simp only [List.mem_cons, List.not_mem_nil, or_false]
    omega
  exact List.mem_map.mp distances

/-- What a placement is made of. -/
theorem place_eq_ok
    {layout : FrameLayout}
    {method : Method}
    {top : Address}
    {placement : Placement}
    (placed : place layout method top = .ok placement) :
    ∃ down,
      subtractSigned 1 (Word.signed (UInt64.ofNat method.maxLocals)) =
          .ok down ∧
        placement.localWords = method.maxLocals ∧
        placement.locals = top.offset (method.parameterSlots - 1) ∧
        placement.returnSlot =
          top.offset (method.parameterSlots - 1 + down + -1) ∧
        placement.fp = placement.returnSlot.offset (-1) ∧
        placement.monitorBase = placement.fp.offset layout.monitorBlockBottom ∧
        placement.monitorBase.below method.maxStack = .ok placement.lowest := by
  have locals : max method.maxLocals method.parameterSlots =
      method.maxLocals := by
    simp [Method.maxLocals]
  simp only [place, locals, bind_eq_ok, Word.offset_offset] at placed
  obtain ⟨down, subtracted, lowest, lowered, made⟩ := placed
  obtain rfl := Except.ok.inj made
  refine ⟨down, subtracted, rfl, rfl, rfl, ?_, ?_, ?_⟩
  · rw [Word.offset_offset]
  · rw [Word.offset_offset]
  · exact lowered

/-- The return address is one word above the link. -/
theorem returnSlot_of_place
    {layout : FrameLayout}
    {method : Method}
    {top : Address}
    {placement : Placement}
    (placed : place layout method top = .ok placement) :
    placement.returnSlot = placement.fp.offset 1 := by
  obtain ⟨-, -, -, -, -, fp, -, -⟩ := place_eq_ok placed
  rw [fp, Word.offset_offset]
  simp

/-- A run that lays a callee out below arguments that are on the stack. -/
structure LaysOut
    (method : Method)
    (placement : Placement)
    (top callerFp returnPc : Address)
    (before after : Stack) :
    Prop where
  placed : place .x86_64 method top = .ok placement
  headroom : before.limit.toNat ≤ placement.lowest.toNat
  headroomTop : placement.lowest.toNat ≤ top.toNat
  topCovers : before.Covers top
  arguments : top.toNat + 8 * method.parameterSlots ≤ before.base.toNat
  written :
    (do
      clearLocals placement.locals method.parameterSlots
        (placement.localWords - method.parameterSlots)
      writeFields .x86_64 method placement top callerFp
        returnPc : Operation Stack FrameError Unit).Gives before () after

section Layout

variable {before after : Stack} {method : Method} {placement : Placement}
  {top callerFp returnPc : Address}

/-- Layout clears the locals beyond the arguments, and then writes the fields. -/
theorem LaysOut.runs
    (laysOut : LaysOut method placement top callerFp returnPc before after) :
    ∃ cleared,
      (clearLocals placement.locals method.parameterSlots
          (placement.localWords - method.parameterSlots)).Gives before () cleared ∧
        (Stack.writeEach
          ((fields method placement top callerFp returnPc).map fun field =>
            (placement.fp.offset field.1, field.2))).Gives cleared () after := by
  obtain ⟨_, cleared, clears, fills⟩ := gives_bind.mp laysOut.written
  rw [writeFields_eq (returnSlot_of_place laysOut.placed)] at fills
  exact ⟨cleared, clears, fills⟩

/--
The words that layout writes are one run of neighbours below the arguments.  So many
locals fit a stack that their number is its own signed reading.
-/
theorem covers_of_layout
    (laysOut : LaysOut method placement top callerFp returnPc before after) :
    ∃ extra : Nat,
      method.maxLocals = method.parameterSlots + extra ∧
        placement.fp = top.offset (-(extra + 2 : Nat)) ∧
        ∀ words : Int, -(extra + 11 : Nat) ≤ words → words ≤ 0 →
          before.Covers (top.offset words) := by
  obtain ⟨down, subtracted, localWords, locals, returnSlot, fp, -, -⟩ :=
    place_eq_ok laysOut.placed
  obtain ⟨extra, total⟩ : ∃ extra, method.maxLocals =
      method.parameterSlots + extra :=
    Nat.exists_eq_add_of_le (Nat.le_max_right ..)
  obtain ⟨cleared, clears, fills⟩ := laysOut.runs
  obtain ⟨clearCovers, clearKeeps⟩ := writes_clearLocals _ _ _ _ _ _ clears
  obtain ⟨fieldCovers, -⟩ := Stack.writes_writeEach _ _ _ _ fills
  have localCovers : ∀ words : Int, -(extra : Int) ≤ words → words ≤ 0 →
      before.Covers (top.offset words) := by
    intro words above below
    by_cases atTop : words = 0
    · simpa [atTop] using laysOut.topCovers
    · refine clearCovers _ ⟨(-words - 1).toNat, by omega, ?_⟩
      rw [locals, Word.offset_offset]
      congr 1
      omega
  have arguments := laysOut.arguments
  have lowest := Stack.toNat_offset_of_covers localCovers (by omega) (by omega)
    (Int.le_refl _) (by omega)
  have few : method.maxLocals < 0x8000000000000000 := by
    have small := before.base.toNat_lt
    have topSmall := top.toNat_lt
    omega
  have signed := Word.signed_eq (UInt64.ofNat method.maxLocals)
  have reading : (UInt64.ofNat method.maxLocals).toNat = method.maxLocals := by
    rw [UInt64.toNat_ofNat']
    omega
  rw [reading, if_pos few] at signed
  have downIs := subtractSigned_eq_ok subtracted
  have fpIs : placement.fp = top.offset (-(extra + 2 : Nat)) := by
    rw [fp, returnSlot, Word.offset_offset]
    congr 1
    omega
  refine ⟨extra, total, fpIs, fun words above below => ?_⟩
  by_cases inLocals : -(extra : Int) ≤ words
  · exact localCovers words inLocals below
  · obtain ⟨field, inside, distance⟩ := exists_field method placement top
      callerFp returnPc (words + (extra + 2 : Nat)) (by omega) (by omega)
    refine clearKeeps.covers_iff.mp (fieldCovers _
      ⟨_, List.mem_map_of_mem inside, ?_⟩)
    rw [distance, fpIs, Word.offset_offset]
    congr 1
    omega

/--
Layout writes below the arguments only.  Locals and fields alike are known by how many
words below the top they lie.
-/
theorem keeps_of_layout
    (laysOut : LaysOut method placement top callerFp returnPc before after) :
    Stack.Keeps (top.toNat ≤ ·) before after := by
  obtain ⟨extra, total, fpIs, covers⟩ := covers_of_layout laysOut
  obtain ⟨-, -, localWords, locals, -⟩ := place_eq_ok laysOut.placed
  have places (words : Int) (above : -(extra + 11 : Nat) ≤ words)
      (below : words ≤ 0) :
      ((top.offset words).toNat : Int) = top.toNat + 8 * words :=
    Stack.toNat_offset_of_covers covers (by omega) (Int.le_refl _) above below
  obtain ⟨cleared, clears, fills⟩ := laysOut.runs
  obtain ⟨-, clearKeeps⟩ := writes_clearLocals _ _ _ _ _ _ clears
  obtain ⟨-, fieldKeeps⟩ := Stack.writes_writeEach _ _ _ _ fills
  refine (clearKeeps.mono ?_).trans (fieldKeeps.mono ?_)
  · rintro place above _ ⟨index, inside, rfl⟩ same
    have lower := places (-(index + 1 : Nat)) (by omega) (by omega)
    rw [locals, Word.offset_offset] at same
    have sameMove : (method.parameterSlots : Int) - 1 +
        -((method.parameterSlots + index : Nat) : Int) =
          -(index + 1 : Nat) := by
      omega
    rw [sameMove] at same
    omega
  · rintro place above _ ⟨_, inside, rfl⟩ same
    obtain ⟨field, isField, rfl⟩ := List.mem_map.mp inside
    have distance := distance_of_field isField
    have lower := places (-(extra + 2 : Nat) + field.1) (by omega) (by omega)
    rw [fpIs, Word.offset_offset] at same
    dsimp only at same
    omega

/-- A callee that is laid out sits right below its arguments. -/
theorem sits_of_layout
    {thread : ThreadId}
    {caller : Option Nat}
    {fresh : Activation}
    (laysOut : LaysOut method placement top callerFp returnPc before after)
    (shaped : Activation.ofShape thread (shapeAt method placement caller)
      .x86_64 = .ok fresh) :
    fresh.Sits after ∧
      fresh.ceiling = top.toNat + 8 * method.parameterSlots := by
  obtain ⟨extra, total, fpIs, covers⟩ := covers_of_layout laysOut
  have keeps := keeps_of_layout laysOut
  obtain ⟨-, -, localWords, locals, -, -, monitorBase, -⟩ :=
    place_eq_ok laysOut.placed
  obtain ⟨stackLimit, scratch, -, rfl⟩ := Activation.ofShape_eq_ok shaped
  have places (words : Int) (above : -(extra + 11 : Nat) ≤ words)
      (below : words ≤ 0) :
      ((top.offset words).toNat : Int) = top.toNat + 8 * words :=
    Stack.toNat_offset_of_covers covers (by omega) (Int.le_refl _) above below
  have fpPlace := places (-(extra + 2 : Nat)) (by omega) (by omega)
  rw [← fpIs] at fpPlace
  have baseIs : placement.monitorBase = top.offset (-(extra + 11 : Nat)) := by
    rw [monitorBase, fpIs, Word.offset_offset]
    congr 1
  have basePlace := places _ (Int.le_refl _) (by omega)
  have baseCovers := covers _ (Int.le_refl _) (by omega)
  rw [← baseIs] at basePlace baseCovers
  have arguments := laysOut.arguments
  have topAligned := laysOut.topCovers.1
  have localsPlace : placement.locals.toNat + 8 =
      top.toNat + 8 * method.parameterSlots := by
    have small := before.base_le
    rw [locals, Word.toNat_offset_of_fits (by omega)
      (by omega : top.toNat + 8 * method.parameterSlots - 8 < 0x10000000000000000)]
    omega
  obtain ⟨baseAligned, limitLe, -⟩ := baseCovers
  have lowestIs : (placement.monitorBase.offset (-1)).offset 1 =
      placement.monitorBase := by
    simp
  have room := keeps.base
  constructor
  · constructor <;>
      simp only [shapeAt, Activation.monitorEnd, lowestIs, keeps.limit, room,
        localWords, FrameLayout.x86_64] <;>
      omega
  · simp only [Activation.ceiling, shapeAt, localWords]
    omega

/-- The fields are on the stack once an activation is laid out. -/
theorem LaysOut.holds
    (laysOut : LaysOut method placement top callerFp returnPc before after)
    (field : Int × Word)
    (inside : field ∈ fields method placement top callerFp returnPc) :
    after.Holds (placement.fp.offset field.1) field.2 := by
  obtain ⟨cleared, -, fills⟩ := laysOut.runs
  exact Stack.holds_of_gives_writeEach fields_apart fills _
    (List.mem_map_of_mem inside)

/-- The frame of a callee that is laid out leads back to its caller. -/
theorem laid_of_layout
    {thread : ThreadId}
    {caller : Option Nat}
    {fresh : Activation}
    (laysOut : LaysOut method placement top callerFp returnPc before after)
    (shaped : Activation.ofShape thread (shapeAt method placement caller)
      .x86_64 = .ok fresh) :
    HeldActivation.Laid after callerFp returnPc
        ⟨fresh, method.parameterSlots⟩ ∧
      HeldActivation.argumentTop ⟨fresh, method.parameterSlots⟩ = top := by
  obtain ⟨-, -, localWords, locals, -⟩ := place_eq_ok laysOut.placed
  obtain ⟨stackLimit, scratch, -, rfl⟩ := Activation.ofShape_eq_ok shaped
  have topIs : placement.locals.offset (1 - method.parameterSlots) = top := by
    rw [locals, Word.offset_offset]
    have still : (method.parameterSlots : Int) - 1 +
        (1 - method.parameterSlots) = 0 := by
      omega
    rw [still, Word.offset_zero]
  refine ⟨?_, topIs⟩
  constructor
  case parameters =>
    simp only [shapeAt, localWords]
    exact Nat.le_max_right ..
  case link =>
    have link := laysOut.holds (0, callerFp) (by simp [fields])
    simpa [shapeAt] using link
  case returnAddress => exact laysOut.holds (1, returnPc) (by simp [fields])
  case senderSp =>
    unfold HeldActivation.argumentTop
    simp only [shapeAt, topIs]
    exact laysOut.holds (-1, top) (by simp [fields])
  case method => exact laysOut.holds (-3, method.id) (by simp [fields])
  case locals => exact laysOut.holds (-6, placement.locals) (by simp [fields])

/-- The entries of a fresh activation reach down to where its method was laid out. -/
theorem LaysOut.stackLimit
    {thread : ThreadId}
    {caller : Option Nat}
    {fresh : Activation}
    (laysOut : LaysOut method placement top callerFp returnPc before after)
    (shaped : Activation.ofShape thread (shapeAt method placement caller)
      .x86_64 = .ok fresh) :
    fresh.stackLimit = placement.lowest := by
  obtain ⟨-, -, -, -, -, -, -, lowered⟩ := place_eq_ok laysOut.placed
  obtain ⟨_, _, limited, rfl⟩ := Activation.ofShape_eq_ok shaped
  obtain ⟨words, subtracted, rfl⟩ := map_eq_ok.mp limited
  have wordsIs := subtractSigned_eq_ok subtracted
  have signed := Word.signed_eq method.maxStack
  dsimp only
  rw [Word.below_eq_ok lowered, Word.offset_offset]
  refine Word.offset_eq_offset_iff.mpr ?_
  simp only [shapeAt] at wordsIs
  split at signed <;> omega

/-- The declared entries of a fresh activation fit above the stack limit. -/
theorem room_of_layout
    {thread : ThreadId}
    {caller : Option Nat}
    {fresh : Activation}
    (laysOut : LaysOut method placement top callerFp returnPc before after)
    (shaped : Activation.ofShape thread (shapeAt method placement caller)
      .x86_64 = .ok fresh)
    (sane : method.maxStack.toNat < 0x1000000000000000) :
    fresh.HasRoom (8 * method.maxStack.toNat) := by
  have sits := (sits_of_layout laysOut shaped).1
  have headroom := laysOut.headroom
  have headroomTop := laysOut.headroomTop
  have topCovers := laysOut.topCovers
  have keeps := keeps_of_layout laysOut
  have limitIs := laysOut.stackLimit shaped
  obtain ⟨-, -, -, -, -, -, -, lowered⟩ := place_eq_ok laysOut.placed
  obtain ⟨_, scratch, -, rfl⟩ := Activation.ofShape_eq_ok shaped
  dsimp only at limitIs
  have endIs : ((shapeAt method placement caller).monitorBase.offset
      (-1)).offset 1 = placement.monitorBase := by
    simp [shapeAt]
  have moved := Word.toNat_offset placement.monitorBase (-method.maxStack.toNat)
  rw [← Word.below_eq_ok lowered] at moved
  have limitLe := sits.limitLe
  have localsLe := sits.localsLe
  have fixed := sits.monitorBase
  have extent := before.toNat_limit
  have allocated := before.allocated
  rw [keeps.limit] at limitLe
  rw [keeps.base] at localsLe
  simp only [shapeAt] at limitLe localsLe fixed
  obtain ⟨-, topAbove, topBelow⟩ := topCovers
  constructor
  · simp only [Activation.monitorEnd, limitIs, endIs]
    omega
  · simp only [Activation.InRoom, limitIs]
    simp only [shapeAt]
    omega

end Layout

end Session

end ManagedStack
