import ManagedStack.Proofs.Entering
import ManagedStack.Proofs.Growing

namespace ManagedStack

/-!
# The chain on the stack

Each activation rests on the words of its caller, and the outermost one on the entry
frame: its frame leads back to what it rests on, and its ceiling lies at or below
what that owns.  An activation works only below its monitors and in its locals, and
the locals that its caller pushed for it are no longer the caller's own, so that
nothing a callee does reaches the frames of those that wait for it.
-/

open Operation

namespace Activation

/-- The slots of the frame hold the registers. -/
def Published
    (stack : Stack)
    (activation : Activation) :
    Prop :=
  ∀ slot : PublishedSlot,
    stack.Holds (slot.address .x86_64 activation) (slot.word activation)

variable {stack after : Stack} {activation : Activation}

/-- The fixed slots of a frame are where their distances say. -/
theorem Sits.toNat_slot
    (sits : activation.Sits stack)
    {distance : Int}
    (above : -9 ≤ distance)
    (below : distance ≤ 1) :
    ((activation.fp.offset distance).toNat : Int) =
      activation.fp.toNat + 8 * distance := by
  have moved := Word.toNat_offset activation.fp distance
  have lowest := sits.monitorBase
  have highest := sits.localsLe
  have small := stack.base.toNat_lt
  omega

/-- The words of the caller begin right above the return address. -/
theorem Sits.toNat_senderSp (sits : activation.Sits stack) :
    (activation.fp.offset 2).toNat = activation.fp.toNat + 16 := by
  have highest := sits.localsLe
  have small := stack.base.toNat_lt
  exact Word.toNat_offset_of_fits (by omega) (by omega)

end Activation

namespace PublishedSlot

/-- No slot that publishing writes is one of those that lead back. -/
theorem distance (slot : PublishedSlot) :
    -9 ≤ slot.offset .x86_64 ∧ slot.offset .x86_64 ≤ -2 ∧
      slot.offset .x86_64 ≠ -3 ∧ slot.offset .x86_64 ≠ -5 ∧
      slot.offset .x86_64 ≠ -6 := by
  cases slot <;> decide

/-- Different slots are at different addresses. -/
theorem address_ne
    (activation : Activation)
    {slot other : PublishedSlot}
    (different : slot ≠ other) :
    slot.address .x86_64 activation ≠ other.address .x86_64 activation := by
  have apart : slot.offset .x86_64 ≠ other.offset .x86_64 := by
    cases slot <;> cases other <;> first | exact absurd rfl different | decide
  have here := slot.distance
  have there := other.distance
  exact Word.offset_ne_offset apart (by omega) (by omega)

end PublishedSlot

namespace Activation

variable {stack after : Stack} {activation : Activation}

/-- Registers stay published as long as the slots keep their words. -/
theorem Published.of_keeps
    {kept : Nat → Prop}
    (published : activation.Published stack)
    (sits : activation.Sits stack)
    (keeps : Stack.Keeps kept stack after)
    (inside : ∀ place : Nat, activation.monitorBase.toNat ≤ place →
      place < activation.fp.toNat → kept place) :
    activation.Published after := by
  intro slot
  have distance := slot.distance
  have place := sits.toNat_slot (by omega : -9 ≤ slot.offset .x86_64)
    (by omega)
  have lowest := sits.monitorBase
  refine keeps.holds (published slot) (inside _ ?_ ?_) <;>
    unfold PublishedSlot.address <;> omega

/-- What a commit publishes is published. -/
theorem Published.of_publishes
    {context : ManagerContext τ}
    (x86 : context.env.layout = .x86_64)
    (publishes : Session.Publishes context activation stack after) :
    activation.Published after := by
  have holds := publishes.holds
  rw [x86] at holds
  exact holds fun slot other different =>
    PublishedSlot.address_ne activation different

end Activation

/-- A method that is found is found by its own identity. -/
theorem MethodTable.find?_id
    {table : MethodTable}
    {word : Word}
    {method : Method}
    (found : table.find? word = some method) :
    table.find? method.id = some method := by
  have same : (method.id == word) = true :=
    List.find?_some (p := fun method : Method => method.id == word) found
  rw [eq_of_beq same]
  exact found

namespace HeldActivation

variable {stack after : Stack} {held : HeldActivation}
  {callerFp returnPc : Address}

/-- The frame leads back as long as the slots for that keep their words. -/
theorem Laid.of_keeps
    {kept : Nat → Prop}
    (laid : held.Laid stack callerFp returnPc)
    (keeps : Stack.Keeps kept stack after)
    (inside : ∀ distance ∈ [0, 1, -1, -3, -6],
      kept (held.activation.fp.offset distance).toNat) :
    held.Laid after callerFp returnPc where
  parameters := laid.parameters
  link := by
    have kept := inside 0 (by simp)
    rw [Word.offset_zero] at kept
    exact keeps.holds laid.link kept
  returnAddress := keeps.holds laid.returnAddress (inside 1 (by simp))
  senderSp := keeps.holds laid.senderSp (inside (-1) (by simp))
  method := keeps.holds laid.method (inside (-3) (by simp))
  locals := keeps.holds laid.locals (inside (-6) (by simp))

/-- The arguments end at the ceiling. -/
theorem toNat_argumentTop
    (sits : held.activation.Sits stack)
    (parameters : held.parameterSlots ≤ held.activation.maxLocals) :
    held.argumentTop.toNat + 8 * held.parameterSlots =
      held.activation.ceiling := by
  have locals := sits.locals
  have small := stack.base.toNat_lt
  have high := sits.localsLe
  unfold argumentTop Activation.ceiling
  have moved := Word.toNat_offset held.activation.locals
    (1 - held.parameterSlots)
  omega

/-- The activation runs a known method, with the words that it declares. -/
def Runs
    (methods : MethodTable)
    (held : HeldActivation) :
    Prop :=
  ∃ method, methods.find? held.activation.method = some method ∧
    held.parameterSlots = method.parameterSlots ∧
    held.activation.maxLocals = method.maxLocals ∧
    (method.maxStack.toNat < 0x1000000000000000 →
      held.activation.HasRoom (8 * method.maxStack.toNat))

end HeldActivation

/-- What an activation rests on: where its frame leads back to, and what it owns. -/
structure Footing where
  fp : Address
  returnPc : Address
  /-- Words from here upward are not the activation's. -/
  floor : Nat

section Chain

variable (context : ManagerContext τ)

/-- An activation rests on its caller, and the outermost one on the entry. -/
def footing (entry : EntryRecord) : List HeldActivation → Footing
  | [] => ⟨entry.framePointer, context.entryPoints.callStubReturnPc, entry.floor⟩
  | caller :: _ =>
      ⟨caller.activation.fp, context.entryPoints.interpreterReturnPc,
        caller.activation.monitorEnd.toNat⟩

/-- An activation lies on the stack right below those that wait for it. -/
structure Rests
    (stack : Stack)
    (entry : EntryRecord)
    (held : HeldActivation)
    (callers : List HeldActivation) :
    Prop where
  sits : held.activation.Sits stack
  laid : held.Laid stack (footing context entry callers).fp
    (footing context entry callers).returnPc
  runs : held.Runs context.env.methods
  constants : ∀ method ∈ context.env.methods.find? held.activation.method,
    stack.Holds (held.activation.fp.offset (-5)) method.constants
  within : held.activation.ceiling ≤ (footing context entry callers).floor
  arguments : ∀ caller ∈ callers.head?,
    caller.activation.stackTop = held.argumentTop

/-- The activations of a chain, top first, lie on the stack and are published. -/
def Chained
    (stack : Stack)
    (entry : EntryRecord) :
    List HeldActivation → Prop
  | [] => entry.Stands stack
  | held :: callers =>
      Rests context stack entry held callers ∧
        held.activation.Published stack ∧
        Chained stack entry callers

end Chain

section Chain

variable {context : ManagerContext τ} {stack before after : Stack}
  {entry : EntryRecord} {held : HeldActivation}
  {callers chain : List HeldActivation}

/-- Where the frame of what an activation rests on ends, monitors excepted. -/
def frameEnd (entry : EntryRecord) : List HeldActivation → Nat
  | [] => entry.floor
  | held :: _ => held.activation.monitorBase.toNat

/-- What a footing owns reaches down to the frame or further. -/
theorem floor_le_frameEnd
    (chained : Chained context stack entry chain) :
    (footing context entry chain).floor ≤ frameEnd entry chain := by
  cases chain with
  | nil => exact Nat.le_refl _
  | cons held callers => exact chained.1.sits.monitorEndLe

/-- An entry frame stands below every chain. -/
theorem Chained.stands
    (chained : Chained context stack entry chain) :
    entry.Stands stack := by
  induction chain with
  | nil => exact chained
  | cons held callers inductionHypothesis =>
      exact inductionHypothesis chained.2.2

/-- What a footing owns lies on the stack. -/
theorem Chained.floor_le_base
    (chained : Chained context stack entry chain) :
    (footing context entry chain).floor ≤ stack.base.toNat := by
  cases chain with
  | nil =>
      have stands : entry.Stands stack := chained
      obtain ⟨count, -, above, -⟩ := stands.handles
      have frame := stands.toNat_framePointer
      simp only [footing, EntryRecord.floor]
      omega
  | cons held callers =>
      have sits := chained.1.sits
      have monitors := sits.monitorEndLe
      have fixed := sits.monitorBase
      have high := sits.localsLe
      simp only [footing]
      omega

/-- An activation goes on resting where the slots that lead back stay. -/
theorem Rests.of_slots
    {kept : Nat → Prop}
    (rests : Rests context stack entry held callers)
    (keeps : Stack.Keeps kept stack after)
    (inside : ∀ distance ∈ [0, 1, -1, -3, -5, -6],
      kept (held.activation.fp.offset distance).toNat) :
    Rests context after entry held callers where
  sits := rests.sits.of_keeps keeps
  laid := rests.laid.of_keeps keeps fun distance isSlot =>
    inside distance (by simp at isSlot ⊢; omega)
  runs := rests.runs
  constants := fun method found =>
    keeps.holds (rests.constants method found) (inside (-5) (by simp))
  within := rests.within
  arguments := rests.arguments

/-- An activation goes on resting where its whole frame stays. -/
theorem Rests.of_keeps
    {kept : Nat → Prop}
    (rests : Rests context stack entry held callers)
    (keeps : Stack.Keeps kept stack after)
    (inside : ∀ place : Nat, held.activation.monitorBase.toNat ≤ place →
      place < held.activation.fp.toNat + 16 → kept place) :
    Rests context after entry held callers := by
  refine rests.of_slots keeps fun distance isSlot => ?_
  have bounds : -9 ≤ distance ∧ distance ≤ 1 := by
    simp only [List.mem_cons, List.not_mem_nil, or_false] at isSlot
    omega
  have place := rests.sits.toNat_slot bounds.1 bounds.2
  have lowest := rests.sits.monitorBase
  exact inside _ (by omega) (by omega)

/-- A chain stays as long as its lowest frame and all above it stay. -/
theorem Chained.of_keeps
    (chained : Chained context stack entry chain)
    (keeps : Stack.Keeps (frameEnd entry chain ≤ ·) stack after) :
    Chained context after entry chain := by
  induction chain with
  | nil => exact EntryRecord.Stands.of_keeps chained keeps
  | cons held callers inductionHypothesis =>
      obtain ⟨rests, published, waiting⟩ := chained
      have above : ∀ place, frameEnd entry callers ≤ place →
          held.activation.monitorBase.toNat ≤ place := by
        intro place high
        have floor := floor_le_frameEnd waiting
        have within := rests.within
        have lowest := rests.sits.monitorBase
        unfold Activation.ceiling at within
        omega
      exact ⟨rests.of_keeps keeps fun place low _ => low,
        published.of_keeps rests.sits keeps fun place low _ => low,
        inductionHypothesis waiting (keeps.mono above)⟩

/-- What lies at or above the floor of an activation's footing is foreign to it. -/
theorem Rests.foreign
    (rests : Rests context stack entry held callers)
    {place : Nat}
    (high : (footing context entry callers).floor ≤ place) :
    Workspace.Foreign held.activation place := by
  have within := rests.within
  have lowest := rests.sits.monitorBase
  have monitors := rests.sits.monitorEndLe
  unfold Activation.ceiling at within
  refine ⟨by omega, .inr ?_⟩
  unfold Activation.ceiling
  omega

/-- An activation that evolved rests where it rested, on an unchanged chain. -/
theorem Rests.of_evolves
    {changed : Activation}
    (rests : Rests context before entry held callers)
    (chained : Chained context before entry callers)
    (evolves : Workspace.Evolves ⟨held.activation, before⟩ ⟨changed, after⟩)
    (room : Workspace.KeepsRoom ⟨held.activation, before⟩ ⟨changed, after⟩) :
    Rests context after entry { held with activation := changed } callers ∧
      Chained context after entry callers := by
  have keeps := evolves.keeps rests.sits
  have floor := floor_le_frameEnd chained
  have sameLocals := evolves.locals
  have sameFp := evolves.fp
  have sameMax := evolves.maxLocals
  have sameMethod := evolves.method
  refine ⟨?_, chained.of_keeps (keeps.mono fun place high =>
    rests.foreign (Nat.le_trans floor high))⟩
  have kept := rests.of_keeps keeps fun place low high => by
    have monitors := rests.sits.monitorEndLe
    exact ⟨Nat.le_trans monitors low, .inl high⟩
  constructor
  case sits => exact evolves.sits rests.sits
  case laid =>
    have laid := kept.laid
    dsimp only at sameLocals sameFp sameMax sameMethod
    constructor <;>
      simp only [HeldActivation.argumentTop, sameLocals, sameFp, sameMax,
        sameMethod]
    case parameters => exact laid.parameters
    case link => exact laid.link
    case returnAddress => exact laid.returnAddress
    case senderSp => exact laid.senderSp
    case method => exact laid.method
    case locals => exact laid.locals
  case runs =>
    obtain ⟨method, found, parameters, maxLocals, roomy⟩ := rests.runs
    refine ⟨method, ?_, parameters, ?_,
      fun sane => room rests.sits _ (roomy sane)⟩
    · exact sameMethod ▸ found
    · exact sameMax ▸ maxLocals
  case constants =>
    dsimp only at sameFp sameMethod ⊢
    rw [sameFp, sameMethod]
    exact kept.constants
  case within =>
    have within := rests.within
    unfold Activation.ceiling at within ⊢
    dsimp only at sameFp sameMax ⊢
    rw [sameFp, sameMax]
    exact within
  case arguments =>
    intro caller isCaller
    rw [rests.arguments caller isCaller]
    unfold HeldActivation.argumentTop
    dsimp only at sameLocals ⊢
    rw [sameLocals]

/-- Publishing the registers of an activation completes its chain. -/
theorem Rests.chained_of_publishes
    (rests : Rests context stack entry held callers)
    (chained : Chained context stack entry callers)
    (x86 : context.env.layout = .x86_64)
    (publishes : Session.Publishes context held.activation stack after) :
    Chained context after entry (held :: callers) := by
  have keeps := publishes.keeps
  rw [x86] at keeps
  have lowest := rests.sits.monitorBase
  refine ⟨rests.of_slots keeps ?_, .of_publishes x86 publishes,
    chained.of_keeps (keeps.mono ?_)⟩
  · intro back isBack slot same
    simp only [List.mem_cons, List.not_mem_nil, or_false] at isBack
    have distance := slot.distance
    have here := rests.sits.toNat_slot (by omega : -9 ≤ slot.offset .x86_64)
      (by omega)
    have there := rests.sits.toNat_slot (by omega : -9 ≤ back) (by omega)
    unfold PublishedSlot.address at same
    omega
  · intro place high slot same
    have distance := slot.distance
    have here := rests.sits.toNat_slot (by omega : -9 ≤ slot.offset .x86_64)
      (by omega)
    have floor := floor_le_frameEnd chained
    have within := rests.within
    unfold Activation.ceiling at within
    unfold PublishedSlot.address at same
    omega

/-- The arguments of an activation lie on its caller's expression stack. -/
theorem Rests.arguments_le
    {caller : HeldActivation}
    (rests : Rests context stack entry held (caller :: callers)) :
    caller.activation.stackTop.toNat + 8 * held.parameterSlots ≤
      caller.activation.monitorEnd.toNat := by
  have top := rests.arguments caller rfl
  rw [top, HeldActivation.toNat_argumentTop rests.sits rests.laid.parameters]
  exact rests.within

/-- Owners written into monitors of the top leave the chain. -/
theorem Chained.of_owners
    {monitors : List Address}
    {owners : List Word}
    {value : Unit}
    (chained : Chained context stack entry (held :: callers))
    (inside : ∀ monitor ∈ monitors,
      monitor.toNat + 16 ≤ held.activation.monitorBase.toNat)
    (gives : (Session.writeOwners (monitors.zip owners)).Gives
      stack value after) :
    Chained context after entry (held :: callers) := by
  obtain ⟨-, keeps⟩ := Session.writes_writeOwners _ _ _ _ gives
  refine chained.of_keeps (keeps.mono ?_)
  rintro place high _ ⟨owned, isOwned, rfl⟩ same
  have place := inside owned.1 (List.of_mem_zip isOwned).1
  have small := held.activation.monitorBase.toNat_lt
  have moved : (Frame.monitorOwner owned.1).toNat = owned.1.toNat + 8 :=
    Word.toNat_offset_of_fits (by omega) (by omega)
  simp only [frameEnd] at high
  omega

/-- A callee laid out below the arguments rests on what they belong to. -/
theorem rests_of_layout
    {method : Method}
    {placement : Session.Placement}
    {top : Address}
    {thread : ThreadId}
    {caller : Option Nat}
    {fresh : Activation}
    {word : Word}
    (chained : Chained context before entry callers)
    (laysOut : Session.LaysOut method placement top
      (footing context entry callers).fp
      (footing context entry callers).returnPc before after)
    (shaped : Activation.ofShape thread
      (Session.shapeAt method placement caller) .x86_64 = .ok fresh)
    (found : context.env.methods.find? word = some method)
    (within : top.toNat + 8 * method.parameterSlots ≤
      (footing context entry callers).floor)
    (arguments : ∀ caller ∈ callers.head?, caller.activation.stackTop = top) :
    Rests context after entry ⟨fresh, method.parameterSlots⟩ callers ∧
      Chained context after entry callers := by
  obtain ⟨sits, ceiling⟩ := Session.sits_of_layout laysOut shaped
  obtain ⟨laid, argumentTop⟩ := Session.laid_of_layout laysOut shaped
  have keeps := Session.keeps_of_layout laysOut
  have floor := floor_le_frameEnd chained
  refine ⟨?_, chained.of_keeps (keeps.mono fun place high => by omega)⟩
  constructor
  case sits => exact sits
  case laid => exact laid
  case runs =>
    have foundAgain := MethodTable.find?_id found
    refine ⟨method, ?_, rfl, ?_, Session.room_of_layout laysOut shaped⟩
    · obtain ⟨_, _, -, rfl⟩ := Activation.ofShape_eq_ok shaped
      exact foundAgain
    · obtain ⟨_, _, localWords, -⟩ := Session.place_eq_ok laysOut.placed
      obtain ⟨_, _, -, rfl⟩ := Activation.ofShape_eq_ok shaped
      exact localWords
  case constants =>
    obtain ⟨_, _, -, rfl⟩ := Activation.ofShape_eq_ok shaped
    intro other isMethod
    obtain rfl := Option.some.inj
      ((MethodTable.find?_id found).symm.trans isMethod)
    exact laysOut.holds (-5, method.constants) (by simp [Session.fields])
  case within =>
    rw [ceiling]
    exact within
  case arguments =>
    intro caller isCaller
    rw [argumentTop]
    exact arguments caller isCaller

end Chain

namespace Workspace

variable {waiting : Activation} {stack : Stack}

/-- A response alone leaves the activation where it sits. -/
theorem worked_resumed
    {response : Message}
    (isResponse : response.isResponse = true) :
    Worked ⟨waiting, stack⟩ ⟨Session.resumed waiting response, stack⟩ := by
  refine .ofQuiet ⟨rfl, rfl, rfl, rfl, rfl, rfl, rfl, rfl, rfl, rfl, rfl⟩
    (fun _ => ?_) rfl
  unfold Activation.Fits
  exact (Message.payloadForm_of_isResponse isResponse).symm

/-- So does a response to an activation that is given its position. -/
theorem worked_resumed_at
    {response : Message}
    {bcp : Address}
    (isResponse : response.isResponse = true) :
    Worked ⟨waiting, stack⟩
      ⟨Session.resumed { waiting with bcp := bcp } response, stack⟩ := by
  have moved : Worked ⟨waiting, stack⟩ ⟨{ waiting with bcp := bcp }, stack⟩ :=
    .ofQuiet ⟨rfl, rfl, rfl, rfl, rfl, rfl, rfl, rfl, rfl, rfl, rfl⟩ id rfl
  exact moved.trans (worked_resumed isResponse)

/-- Dropping all entries leaves the activation where it sits. -/
theorem worked_withEmptyStack :
    Worked ⟨waiting, stack⟩ ⟨waiting.withEmptyStack, stack⟩ := by
  refine .ofRegisters _ ⟨rfl, rfl, rfl, rfl, rfl, rfl, rfl, rfl, rfl, rfl, rfl⟩
    id (fun sits => ?_) fun sits inRoom => Nat.le_trans inRoom sits.topLe
  have base := sits.monitorBase
  have aligned := sits.fpAligned
  have whole := sits.wholeMonitors
  have below := sits.monitorEndLe
  have topLe := sits.topLe
  have limitLe := sits.limitLe
  dsimp only at base aligned whole below topLe limitLe
  refine ⟨?_, Nat.le_refl _, ?_⟩ <;>
    simp only [Activation.withEmptyStack] <;> omega

/--
Where a result goes that takes the place of arguments.  An empty result is nowhere on
the stack, so that its top is that of the waiting activation.
-/
theorem places_of_result
    {parameters : Nat}
    {value : List Word}
    {top : Address}
    {written : Stack}
    (sits : waiting.Sits stack)
    (arguments : waiting.stackTop.toNat + 8 * parameters ≤
      waiting.monitorEnd.toNat)
    (topIs : top = waiting.stackTop.offset (parameters - value.length))
    (writes : (Stack.writeAll top value).Gives stack () written) :
    top.toNat + 8 * value.length =
        waiting.stackTop.toNat + 8 * parameters ∧
      stack.limit.toNat ≤ top.toNat ∧
      Stack.Keeps (waiting.stackTop.toNat + 8 * parameters ≤ ·)
        stack written := by
  have base := sits.monitorBase
  have below := sits.monitorEndLe
  have topLe := sits.topLe
  have topAligned := sits.topAligned
  have limitLe := sits.limitLe
  have localsLe := sits.localsLe
  have small := stack.base_le
  obtain ⟨covers, keeps⟩ := Stack.writes_writeAll _ _ _ _ _ writes
  have exact : top.toNat + 8 * value.length =
      waiting.stackTop.toNat + 8 * parameters ∧
        stack.limit.toNat ≤ top.toNat := by
    by_cases none : value.length = 0
    · rw [none] at topIs ⊢
      have moved : top.toNat = waiting.stackTop.toNat + 8 * parameters := by
        rw [topIs]
        exact Word.toNat_offset_of_fits (by omega) (by omega)
      omega
    · have topCovers : stack.Covers top := by
        have first := covers _ ⟨0, by omega, rfl⟩
        rwa [Int.natCast_zero, Word.offset_zero] at first
      have formerCovers : stack.Covers waiting.stackTop :=
        ⟨topAligned, limitLe, by omega⟩
      have run (words : Int) (above : 0 ≤ words)
          (inside : words ≤ value.length - 1) :
          stack.Covers (top.offset words) := by
        have covered := covers _ ⟨words.toNat, by omega, rfl⟩
        rwa [Int.toNat_of_nonneg above] at covered
      have last := Stack.toNat_offset_of_covers run (Int.le_refl _) (by omega)
        (by omega : (0 : Int) ≤ value.length - 1) (Int.le_refl _)
      obtain ⟨-, -, lastBelow⟩ := run (value.length - 1) (by omega)
        (Int.le_refl _)
      have topAbove := topCovers.2.1
      have extent := stack.toNat_limit
      have allocated := stack.allocated
      rw [topIs] at topCovers
      have moved := formerCovers.toNat_offset topCovers (by omega) (by omega)
      rw [← topIs] at moved
      omega
  refine ⟨exact.1, exact.2, keeps.mono ?_⟩
  rintro place high _ ⟨index, inside, rfl⟩ same
  have moved : (top.offset index).toNat = top.toNat + 8 * index :=
    Word.toNat_offset_of_fits (by omega) (by omega)
  omega

/-- A result goes where the arguments of the pending call were. -/
theorem worked_returnedInto
    {parameters : Nat}
    {value : List Word}
    {top bcp : Address}
    {written : Stack}
    (arguments : waiting.stackTop.toNat + 8 * parameters ≤
      waiting.monitorEnd.toNat)
    (topIs : top = waiting.stackTop.offset (parameters - value.length))
    (enough : waiting.stackLimit.toNat ≤ top.toNat)
    (writes : (Stack.writeAll top value).Gives stack () written) :
    Worked ⟨waiting, stack⟩
      ⟨Session.returnedInto waiting top bcp, written⟩ := by
  have seat : SameSeat waiting (Session.returnedInto waiting top bcp) :=
    ⟨rfl, rfl, rfl, rfl, rfl, rfl, rfl, rfl, rfl, rfl, rfl⟩
  have moves (sits : waiting.Sits stack) : Worked ⟨waiting, stack⟩
      ⟨Session.returnedInto waiting top bcp, stack⟩ := by
    refine .ofRegisters _ seat (fun _ => rfl) (fun _ => ?_) fun _ _ => enough
    have places := places_of_result sits arguments topIs writes
    have aligned := sits.topAligned
    change top.toNat % 8 = 0 ∧ top.toNat ≤ waiting.monitorEnd.toNat ∧
      stack.limit.toNat ≤ top.toNat
    omega
  constructor
  case seat => exact seat
  case fits => exact fun _ => rfl
  case sits =>
    intro sits
    obtain ⟨-, -, keeps⟩ := places_of_result sits arguments topIs writes
    exact ((moves sits).sits sits).of_keeps keeps
  case keeps =>
    intro sits
    obtain ⟨-, -, keeps⟩ := places_of_result sits arguments topIs writes
    exact keeps.mono fun place foreign => Nat.le_trans arguments foreign.1
  case inRoom => exact fun _ _ => enough

end Workspace

end ManagedStack
