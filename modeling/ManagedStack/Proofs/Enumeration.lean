import ManagedStack.Proofs.Scans
import Mathlib.Data.List.Chain

namespace ManagedStack

/-!
# Every reference slot once

The reference slots of an activation lie between its lowest marked entry and its
ceiling.  A waiting caller marks no entry among the arguments that it passes, so that
its slots begin where the callee's end: no slot belongs to two activations.
-/

/-- Distinct addresses between two places. -/
structure Spread
    (low high : Nat)
    (slots : List Address) :
    Prop where
  nodup : slots.Nodup
  inside : ∀ slot ∈ slots, low ≤ slot.toNat ∧ slot.toNat < high

namespace Spread

variable {low middle high : Nat} {below above : List Address}

theorem nil : Spread low high [] :=
  ⟨List.nodup_nil, by simp⟩

/-- What lies below a place and what lies above it have no address in common. -/
theorem append
    (first : Spread low middle below)
    (second : Spread middle high above)
    (lowLe : low ≤ middle)
    (leHigh : middle ≤ high) :
    Spread low high (below ++ above) where
  nodup := List.nodup_append.mpr ⟨first.nodup, second.nodup,
    fun slot inBelow other inAbove same => by
      have beneath := (first.inside slot inBelow).2
      have beyond := (second.inside other inAbove).1
      rw [same] at beneath
      omega⟩
  inside := fun slot listed => by
    rcases List.mem_append.mp listed with inBelow | inAbove
    · have between := first.inside slot inBelow
      omega
    · have between := second.inside slot inAbove
      omega

/-- The order of the two parts does not matter. -/
theorem append_above
    (first : Spread low middle below)
    (second : Spread middle high above)
    (lowLe : low ≤ middle)
    (leHigh : middle ≤ high) :
    Spread low high (above ++ below) where
  nodup := List.nodup_append.mpr ⟨second.nodup, first.nodup,
    fun slot inAbove other inBelow same => by
      have beyond := (second.inside slot inAbove).1
      have beneath := (first.inside other inBelow).2
      rw [same] at beyond
      omega⟩
  inside := fun slot listed =>
    (first.append second lowLe leHigh).inside slot
      (List.mem_append.mpr (List.mem_append.mp listed).symm)

/-- Places that different indices lead to are different places. -/
theorem ofIndices
    {indices : List Nat}
    {address : Nat → Address}
    (different : indices.Nodup)
    (inside : ∀ index ∈ indices,
      low ≤ (address index).toNat ∧ (address index).toNat < high)
    (apart : ∀ first ∈ indices, ∀ second ∈ indices,
      (address first).toNat = (address second).toNat → first = second) :
    Spread low high (indices.map address) where
  nodup := by
    refine List.pairwise_map.mpr (different.imp_of_mem ?_)
    intro first second inFirst inSecond ne same
    exact ne (apart first inFirst second inSecond (congrArg UInt64.toNat same))
  inside := by
    intro slot listed
    obtain ⟨index, isIndex, rfl⟩ := List.mem_map.mp listed
    exact inside index isIndex

theorem filter
    (spread : Spread low high below)
    (keeps : Address → Bool) :
    Spread low high (below.filter keeps) where
  nodup := spread.nodup.filter keeps
  inside := fun slot listed => spread.inside slot (List.mem_filter.mp listed).1

end Spread

theorem LivenessMask.nodup_oopIndices (kinds : List SlotKind) :
    (oopIndices kinds).Nodup :=
  List.nodup_range.filter _

namespace Activation

variable {stack : Stack} {activation : Activation}

/-- The owners lie in the monitor block. -/
theorem Sits.spread_owners (sits : activation.Sits stack) :
    Spread activation.monitorEnd.toNat activation.monitorBase.toNat
      (activation.monitors.map Frame.monitorOwner) := by
  have endLe := sits.monitorEndLe
  have whole := sits.wholeMonitors
  have small := activation.monitorBase.toNat_lt
  have place (index : Nat)
      (inside : index < (activation.monitorBase.toNat -
        activation.monitorEnd.toNat) / 16) :
      (Frame.monitorOwner
        (activation.monitorEnd + UInt64.ofNat index * 16)).toNat =
          activation.monitorEnd.toNat + 16 * index + 8 := by
    have lowest : (activation.monitorEnd + UInt64.ofNat index * 16).toNat =
        activation.monitorEnd.toNat + 16 * index :=
      Frame.toNat_spaced (by omega)
    rw [Frame.toNat_monitorOwner _ (by omega), lowest]
  unfold monitors Frame.spaced
  rw [List.map_map]
  refine .ofIndices List.nodup_range ?_ ?_
  · intro index listed
    have exact := place index (List.mem_range.mp listed)
    have below := List.mem_range.mp listed
    simp only [Function.comp_apply]
    omega
  · intro first inFirst second inSecond same
    have one := place first (List.mem_range.mp inFirst)
    have other := place second (List.mem_range.mp inSecond)
    simp only [Function.comp_apply] at same
    omega

/-- The reference slots of the frame itself lie below its frame pointer. -/
theorem Sits.spread_fixedRoots
    (sits : activation.Sits stack)
    (method : Method) :
    Spread activation.monitorEnd.toNat activation.fp.toNat
      (activation.fixedRoots method) := by
  have endLe := sits.monitorEndLe
  have fixed := sits.monitorBase
  have three := sits.toNat_slot (by omega : -9 ≤ (-3 : Int)) (by omega)
  have five := sits.toNat_slot (by omega : -9 ≤ (-5 : Int)) (by omega)
  have eight := sits.toNat_slot (by omega : -9 ≤ (-8 : Int)) (by omega)
  have slots : Spread activation.monitorBase.toNat activation.fp.toNat
      ([activation.fp.offset (-3), activation.fp.offset (-5)] ++
        if method.isNative then [activation.fp.offset (-8)] else []) := by
    have distinct (first second : Int) (different : first ≠ second)
        (near : first - second < 8) (nearToo : second - first < 8) :
        activation.fp.offset first ≠ activation.fp.offset second :=
      Word.offset_ne_offset different (by omega) (by omega)
    split
    · constructor
      case nodup => simp [distinct]
      case inside =>
        intro slot listed
        simp only [List.cons_append, List.nil_append, List.mem_cons,
          List.not_mem_nil, or_false] at listed
        rcases listed with rfl | rfl | rfl <;> omega
    · constructor
      case nodup => simp [distinct]
      case inside =>
        intro slot listed
        simp only [List.append_nil, List.mem_cons, List.not_mem_nil, or_false]
          at listed
        rcases listed with rfl | rfl <;> omega
  unfold fixedRoots
  rw [List.append_assoc]
  exact sits.spread_owners.append slots endLe (by omega)

/-- The locals lie between the frame and the ceiling. -/
theorem Sits.spread_localRoots
    {method : Method}
    (sits : activation.Sits stack)
    (room : method.maxLocals ≤ activation.maxLocals)
    (mask : LivenessMask) :
    Spread activation.fp.toNat activation.ceiling
      (activation.localRoots method mask) := by
  have place (index : Nat)
      (listed : index ∈ mask.oopLocals.filter (· < method.scannedLocals)) :
      (activation.locals.offset (-index)).toNat + 8 * (index + 1) =
          activation.ceiling ∧
        index < activation.maxLocals := by
    have below := of_decide_eq_true (List.mem_filter.mp listed).2
    have fewer := method.scannedLocals_le
    have inside : index < activation.maxLocals := by omega
    exact ⟨sits.toNat_local inside, inside⟩
  refine .ofIndices ((LivenessMask.nodup_oopIndices _).filter _) ?_ ?_
  · intro index listed
    obtain ⟨exact, inside⟩ := place index listed
    have ceiling : activation.ceiling =
        activation.fp.toNat + 16 + 8 * activation.maxLocals :=
      rfl
    omega
  · intro first inFirst second inSecond same
    have one := (place first inFirst).1
    have other := (place second inSecond).1
    omega

/-- An entry that the room has lies as far below the monitors as its index. -/
theorem toNat_entrySlot
    {words index : Nat}
    (room : activation.HasRoom (8 * words))
    (inside : index < words) :
    (activation.entrySlot index).toNat + 8 * (index + 1) =
      activation.monitorEnd.toNat := by
  have extent := room.extent
  have small := activation.monitorEnd.toNat_lt
  have exact : (activation.entrySlot index).toNat =
      activation.monitorEnd.toNat - 8 * (index + 1) :=
    Word.toNat_offset_of_fits (by omega) (by omega)
  omega

/-- The entries lie below the monitors, as far down as any of them lies. -/
theorem spread_entryRoots
    {method : Method}
    {mask : LivenessMask}
    {low : Nat}
    (room : activation.HasRoom (8 * method.maxStack.toNat))
    (lowest : ∀ slot ∈ activation.entryRoots method mask, low ≤ slot.toNat) :
    Spread low activation.monitorEnd.toNat
      (activation.entryRoots method mask) := by
  have place (index : Nat) (listed : index ∈ markedEntries method mask) :
      (activation.entrySlot index).toNat + 8 * (index + 1) =
        activation.monitorEnd.toNat :=
    toNat_entrySlot room
      (of_decide_eq_true (List.mem_filter.mp listed).2)
  have below : Spread 0 activation.monitorEnd.toNat
      (activation.entryRoots method mask) := by
    refine Spread.filter (.ofIndices
      ((LivenessMask.nodup_oopIndices _).filter _) ?_ ?_) _
    · intro index listed
      have exact := place index listed
      omega
    · intro first inFirst second inSecond same
      have one := place first inFirst
      have other := place second inSecond
      omega
  exact ⟨below.nodup, fun slot listed =>
    ⟨lowest slot listed, (below.inside slot listed).2⟩⟩

/-- The reference slots lie between the lowest entry and the ceiling. -/
theorem At.spread_roots
    {methods : MethodTable}
    {method : Method}
    {bci : UInt32}
    {mask : LivenessMask}
    {low : Nat}
    (isAt : activation.At methods method bci mask)
    (sits : activation.Sits stack)
    (locals : method.maxLocals ≤ activation.maxLocals)
    (room : activation.HasRoom (8 * method.maxStack.toNat))
    (lowLe : low ≤ activation.monitorEnd.toNat)
    (lowest : ∀ slot ∈ activation.entryRoots method mask, low ≤ slot.toNat) :
    Spread low activation.ceiling (activation.roots methods) := by
  have endLe := sits.monitorEndLe
  have fixed := sits.monitorBase
  have ceiling : activation.ceiling =
      activation.fp.toNat + 16 + 8 * activation.maxLocals :=
    rfl
  rw [isAt.roots_eq]
  have frame := (sits.spread_fixedRoots method).append
    (sits.spread_localRoots locals mask) (by omega) (by omega)
  exact (spread_entryRoots room lowest).append_above frame lowLe (by omega)

/-- The slots of an activation that hold references, at a position with this mask. -/
inductive Root
    (layout : FrameLayout)
    (activation : Activation)
    (method : Method)
    (mask : LivenessMask) :
    Address → Prop where
  | owner
      {index : Nat}
      {monitor : Address}
      (found : activation.monitorAt? index = .ok (some monitor)) :
      Root layout activation method mask (Frame.monitorOwner monitor)
  | method :
      Root layout activation method mask (activation.fp.offset layout.method)
  | cache :
      Root layout activation method mask (activation.fp.offset layout.cache)
  | oopTemp
      (native : method.isNative = true) :
      Root layout activation method mask (activation.fp.offset layout.oopTemp)
  | localSlot
      {index : Nat}
      (marked : mask.locals[index]? = some .oop)
      (inside : index <
        if method.isNative then method.parameterSlots else method.maxLocals) :
      Root layout activation method mask (activation.locals.offset (-index))
  /-- Entries are counted from the deepest, so that the last one is the top. -/
  | entry
      {index : Nat}
      {depth : Word}
      (marked : mask.expressions[index]? = some .oop)
      (counted : activation.stackDepth = .ok depth)
      (inside : index < depth.toNat) :
      Root layout activation method mask
        (activation.monitorEnd.offset (-(index + 1)))

section Root

variable {method : Method} {mask : LivenessMask} {slot : Address}

theorem Sits.mem_owners
    (sits : activation.Sits stack) :
    slot ∈ activation.monitors.map Frame.monitorOwner ↔
      ∃ index monitor, activation.monitorAt? index = .ok (some monitor) ∧
        slot = Frame.monitorOwner monitor := by
  obtain ⟨count, counted, extent⟩ := sits.monitorCount_eq
  have monitors : activation.monitors =
      Frame.spaced activation.monitorEnd 16 count.toNat := by
    unfold Activation.monitors
    congr 1
    omega
  have found (index : Nat) (monitor : Address) :
      activation.monitorAt? index = .ok (some monitor) ↔
        activation.monitors.reverse[index]? = some monitor := by
    rw [Frame.Depicts.getElem?_reverse_spaced sits counted, monitors,
      Except.ok.injEq]
  constructor
  · intro listed
    obtain ⟨monitor, isMonitor, rfl⟩ := List.mem_map.mp listed
    obtain ⟨index, isAt⟩ :=
      List.mem_iff_getElem?.mp (List.mem_reverse.mpr isMonitor)
    exact ⟨index, monitor, (found index monitor).mpr isAt, rfl⟩
  · rintro ⟨index, monitor, isAt, rfl⟩
    have listed := List.mem_of_getElem? ((found index monitor).mp isAt)
    exact List.mem_map_of_mem (List.mem_reverse.mp listed)

theorem mem_localRoots :
    slot ∈ activation.localRoots method mask ↔
      ∃ index, mask.locals[index]? = some .oop ∧
        index < method.scannedLocals ∧
        slot = activation.locals.offset (-(index : Nat)) := by
  simp only [localRoots, LivenessMask.oopLocals, List.mem_map, List.mem_filter,
    LivenessMask.mem_oopIndices, decide_eq_true_eq]
  constructor
  · rintro ⟨index, ⟨marked, inside⟩, rfl⟩
    exact ⟨index, marked, inside, rfl⟩
  · rintro ⟨index, marked, inside, rfl⟩
    exact ⟨index, ⟨marked, inside⟩, rfl⟩

/-- The entries that are there are the first ones of those that have room. -/
theorem Sits.depth_le_maxStack
    (sits : activation.Sits stack)
    (room : activation.HasRoom (8 * method.maxStack.toNat))
    {depth : Word}
    (counted : activation.stackDepth = .ok depth) :
    depth.toNat ≤ method.maxStack.toNat := by
  obtain ⟨same, sameCounted, extent⟩ := sits.stackDepth_eq
  obtain rfl := Except.ok.inj (counted.symm.trans sameCounted)
  have topLe := sits.topLe
  have inRoom := room.inside
  have roomExtent := room.extent
  unfold InRoom at inRoom
  omega

/-- Within its room an activation marks exactly the entries that it has. -/
theorem Sits.mem_entryRoots
    (sits : activation.Sits stack)
    (room : activation.HasRoom (8 * method.maxStack.toNat))
    {depth : Word}
    (counted : activation.stackDepth = .ok depth) :
    slot ∈ activation.entryRoots method mask ↔
      ∃ index, mask.expressions[index]? = some .oop ∧ index < depth.toNat ∧
        slot = activation.entrySlot index := by
  have fits := sits.depth_le_maxStack room counted
  obtain ⟨same, sameCounted, extent⟩ := sits.stackDepth_eq
  obtain rfl := Except.ok.inj (counted.symm.trans sameCounted)
  have topLe := sits.topLe
  simp only [entryRoots, markedEntries, LivenessMask.oopExpressions,
    List.mem_filter, List.mem_map, LivenessMask.mem_oopIndices,
    decide_eq_true_eq]
  constructor
  · rintro ⟨⟨index, ⟨marked, inside⟩, rfl⟩, notAbove⟩
    have place := toNat_entrySlot room inside
    rw [UInt64.le_iff_toNat_le] at notAbove
    exact ⟨index, marked, by omega, rfl⟩
  · rintro ⟨index, marked, inside, rfl⟩
    have place := toNat_entrySlot room (by omega : index < method.maxStack.toNat)
    refine ⟨⟨index, ⟨marked, by omega⟩, rfl⟩, ?_⟩
    rw [UInt64.le_iff_toNat_le]
    omega

/--
The listed slots are the slots that hold references.  The list has five parts, and
each of them is one kind of root.
-/
theorem At.mem_roots
    {methods : MethodTable}
    {bci : UInt32}
    (isAt : activation.At methods method bci mask)
    (sits : activation.Sits stack)
    (room : activation.HasRoom (8 * method.maxStack.toNat)) :
    slot ∈ activation.roots methods ↔
      Root .x86_64 activation method mask slot := by
  obtain ⟨depth, counted, -⟩ := sits.stackDepth_eq
  rw [isAt.roots_eq, List.mem_append, List.mem_append, mem_localRoots,
    sits.mem_entryRoots room counted]
  unfold fixedRoots
  rw [List.mem_append, List.mem_append, sits.mem_owners]
  constructor
  · rintro ((((⟨index, monitor, found, rfl⟩ | fixed) | native) |
      ⟨index, marked, inside, rfl⟩) | ⟨index, marked, inside, rfl⟩)
    · exact .owner found
    · simp only [List.mem_cons, List.not_mem_nil, or_false] at fixed
      rcases fixed with rfl | rfl
      · exact .method
      · exact .cache
    · split at native
      · rename_i isNative
        obtain rfl := List.mem_singleton.mp native
        exact .oopTemp isNative
      · cases native
    · exact .localSlot marked inside
    · exact .entry marked counted inside
  · intro root
    cases root with
    | owner found => exact .inl (.inl (.inl (.inl ⟨_, _, found, rfl⟩)))
    | method => exact .inl (.inl (.inl (.inr (by simp [FrameLayout.x86_64]))))
    | cache => exact .inl (.inl (.inl (.inr (by simp [FrameLayout.x86_64]))))
    | oopTemp native =>
        exact .inl (.inl (.inr (by simp [native, FrameLayout.x86_64])))
    | localSlot marked inside => exact .inl (.inr ⟨_, marked, inside, rfl⟩)
    | entry marked other inside =>
        obtain rfl := Except.ok.inj (counted.symm.trans other)
        exact .inr ⟨_, marked, inside, rfl⟩

end Root

end Activation

/-- A waiting caller marks no entry that it passes to its callee. -/
def MarksBelow
    (methods : MethodTable)
    (callee caller : HeldActivation) :
    Prop :=
  ∀ method bci mask depth,
    caller.activation.At methods method bci mask →
      caller.activation.stackDepth = .ok depth →
        ∀ index, mask.expressions[index]? = some .oop →
          index + callee.parameterSlots < depth.toNat

/-- Every caller in a chain, top first, marks no entry that it passes. -/
def CallersMarkBelow
    (methods : MethodTable)
    (chain : List HeldActivation) :
    Prop :=
  chain.IsChain (MarksBelow methods)

/-- Without a caller nothing is passed. -/
theorem CallersMarkBelow.of_alone
    {methods : MethodTable}
    {chain : List HeldActivation}
    (alone : chain.length = 1) :
    CallersMarkBelow methods chain := by
  obtain ⟨held, rfl⟩ := List.length_eq_one_iff.mp alone
  exact List.isChain_singleton held

/-- Callers that mark no entry at all mark none that they pass. -/
theorem callersMarkBelow_of_unmarked
    {methods : MethodTable}
    (unmarked : ∀ method ∈ methods.methods, ∀ bci mask,
      method.maskAt? bci = some mask → mask.expressions = [])
    (chain : List HeldActivation) :
    CallersMarkBelow methods chain := by
  induction chain with
  | nil => exact List.isChain_nil
  | cons callee callers inductionHypothesis =>
      refine List.isChain_cons.mpr ⟨?_, inductionHypothesis⟩
      intro caller _ method bci mask depth isAt _ index marked
      rw [unmarked method (List.mem_of_find?_eq_some isAt.found) bci mask
        isAt.masked] at marked
      cases marked

section Chain

variable {context : ManagerContext τ} {entry : EntryRecord}
  {held : HeldActivation} {callers chain : List HeldActivation}
  {stack : Stack} {method : Method} {bci : UInt32} {mask : LivenessMask}

/-- An activation that can be scanned has the room that its method asks for. -/
theorem Rests.room
    (rests : Rests context stack entry held callers)
    (ready : held.activation.Scannable context.env.methods method bci mask) :
    method.maxLocals ≤ held.activation.maxLocals ∧
      held.activation.HasRoom (8 * method.maxStack.toNat) := by
  obtain ⟨same, found, -, locals, room⟩ := rests.runs
  obtain rfl := Option.some.inj (ready.found.symm.trans found)
  exact ⟨Nat.le_of_eq locals.symm, room ready.maxStack⟩

/-- The marked entries of a waiting caller lie above the ceiling of its callee. -/
theorem MarksBelow.ceiling_le
    {callee caller : HeldActivation}
    (marksBelow : MarksBelow context.env.methods callee caller)
    (rests : Rests context stack entry callee (caller :: callers))
    (waits : Rests context stack entry caller callers)
    (ready : caller.activation.Scannable context.env.methods method bci mask) :
    ∀ slot ∈ caller.activation.entryRoots method mask,
      callee.activation.ceiling ≤ slot.toNat := by
  have room := (waits.room ready).2
  obtain ⟨depth, counted, extent⟩ := waits.sits.stackDepth_eq
  have arguments := rests.arguments caller rfl
  have ceiling := HeldActivation.toNat_argumentTop rests.sits rests.laid.parameters
  rw [← arguments] at ceiling
  intro slot listed
  obtain ⟨index, marked, inside, rfl⟩ :=
    (waits.sits.mem_entryRoots room counted).mp listed
  have below := marksBelow method bci mask depth ready.toAt counted index marked
  have inRoom := room.inside
  have roomExtent := room.extent
  unfold Activation.InRoom at inRoom
  have place := Activation.toNat_entrySlot room
    (by omega : index < method.maxStack.toNat)
  omega

/--
The reference slots of a chain are distinct and lie below the entry frame.  The slots
of the callers begin where the activation on top of them ends.
-/
theorem Chained.spread
    {low : Nat}
    (chained : Chained context stack entry chain)
    (scannable : ∀ held ∈ chain, ∃ method bci mask,
      held.activation.Scannable context.env.methods method bci mask)
    (callersMarkBelow : CallersMarkBelow context.env.methods chain)
    (lowLe : low ≤ (footing context entry chain).floor)
    (lowest : ∀ held ∈ chain.head?, ∀ method bci mask,
      held.activation.Scannable context.env.methods method bci mask →
        ∀ slot ∈ held.activation.entryRoots method mask, low ≤ slot.toNat) :
    Spread low entry.floor
      (chain.flatMap fun held => held.activation.roots context.env.methods) := by
  induction chain generalizing low with
  | nil => exact .nil
  | cons held callers inductionHypothesis =>
      obtain ⟨rests, -, waiting⟩ := chained
      obtain ⟨method, bci, mask, ready⟩ := scannable held (by simp)
      obtain ⟨locals, room⟩ := rests.room ready
      have here := ready.toAt.spread_roots rests.sits locals room lowLe
        (lowest held rfl method bci mask ready)
      have within := rests.within
      have below := waiting.floor_le_entry
      have fixed := rests.sits.monitorBase
      have endLe := rests.sits.monitorEndLe
      have floor : (footing context entry (held :: callers)).floor =
          held.activation.monitorEnd.toNat :=
        rfl
      have ceiling : held.activation.ceiling =
          held.activation.fp.toNat + 16 + 8 * held.activation.maxLocals :=
        rfl
      obtain ⟨firstMarks, othersMark⟩ := List.isChain_cons.mp callersMarkBelow
      have others := inductionHypothesis waiting
        (fun later inRest => scannable later (by simp [inRest]))
        othersMark within (by
          intro caller isCaller method bci mask ready
          obtain ⟨rest, rfl⟩ := List.head?_eq_some_iff.mp isCaller
          exact (firstMarks caller rfl).ceiling_le rests waiting.1 ready)
      rw [List.flatMap_cons]
      exact here.append others (by omega) (by omega)

/-- Every activation of a chain rests on those that wait for it. -/
theorem Chained.rests_of_mem
    (chained : Chained context stack entry chain)
    (inside : held ∈ chain) :
    ∃ callers, Rests context stack entry held callers := by
  induction chain with
  | nil => cases inside
  | cons lowest callers inductionHypothesis =>
      rcases List.mem_cons.mp inside with rfl | inRest
      · exact ⟨callers, chained.1⟩
      · exact inductionHypothesis chained.2.2 inRest

/-- The listed slots of a chain are the slots that its activations hold. -/
theorem Chained.mem_roots
    {slot : Address}
    (chained : Chained context stack entry chain)
    (scannable : ∀ held ∈ chain, ∃ method bci mask,
      held.activation.Scannable context.env.methods method bci mask) :
    (slot ∈ chain.flatMap fun held =>
        held.activation.roots context.env.methods) ↔
      ∃ held ∈ chain, ∃ method bci mask,
        held.activation.At context.env.methods method bci mask ∧
          held.activation.Root .x86_64 method mask slot := by
  rw [List.mem_flatMap]
  constructor
  · rintro ⟨held, inside, listed⟩
    obtain ⟨method, bci, mask, ready⟩ := scannable held inside
    obtain ⟨callers, rests⟩ := chained.rests_of_mem inside
    exact ⟨held, inside, method, bci, mask, ready.toAt,
      (ready.toAt.mem_roots rests.sits (rests.room ready).2).mp listed⟩
  · rintro ⟨held, inside, method, bci, mask, isAt, root⟩
    obtain ⟨same, index, other, ready⟩ := scannable held inside
    obtain ⟨callers, rests⟩ := chained.rests_of_mem inside
    obtain rfl := Option.some.inj (ready.found.symm.trans isAt.found)
    exact ⟨held, inside,
      (isAt.mem_roots rests.sits (rests.room ready).2).mpr root⟩

end Chain

/-- The listed handles are the slots that the wrapper counts. -/
theorem EntryRecord.Stands.mem_handles
    {stack : Stack}
    {entry : EntryRecord}
    {slot : Address}
    (stands : entry.Stands stack) :
    slot ∈ entry.handles stack ↔
      ∃ count : Word, stack.Holds (entry.wrapper.offset 4) count ∧
        ∃ index < count.toNat, slot = entry.wrapper.offset (5 + index) := by
  obtain ⟨count, counted, -⟩ := stands.handles
  have listed : entry.handles stack = (List.range (UInt64.ofNat count).toNat).map
      fun index : Nat => entry.wrapper.offset (5 + index) := by
    unfold EntryRecord.handles
    rw [counted]
  rw [listed, List.mem_map]
  constructor
  · rintro ⟨index, inside, rfl⟩
    exact ⟨_, counted, index, List.mem_range.mp inside, rfl⟩
  · rintro ⟨other, holds, index, inside, rfl⟩
    obtain rfl := holds.unique counted
    exact ⟨index, List.mem_range.mpr inside, rfl⟩

/-- The handles are distinct and lie in the call wrapper. -/
theorem EntryRecord.Stands.spread_handles
    {stack : Stack}
    {entry : EntryRecord}
    (stands : entry.Stands stack) :
    Spread entry.floor stack.base.toNat (entry.handles stack) := by
  obtain ⟨count, -, above, -, handles⟩ := stands.exists_handles
  have frame := stands.toNat_framePointer
  have small := stack.base.toNat_lt
  have place (index : Nat) (inside : index < count) :
      (entry.wrapper.offset (5 + index)).toNat =
        entry.wrapper.toNat + 8 * (5 + index) :=
    Word.toNat_offset_of_fits (by omega) (by omega)
  rw [handles]
  refine .ofIndices List.nodup_range ?_ ?_
  · intro index listed
    have exact := place index (List.mem_range.mp listed)
    have below := List.mem_range.mp listed
    unfold EntryRecord.floor
    omega
  · intro first inFirst second inSecond same
    have one := place first (List.mem_range.mp inFirst)
    have other := place second (List.mem_range.mp inSecond)
    omega

namespace Session

/-- The slots that the activations and the entry frame keep references in. -/
def HoldsReference
    (context : ManagerContext τ)
    (session : Session τ)
    (slot : Address) :
    Prop :=
  (∃ held ∈ session.manager.activations, ∃ method bci mask,
    held.activation.At context.env.methods method bci mask ∧
      held.activation.Root context.env.layout method mask slot) ∨
  ∃ entry ∈ session.manager.entry, ∃ count : Word,
    session.machine.stack.Holds (entry.wrapper.offset 4) count ∧
      ∃ index < count.toNat, slot = entry.wrapper.offset (5 + index)

/-- A scan of the thread answers and visits every reference slot once. -/
structure EnumeratesRoots
    (context : ManagerContext τ)
    (safepoint : Safepoint)
    (session : Session τ) :
    Prop where
  answers : ∃ report after,
    (RootScan.scanThread context.env safepoint).Gives session.machine report after
  once :
    (RootScan.scanThread context.env safepoint
      session.machine).1.notes.slots.Nodup
  exact : ∀ slot,
    slot ∈ (RootScan.scanThread context.env safepoint
      session.machine).1.notes.slots ↔ session.HoldsReference context slot

end Session

/-- A manager between two calls, of whose thread every reference slot is described. -/
structure Session.ReadyToScan
    (context : ManagerContext τ)
    (session : Session τ) :
    Prop where
  x86 : context.env.layout = .x86_64
  coded : Coded context
  unprofiled : context.env.diagnostics.profileInterpreter = false
  reached : Reached context session
  occupied : session.manager.depth ≠ 0
  first : ∀ entry ∈ session.manager.entry, entry.savedAnchor.isEmpty = true
  positioned : ∀ held ∈ session.manager.activations, ∃ method bci mask,
    held.activation.At context.env.methods method bci mask ∧
      65535 < held.activation.bcp.toNat ∧ method.codeSize.toNat ≤ 65536
  callersMarkBelow : CallersMarkBelow context.env.methods
    session.manager.activations.toList.reverse

/-- With methods that do not ask for too much every activation can be scanned. -/
theorem Session.ReadyToScan.scannable
    {context : ManagerContext τ}
    {session : Session τ}
    (ready : session.ReadyToScan context)
    (bounded : ∀ held ∈ session.manager.activations,
      ∀ method ∈ context.env.methods.find? held.activation.method,
        method.maxStack.toNat < 0x1000000000000000) :
    ∀ held ∈ session.manager.activations, ∃ method bci mask,
      held.activation.Scannable context.env.methods method bci mask := by
  intro held inside
  obtain ⟨method, bci, mask, isAt, address, codeSize⟩ :=
    ready.positioned held inside
  exact ⟨method, bci, mask, isAt, address, codeSize,
    bounded held inside method isAt.found⟩

/--
A scan at a safepoint visits every slot that holds a reference exactly once.

Two things are asked for that no check makes sure of: that the top does not lie at
address zero, where its anchor would read as empty, and that no method asks for so
many entries that counting them wraps around.
-/
theorem enumeratesRoots_of_reached
    {context : ManagerContext τ}
    {session : Session τ}
    {safepoint : Safepoint}
    (ready : session.ReadyToScan context)
    (nonzero : ∀ top ∈ session.manager.top?, top.stackTop ≠ 0)
    (bounded : ∀ held ∈ session.manager.activations,
      ∀ method ∈ context.env.methods.find? held.activation.method,
        method.maxStack.toNat < 0x1000000000000000)
    (active : safepoint.active = true) :
    session.EnumeratesRoots context safepoint := by
  have stacked := ready.reached.stacked ready.x86
  have scannable := ready.scannable bounded
  have someIndex : session.manager.topIndex? =
      some (session.manager.depth - 1) := by
    unfold FrameManager.topIndex?
    rw [if_neg ready.occupied]
  obtain ⟨rest, held, stands, -⟩ := FrameManager.push_of_topIndex? someIndex
  have topNonzero := nonzero held.activation (FrameManager.top?_of_push stands)
  have isSome : session.manager.entry.isSome = true :=
    ready.reached.followsProtocol.entry.mpr
      (.inl ready.occupied)
  obtain ⟨entry, isEntry⟩ := Option.isSome_iff_exists.mp isSome
  have first := ready.first entry isEntry
  have callersMarkBelow := ready.callersMarkBelow
  have chained := stacked.chained entry isEntry
  rw [Session.reverse_of_push stands] at chained callersMarkBelow
  have readyIn (later : HeldActivation)
      (inside : later ∈ held :: rest.toList.reverse) :=
    scannable later ((Session.mem_activations_iff stands).mpr inside)
  have walkable := stacked.walkable isEntry stands topNonzero
  obtain ⟨report, after, scans⟩ : ∃ report after,
      (RootScan.scanThread context.env safepoint).Gives session.machine
        report after := by
    unfold Operation.Gives
    rw [stacked.scanThread_eq ready.coded ready.x86 isEntry first stands
      topNonzero active]
    exact RootScan.exists_scanFrames walkable ready.coded ready.x86 rfl
      ready.unprofiled readyIn
  have slots := stacked.slots_of_scan ready.coded ready.x86 isEntry first
    stands topNonzero (fun later inside method found => by
      obtain ⟨same, bci, mask, isReady⟩ := scannable later inside
      obtain rfl := Option.some.inj (isReady.found.symm.trans found)
      exact isReady.codeSize) scans
  constructor
  case answers => exact ⟨report, after, scans⟩
  case once =>
    have activations : Spread 0 entry.floor _ :=
      chained.spread readyIn callersMarkBelow (Nat.zero_le _)
        fun _ _ _ _ _ _ _ _ => Nat.zero_le _
    have outermost : Chained context session.machine.stack entry [] :=
      chained.stands
    rw [slots]
    exact (activations.append chained.stands.spread_handles (Nat.zero_le _)
      outermost.floor_le_base).nodup
  case exact =>
    intro slot
    rw [slots, List.mem_append, chained.mem_roots readyIn,
      chained.stands.mem_handles]
    unfold Session.HoldsReference
    simp only [Session.mem_activations_iff stands, ready.x86, isEntry,
      Option.mem_some_iff, exists_eq_left']

/-- Neither of the two methods marks an entry. -/
theorem Pair.unmarked : ∀ method ∈ context.env.methods.methods, ∀ bci mask,
    method.maskAt? bci = some mask → mask.expressions = [] := by
  intro method listed bci mask masked
  have onlyMask (bits : LivenessMask)
      (found : [((0 : UInt32), bits)].lookup bci = some mask) :
      mask = bits := by
    rw [List.lookup_cons] at found
    split at found
    · exact (Option.some.inj found).symm
    · cases found
  simp only [context, List.mem_cons, List.not_mem_nil, or_false] at listed
  rcases listed with rfl | rfl <;> unfold Method.maskAt? at masked <;>
    rw [if_neg (by decide)] at masked
  · rw [onlyMask ⟨[], []⟩ masked]
  · rw [onlyMask ⟨[.oop, .oop], []⟩ masked]

/-- A callee and its waiting caller are ready to be scanned. -/
theorem Pair.readyToScan : entered.ReadyToScan context where
  x86 := rfl
  coded := ⟨by decide +kernel, by decide +kernel⟩
  unprofiled := rfl
  reached := reached_entered
  occupied := by
    have two : entered.manager.depth = 2 := by decide +kernel
    rw [two]
    decide
  first := by
    have known : entered.manager.entry.all (·.savedAnchor.isEmpty) = true := by
      decide +kernel
    intro entry isEntry
    rw [isEntry] at known
    exact known
  positioned := by
    have known : entered.manager.activations.all fun held =>
        held.activation.method == caller.id &&
            held.activation.bcp == caller.codeBase ||
          held.activation.method == callee.id &&
            held.activation.bcp == callee.codeBase := by
      decide +kernel
    intro held inside
    have here := Array.all_eq_true_iff_forall_mem.mp known held inside
    simp only [Bool.or_eq_true, Bool.and_eq_true, beq_iff_eq] at here
    rcases here with ⟨isMethod, isBcp⟩ | ⟨isMethod, isBcp⟩
    · refine ⟨caller, 0, ⟨[], []⟩, ⟨?_, ?_, by decide +kernel⟩, ?_, by decide⟩
      · rw [isMethod]; decide +kernel
      · rw [isBcp]; decide +kernel
      · rw [isBcp]; decide
    · refine ⟨callee, 0, ⟨[.oop, .oop], []⟩, ⟨?_, ?_, by decide +kernel⟩, ?_,
        by decide⟩
      · rw [isMethod]; decide +kernel
      · rw [isBcp]; decide +kernel
      · rw [isBcp]; decide
  callersMarkBelow := callersMarkBelow_of_unmarked unmarked _

/-- Scanning the pair visits every reference slot of both activations once. -/
theorem enumeratesRoots_of_entered :
    Pair.entered.manager.depth = 2 ∧
      Pair.entered.EnumeratesRoots Pair.context ⟨true, []⟩ := by
  have nonzero : Pair.entered.manager.top?.all (·.stackTop != 0) = true := by
    decide +kernel
  have bounded : Pair.context.env.methods.methods.all
      (·.maxStack.toNat < 0x1000000000000000) = true := by
    decide +kernel
  refine ⟨by decide +kernel,
    enumeratesRoots_of_reached Pair.readyToScan ?_ ?_ rfl⟩
  · intro top isTop
    rw [isTop] at nonzero
    simpa using nonzero
  · intro held _ method found
    have small := List.all_eq_true.mp bounded method
      (List.mem_of_find?_eq_some found)
    simpa using small

/-- One activation at the first instruction of its method is ready to be scanned. -/
theorem Session.ReadyToScan.of_alone
    {context : ManagerContext τ}
    {session : Session τ}
    {method : Method}
    {bci : UInt32}
    {mask : LivenessMask}
    (x86 : context.env.layout = .x86_64)
    (coded : Coded context)
    (unprofiled : context.env.diagnostics.profileInterpreter = false)
    (reached : Reached context session)
    (alone : session.manager.depth = 1)
    (first : session.manager.entry.all (·.savedAnchor.isEmpty) = true)
    (placed : (session.manager.activations.all fun held =>
      held.activation.method == method.id &&
        held.activation.bcp == method.codeBase) = true)
    (found : context.env.methods.find? method.id = some method)
    (position : method.bciOfBcx? method.codeBase = some bci)
    (masked : method.maskAt? bci = some mask)
    (address : 65535 < method.codeBase.toNat)
    (codeSize : method.codeSize.toNat ≤ 65536) :
    session.ReadyToScan context where
  x86 := x86
  coded := coded
  unprofiled := unprofiled
  reached := reached
  occupied := by
    rw [alone]
    exact Nat.one_ne_zero
  first := by
    intro entry isEntry
    rw [isEntry] at first
    exact first
  positioned := by
    intro held inside
    have here := Array.all_eq_true_iff_forall_mem.mp placed held inside
    simp only [Bool.and_eq_true, beq_iff_eq] at here
    obtain ⟨isMethod, isBcp⟩ := here
    exact ⟨method, bci, mask, ⟨isMethod ▸ found, isBcp ▸ position, masked⟩,
      isBcp ▸ address, codeSize⟩
  callersMarkBelow := .of_alone (by
    rw [List.length_reverse]
    exact alone)

theorem Grounded.readyToScan : entered.ReadyToScan context :=
  .of_alone rfl ⟨by decide +kernel, by decide +kernel⟩ rfl reached_entered
    (by decide +kernel) (by decide +kernel)
    (by decide +kernel : (entered.manager.activations.all fun held =>
      held.activation.method == method.id &&
        held.activation.bcp == method.codeBase) = true)
    (by decide +kernel)
    (by decide +kernel : method.bciOfBcx? method.codeBase = some 0)
    (by decide +kernel : method.maskAt? 0 = some ⟨[], []⟩)
    (by decide) (by decide)

namespace Oversized

/-- A method that asks for more entries than there are addresses. -/
def method : Method :=
  { Grounded.method with
    maxStack := 0x2000000000000000
    masks := [(0, ⟨[], List.replicate 63 .value ++ [.oop]⟩)] }

def context : ManagerContext Unit :=
  { Grounded.context with
    env := { Grounded.context.env with methods := ⟨[method]⟩ } }

/-- A stack of 32 words that begins at address zero. -/
def fresh : Session Unit :=
  { Grounded.fresh with
    machine := { Grounded.fresh.machine with
      stack := {
        base := 0x100
        words := Array.replicate 32 0
        base_aligned := by decide
        fits := by simp
        allocated := by simp
      } } }

theorem ran : (Call.runAll? context Grounded.calls fresh).isSome = true := by
  decide +kernel

/-- The session in which the check for room has wrapped around. -/
def entered : Session Unit :=
  (Call.runAll? context Grounded.calls fresh).get ran

theorem reached_entered : Reached context entered :=
  (Reached.fresh rfl).of_runAll? Grounded.acts (Option.some_get ran).symm

theorem readyToScan : entered.ReadyToScan context :=
  .of_alone rfl ⟨by decide +kernel, by decide +kernel⟩ rfl reached_entered
    (by decide +kernel) (by decide +kernel)
    (by decide +kernel : (entered.manager.activations.all fun held =>
      held.activation.method == method.id &&
        held.activation.bcp == method.codeBase) = true)
    (by decide +kernel)
    (by decide +kernel : method.bciOfBcx? method.codeBase = some 0)
    (by decide +kernel :
      method.maskAt? 0 = some ⟨[], List.replicate 63 .value ++ [.oop]⟩)
    (by decide) (by decide)

/-- All that holds a reference here lies on the stack. -/
theorem below_of_holdsReference
    {slot : Address}
    (holds : entered.HoldsReference context slot) :
    slot.toNat < 0x100 := by
  rcases holds with ⟨held, inside, found, bci, mask, isAt, root⟩ |
    ⟨entry, isEntry, count, counted, index, below, -⟩
  · have known : (entered.manager.activations.all fun held =>
        held.activation.method == method.id && held.activation.fp == 0x88 &&
          held.activation.monitorCount.toOption == some 0 &&
            held.activation.stackDepth.toOption == some 0) = true := by
      decide +kernel
    have here := Array.all_eq_true_iff_forall_mem.mp known held inside
    simp only [Bool.and_eq_true, beq_iff_eq] at here
    obtain ⟨⟨⟨isMethod, isFp⟩, noMonitors⟩, noEntries⟩ := here
    have isFound : found = method := by
      have listed := isAt.found
      rw [isMethod] at listed
      have only : context.env.methods.find? method.id = some method := by
        decide +kernel
      exact Option.some.inj (listed.symm.trans only)
    cases root with
    | @owner index monitor monitored =>
        unfold Activation.monitorAt? at monitored
        obtain ⟨count, counted, answered⟩ := bind_eq_ok.mp monitored
        rw [counted] at noMonitors
        obtain rfl : count = 0 := Option.some.inj noMonitors
        cases answered
    | method => rw [isFp]; decide
    | cache => rw [isFp]; decide
    | oopTemp native => rw [isFp]; decide
    | @localSlot index marked inLocals =>
        rw [isFound] at inLocals
        cases inLocals
    | @entry index depth marked counted inStack =>
        rw [counted] at noEntries
        obtain rfl : depth = 0 := Option.some.inj noEntries
        cases inStack
  · have known : (entered.manager.entry.all fun entry =>
        (entered.machine.stack.read? (entry.wrapper.offset 4)).toOption ==
          some 0) = true := by
      decide +kernel
    rw [isEntry] at known
    rw [Option.all_some, counted, beq_iff_eq] at known
    obtain rfl : count = 0 := Option.some.inj known
    cases below

end Oversized

/--
Neither a top at address zero nor a method of more entries than addresses has its
references enumerated.

In the one case nothing is visited at all; in the other a word outside the stack is.
-/
theorem not_enumeratesRoots :
    (Grounded.entered.ReadyToScan Grounded.context ∧
      ¬Grounded.entered.EnumeratesRoots Grounded.context ⟨true, []⟩) ∧
    Oversized.entered.ReadyToScan Oversized.context ∧
      ¬Oversized.entered.EnumeratesRoots Oversized.context ⟨true, []⟩ := by
  refine ⟨⟨Grounded.readyToScan, fun enumerates => ?_⟩,
    Oversized.readyToScan, fun enumerates => ?_⟩
  · have nothing : (RootScan.scanThread Grounded.context.env ⟨true, []⟩
        Grounded.entered.machine).1.notes.slots = [] := by
      decide +kernel
    have someIndex : Grounded.entered.manager.topIndex? = some 0 := by
      decide +kernel
    obtain ⟨rest, held, stands, -⟩ := FrameManager.push_of_topIndex? someIndex
    have inside : held ∈ Grounded.entered.manager.activations := by
      rw [stands]
      exact Array.mem_push_self
    obtain ⟨method, bci, mask, isAt, -⟩ :=
      Grounded.readyToScan.positioned held inside
    have visited := (enumerates.exact _).mpr
      (.inl ⟨held, inside, method, bci, mask, isAt, .method⟩)
    rw [nothing] at visited
    cases visited
  · have outside : (0xfffffffffffffe40 : Address) ∈
        (RootScan.scanThread Oversized.context.env ⟨true, []⟩
          Oversized.entered.machine).1.notes.slots := by
      decide +kernel
    have inside :=
      Oversized.below_of_holdsReference ((enumerates.exact _).mp outside)
    exact absurd inside (by decide)

end ManagedStack
