import ManagedStack.Frame.References
import ManagedStack.Proofs.Views

namespace ManagedStack

/-!
# The reference slots of a frame

The slots of an activation that hold references are known from its registers and
from the mask at its position.  A frame that depicts the activation visits exactly
those, in order, once it is known not to report the arguments of its callee.
-/

namespace Notes

theorem slots_append (first second : Notes) :
    slots (first ++ second) = slots first ++ slots second := by
  simp [slots]

theorem slots_map_slot (addresses : List Address) :
    slots (addresses.map .slot) = addresses := by
  rw [slots, List.filterMap_map]
  exact List.filterMap_some

end Notes

namespace Probe

/-- Hand some slots to the visitor of reference slots and do nothing else. -/
def visiting (slots : List Address) : Probe ε Unit where
  outcome := .ok ()
  notes := slots.map .slot

theorem visit_eq_visiting (slot : Address) :
    (visit slot : Probe ε Unit) = visiting [slot] :=
  rfl

theorem visiting_bind
    (slots : List Address)
    (next : Unit → Probe ε α) :
    (visiting slots >>= next) =
      ⟨(next ()).outcome, slots.map .slot ++ (next ()).notes⟩ :=
  rfl

/-- Visiting on is visiting more. -/
theorem visiting_visiting
    (first second : List Address)
    (next : Unit → Probe ε α) :
    (visiting first >>= fun _ => visiting second >>= next) =
      visiting (first ++ second) >>= next := by
  simp [visiting_bind]

theorem visiting_then
    (first second : List Address) :
    (visiting first >>= fun _ => (visiting second : Probe ε Unit)) =
      visiting (first ++ second) := by
  simp [visiting]
  rfl

end Probe

/-!
A computation is *quiet* when it visits no slot, however it ends.
-/

/-- No run of the probe visits a slot. -/
def Probe.Quiet (probe : Probe ε α) : Prop :=
  probe.notes.slots = []

/-- No run of the operation visits a slot. -/
def Operation.Quiet (operation : Operation σ ε α) : Prop :=
  ∀ state, (operation state).1.Quiet

namespace Probe

theorem quiet_bind
    {first : Probe ε α}
    {next : α → Probe ε β}
    (firstQuiet : first.Quiet)
    (nextQuiet : ∀ value, (next value).Quiet) :
    (first >>= next).Quiet := by
  unfold Quiet at firstQuiet nextQuiet ⊢
  change (first.andThen next).notes.slots = []
  unfold andThen
  split
  · exact firstQuiet
  · rename_i value ended
    rw [Notes.slots_append, firstQuiet, nextQuiet value]
    rfl

theorem quiet_pure (value : α) : (pure value : Probe ε α).Quiet :=
  rfl

theorem slots_bind
    {first : Probe ε α}
    {next : α → Probe ε β}
    {value : α}
    (gives : first.Gives value) :
    (first >>= next).notes.slots =
      first.notes.slots ++ (next value).notes.slots := by
  change (first.andThen next).notes.slots = _
  unfold andThen
  rw [gives]
  exact Notes.slots_append _ _

theorem quiet_check (checked : Except Abort α) :
    (check checked : Probe ε α).Quiet := by
  cases checked <;> rfl

theorem quiet_demand
    (demanded : Option α)
    (cause : ε) :
    (demand demanded cause).Quiet := by
  cases demanded <;> rfl

theorem quiet_read
    (stack : Stack)
    (address : Address) :
    (stack.read address).Quiet := by
  unfold Stack.read
  split
  · rfl
  · rename_i cause _
    cases cause <;> rfl

end Probe

namespace Operation

theorem quiet_bind
    {first : Operation σ ε α}
    {next : α → Operation σ ε β}
    (firstQuiet : first.Quiet)
    (nextQuiet : ∀ value, (next value).Quiet) :
    (first >>= next).Quiet := by
  intro state
  have quiet := firstQuiet state
  unfold Probe.Quiet at quiet ⊢
  change (first.andThen next state).1.notes.slots = []
  unfold andThen
  split
  · rename_i ran
    rw [ran] at quiet
    exact quiet
  · rename_i value notes after ran
    rw [ran] at quiet
    have others := nextQuiet value after
    unfold Probe.Quiet at others
    change (notes ++ (next value after).1.notes).slots = []
    rw [Notes.slots_append, quiet, others]
    rfl

theorem quiet_pure (value : α) : (pure value : Operation σ ε α).Quiet :=
  fun _ => rfl

theorem quiet_inspect
    {look : σ → Probe ε α}
    (quiet : ∀ state, (look state).Quiet) :
    (inspect look).Quiet :=
  quiet

/-- An attempt notes what it attempts. -/
theorem notes_attempt
    (operation : Operation σ ε α)
    (state : σ) :
    ((operation.attempt : Operation σ ε' (Except ε α)) state).1.notes =
      (operation state).1.notes := by
  change ((operation state).1.attempt : Probe ε' _).notes = _
  unfold Probe.attempt
  split <;> rfl

theorem quiet_attempt
    {operation : Operation σ ε α}
    (quiet : operation.Quiet) :
    (operation.attempt : Operation σ ε' (Except ε α)).Quiet := by
  intro state
  unfold Probe.Quiet
  rw [notes_attempt]
  exact quiet state

theorem quiet_write
    (address : Address)
    (word : Word) :
    (Machine.write address word).Quiet := by
  intro machine
  change (Stack.write address word machine.stack).1.notes.slots = []
  unfold Stack.write
  split
  · rfl
  · rename_i cause _
    cases cause <;> rfl

/-- The slots of a chain that goes on are those of its links. -/
theorem slots_bind
    {first : Operation σ ε α}
    {next : α → Operation σ ε β}
    {before between : σ}
    {value : α}
    (gives : first.Gives before value between) :
    ((first >>= next) before).1.notes.slots =
      (first before).1.notes.slots ++ (next value between).1.notes.slots := by
  obtain ⟨answered, left⟩ := gives
  change (first.andThen next before).1.notes.slots = _
  unfold andThen
  rcases ran : first before with ⟨⟨outcome, notes⟩, after⟩
  rw [ran] at answered left
  obtain rfl : outcome = .ok value := answered
  obtain rfl : after = between := left
  exact Notes.slots_append _ _

end Operation

/-- How many locals of a method's activations are looked at. -/
def Method.scannedLocals (method : Method) : Nat :=
  if method.isNative then method.parameterSlots else method.maxLocals

theorem Method.scannedLocals_le (method : Method) :
    method.scannedLocals ≤ method.maxLocals := by
  unfold scannedLocals maxLocals
  split <;> omega

namespace Activation

/-- The activation is at a position of a known method that has a mask. -/
structure At
    (methods : MethodTable)
    (activation : Activation)
    (method : Method)
    (bci : UInt32)
    (mask : LivenessMask) :
    Prop where
  found : methods.find? activation.method = some method
  position : method.bciOfBcx? activation.bcp = some bci
  masked : method.maskAt? bci = some mask

/-- The monitors, the lowest first. -/
def monitors (activation : Activation) : List Address :=
  Frame.spaced activation.monitorEnd 16
    ((activation.monitorBase.toNat - activation.monitorEnd.toNat) / 16)

section Roots

variable (method : Method) (mask : LivenessMask) (activation : Activation)

/-- The reference slots that do not move with the expression stack. -/
def fixedRoots : List Address :=
  activation.monitors.map Frame.monitorOwner ++
    [activation.fp.offset (-3), activation.fp.offset (-5)] ++
      if method.isNative then [activation.fp.offset (-8)] else []

/-- The locals that the mask marks. -/
def localRoots : List Address :=
  (mask.oopLocals.filter (· < method.scannedLocals)).map
    fun index : Nat => activation.locals.offset (-index)

/-- The entry at an index counted from the deepest. -/
def entrySlot (index : Nat) : Address :=
  activation.monitorEnd.offset (-(index + 1))

/-- The indices of entries that the mask marks, as far as they are looked at. -/
def markedEntries : List Nat :=
  mask.oopExpressions.filter (· < method.maxStack.toNat)

/-- The entries that the mask marks and that are not above the top. -/
def entryRoots : List Address :=
  ((markedEntries method mask).map activation.entrySlot).filter
    (activation.stackTop ≤ ·)

end Roots

/-- The reference slots of an activation at the position that it is at. -/
def roots
    (methods : MethodTable)
    (activation : Activation) :
    List Address :=
  match methods.find? activation.method with
  | none => []
  | some method =>
      match (method.bciOfBcx? activation.bcp).bind method.maskAt? with
      | none => []
      | some mask =>
          activation.fixedRoots method ++ activation.localRoots method mask ++
            activation.entryRoots method mask

theorem At.roots_eq
    {methods : MethodTable}
    {activation : Activation}
    {method : Method}
    {bci : UInt32}
    {mask : LivenessMask}
    (isAt : activation.At methods method bci mask) :
    activation.roots methods =
      activation.fixedRoots method ++ activation.localRoots method mask ++
        activation.entryRoots method mask := by
  simp [roots, isAt.found, isAt.position, isAt.masked]

end Activation

/-- Locals that do not lie below the frame are visited. -/
theorem Frame.visitLocals_of_pointer
    {view : View}
    {frame : Frame}
    {locals : Address}
    {indices : List Nat}
    (pointer : frame.localsPointer view = pure locals)
    (few : ∀ index ∈ indices, index < 0x8000000000000000)
    (inside : ∀ index ∈ indices, frame.sp ≤ locals.offset (-(index : Int))) :
    frame.visitLocals view indices =
      Probe.visiting (indices.map fun index : Nat => locals.offset (-index)) := by
  induction indices with
  | nil => rfl
  | cons index rest inductionHypothesis =>
      have others := inductionHypothesis
        (fun later inRest => few later (List.mem_cons_of_mem _ inRest))
        (fun later inRest => inside later (List.mem_cons_of_mem _ inRest))
      have small := few index List.mem_cons_self
      have word : (UInt64.ofNat index).toNat = index := by
        rw [UInt64.toNat_ofNat']
        omega
      have slot : frame.localSlot view index = pure (locals.offset (-(index : Int))) := by
        unfold localSlot
        rw [pointer, pure_bind, Word.below_of_small (by omega), word]
        rfl
      unfold visitLocals
      rw [slot, pure_bind, decide_eq_true (inside index List.mem_cons_self), others]
      exact Probe.visiting_then [_] _

/-- The owners of monitors that are listed are visited, checked or not. -/
theorem Frame.HasMonitors.visitMonitors_eq
    {frame : Frame}
    {view : View}
    {lowest : Address}
    {count : Nat}
    {monitors : List Address}
    (has : frame.HasMonitors view lowest count)
    (listed : ∀ monitor ∈ monitors, monitor ∈ spaced lowest 16 count) :
    frame.visitMonitors view monitors = Probe.visiting (monitors.map monitorOwner) := by
  induction monitors with
  | nil => rfl
  | cons monitor rest inductionHypothesis =>
      have verified := has.verifyMonitor_eq monitor
      rw [decide_eq_true (listed monitor List.mem_cons_self)] at verified
      have others := inductionHypothesis fun later inRest =>
        listed later (List.mem_cons_of_mem _ inRest)
      unfold visitMonitors
      simp only [verified, others, pure_bind, Bool.not_true, Bool.false_eq_true, if_false,
        ite_self, Probe.visit_eq_visiting]
      exact Probe.visiting_then [_] _

namespace Frame.Depicts

variable {view : View} {activation : Activation} {frame : Frame}
  {method : Method} {bci : UInt32} {mask : LivenessMask}

theorem method_eq
    (depicts : frame.Depicts view activation)
    (found : view.methods.find? activation.method = some method) :
    frame.method view = pure method := by
  simp [Frame.method, depicts.expectInterpreted_eq, depicts.methodWord_eq, found,
    Probe.demand]
  rfl

theorem bci_eq
    (depicts : frame.Depicts view activation)
    (found : view.methods.find? activation.method = some method)
    (position : method.bciOfBcx? activation.bcp = some bci) :
    frame.bci view = pure bci := by
  simp [Frame.bci, depicts.bcx_eq, depicts.method_eq found, position,
    Probe.demand]
  rfl

theorem visitMonitors_eq
    (depicts : frame.Depicts view activation)
    {monitors : List Address}
    (listed : ∀ monitor ∈ monitors, monitor ∈ activation.monitors) :
    frame.visitMonitors view monitors =
      Probe.visiting (monitors.map Frame.monitorOwner) :=
  depicts.hasMonitors.visitMonitors_eq listed

/--
The locals that are there are visited.  Locals lie above the frame pointer, and the
stack pointer far below.
-/
theorem visitLocals_eq
    (depicts : frame.Depicts view activation)
    {indices : List Nat}
    (inside : ∀ index ∈ indices, index < activation.maxLocals) :
    frame.visitLocals view indices =
      Probe.visiting
        (indices.map fun index : Nat => activation.locals.offset (-index)) := by
  have sits := depicts.sits
  have localsLe := sits.localsLe
  have small := view.stack.base.toNat_lt
  refine Frame.visitLocals_of_pointer depicts.localsPointer_eq
    (fun index listed => ?_) fun index listed => ?_
  · have here := inside index listed
    omega
  · have place := sits.toNat_local (inside index listed)
    have ceiling : activation.ceiling =
        activation.fp.toNat + 16 + 8 * activation.maxLocals :=
      rfl
    have spLe := depicts.spLe
    have endLe := sits.monitorEndLe
    have fixed := sits.monitorBase
    have here := inside index listed
    rw [UInt64.le_iff_toNat_le]
    omega

/-- An expression slot is an entry of the activation. -/
theorem expressionSlot_eq
    (depicts : frame.Depicts view activation)
    (index : Nat) :
    frame.expressionSlot view index =
      Probe.check ((activation.monitorEnd.offset (-1)).below
        (UInt64.ofNat index)) := by
  simp [Frame.expressionSlot, depicts.expressionBase_eq]

theorem entrySlot_of_below
    {index : Nat}
    {slot : Address}
    (fits : index < 0x10000000000000000)
    (lowered : (activation.monitorEnd.offset (-1)).below (UInt64.ofNat index) =
      .ok slot) :
    slot = activation.entrySlot index := by
  have word : (UInt64.ofNat index).toNat = index := by
    rw [UInt64.toNat_ofNat']
    omega
  rw [Word.below_eq_ok lowered, Word.offset_offset, word]
  unfold Activation.entrySlot
  congr 1
  omega

/-- Of the entries given, those not above the top have been visited. -/
theorem slots_of_visitExpressions
    (depicts : frame.Depicts view activation)
    {indices : List Nat}
    {value : Unit}
    (fit : ∀ index ∈ indices, index < 0x10000000000000000)
    (gives : (frame.visitExpressions view activation.stackTop indices).Gives
      value) :
    (frame.visitExpressions view activation.stackTop indices).notes.slots =
      (indices.map activation.entrySlot).filter (activation.stackTop ≤ ·) := by
  induction indices with
  | nil => rfl
  | cons index rest inductionHypothesis =>
      have here := fit index (by simp)
      unfold Frame.visitExpressions at gives ⊢
      rw [depicts.expressionSlot_eq] at gives ⊢
      obtain ⟨slot, lowered, others⟩ := Probe.gives_bind.mp gives
      rw [Probe.gives_check] at lowered
      rw [lowered, Probe.check_ok, pure_bind]
      rw [entrySlot_of_below here lowered] at others ⊢
      have counted := inductionHypothesis fun later inRest =>
        fit later (by simp [inRest])
      by_cases shown : activation.stackTop ≤ activation.entrySlot index
      · simp only [shown, if_true, Probe.visit_eq_visiting, Probe.visiting_bind]
          at others ⊢
        rw [Notes.slots_append, Notes.slots_map_slot, counted others]
        simp [shown]
      · simp only [shown, if_false] at others ⊢
        rw [counted others]
        simp [shown]

/-- Entries that a word can count are all looked at. -/
theorem gives_visitExpressions
    (depicts : frame.Depicts view activation)
    {indices : List Nat}
    (small : ∀ index ∈ indices, index < 0x8000000000000000) :
    (frame.visitExpressions view activation.stackTop indices).Gives () := by
  induction indices with
  | nil => rfl
  | cons index rest inductionHypothesis =>
      have here := small index (by simp)
      have others := inductionHypothesis fun later inRest =>
        small later (by simp [inRest])
      have word : (UInt64.ofNat index).toNat = index := by
        rw [UInt64.toNat_ofNat']
        omega
      unfold Frame.visitExpressions
      rw [depicts.expressionSlot_eq, Word.below_of_small (by omega),
        Probe.check_ok, pure_bind]
      split
      · exact Probe.gives_bind.mpr ⟨(), Probe.gives_visit, others⟩
      · exact others

/--
A frame that does not report its callee's arguments reports its own slots.  The
arguments of an invoke that the frame waits at are left to the callee.
-/
theorem visitInterpreted_eq
    (depicts : frame.Depicts view activation)
    (isAt : activation.At view.methods method bci mask)
    (room : method.maxLocals ≤ activation.maxLocals)
    {map : RegisterMap}
    (noArguments : map.includeArgumentOops = false) :
    frame.visitInterpreted view map = (do
      Probe.visiting
        (activation.fixedRoots method ++ activation.localRoots method mask)
      frame.visitExpressions view activation.stackTop
        (Activation.markedEntries method mask)) := by
  obtain ⟨count, counted, extent⟩ := depicts.sits.monitorCount_eq
  obtain ⟨depth, isDepth, -⟩ := depicts.sits.stackDepth_eq
  have listed : frame.monitors view = pure activation.monitors := by
    rw [depicts.monitors_eq counted]
    unfold Activation.monitors
    congr 2
    omega
  have monitors := depicts.visitMonitors_eq fun monitor inside =>
    (inside : monitor ∈ activation.monitors)
  have locals : frame.visitLocals view
      (mask.oopLocals.filter (· < method.scannedLocals)) =
        Probe.visiting (activation.localRoots method mask) := by
    apply depicts.visitLocals_eq
    intro index inside
    have below := of_decide_eq_true (List.mem_filter.mp inside).2
    have fits := method.scannedLocals_le
    omega
  have pending (site : InvokeSite) :
      frame.visitPendingArguments view map site = pure () := by
    simp [visitPendingArguments, depicts.expressionCount_eq isDepth, noArguments]
  unfold visitInterpreted
  rw [depicts.method_eq isAt.found, pure_bind,
    depicts.bci_eq isAt.found isAt.position, pure_bind, listed, pure_bind,
    monitors, isAt.masked, depicts.expressionTop_eq]
  have slotIs (offset : Int) : frame.slot offset = activation.fp.offset offset := by
    rw [slot, depicts.fp]
  have demanded (cause : FrameError) :
      Probe.demand (some mask) cause = pure mask :=
    rfl
  have count : (if method.isNative then method.parameterSlots
      else method.maxLocals) = method.scannedLocals :=
    rfl
  have methodOffset : FrameLayout.x86_64.method = -3 := rfl
  have cacheOffset : FrameLayout.x86_64.cache = -5 := rfl
  have oopTempOffset : FrameLayout.x86_64.oopTemp = -8 := rfl
  simp only [methodSlot, cacheSlot, oopTempSlot, slotIs, depicts.layout,
    methodOffset, cacheOffset, oopTempOffset, Probe.visit_eq_visiting,
    Probe.visiting_visiting, demanded, pure_bind, count, locals]
  unfold Activation.fixedRoots Activation.markedEntries
  cases native : method.isNative with
  | true =>
      simp only [if_true, Probe.visiting_visiting, List.append_assoc,
        List.cons_append, List.nil_append]
  | false =>
      simp only [Bool.false_eq_true, if_false, List.append_nil]
      cases method.invokeAt? bci with
      | some site =>
          simp only [pending, pure_bind, Probe.visiting_visiting,
            List.append_assoc, List.cons_append, List.nil_append]
      | none =>
          simp only [Probe.visiting_visiting, List.append_assoc, List.cons_append,
            List.nil_append]

theorem found_of_gives
    (depicts : frame.Depicts view activation)
    (gives : (frame.method view).Gives method) :
    view.methods.find? activation.method = some method := by
  unfold Frame.method at gives
  rw [depicts.expectInterpreted_eq, depicts.methodWord_eq] at gives
  exact Probe.gives_demand.mp gives

theorem position_of_gives
    (depicts : frame.Depicts view activation)
    (gives : (frame.bci view).Gives bci) :
    ∃ method, view.methods.find? activation.method = some method ∧
      method.bciOfBcx? activation.bcp = some bci := by
  unfold Frame.bci at gives
  rw [depicts.bcx_eq, pure_bind] at gives
  obtain ⟨method, isMethod, demanded⟩ := Probe.gives_bind.mp gives
  exact ⟨method, depicts.found_of_gives isMethod, Probe.gives_demand.mp demanded⟩

/--
A frame that reported its references is at a position with a mask.  The mask is asked
for on every way through the frame's own kind of method.
-/
theorem exists_at_of_gives
    (depicts : frame.Depicts view activation)
    {map : RegisterMap}
    {value : Unit}
    (gives : (frame.visitInterpreted view map).Gives value) :
    ∃ method bci mask, activation.At view.methods method bci mask := by
  unfold visitInterpreted at gives
  simp only [Probe.gives_bind] at gives
  obtain ⟨method, isMethod, bci, isBci, monitors, -, -, -, -, -, -, -, rest⟩ := gives
  have found := depicts.found_of_gives isMethod
  obtain ⟨same, sameFound, position⟩ := depicts.position_of_gives isBci
  obtain rfl := Option.some.inj (found.symm.trans sameFound)
  have masked : ∃ mask, method.maskAt? bci = some mask := by
    split at rest
    · simp only [Probe.gives_bind, Probe.gives_demand] at rest
      obtain ⟨-, -, mask, masked, -⟩ := rest
      exact ⟨mask, masked⟩
    · split at rest
      · simp only [Probe.gives_bind, Probe.gives_demand] at rest
        obtain ⟨-, -, mask, masked, -⟩ := rest
        exact ⟨mask, masked⟩
      · simp only [Probe.gives_bind, Probe.gives_demand] at rest
        obtain ⟨mask, masked, -⟩ := rest
        exact ⟨mask, masked⟩
  obtain ⟨mask, masked⟩ := masked
  exact ⟨method, bci, mask, found, position, masked⟩

/-- What a frame reported are the reference slots of its activation. -/
theorem slots_of_visitInterpreted
    (depicts : frame.Depicts view activation)
    (room : ∀ method, view.methods.find? activation.method = some method →
      method.maxLocals ≤ activation.maxLocals)
    {map : RegisterMap}
    {value : Unit}
    (noArguments : map.includeArgumentOops = false)
    (gives : (frame.visitInterpreted view map).Gives value) :
    (frame.visitInterpreted view map).notes.slots =
      activation.roots view.methods := by
  obtain ⟨method, bci, mask, isAt⟩ := depicts.exists_at_of_gives gives
  have equation :=
    depicts.visitInterpreted_eq isAt (room method isAt.found) noArguments
  rw [equation] at gives ⊢
  rw [Probe.visiting_bind] at gives ⊢
  have fit : ∀ index ∈ Activation.markedEntries method mask,
      index < 0x10000000000000000 := by
    intro index marked
    have below := of_decide_eq_true (List.mem_filter.mp marked).2
    have small := method.maxStack.toNat_lt
    omega
  rw [Notes.slots_append, Notes.slots_map_slot,
    depicts.slots_of_visitExpressions fit gives, isAt.roots_eq]
  rfl

/-- A frame at a position with a mask reports its reference slots. -/
theorem gives_visitInterpreted
    (depicts : frame.Depicts view activation)
    (isAt : activation.At view.methods method bci mask)
    (room : method.maxLocals ≤ activation.maxLocals)
    (small : method.maxStack.toNat < 0x8000000000000000)
    {map : RegisterMap}
    (noArguments : map.includeArgumentOops = false) :
    (frame.visitInterpreted view map).Gives () := by
  rw [depicts.visitInterpreted_eq isAt room noArguments, Probe.visiting_bind]
  refine depicts.gives_visitExpressions fun index marked => ?_
  have below := of_decide_eq_true (List.mem_filter.mp marked).2
  omega

end Frame.Depicts

namespace EntryRecord

/-- The handle slots of the call wrapper. -/
def handles
    (stack : Stack)
    (entry : EntryRecord) :
    List Address :=
  match stack.read? (entry.wrapper.offset 4) with
  | .ok count =>
      (List.range count.toNat).map fun index : Nat =>
        entry.wrapper.offset (5 + index)
  | .error _ => []

end EntryRecord

/-- Slots that are all there are visited in ascending order. -/
theorem CallWrapper.visitSlots_eq
    {stack : Stack}
    {start : Address}
    {count : Nat}
    (covers : ∀ index < count, stack.Covers (start.offset index)) :
    visitSlots stack start count =
      Probe.visiting ((List.range count).map fun index : Nat =>
        start.offset index) := by
  induction count generalizing start with
  | zero => rfl
  | succ count inductionHypothesis =>
      obtain ⟨word, holds⟩ := Stack.exists_holds (covers 0 (by omega))
      have others : visitSlots stack (start.offset 1) count =
          Probe.visiting ((List.range count).map fun index : Nat =>
            (start.offset 1).offset index) := by
        apply inductionHypothesis
        intro index inside
        have next := covers (index + 1) (by omega)
        rw [Word.offset_offset]
        exact Int.add_comm 1 index ▸ next
      have first : stack.read start = pure word :=
        Stack.read_of_holds (Word.offset_zero start ▸ holds)
      have next (index : Nat) :
          (start.offset 1).offset index = start.offset (index + 1 : Nat) := by
        rw [Word.offset_offset]
        congr 1
        omega
      unfold visitSlots
      rw [first, pure_bind, others, Probe.visit_eq_visiting, Probe.visiting_then,
        List.range_succ_eq_map, List.map_cons, List.map_map, List.singleton_append]
      simp only [next]
      congr 2
      exact (Word.offset_zero start).symm

namespace EntryRecord.Stands

variable {stack : Stack} {entry : EntryRecord}

/-- The handles lie above the wrapper's other words, on the stack. -/
theorem exists_handles (stands : entry.Stands stack) :
    ∃ count : Nat,
      CallWrapper.handleCount ⟨entry.wrapper⟩ stack =
          pure (UInt64.ofNat count) ∧
        entry.wrapper.toNat + 8 * (5 + count) ≤ stack.base.toNat ∧
        (UInt64.ofNat count).toNat = count ∧
        entry.handles stack = (List.range count).map fun index : Nat =>
          entry.wrapper.offset (5 + index) := by
  obtain ⟨count, counted, above, -⟩ := stands.handles
  have small := stack.base.toNat_lt
  have word : (UInt64.ofNat count).toNat = count := by
    rw [UInt64.toNat_ofNat']
    omega
  refine ⟨count, Stack.read_of_holds counted, above, word, ?_⟩
  unfold EntryRecord.handles
  rw [counted]
  simp only [word]

theorem visitHandles_eq (stands : entry.Stands stack) :
    CallWrapper.visitHandles ⟨entry.wrapper⟩ stack =
      Probe.visiting (entry.handles stack) := by
  obtain ⟨count, counted, above, word, handles⟩ := stands.exists_handles
  have low := stands.low
  have small := stack.base.toNat_lt
  have aligned := stands.aligned
  have place (index : Nat) (inside : index < count) :
      (entry.wrapper.offset (5 + index)).toNat =
        entry.wrapper.toNat + 8 * (5 + index) :=
    Word.toNat_offset_of_fits (by omega) (by omega)
  have covers : ∀ index < count,
      stack.Covers ((entry.wrapper.offset 5).offset index) := by
    intro index inside
    have exact := place index inside
    rw [Word.offset_offset]
    refine ⟨?_, ?_, ?_⟩ <;> omega
  unfold CallWrapper.visitHandles CallWrapper.slot
  rw [counted, pure_bind, word, CallWrapper.visitSlots_eq covers, handles]
  simp only [Word.offset_offset]

end EntryRecord.Stands

end ManagedStack
