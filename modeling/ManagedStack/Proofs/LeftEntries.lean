import ManagedStack.Proofs.Enumeration

namespace ManagedStack

/-!
# Entries that a service leaves to the engine

A throw into a caller leaves the exception as the one entry of its expression stack,
and a popped callee leaves the caller's arguments where they were.  A scan knows the
entries of the top activation by its mask alone: the walk begins there, with a map
that excludes arguments.  A mask that describes what lies below the arguments of an
invoke therefore hides what these services left.
-/

namespace Activation

variable {stack : Stack} {activation : Activation} {methods : MethodTable}
  {method : Method} {bci : UInt32} {mask : LivenessMask} {slot : Address}

/-- No reference slot of an activation lies above its top entry. -/
theorem Sits.top_le_of_mem_roots
    (sits : activation.Sits stack)
    (locals : ∀ method ∈ methods.find? activation.method,
      method.maxLocals ≤ activation.maxLocals)
    (listed : slot ∈ activation.roots methods) :
    activation.stackTop.toNat ≤ slot.toNat := by
  have topLe := sits.topLe
  have endLe := sits.monitorEndLe
  have fixed := sits.monitorBase
  unfold roots at listed
  split at listed
  · cases listed
  · rename_i method found
    split at listed
    · cases listed
    · rename_i mask _
      rcases List.mem_append.mp listed with inFrame | inEntries
      · rcases List.mem_append.mp inFrame with inFixed | inLocals
        · have above := ((sits.spread_fixedRoots method).inside slot inFixed).1
          omega
        · have above :=
            ((sits.spread_localRoots (locals method found) mask).inside slot
              inLocals).1
          omega
      · have notAbove := of_decide_eq_true (List.mem_filter.mp inEntries).2
        exact UInt64.le_iff_toNat_le.mp notAbove

/-- Of its own slots only marked entries lie below the monitors. -/
theorem At.mem_roots_entrySlot_iff
    (isAt : activation.At methods method bci mask)
    (sits : activation.Sits stack)
    (locals : method.maxLocals ≤ activation.maxLocals)
    (room : activation.HasRoom (8 * method.maxStack.toNat))
    {depth : Word}
    (counted : activation.stackDepth = .ok depth)
    {index : Nat}
    (inside : index < depth.toNat) :
    activation.entrySlot index ∈ activation.roots methods ↔
      mask.expressions[index]? = some .oop := by
  have fits := sits.depth_le_maxStack room counted
  have place := toNat_entrySlot room (by omega : index < method.maxStack.toNat)
  have endLe := sits.monitorEndLe
  have fixed := sits.monitorBase
  rw [isAt.roots_eq]
  constructor
  · intro listed
    rcases List.mem_append.mp listed with inFrame | inEntries
    · exfalso
      rcases List.mem_append.mp inFrame with inFixed | inLocals
      · have above := ((sits.spread_fixedRoots method).inside _ inFixed).1
        omega
      · have above := ((sits.spread_localRoots locals mask).inside _ inLocals).1
        omega
    · obtain ⟨other, marked, below, same⟩ :=
        (sits.mem_entryRoots room counted).mp inEntries
      have otherPlace :=
        toNat_entrySlot room (by omega : other < method.maxStack.toNat)
      rw [← same] at otherPlace
      obtain rfl : index = other := by omega
      exact marked
  · intro marked
    exact List.mem_append_right _
      ((sits.mem_entryRoots room counted).mpr ⟨index, marked, inside, rfl⟩)

end Activation

/--
The slots of those that wait lie above the frame of the lowest activation.  The
caller's entries end where the arguments of the callee begin.
-/
theorem Chained.fp_lt_of_mem_callers
    {context : ManagerContext τ}
    {stack : Stack}
    {entry : EntryRecord}
    {held : HeldActivation}
    {callers : List HeldActivation}
    {slot : Address}
    (chained : Chained context stack entry (held :: callers))
    (listed : slot ∈ callers.flatMap fun held =>
      held.activation.roots context.env.methods) :
    held.activation.fp.toNat < slot.toNat := by
  induction callers generalizing held with
  | nil => cases listed
  | cons caller rest inductionHypothesis =>
      obtain ⟨rests, -, waiting⟩ := chained
      have waits : Rests context stack entry caller rest := waiting.1
      have arguments := rests.arguments caller rfl
      have ceiling :=
        HeldActivation.toNat_argumentTop rests.sits rests.laid.parameters
      have parameters := rests.laid.parameters
      rw [← arguments] at ceiling
      unfold Activation.ceiling at ceiling
      have topLe := waits.sits.topLe
      have endLe := waits.sits.monitorEndLe
      have fixed := waits.sits.monitorBase
      rw [List.flatMap_cons] at listed
      rcases List.mem_append.mp listed with ofCaller | ofRest
      · have above := waits.sits.top_le_of_mem_roots
          (fun method found => waits.maxLocals_le found) ofCaller
        omega
      · have above := inductionHypothesis waiting ofRest
        omega

/--
A scan visits an entry of the top activation exactly when the mask marks it.

An exception that a throw left is such an entry, and so are arguments that a popped
callee left.
-/
theorem visits_entry_iff_marked
    {context : ManagerContext τ}
    {session : Session τ}
    {safepoint : Safepoint}
    {report : ScanReport}
    {after : Machine}
    {top : Activation}
    {method : Method}
    {bci : UInt32}
    {mask : LivenessMask}
    {depth : Word}
    {index : Nat}
    (x86 : context.env.layout = .x86_64)
    (coded : Coded context)
    (reached : Reached context session)
    (first : ∀ entry ∈ session.manager.entry,
      entry.savedAnchor.isEmpty = true)
    (sized : ∀ held ∈ session.manager.activations,
      ∀ method ∈ context.env.methods.find? held.activation.method,
        method.codeSize.toNat ≤ 65536)
    (scans : (RootScan.scanThread context.env safepoint).Gives session.machine
      report after)
    (isTop : session.manager.top? = some top)
    (nonzero : top.stackTop ≠ 0)
    (isAt : top.At context.env.methods method bci mask)
    (bounded : method.maxStack.toNat < 0x1000000000000000)
    (counted : top.stackDepth = .ok depth)
    (inside : index < depth.toNat) :
    top.entrySlot index ∈ (RootScan.scanThread context.env safepoint
        session.machine).1.notes.slots ↔
      mask.expressions[index]? = some .oop := by
  have stacked := reached.stacked x86
  obtain ⟨rest, held, stands, rfl⟩ := FrameManager.push_of_top? isTop
  have isSome : session.manager.entry.isSome = true :=
    reached.followsProtocol.entry.mpr
      (.inl (by simp [FrameManager.depth_of_push stands]))
  obtain ⟨entry, isEntry⟩ := Option.isSome_iff_exists.mp isSome
  have chained := stacked.chained entry isEntry
  rw [Session.reverse_of_push stands] at chained
  have rests := chained.1
  have locals := rests.maxLocals_le isAt.found
  obtain ⟨same, found, -, -, room⟩ := rests.runs
  obtain rfl := Option.some.inj (isAt.found.symm.trans found)
  have roomy := room bounded
  have own := isAt.mem_roots_entrySlot_iff rests.sits locals roomy counted inside
  have fits := rests.sits.depth_le_maxStack roomy counted
  have place := Activation.toNat_entrySlot roomy
    (by omega : index < method.maxStack.toNat)
  have endLe := rests.sits.monitorEndLe
  have fixed := rests.sits.monitorBase
  rw [stacked.slots_of_scan coded x86 isEntry (first entry isEntry) stands
    nonzero sized scans, List.flatMap_cons, ← own]
  constructor
  · intro listed
    rcases List.mem_append.mp listed with inChain | inHandles
    · rcases List.mem_append.mp inChain with here | inCallers
      · exact here
      · have above := chained.fp_lt_of_mem_callers inCallers
        omega
    · have above := (chained.stands.spread_handles.inside _ inHandles).1
      have floor := chained.floor_le_entry
      have within := rests.within
      have entryAbove := chained.2.2.floor_le_entry
      unfold Activation.ceiling at within
      omega
  · intro here
    exact List.mem_append_left _ (List.mem_append_left _ here)

/--
A scan that answers visits what a throw or a pop has left to the top: the exception,
or the references among the arguments of the invoke that is to be made again.
-/
def Session.VisitsLeftEntries
    (context : ManagerContext τ)
    (safepoint : Safepoint)
    (session : Session τ) :
    Prop :=
  ∀ report after top,
    (RootScan.scanThread context.env safepoint).Gives session.machine report
        after →
      session.manager.top? = some top →
        (top.message = .rethrowException →
          top.entrySlot 0 ∈ (RootScan.scanThread context.env safepoint
            session.machine).1.notes.slots) ∧
        (top.message = .deoptResume2 → ∀ method bci site,
          context.env.methods.find? top.method = some method →
            method.bciOfBcx? top.bcp = some bci →
              method.invokeAt? bci = some site →
                ∀ distance ∈ Frame.referenceDistances site.argumentSlots
                    (Frame.argumentTypes site.signature site.hasReceiver),
                  top.stackTop.offset distance ∈
                    (RootScan.scanThread context.env safepoint
                      session.machine).1.notes.slots)

/-- A computation whose end is an answer answers with something. -/
theorem exists_ok_of_isSome
    {outcome : Except ε α}
    (isSome : outcome.toOption.isSome = true) :
    ∃ value, outcome = .ok value := by
  cases outcome with
  | error cause => cases isSome
  | ok value => exact ⟨value, rfl⟩

namespace Pair

/-- Leave without a result, so that the caller makes its call again. -/
def leave : Engine Unit :=
  Turn.onWorkspace Workspace.requestPop

/-- Calls after which the callee has thrown an exception into its caller. -/
def throwing : List (Call Unit) :=
  calls ++ [.step throwInto]

/-- Calls after which the callee has left its caller to call again. -/
def leaving : List (Call Unit) :=
  calls ++ [.step leave]

theorem acts_throwing : ∀ call ∈ throwing, call.Acts := by
  intro call listed
  rcases List.mem_append.mp listed with before | last
  · exact acts call before
  · obtain rfl := List.mem_singleton.mp last
    exact .offered (.requestThrow _)

theorem acts_leaving : ∀ call ∈ leaving, call.Acts := by
  intro call listed
  rcases List.mem_append.mp listed with before | last
  · exact acts call before
  · obtain rfl := List.mem_singleton.mp last
    exact .offered .requestPop

theorem ran_throwing : (Call.runAll? context throwing fresh).isSome = true := by
  decide +kernel

theorem ran_leaving : (Call.runAll? context leaving fresh).isSome = true := by
  decide +kernel

def thrown : Session Unit :=
  (Call.runAll? context throwing fresh).get ran_throwing

def left : Session Unit :=
  (Call.runAll? context leaving fresh).get ran_leaving

theorem reached_thrown : Reached context thrown :=
  (Reached.fresh rfl).of_runAll? acts_throwing (Option.some_get ran_throwing).symm

theorem reached_left : Reached context left :=
  (Reached.fresh rfl).of_runAll? acts_leaving (Option.some_get ran_leaving).symm

theorem readyToScan_thrown : thrown.ReadyToScan context :=
  .of_alone rfl ⟨by decide +kernel, by decide +kernel⟩ rfl reached_thrown
    (by decide +kernel) (by decide +kernel)
    (by decide +kernel : (thrown.manager.activations.all fun held =>
      held.activation.method == caller.id &&
        held.activation.bcp == caller.codeBase) = true)
    (by decide +kernel)
    (by decide +kernel : caller.bciOfBcx? caller.codeBase = some 0)
    (by decide +kernel : caller.maskAt? 0 = some ⟨[], []⟩)
    (by decide) (by decide)

theorem readyToScan_left : left.ReadyToScan context :=
  .of_alone rfl ⟨by decide +kernel, by decide +kernel⟩ rfl reached_left
    (by decide +kernel) (by decide +kernel)
    (by decide +kernel : (left.manager.activations.all fun held =>
      held.activation.method == caller.id &&
        held.activation.bcp == caller.codeBase) = true)
    (by decide +kernel)
    (by decide +kernel : caller.bciOfBcx? caller.codeBase = some 0)
    (by decide +kernel : caller.maskAt? 0 = some ⟨[], []⟩)
    (by decide) (by decide)

end Pair

/-- The exception that was thrown into the caller is visited if the mask marks it. -/
theorem visits_entry_of_thrown :
    ∃ top,
      Pair.thrown.manager.top? = some top ∧ top.message = .rethrowException ∧
        (top.entrySlot 0 ∈ (RootScan.scanThread Pair.context.env ⟨true, []⟩
            Pair.thrown.machine).1.notes.slots ↔
          ([] : List SlotKind)[0]? = some .oop) := by
  have known : Pair.thrown.manager.top?.all (fun top =>
      top.message == .rethrowException && top.stackTop != 0 &&
        top.stackDepth.toOption == some 1 && top.method == Pair.caller.id &&
          top.bcp == Pair.caller.codeBase) = true := by
    decide +kernel
  have someTop : Pair.thrown.manager.top?.isSome = true := by decide +kernel
  have scans : (RootScan.scanThread Pair.context.env ⟨true, []⟩
      Pair.thrown.machine).1.outcome.toOption.isSome = true := by
    decide +kernel
  have sized : Pair.context.env.methods.methods.all
      (·.codeSize.toNat ≤ 65536) = true := by
    decide +kernel
  obtain ⟨top, isTop⟩ := Option.isSome_iff_exists.mp someTop
  rw [isTop, Option.all_some] at known
  simp only [Bool.and_eq_true, beq_iff_eq, bne_iff_ne] at known
  obtain ⟨⟨⟨⟨message, nonzero⟩, depth⟩, isMethod⟩, isBcp⟩ := known
  obtain ⟨report, answered⟩ := exists_ok_of_isSome scans
  have isAt : top.At Pair.context.env.methods Pair.caller 0 ⟨[], []⟩ := by
    refine ⟨?_, ?_, by decide +kernel⟩
    · rw [isMethod]
      decide +kernel
    · rw [isBcp]
      decide +kernel
  have counted : top.stackDepth = .ok 1 := by
    obtain ⟨count, counted⟩ : ∃ count, top.stackDepth = .ok count :=
      exists_ok_of_isSome (by rw [depth]; rfl)
    rw [counted] at depth ⊢
    exact congrArg _ (Option.some.inj depth)
  refine ⟨top, isTop, message, ?_⟩
  exact visits_entry_iff_marked rfl Pair.readyToScan_thrown.coded
    Pair.reached_thrown Pair.readyToScan_thrown.first
    (fun held _ method found => by
      simpa using List.all_eq_true.mp sized method
        (List.mem_of_find?_eq_some found))
    ⟨answered, rfl⟩ isTop nonzero isAt (by decide) counted (by decide)

/--
A mask of what lies below the arguments hides an exception that was thrown into a
caller, and it hides the arguments of a call that is to be made again.
-/
theorem not_visitsLeftEntries :
    (Pair.thrown.ReadyToScan Pair.context ∧
      ¬Pair.thrown.VisitsLeftEntries Pair.context ⟨true, []⟩) ∧
    Pair.left.ReadyToScan Pair.context ∧
      ¬Pair.left.VisitsLeftEntries Pair.context ⟨true, []⟩ := by
  refine ⟨⟨Pair.readyToScan_thrown, fun visits => ?_⟩,
    Pair.readyToScan_left, fun visits => ?_⟩
  · have known : Pair.thrown.manager.top?.all (fun top =>
        top.message == .rethrowException && top.entrySlot 0 == 0x7f38) = true := by
      decide +kernel
    have someTop : Pair.thrown.manager.top?.isSome = true := by decide +kernel
    have scans : (RootScan.scanThread Pair.context.env ⟨true, []⟩
        Pair.thrown.machine).1.outcome.toOption.isSome = true := by
      decide +kernel
    have unvisited : (0x7f38 : Address) ∉
        (RootScan.scanThread Pair.context.env ⟨true, []⟩
          Pair.thrown.machine).1.notes.slots := by
      decide +kernel
    obtain ⟨top, isTop⟩ := Option.isSome_iff_exists.mp someTop
    rw [isTop, Option.all_some] at known
    simp only [Bool.and_eq_true, beq_iff_eq] at known
    obtain ⟨report, answered⟩ := exists_ok_of_isSome scans
    have visited := (visits report _ top ⟨answered, rfl⟩ isTop).1 known.1
    rw [known.2] at visited
    exact unvisited visited
  · have known : Pair.left.manager.top?.all (fun top =>
        top.message == .deoptResume2 && top.stackTop == 0x7f30 &&
          top.method == Pair.caller.id &&
            top.bcp == Pair.caller.codeBase) = true := by
      decide +kernel
    have someTop : Pair.left.manager.top?.isSome = true := by decide +kernel
    have scans : (RootScan.scanThread Pair.context.env ⟨true, []⟩
        Pair.left.machine).1.outcome.toOption.isSome = true := by
      decide +kernel
    have unvisited : (0x7f38 : Address) ∉
        (RootScan.scanThread Pair.context.env ⟨true, []⟩
          Pair.left.machine).1.notes.slots := by
      decide +kernel
    obtain ⟨top, isTop⟩ := Option.isSome_iff_exists.mp someTop
    rw [isTop, Option.all_some] at known
    simp only [Bool.and_eq_true, beq_iff_eq] at known
    obtain ⟨⟨⟨message, stackTop⟩, isMethod⟩, isBcp⟩ := known
    obtain ⟨report, answered⟩ := exists_ok_of_isSome scans
    have found : Pair.context.env.methods.find? top.method =
        some Pair.caller := by
      rw [isMethod]
      decide +kernel
    have position : Pair.caller.bciOfBcx? top.bcp = some 0 := by
      rw [isBcp]
      decide +kernel
    have visited := (visits report _ top ⟨answered, rfl⟩ isTop).2 message
      Pair.caller 0 ⟨⟨[.object], .void⟩, true, 3⟩ found position
      (by decide +kernel) 1 (by decide)
    rw [stackTop] at visited
    exact unvisited visited

end ManagedStack
