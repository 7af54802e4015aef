import ManagedStack.Proofs.Roots
import ManagedStack.Proofs.Walks
import ManagedStack.RootScan

namespace ManagedStack

/-!
# Switching positions for a scan

During a scan every interpreted frame holds a bytecode index in place of a code
address.  The switch changes the position word of a frame, and with it the profiling
word if the interpreter profiles; the chain stays on the stack with these registers
changed, so that its frames can still be read.
-/

open Operation

namespace Activation

variable {stack after : Stack} {activation : Activation}

/-- The activation with another position word and another profiling word. -/
def moved
    (activation : Activation)
    (position profiling : Word) :
    Activation :=
  { activation with bcp := position, mdx := profiling }

theorem worked_moved
    (activation : Activation)
    (stack : Stack)
    (position profiling : Word) :
    Workspace.Worked ⟨activation, stack⟩
      ⟨activation.moved position profiling, stack⟩ :=
  .ofQuiet ⟨rfl, rfl, rfl, rfl, rfl, rfl, rfl, rfl, rfl, rfl, rfl⟩ id rfl

/--
A store of the position word publishes the activation where it moved to.  The
profiling word may have changed as well; its slot holds some word.
-/
theorem Published.of_setBcx
    {env : Env}
    {frame : Frame}
    {position : Word}
    {before between : Machine}
    {value : Unit}
    (published : activation.Published before.stack)
    (x86 : env.layout = .x86_64)
    (fpIs : frame.fp = activation.fp)
    (gives : (frame.setBcx env position).Gives before value between) :
    ∃ stack profiling,
      between = { before with stack := stack } ∧
        (activation.moved position profiling).Published stack ∧
        Stack.Keeps
          (fun place => (activation.fp.offset (-7)).toNat ≠ place ∧
            (activation.fp.offset (-4)).toNat ≠ place)
          before.stack stack := by
  obtain ⟨-, stack, same, -, keeps, holds⟩ := Frame.gives_setBcx gives
  have slotIs (slot : PublishedSlot) :
      frame.slot (slot.offset env.layout) = slot.address .x86_64 activation := by
    rw [x86, Frame.slot, fpIs]
    rfl
  have bcxIs := slotIs .bcx
  have mdxIs := slotIs .mdx
  change frame.slot env.layout.bcx = _ at bcxIs
  change frame.slot env.layout.mdx = _ at mdxIs
  rw [bcxIs, mdxIs] at keeps holds
  obtain ⟨profiling, profiled⟩ :=
    Stack.exists_holds (keeps.covers_iff.mpr (published .mdx).covers)
  refine ⟨stack, profiling, same, ?_, keeps⟩
  intro slot
  by_cases isBcx : slot = .bcx
  · subst isBcx
    exact holds (PublishedSlot.address_ne activation (by simp))
  by_cases isMdx : slot = .mdx
  · subst isMdx
    exact profiled
  have other : stack.Holds (slot.address .x86_64 activation)
      (slot.word activation) :=
    keeps.holds (published slot)
      ⟨fun same => PublishedSlot.address_ne activation (Ne.symm isBcx)
          (UInt64.toNat_inj.mp same),
        fun same => PublishedSlot.address_ne activation (Ne.symm isMdx)
          (UInt64.toNat_inj.mp same)⟩
  cases slot with
  | bcx => exact (isBcx rfl).elim
  | mdx => exact (isMdx rfl).elim
  | monitorEnd => exact other
  | lastSp => exact other
  | oopTemp => exact other

end Activation

section Chain

variable {context : ManagerContext τ} {entry : EntryRecord}
  {held : HeldActivation} {callers chain : List HeldActivation}
  {sp : Address} {stack : Stack}

/-- A chain lies below what the entry frame owns. -/
theorem Chained.floor_le_entry
    (chained : Chained context stack entry chain) :
    (footing context entry chain).floor ≤ entry.floor := by
  induction chain with
  | nil => exact Nat.le_refl _
  | cons held callers inductionHypothesis =>
      have rests := chained.1
      have others := inductionHypothesis chained.2.2
      have within := rests.within
      have fixed := rests.sits.monitorBase
      have endLe := rests.sits.monitorEndLe
      have floor : (footing context entry (held :: callers)).floor =
          held.activation.monitorEnd.toNat :=
        rfl
      unfold Activation.ceiling at within
      omega

/-- An activation goes on resting where its position moves. -/
theorem Rests.moved
    (rests : Rests context stack entry held callers)
    (chained : Chained context stack entry callers)
    (position profiling : Word) :
    Rests context stack entry
      { held with activation := held.activation.moved position profiling }
      callers :=
  have worked := Activation.worked_moved held.activation stack position profiling
  (rests.of_evolves chained (.ofWorked worked) (.ofWorked worked)).1

/--
A store of the position word of the lowest frame keeps the chain.  Only the slots of
position and profiling are written, between monitors and link.
-/
theorem Walkable.of_setBcx
    {before after : Machine}
    {unextendedSp : Address}
    {position : Word}
    {value : Unit}
    (walkable : Walkable context before.stack entry sp (held :: callers))
    (x86 : context.env.layout = .x86_64)
    (gives : ((chainFrame context entry sp unextendedSp (held :: callers)).setBcx
      context.env position).Gives before value after) :
    ∃ stack profiling,
      after = { before with stack := stack } ∧
        Walkable context stack entry sp
          ({ held with
            activation := held.activation.moved position profiling } ::
              callers) ∧
        Stack.Keeps
          (fun place => place < held.activation.monitorBase.toNat ∨
            held.activation.fp.toNat ≤ place)
          before.stack stack := by
  have rests := walkable.chained.1
  have sits := rests.sits
  have within := rests.within
  have fixed := sits.monitorBase
  have above := floor_le_frameEnd walkable.chained.2.2
  have bcxPlace := sits.toNat_slot (by omega : -9 ≤ (-7 : Int)) (by omega)
  have mdxPlace := sits.toNat_slot (by omega : -9 ≤ (-4 : Int)) (by omega)
  obtain ⟨stack, profiling, same, published, keeps⟩ :=
    walkable.chained.2.1.of_setBcx x86 rfl gives
  have outside : Stack.Keeps
      (fun place => place < held.activation.monitorBase.toNat ∨
        held.activation.fp.toNat ≤ place)
      before.stack stack := by
    refine keeps.mono fun place apart => ?_
    constructor <;> omega
  have chained : Chained context stack entry callers := by
    refine walkable.chained.2.2.of_keeps (outside.mono fun place high => ?_)
    unfold Activation.ceiling at within
    omega
  have rested : Rests context stack entry held callers := by
    refine rests.of_slots keeps fun distance leads => ?_
    have place := sits.toNat_slot (by simp at leads; omega : -9 ≤ distance)
      (by simp at leads; omega)
    simp only [List.mem_cons, List.not_mem_nil, or_false] at leads
    constructor <;> omega
  refine ⟨stack, profiling, same, ?_, outside⟩
  constructor
  case chained => exact ⟨rested.moved chained position profiling, published, chained⟩
  case spLe => exact walkable.spLe
  case top =>
    intro head isHead
    obtain rfl := Option.some.inj isHead
    exact walkable.top held rfl

end Chain

/-- A position word is read as an index if it is small enough. -/
theorem isBytecodeIndex_iff {bcx : Word} :
    isBytecodeIndex bcx = true ↔ bcx.toNat ≤ 65535 := by
  unfold isBytecodeIndex maxCodeSize
  rw [decide_eq_true_eq, UInt64.le_iff_toNat_le]
  rfl

theorem isBytecodeIndex_eq_false
    {bcx : Word}
    (above : 65535 < bcx.toNat) :
    isBytecodeIndex bcx = false :=
  Bool.eq_false_iff.mpr fun isIndex => by
    have atMost := isBytecodeIndex_iff.mp isIndex
    omega

/-- In a method of no more than the largest size, every position is one. -/
theorem Method.isBytecodeIndex_of_isPosition
    {method : Method}
    {bci : UInt32}
    (isPosition : method.isPosition bci = true)
    (size : method.codeSize.toNat ≤ 65536) :
    isBytecodeIndex bci.toUInt64 = true := by
  rw [isBytecodeIndex_iff]
  unfold Method.isPosition at isPosition
  split at isPosition
  · obtain rfl := eq_of_beq isPosition
    decide
  · have below := of_decide_eq_true isPosition
    rw [UInt64.lt_iff_toNat_lt] at below
    omega

/-- An index that is a position is read back from its own word. -/
theorem Method.bciOfBcx?_toUInt64
    {method : Method}
    {bcx : Word}
    {bci : UInt32}
    (position : method.bciOfBcx? bcx = some bci)
    (size : method.codeSize.toNat ≤ 65536) :
    isBytecodeIndex bci.toUInt64 = true ∧
      method.bciOfBcx? bci.toUInt64 = some bci := by
  have valid : method.isPosition bci = true :=
    (Option.filter_eq_some_iff.mp position).2
  have small := Method.isBytecodeIndex_of_isPosition valid size
  refine ⟨small, ?_⟩
  unfold Method.bciOfBcx?
  simp [small, Option.filter, valid]

/--
The address of a position that an address was found to be at.  The distance is small
enough to be the same number in half a word.
-/
theorem Method.bcpOf_of_position
    {method : Method}
    {bcp : Word}
    {bci : UInt32}
    (position : method.bciOfBcx? bcp = some bci)
    (isAddress : 65535 < bcp.toNat)
    (size : method.codeSize.toNat ≤ 65536) :
    method.bcpOf bci = .ok bcp := by
  have notIndex := isBytecodeIndex_eq_false isAddress
  unfold Method.bciOfBcx? at position
  rw [notIndex] at position
  have found : method.bciOf? bcp = some bci :=
    (Option.filter_eq_some_iff.mp position).1
  unfold Method.bciOf? Word.sub? at found
  by_cases low : method.codeBase ≤ bcp
  · rw [if_pos low] at found
    obtain ⟨inside, rfl⟩ : bcp - method.codeBase < max method.codeSize 1 ∧
        (bcp - method.codeBase).toUInt32 = bci := by
      simpa using found
    have distance := UInt64.toNat_sub_of_le _ _ low
    have lowNat := UInt64.le_iff_toNat_le.mp low
    have small := bcp.toNat_lt
    have one : (1 : Word).toNat = 1 := rfl
    have below : (bcp - method.codeBase).toNat < 65536 := by
      rw [UInt64.lt_iff_toNat_lt] at inside
      change _ < (if method.codeSize ≤ 1 then (1 : Word) else method.codeSize).toNat
        at inside
      split at inside <;> omega
    have index : (bcp - method.codeBase).toUInt32.toUInt64.toNat =
        (bcp - method.codeBase).toNat := by
      simp only [UInt32.toNat_toUInt64, UInt64.toNat_toUInt32]
      omega
    refine Word.plus_eq_ok.mpr ?_
    have size : UInt64.size = 0x10000000000000000 := rfl
    constructor <;> omega
  · rw [if_neg low] at found
    cases found

/-- A chain of which each activation is at a position has its positions as indices. -/
inductive Indexed (methods : MethodTable) :
    List HeldActivation → List HeldActivation → Prop where
  | nil : Indexed methods [] []
  | cons
      {held : HeldActivation}
      {callers switched : List HeldActivation}
      {method : Method}
      {bci : UInt32}
      (profiling : Word)
      (found : methods.find? held.activation.method = some method)
      (position : method.bciOfBcx? held.activation.bcp = some bci)
      (rest : Indexed methods callers switched) :
      Indexed methods (held :: callers)
        ({ held with
          activation := held.activation.moved bci.toUInt64 profiling } ::
            switched)

namespace Indexed

variable {context : ManagerContext τ} {entry : EntryRecord} {stack : Stack}
  {methods : MethodTable} {held : HeldActivation}
  {callers chain switched : List HeldActivation}

/-- What rests on a chain does not see the positions in it. -/
theorem footing_eq (indexed : Indexed methods chain switched) :
    footing context entry switched = footing context entry chain := by
  cases indexed <;> rfl

theorem chainFrame_eq
    (indexed : Indexed methods chain switched)
    (sp unextendedSp : Address) :
    chainFrame context entry sp unextendedSp switched =
      chainFrame context entry sp unextendedSp chain := by
  unfold chainFrame
  rw [indexed.footing_eq]

/-- A walk yields the same frames during a scan. -/
theorem walkedChain_eq
    (indexed : Indexed methods chain switched)
    (sp unextendedSp : Address)
    (map : RegisterMap) :
    walkedChain context entry sp unextendedSp map switched =
      walkedChain context entry sp unextendedSp map chain := by
  induction indexed generalizing sp unextendedSp map with
  | nil => rfl
  | cons profiling found position rest inductionHypothesis =>
      unfold walkedChain
      rw [(Indexed.cons profiling found position rest).chainFrame_eq,
        ← inductionHypothesis]
      rfl

theorem rests
    (indexed : Indexed methods callers switched)
    (rests : Rests context stack entry held callers) :
    Rests context stack entry held switched := by
  have same : footing context entry switched = footing context entry callers :=
    indexed.footing_eq
  constructor
  case sits => exact rests.sits
  case laid => exact same ▸ rests.laid
  case runs => exact rests.runs
  case constants => exact rests.constants
  case within => exact same ▸ rests.within
  case arguments =>
    cases indexed with
    | nil => exact rests.arguments
    | @cons caller _ _ _ _ profiling found position rest =>
        intro head isHead
        obtain rfl := Option.some.inj isHead
        exact rests.arguments caller rfl

/-- The reference slots are those from before the switch. -/
theorem roots_eq
    (indexed : Indexed methods chain switched)
    (sized : ∀ held ∈ chain, ∀ method ∈ methods.find? held.activation.method,
      method.codeSize.toNat ≤ 65536) :
    (switched.flatMap fun held => held.activation.roots methods) =
      chain.flatMap fun held => held.activation.roots methods := by
  induction indexed with
  | nil => rfl
  | @cons held callers switched method bci profiling found position rest
      inductionHypothesis =>
      have size := sized held (by simp) method found
      have index := (Method.bciOfBcx?_toUInt64 position size).2
      have same : (held.activation.moved bci.toUInt64 profiling).roots methods =
          held.activation.roots methods := by
        have sameMethod : (held.activation.moved bci.toUInt64 profiling).method =
            held.activation.method := rfl
        have atIndex : (held.activation.moved bci.toUInt64 profiling).bcp =
            bci.toUInt64 := rfl
        unfold Activation.roots
        rw [sameMethod, found, atIndex]
        simp only [index, position]
        rfl
      rw [List.flatMap_cons, List.flatMap_cons, same, inductionHypothesis]
      exact fun later inRest => sized later (by simp [inRest])

end Indexed

namespace Frame

variable {frame : Frame} {env : Env} {before after : Machine} {value : Unit}

theorem gives_beginScan (interpreted : frame.kind = .interpreted) :
    (frame.beginScan env).Gives before value after ↔
      ∃ index, (frame.bci (before.view env)).Gives index ∧
        (frame.setBcx env index.toUInt64).Gives before value after := by
  unfold beginScan
  rw [if_pos interpreted]
  simp [and_assoc]

theorem gives_endScan (interpreted : frame.kind = .interpreted) :
    (frame.endScan env).Gives before value after ↔
      ∃ position, (frame.bcp (before.view env)).Gives position ∧
        (frame.setBcx env position).Gives before value after := by
  unfold endScan
  rw [if_pos interpreted]
  simp [and_assoc]

/-- Frames that are not interpreted have no position to switch. -/
theorem beginScan_of_entry (isEntry : frame.kind = .entry) :
    frame.beginScan env = pure () := by
  unfold beginScan
  rw [isEntry]
  rfl

theorem endScan_of_entry (isEntry : frame.kind = .entry) :
    frame.endScan env = pure () := by
  unfold endScan
  rw [isEntry]
  rfl

end Frame

namespace RootScan

section Lists

variable {env : Env} {thread : ThreadId} {switched rest : List WalkedFrame}
  {walked : WalkedFrame} {before after : Machine} {value : Unit}

/-- Frames are switched one after the other. -/
theorem gives_prepareFrames_cons :
    (prepareFrames env thread switched (walked :: rest)).Gives
        before value after ↔
      ∃ between, (walked.frame.beginScan env).Gives before () between ∧
        (prepareFrames env thread (walked :: switched) rest).Gives
          between value after := by
  rw [prepareFrames]
  simp only [gives_bind, gives_attempt]
  constructor
  · rintro ⟨ended, between, ⟨_, rfl, begins⟩ | ⟨cause, rfl, -⟩, goesOn⟩
    · exact ⟨between, begins, goesOn⟩
    · simp at goesOn
  · rintro ⟨between, begins, goesOn⟩
    exact ⟨.ok (), between, .inl ⟨(), rfl, begins⟩, goesOn⟩

/-- Frames that all switch back do so without an error. -/
theorem gives_restoreAll_cons
    {between : Machine}
    (first : (walked.frame.endScan env).Gives before () between)
    (others : (restoreAll env rest).Gives between (.ok ()) after) :
    (restoreAll env (walked :: rest)).Gives before (.ok ()) after := by
  unfold restoreAll
  simp only [gives_bind, gives_attempt]
  exact ⟨.ok (), between, .inl ⟨(), rfl, first⟩, .ok (), after, others,
    gives_pure.mpr ⟨rfl, rfl⟩⟩

theorem gives_restoreFrames
    {frames : List WalkedFrame}
    (all : (restoreAll env frames).Gives before (.ok ()) after) :
    (restoreFrames env frames).Gives before () after := by
  unfold restoreFrames
  rw [gives_bind]
  exact ⟨.ok (), after, all, gives_pure.mpr ⟨rfl, rfl⟩⟩

end Lists

end RootScan

/-! Switching visits no slot, whether it ends well or not. -/

namespace Frame

theorem quiet_expectInterpreted (frame : Frame) :
    frame.expectInterpreted.Quiet := by
  unfold expectInterpreted expectKind
  split <;> rfl

theorem quiet_field
    (frame : Frame)
    (view : View)
    (offset : Int) :
    (frame.field view offset).Quiet :=
  Probe.quiet_read _ _

theorem quiet_method
    (frame : Frame)
    (view : View) :
    (frame.method view).Quiet :=
  Probe.quiet_bind frame.quiet_expectInterpreted fun _ =>
    Probe.quiet_bind (frame.quiet_field view _) fun _ => Probe.quiet_demand _ _

theorem quiet_bci
    (frame : Frame)
    (view : View) :
    (frame.bci view).Quiet :=
  Probe.quiet_bind (frame.quiet_field view _) fun _ =>
    Probe.quiet_bind (frame.quiet_method view) fun _ => Probe.quiet_demand _ _

theorem quiet_bcp
    (frame : Frame)
    (view : View) :
    (frame.bcp view).Quiet := by
  refine Probe.quiet_bind (frame.quiet_field view _) fun position => ?_
  split
  · exact Probe.quiet_bind (frame.quiet_method view) fun _ =>
      Probe.quiet_check _
  · exact Probe.quiet_pure _

theorem quiet_convertMdx
    (frame : Frame)
    (view : View)
    (formerlyIndex : Bool)
    (value : Word) :
    (frame.convertMdx view formerlyIndex value).Quiet := by
  refine Probe.quiet_bind (frame.quiet_method view) fun _ =>
    Probe.quiet_bind (Probe.quiet_demand _ _) fun _ => ?_
  split
  · exact Probe.quiet_bind (Probe.quiet_check _) fun _ => Probe.quiet_check _
  · exact Probe.quiet_bind (Probe.quiet_demand _ _) fun _ =>
      Probe.quiet_check _

theorem quiet_setBcx
    (frame : Frame)
    (env : Env)
    (position : Word) :
    (frame.setBcx env position).Quiet := by
  refine quiet_bind (quiet_inspect fun _ => frame.quiet_expectInterpreted)
    fun _ => ?_
  split
  · refine quiet_bind (quiet_inspect fun _ => frame.quiet_field _ _) fun _ =>
      quiet_bind (quiet_inspect fun _ => frame.quiet_field _ _) fun _ => ?_
    split
    · exact quiet_write _ _
    · refine quiet_bind
        (quiet_inspect fun _ => frame.quiet_convertMdx _ _ _) fun _ =>
          quiet_bind (quiet_write _ _) fun _ => ?_
      exact quiet_bind (quiet_inspect fun _ => Probe.quiet_check _) fun _ =>
        quiet_write _ _
  · exact quiet_write _ _

theorem quiet_beginScan
    (frame : Frame)
    (env : Env) :
    (frame.beginScan env).Quiet := by
  unfold beginScan
  split
  · exact quiet_bind (quiet_inspect fun _ => frame.quiet_bci _) fun _ =>
      frame.quiet_setBcx env _
  · exact quiet_pure _

theorem quiet_endScan
    (frame : Frame)
    (env : Env) :
    (frame.endScan env).Quiet := by
  unfold endScan
  split
  · exact quiet_bind (quiet_inspect fun _ => frame.quiet_bcp _) fun _ =>
      frame.quiet_setBcx env _
  · exact quiet_pure _

end Frame

namespace RootScan

theorem quiet_restoreAll
    (env : Env)
    (frames : List WalkedFrame) :
    (restoreAll env frames).Quiet := by
  induction frames with
  | nil => exact quiet_pure _
  | cons walked rest inductionHypothesis =>
      exact quiet_bind (quiet_attempt (walked.frame.quiet_endScan env)) fun _ =>
        quiet_bind inductionHypothesis fun _ => quiet_pure _

theorem quiet_restoreFrames
    (env : Env)
    (frames : List WalkedFrame) :
    (restoreFrames env frames).Quiet := by
  refine quiet_bind (quiet_restoreAll env frames) fun ended => ?_
  cases ended <;> exact fun _ => rfl

theorem quiet_prepareFrames
    (env : Env)
    (thread : ThreadId)
    (switched frames : List WalkedFrame) :
    (prepareFrames env thread switched frames).Quiet := by
  induction frames generalizing switched with
  | nil => exact quiet_pure _
  | cons walked rest inductionHypothesis =>
      refine quiet_bind (quiet_attempt (walked.frame.quiet_beginScan env))
        fun ended => ?_
      cases ended with
      | ok => exact inductionHypothesis _
      | error cause =>
          exact quiet_bind (fun _ => rfl) fun _ =>
            quiet_bind (quiet_restoreFrames env _) fun _ => fun _ => rfl

end RootScan

section Scanning

variable {context : ManagerContext τ} {entry : EntryRecord}
  {held : HeldActivation} {callers chain : List HeldActivation}
  {sp unextendedSp : Address} {before after : Machine} {value : Unit}

/-- Switching the lowest frame keeps the chain, with the position an index. -/
theorem Walkable.of_beginScan
    (walkable : Walkable context before.stack entry sp (held :: callers))
    (coded : Coded context)
    (x86 : context.env.layout = .x86_64)
    (begins : ((chainFrame context entry sp unextendedSp
      (held :: callers)).beginScan context.env).Gives before value after) :
    ∃ stack method bci profiling,
      after = { before with stack := stack } ∧
        context.env.methods.find? held.activation.method = some method ∧
        method.bciOfBcx? held.activation.bcp = some bci ∧
        Walkable context stack entry sp
          ({ held with
            activation := held.activation.moved bci.toUInt64 profiling } ::
              callers) ∧
        Stack.Keeps
          (fun place => place < held.activation.monitorBase.toNat ∨
            held.activation.fp.toNat ≤ place)
          before.stack stack := by
  have depicts : (chainFrame context entry sp unextendedSp
      (held :: callers)).Depicts (before.view context.env) held.activation :=
    walkable.depicts unextendedSp coded x86
  obtain ⟨bci, isBci, stored⟩ := (Frame.gives_beginScan depicts.kind).mp begins
  obtain ⟨method, found, position⟩ := depicts.position_of_gives isBci
  obtain ⟨stack, profiling, same, moved, keeps⟩ := walkable.of_setBcx x86 stored
  exact ⟨stack, method, bci, profiling, same, found, position, moved, keeps⟩

/--
Switching all frames keeps the chain, with the positions as indices.  What happens to
the callers lies above the frame of the activation.
-/
theorem Walkable.of_prepareFrames
    {thread : ThreadId}
    {switched : List WalkedFrame}
    {map : RegisterMap}
    (walkable : Walkable context before.stack entry sp chain)
    (coded : Coded context)
    (x86 : context.env.layout = .x86_64)
    (prepares : (RootScan.prepareFrames context.env thread switched
      (walkedChain context entry sp unextendedSp map chain)).Gives
        before value after) :
    ∃ stack indexed,
      after = { before with stack := stack } ∧
        Indexed context.env.methods chain indexed ∧
        Walkable context stack entry sp indexed ∧
        Stack.Keeps
          (fun place => place < (footing context entry chain).floor ∨
            entry.floor ≤ place)
          before.stack stack := by
  induction chain generalizing sp unextendedSp map switched before with
  | nil =>
      unfold walkedChain at prepares
      obtain ⟨between, begins, ends⟩ :=
        RootScan.gives_prepareFrames_cons.mp prepares
      rw [Frame.beginScan_of_entry (kind_chainFrame_nil coded), gives_pure]
        at begins
      obtain ⟨-, rfl⟩ := begins
      obtain ⟨-, rfl⟩ := gives_pure.mp ends
      exact ⟨_, [], rfl, .nil, walkable, .refl _⟩
  | cons held callers inductionHypothesis =>
      unfold walkedChain at prepares
      obtain ⟨between, begins, others⟩ :=
        RootScan.gives_prepareFrames_cons.mp prepares
      obtain ⟨first, method, bci, profiling, rfl, found, position, moved, keeps⟩ :=
        walkable.of_beginScan coded x86 begins
      have rests := moved.chained.1
      have within := rests.within
      have fixed := rests.sits.monitorBase
      have endLe := rests.sits.monitorEndLe
      change held.activation.ceiling ≤ _ at within
      change held.activation.monitorBase.toNat + 72 = held.activation.fp.toNat
        at fixed
      change held.activation.monitorEnd.toNat ≤ held.activation.monitorBase.toNat
        at endLe
      unfold Activation.ceiling at within
      have below := moved.chained.2.2.floor_le_entry
      obtain ⟨stack, indexed, rfl, isIndexed, rest, keepsOthers⟩ :=
        inductionHypothesis moved.rest others
      have isAll := Indexed.cons profiling found position isIndexed
      refine ⟨stack, _, rfl, isAll, ?_, ?_⟩
      · have published := moved.chained.2.1.of_keeps rests.sits keepsOthers
          fun place _ inside => by
            change place < held.activation.fp.toNat at inside
            omega
        have rested := rests.of_keeps keepsOthers fun place _ inside => by
          change place < held.activation.fp.toNat + 16 at inside
          omega
        constructor
        case chained =>
          exact ⟨isIndexed.rests rested, published, rest.chained⟩
        case spLe => exact walkable.spLe
        case top =>
          intro head isHead
          obtain rfl := Option.some.inj isHead
          exact walkable.top held rfl
      · have floor : (footing context entry (held :: callers)).floor =
            held.activation.monitorEnd.toNat :=
          rfl
        rw [floor]
        refine (keeps.mono ?_).trans (keepsOthers.mono ?_)
        · intro place inside
          omega
        · intro place inside
          omega

/-- An interpreter that does not profile stores a position in any frame. -/
theorem Walkable.exists_setBcx
    (walkable : Walkable context before.stack entry sp (held :: callers))
    (coded : Coded context)
    (x86 : context.env.layout = .x86_64)
    (unprofiled : context.env.diagnostics.profileInterpreter = false)
    (position : Word) :
    ∃ after, ((chainFrame context entry sp unextendedSp
      (held :: callers)).setBcx context.env position).Gives before () after := by
  apply Frame.exists_gives_setBcx unprofiled (kind_chainFrame_cons coded)
  have covers := (walkable.chained.2.1 .bcx).covers
  rw [x86]
  exact covers

/-- Frames that are at positions can all be switched. -/
theorem Walkable.exists_prepareFrames
    {thread : ThreadId}
    {switched : List WalkedFrame}
    {map : RegisterMap}
    (walkable : Walkable context before.stack entry sp chain)
    (coded : Coded context)
    (x86 : context.env.layout = .x86_64)
    (unprofiled : context.env.diagnostics.profileInterpreter = false)
    (positioned : ∀ held ∈ chain, ∃ method bci,
      context.env.methods.find? held.activation.method = some method ∧
        method.bciOfBcx? held.activation.bcp = some bci) :
    ∃ after, (RootScan.prepareFrames context.env thread switched
      (walkedChain context entry sp unextendedSp map chain)).Gives
        before () after := by
  induction chain generalizing sp unextendedSp map switched before with
  | nil =>
      unfold walkedChain
      refine ⟨before, RootScan.gives_prepareFrames_cons.mpr ⟨before, ?_, ?_⟩⟩
      · rw [Frame.beginScan_of_entry (kind_chainFrame_nil coded)]
        exact gives_pure.mpr ⟨rfl, rfl⟩
      · exact gives_pure.mpr ⟨rfl, rfl⟩
  | cons held callers inductionHypothesis =>
      obtain ⟨method, bci, found, position⟩ := positioned held (by simp)
      have depicts : (chainFrame context entry sp unextendedSp
          (held :: callers)).Depicts (before.view context.env) held.activation :=
        walkable.depicts unextendedSp coded x86
      have isBci := depicts.bci_eq found position
      obtain ⟨between, stored⟩ :=
        walkable.exists_setBcx coded x86 unprofiled bci.toUInt64
      have begins := (Frame.gives_beginScan depicts.kind).mpr
        ⟨bci, by rw [isBci]; exact Probe.gives_pure.mpr rfl, stored⟩
      obtain ⟨stack, profiling, rfl, moved, -⟩ := walkable.of_setBcx x86 stored
      have goesOn : Walkable context ({ before with stack := stack } : Machine).stack
          entry (held.activation.fp.offset 2) callers :=
        moved.rest
      obtain ⟨after, others⟩ := inductionHypothesis goesOn
        fun later inRest => positioned later (by simp [inRest])
      exact ⟨after, RootScan.gives_prepareFrames_cons.mpr ⟨_, begins, others⟩⟩

/-- The activation holds an index that its method has an address for. -/
def HeldActivation.Restorable
    (methods : MethodTable)
    (held : HeldActivation) :
    Prop :=
  ∃ method position,
    methods.find? held.activation.method = some method ∧
      isBytecodeIndex held.activation.bcp = true ∧
      method.bcpOf held.activation.bcp.toUInt32 = .ok position

/--
Frames whose indices have addresses can all be switched back.  A frame moves its own
position only, so that the walk goes on to its caller.
-/
theorem Walkable.exists_restoreAll
    {map : RegisterMap}
    (walkable : Walkable context before.stack entry sp chain)
    (coded : Coded context)
    (x86 : context.env.layout = .x86_64)
    (unprofiled : context.env.diagnostics.profileInterpreter = false)
    (restorable : ∀ held ∈ chain, held.Restorable context.env.methods) :
    ∃ after, (RootScan.restoreAll context.env
      (walkedChain context entry sp unextendedSp map chain)).Gives
        before (.ok ()) after := by
  induction chain generalizing sp unextendedSp map before with
  | nil =>
      unfold walkedChain
      have ends : ((chainFrame context entry sp unextendedSp []).endScan
          context.env).Gives before () before := by
        rw [Frame.endScan_of_entry (kind_chainFrame_nil coded)]
        exact gives_pure.mpr ⟨rfl, rfl⟩
      exact ⟨before, RootScan.gives_restoreAll_cons ends
        (gives_pure.mpr ⟨rfl, rfl⟩)⟩
  | cons held callers inductionHypothesis =>
      obtain ⟨method, position, found, isIndex, address⟩ :=
        restorable held (by simp)
      have depicts : (chainFrame context entry sp unextendedSp
          (held :: callers)).Depicts (before.view context.env) held.activation :=
        walkable.depicts unextendedSp coded x86
      have isBcp : ((chainFrame context entry sp unextendedSp
          (held :: callers)).bcp (before.view context.env)).Gives position := by
        unfold Frame.bcp
        rw [depicts.bcx_eq, pure_bind, if_pos isIndex, depicts.method_eq found,
          pure_bind, address]
        rfl
      obtain ⟨between, stored⟩ :=
        walkable.exists_setBcx coded x86 unprofiled position
      have ends := (Frame.gives_endScan depicts.kind).mpr ⟨position, isBcp, stored⟩
      obtain ⟨stack, profiling, rfl, moved, -⟩ := walkable.of_setBcx x86 stored
      have goesOn : Walkable context ({ before with stack := stack } : Machine).stack
          entry (held.activation.fp.offset 2) callers :=
        moved.rest
      obtain ⟨after, others⟩ := inductionHypothesis goesOn
        fun later inRest => restorable later (by simp [inRest])
      exact ⟨after, RootScan.gives_restoreAll_cons ends others⟩

/-- Indices that came from addresses can be switched back. -/
theorem Indexed.restorable
    {methods : MethodTable}
    {indexed : List HeldActivation}
    (isIndexed : Indexed methods chain indexed)
    (sized : ∀ held ∈ chain, ∀ method ∈ methods.find? held.activation.method,
      method.codeSize.toNat ≤ 65536)
    (addresses : ∀ held ∈ chain, 65535 < held.activation.bcp.toNat) :
    ∀ held ∈ indexed, held.Restorable methods := by
  induction isIndexed with
  | nil => simp
  | @cons held callers switched method bci profiling found position rest
      inductionHypothesis =>
      have size := sized held (by simp) method found
      have address := Method.bcpOf_of_position position
        (addresses held (by simp)) size
      have isIndex := (Method.bciOfBcx?_toUInt64 position size).1
      intro later inside
      rcases List.mem_cons.mp inside with rfl | inRest
      · exact ⟨method, held.activation.bcp, found, isIndex, by
          simpa [Activation.moved] using address⟩
      · exact inductionHypothesis
          (fun other isOther => sized other (by simp [isOther]))
          (fun other isOther => addresses other (by simp [isOther])) later inRest

end Scanning

end ManagedStack
