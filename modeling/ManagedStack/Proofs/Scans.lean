import ManagedStack.Proofs.Switching

namespace ManagedStack

/-!
# Scanning a chain

A scan walks the chain, switches its frames, has each of them report its reference
slots, and switches them back.  If it answers, what it visited are the reference
slots of the activations, top first, and then the handles of the call wrapper.
-/

open Operation

namespace Activation

/-- The activation is at an address with a mask, in a method of a possible size. -/
structure Scannable
    (methods : MethodTable)
    (activation : Activation)
    (method : Method)
    (bci : UInt32)
    (mask : LivenessMask) :
    Prop
    extends At methods activation method bci mask where
  address : 65535 < activation.bcp.toNat
  codeSize : method.codeSize.toNat ≤ 65536
  maxStack : method.maxStack.toNat < 0x1000000000000000

end Activation

/-- Activations that can be scanned are at their masks also in index form. -/
theorem Indexed.isAt
    {methods : MethodTable}
    {chain indexed : List HeldActivation}
    (isIndexed : Indexed methods chain indexed)
    (scannable : ∀ held ∈ chain, ∃ method bci mask,
      held.activation.Scannable methods method bci mask) :
    ∀ held ∈ indexed, ∃ method bci mask,
      held.activation.At methods method bci mask ∧
        method.maxStack.toNat < 0x8000000000000000 := by
  induction isIndexed with
  | nil => simp
  | @cons held callers switched method bci profiling found position rest
      inductionHypothesis =>
      intro later inside
      rcases List.mem_cons.mp inside with rfl | inRest
      · obtain ⟨same, index, mask, ready⟩ := scannable held (by simp)
        obtain rfl := Option.some.inj (ready.found.symm.trans found)
        obtain rfl := Option.some.inj (ready.position.symm.trans position)
        have readBack := (Method.bciOfBcx?_toUInt64 position ready.codeSize).2
        have small := ready.maxStack
        exact ⟨same, index, mask, ⟨found, readBack, ready.masked⟩, by omega⟩
      · exact inductionHypothesis
          (fun other isOther => scannable other (by simp [isOther])) later inRest

section Chain

variable {context : ManagerContext τ} {entry : EntryRecord}
  {held : HeldActivation} {callers chain : List HeldActivation}
  {sp unextendedSp : Address} {stack : Stack}

/-- A chain takes eleven words for each activation. -/
theorem Chained.length_le
    (chained : Chained context stack entry chain) :
    (footing context entry chain).floor + 88 * chain.length ≤
      stack.base.toNat := by
  induction chain with
  | nil =>
      rw [List.length_nil, Nat.mul_zero, Nat.add_zero]
      exact chained.floor_le_base
  | cons held callers inductionHypothesis =>
      obtain ⟨rests, -, waiting⟩ := chained
      have others := inductionHypothesis waiting
      have within := rests.within
      have fixed := rests.sits.monitorBase
      have endLe := rests.sits.monitorEndLe
      unfold Activation.ceiling at within
      have floor : (footing context entry (held :: callers)).floor =
          held.activation.monitorEnd.toNat :=
        rfl
      rw [List.length_cons, floor]
      omega

namespace FrameStream

/-- A walk with no anchor from before the entry yields the frames of the chain. -/
theorem take_walkedChain
    {view : View}
    (unextendedSp : Address)
    (map : RegisterMap)
    (walkable : Walkable context view.stack entry sp chain)
    (coded : Coded context)
    (sameEnv : view.toEnv = context.env)
    (layout : view.layout = .x86_64)
    (first : entry.savedAnchor.isEmpty = true)
    (more : Nat) :
    (take view (chain.length + 2 + more)
      ⟨some (.ok (chainFrame context entry sp unextendedSp chain)), map⟩ :
        Probe ε _) =
      pure ((walkedChain context entry sp unextendedSp map chain).map .ok) := by
  induction chain generalizing sp unextendedSp map with
  | nil =>
      have runs : (following view (chainFrame context entry sp unextendedSp []) :
          Operation RegisterMap ε _).Runs map none [] map :=
        runs_following_entry_first coded layout walkable.chained first map
      have count : ([] : List HeldActivation).length + 2 + more = more + 1 + 1 := by
        rw [List.length_nil]
        omega
      rw [count]
      unfold take
      rw [advance_of_runs runs]
      rfl
  | cons held callers inductionHypothesis =>
      have runs : (following view
          (chainFrame context entry sp unextendedSp (held :: callers)) :
            Operation RegisterMap ε _).Runs map _ [] _ :=
        runs_following coded sameEnv layout walkable.chained.1 walkable.spLe map
      have others := inductionHypothesis held.argumentTop
        (linkedMap map held.activation.fp) walkable.rest
      have count : (held :: callers).length + 2 + more =
          callers.length + 2 + more + 1 := by
        rw [List.length_cons]
        omega
      rw [count]
      unfold take
      rw [advance_of_runs runs]
      change (take view (callers.length + 2 + more) _ >>= fun items => _) = _
      rw [others]
      rfl

/--
All frames of such a walk are those of the chain.  There are fewer activations than
addresses, so that the walk ends before its limit.
-/
theorem frames_walkedChain
    {view : View}
    (unextendedSp : Address)
    (map : RegisterMap)
    (walkable : Walkable context view.stack entry sp chain)
    (coded : Coded context)
    (sameEnv : view.toEnv = context.env)
    (layout : view.layout = .x86_64)
    (first : entry.savedAnchor.isEmpty = true) :
    frames view
        ⟨some (.ok (chainFrame context entry sp unextendedSp chain)), map⟩ =
      pure (walkedChain context entry sp unextendedSp map chain) := by
  obtain ⟨more, count⟩ : ∃ more, itemLimit = chain.length + 2 + more := by
    have length := walkable.chained.length_le
    have small := view.stack.base.toNat_lt
    refine ⟨itemLimit - (chain.length + 2), ?_⟩
    unfold itemLimit UInt64.size
    omega
  unfold frames
  rw [count, take_walkedChain unextendedSp map walkable coded sameEnv layout
    first more, pure_bind, List.mapM_map]
  have answered : List.mapM (id ∘ Except.ok)
      (walkedChain context entry sp unextendedSp map chain) =
        (.ok (walkedChain context entry sp unextendedSp map chain) :
          Except FrameError _) := by
    have all := List.mapM_pure (m := Except FrameError) (f := id)
      (l := walkedChain context entry sp unextendedSp map chain)
    rw [List.map_id] at all
    exact all
  rw [answered]

end FrameStream

section Visiting

variable {view : View} {map : RegisterMap}

/-- The entry frame reports the handles of the call wrapper. -/
theorem visitReferences_entry
    (coded : Coded context)
    (layout : view.layout = .x86_64)
    (stands : entry.Stands view.stack)
    (noArguments : map.includeArgumentOops = false) :
    (chainFrame context entry sp unextendedSp []).visitReferences view map =
      Probe.visiting (entry.handles view.stack) := by
  unfold Frame.visitReferences
  rw [kind_chainFrame_nil coded]
  change Frame.visitEntry _ view map = _
  unfold Frame.visitEntry
  rw [callWrapper_chainFrame coded layout stands, pure_bind, noArguments]
  exact stands.visitHandles_eq

/-- A step to the caller leaves the arguments to the callee. -/
theorem linkedMap_excludes (address : Address) :
    (linkedMap map address).includeArgumentOops = false := by
  unfold linkedMap RegisterMap.record RegisterMap.withArgumentOops
  split <;> rfl

/-- The activations of a chain have room for the locals of their methods. -/
theorem Rests.maxLocals_le
    {method : Method}
    (rests : Rests context stack entry held callers)
    (found : context.env.methods.find? held.activation.method = some method) :
    method.maxLocals ≤ held.activation.maxLocals := by
  obtain ⟨same, sameFound, -, locals, -⟩ := rests.runs
  obtain rfl := Option.some.inj (found.symm.trans sameFound)
  exact Nat.le_of_eq locals.symm

/-- What the frames of a chain reported are its reference slots and the handles. -/
theorem slots_of_visitFrames
    {value : Unit}
    (walkable : Walkable context view.stack entry sp chain)
    (coded : Coded context)
    (sameEnv : view.toEnv = context.env)
    (layout : view.layout = .x86_64)
    (noArguments : map.includeArgumentOops = false)
    (gives : (RootScan.visitFrames view
      (walkedChain context entry sp unextendedSp map chain)).Gives value) :
    (RootScan.visitFrames view
      (walkedChain context entry sp unextendedSp map chain)).notes.slots =
      (chain.flatMap fun held => held.activation.roots context.env.methods) ++
        entry.handles view.stack := by
  induction chain generalizing sp unextendedSp map with
  | nil =>
      unfold walkedChain RootScan.visitFrames
      rw [visitReferences_entry coded layout walkable.chained noArguments,
        Probe.visiting_bind, Notes.slots_append, Notes.slots_map_slot]
      exact List.append_nil _
  | cons held callers inductionHypothesis =>
      have depicts := walkable.depicts unextendedSp coded layout
      have visited : (chainFrame context entry sp unextendedSp
          (held :: callers)).visitReferences view map =
            (chainFrame context entry sp unextendedSp
              (held :: callers)).visitInterpreted view map := by
        unfold Frame.visitReferences
        rw [depicts.kind]
      unfold walkedChain RootScan.visitFrames at gives ⊢
      rw [visited] at gives ⊢
      obtain ⟨⟨⟩, here, others⟩ := Probe.gives_bind.mp gives
      have methods : view.methods = context.env.methods := by
        rw [← sameEnv]
      have slots := depicts.slots_of_visitInterpreted
        (fun method found => walkable.chained.1.maxLocals_le (methods ▸ found))
        noArguments here
      have rest := inductionHypothesis walkable.rest
        (linkedMap_excludes held.activation.fp) others
      rw [Probe.slots_bind here, slots, rest, methods, List.flatMap_cons,
        List.append_assoc]

/-- Frames at positions with masks all report their references. -/
theorem gives_visitFrames
    (walkable : Walkable context view.stack entry sp chain)
    (coded : Coded context)
    (sameEnv : view.toEnv = context.env)
    (layout : view.layout = .x86_64)
    (noArguments : map.includeArgumentOops = false)
    (isAt : ∀ held ∈ chain, ∃ method bci mask,
      held.activation.At context.env.methods method bci mask ∧
        method.maxStack.toNat < 0x8000000000000000) :
    (RootScan.visitFrames view
      (walkedChain context entry sp unextendedSp map chain)).Gives () := by
  induction chain generalizing sp unextendedSp map with
  | nil =>
      unfold walkedChain RootScan.visitFrames
      rw [visitReferences_entry coded layout walkable.chained noArguments]
      rfl
  | cons held callers inductionHypothesis =>
      obtain ⟨method, bci, mask, here, small⟩ := isAt held (by simp)
      have depicts := walkable.depicts unextendedSp coded layout
      have methods : view.methods = context.env.methods := by
        rw [← sameEnv]
      have visits := depicts.gives_visitInterpreted (methods ▸ here)
        (walkable.chained.1.maxLocals_le here.found) small noArguments
      unfold walkedChain RootScan.visitFrames Frame.visitReferences
      rw [depicts.kind]
      refine Probe.gives_bind.mpr ⟨(), visits, ?_⟩
      exact inductionHypothesis walkable.rest
        (linkedMap_excludes held.activation.fp)
        fun later inRest => isAt later (by simp [inRest])

end Visiting

/-- The handles stay as long as the entry frame stays. -/
theorem handles_of_keeps
    {kept : Nat → Prop}
    {after : Stack}
    (stands : entry.Stands stack)
    (keeps : Stack.Keeps kept stack after)
    (inside : ∀ place, entry.floor ≤ place → kept place) :
    entry.handles after = entry.handles stack := by
  have place := stands.toNat_wrapper (by decide : 4 < 5)
  have frame := stands.toNat_framePointer
  have same := keeps.word (entry.wrapper.offset 4) (inside _ (by
    unfold EntryRecord.floor
    change _ ≤ (entry.wrapper.offset (4 : Nat)).toNat
    omega))
  unfold EntryRecord.handles
  rw [same]

end Chain

namespace RootScan

/-- Scan frames that a walk has found. -/
def scanFrames
    (env : Env)
    (thread : ThreadId)
    (frames : List WalkedFrame) :
    Operation Machine FrameError ScanReport := do
  prepareFrames env thread [] frames
  let during ← Operation.state
  let scanned ←
    Operation.attempt
      (Machine.look env fun view => countingVisit view frames)
  restoreFrames env frames
  match scanned with
  | .ok stats => return ⟨stats, during.stack⟩
  | .error cause => Operation.fail cause

/-- At a safepoint a published thread has the frames of its walk scanned. -/
theorem scanThread_eq
    {env : Env}
    {safepoint : Safepoint}
    {machine : Machine}
    {stream : FrameStream}
    {frames : List WalkedFrame}
    (active : safepoint.active = true)
    (published : machine.thread.hasLastFrame = true)
    (streams : machine.thread.frameStream (machine.view env) true = pure stream)
    (yields : stream.frames (machine.view env) = pure frames) :
    scanThread env safepoint machine =
      scanFrames env machine.thread.id frames machine := by
  have walks : (Machine.look env fun view => do
      let stream ← machine.thread.frameStream view true
      stream.frames view).Runs machine frames [] machine := by
    change (machine.thread.frameStream (machine.view env) true >>= fun stream =>
      stream.frames (machine.view env), machine) = _
    rw [streams, pure_bind, yields]
    rfl
  unfold scanThread
  rw [runs_state.bind_eq, active, if_neg (by decide), published,
    if_neg (by decide), walks.bind_eq]
  rfl

variable {context : ManagerContext τ} {entry : EntryRecord}
  {chain : List HeldActivation} {sp unextendedSp : Address} {map : RegisterMap}
  {before after : Machine} {report : ScanReport} {thread : ThreadId}

/--
What a scan that answered has visited.  The frames are those of the chain with its
positions as indices, and only the middle part of the scan visits anything.
-/
theorem slots_of_scanFrames
    (walkable : Walkable context before.stack entry sp chain)
    (coded : Coded context)
    (x86 : context.env.layout = .x86_64)
    (noArguments : map.includeArgumentOops = false)
    (sized : ∀ held ∈ chain,
      ∀ method ∈ context.env.methods.find? held.activation.method,
        method.codeSize.toNat ≤ 65536)
    (scans : (scanFrames context.env thread
      (walkedChain context entry sp unextendedSp map chain)).Gives
        before report after) :
    (scanFrames context.env thread
      (walkedChain context entry sp unextendedSp map chain)
        before).1.notes.slots =
      (chain.flatMap fun held => held.activation.roots context.env.methods) ++
        entry.handles before.stack := by
  unfold scanFrames at scans ⊢
  obtain ⟨⟨⟩, between, prepares, goesOn⟩ := gives_bind.mp scans
  obtain ⟨stack, indexed, rfl, isIndexed, switched, keeps⟩ :=
    walkable.of_prepareFrames coded x86 prepares
  obtain ⟨during, _, atState, goesOn⟩ := gives_bind.mp goesOn
  obtain ⟨rfl, rfl⟩ := gives_state.mp atState
  obtain ⟨scanned, _, tries, goesOn⟩ := gives_bind.mp goesOn
  rcases gives_attempt.mp tries with ⟨stats, rfl, looks⟩ | ⟨cause, rfl, -⟩
  · obtain ⟨counts, rfl⟩ := Machine.gives_look.mp looks
    obtain ⟨⟨⟩, last, restores, ends⟩ := gives_bind.mp goesOn
    obtain ⟨⟨⟩, visits, counted⟩ := Probe.gives_bind.mp counts
    have sameFrames : walkedChain context entry sp unextendedSp map indexed =
        walkedChain context entry sp unextendedSp map chain :=
      isIndexed.walkedChain_eq sp unextendedSp map
    have slots := slots_of_visitFrames switched coded rfl x86 noArguments
      (sameFrames ▸ visits)
    have handles := handles_of_keeps walkable.chained.stands keeps fun _ => .inr
    change _ = _ ++ entry.handles stack at slots
    rw [sameFrames, isIndexed.roots_eq sized, handles] at slots
    rw [slots_bind prepares, quiet_prepareFrames _ _ _ _ before, slots_bind atState,
      slots_bind tries, slots_bind restores, quiet_restoreFrames _ _ _,
      notes_attempt]
    change [] ++ ([] ++ ((visitFrames _ _ >>= fun _ =>
      Probe.answer _).notes.slots ++ ([] ++ []))) = _
    rw [Probe.slots_bind visits, ← slots]
    simp only [List.nil_append, List.append_nil]
    exact List.append_nil _
  · obtain ⟨⟨⟩, last, restores, ends⟩ := gives_bind.mp goesOn
    exact (gives_fail ends).elim

/--
A scan of activations at positions with masks answers.  All frames are switched to
indices, then visited, and then switched back.
-/
theorem exists_scanFrames
    (walkable : Walkable context before.stack entry sp chain)
    (coded : Coded context)
    (x86 : context.env.layout = .x86_64)
    (noArguments : map.includeArgumentOops = false)
    (unprofiled : context.env.diagnostics.profileInterpreter = false)
    (scannable : ∀ held ∈ chain, ∃ method bci mask,
      held.activation.Scannable context.env.methods method bci mask) :
    ∃ report after, (scanFrames context.env thread
      (walkedChain context entry sp unextendedSp map chain)).Gives
        before report after := by
  have sized : ∀ held ∈ chain,
      ∀ method ∈ context.env.methods.find? held.activation.method,
        method.codeSize.toNat ≤ 65536 := by
    intro held inside method found
    obtain ⟨same, bci, mask, ready⟩ := scannable held inside
    obtain rfl := Option.some.inj (ready.found.symm.trans found)
    exact ready.codeSize
  have positioned : ∀ held ∈ chain, ∃ method bci,
      context.env.methods.find? held.activation.method = some method ∧
        method.bciOfBcx? held.activation.bcp = some bci := by
    intro held inside
    obtain ⟨method, bci, mask, ready⟩ := scannable held inside
    exact ⟨method, bci, ready.found, ready.position⟩
  obtain ⟨between, prepares⟩ : ∃ between,
      (prepareFrames context.env thread []
        (walkedChain context entry sp unextendedSp map chain)).Gives
          before () between :=
    walkable.exists_prepareFrames coded x86 unprofiled positioned
  obtain ⟨stack, indexed, rfl, isIndexed, switched, -⟩ :=
    walkable.of_prepareFrames coded x86 prepares
  have sameFrames : walkedChain context entry sp unextendedSp map indexed =
      walkedChain context entry sp unextendedSp map chain :=
    isIndexed.walkedChain_eq sp unextendedSp map
  have during : Walkable context ({ before with stack := stack } : Machine).stack
      entry sp indexed :=
    switched
  have visits : (visitFrames
      (({ before with stack := stack } : Machine).view context.env)
      (walkedChain context entry sp unextendedSp map indexed)).Gives () :=
    gives_visitFrames switched coded rfl x86 noArguments
      (isIndexed.isAt scannable)
  obtain ⟨after, all⟩ : ∃ after, (restoreAll context.env
      (walkedChain context entry sp unextendedSp map indexed)).Gives
        { before with stack := stack } (.ok ()) after := by
    refine during.exists_restoreAll coded x86 unprofiled
      (isIndexed.restorable sized fun held inside => ?_)
    obtain ⟨method, bci, mask, ready⟩ := scannable held inside
    exact ready.address
  rw [sameFrames] at visits all
  obtain ⟨stats, counts⟩ : ∃ stats, (countingVisit
      (({ before with stack := stack } : Machine).view context.env)
      (walkedChain context entry sp unextendedSp map chain)).Gives stats :=
    ⟨_, Probe.gives_bind.mpr ⟨(), visits, Probe.gives_answer.mpr rfl⟩⟩
  have looks : (Operation.attempt (Machine.look context.env fun view =>
        countingVisit view
          (walkedChain context entry sp unextendedSp map chain)) :
      Operation _ FrameError _).Gives { before with stack := stack } (.ok stats)
        { before with stack := stack } :=
    gives_attempt.mpr (.inl ⟨stats, rfl, Machine.gives_look.mpr ⟨counts, rfl⟩⟩)
  unfold scanFrames
  exact ⟨_, after, gives_bind.mpr ⟨(), _, prepares, gives_bind.mpr
    ⟨_, _, gives_state.mpr ⟨rfl, rfl⟩, gives_bind.mpr ⟨_, _, looks,
      gives_bind.mpr ⟨(), after, gives_restoreFrames all,
        gives_pure.mpr ⟨rfl, rfl⟩⟩⟩⟩⟩⟩

end RootScan

namespace Session.Stacked

variable {context : ManagerContext τ} {session : Session τ}
  {entry : EntryRecord} {rest : Array HeldActivation} {held : HeldActivation}
  {safepoint : Safepoint}

/-- A scan of the thread is a scan of the frames of its chain. -/
theorem scanThread_eq
    (stacked : session.Stacked context)
    (coded : Coded context)
    (x86 : context.env.layout = .x86_64)
    (isEntry : session.manager.entry = some entry)
    (first : entry.savedAnchor.isEmpty = true)
    (stands : session.manager.activations = rest.push held)
    (top : held.activation.stackTop ≠ 0)
    (active : safepoint.active = true) :
    RootScan.scanThread context.env safepoint session.machine =
      RootScan.scanFrames context.env session.machine.thread.id
        (walkedChain context entry held.activation.stackTop
          held.activation.stackTop (RegisterMap.empty true)
          (held :: rest.toList.reverse))
        session.machine := by
  have walkable : Walkable context
      (session.machine.view context.env).stack entry _ _ :=
    stacked.walkable isEntry stands top
  have anchor := stacked.anchored (by rw [isEntry]; rfl)
  rw [FrameManager.top?_of_push stands] at anchor
  have published : session.machine.thread.hasLastFrame = true := by
    simp [Thread.hasLastFrame, anchor, anchorFor, FrameAnchor.isEmpty, top]
  exact RootScan.scanThread_eq active published
    (stacked.frameStream_eq coded isEntry stands top true)
    (FrameStream.frames_walkedChain _ _ walkable coded rfl x86 first)

/-- What a scan of the thread that answered has visited. -/
theorem slots_of_scan
    {report : ScanReport}
    {after : Machine}
    (stacked : session.Stacked context)
    (coded : Coded context)
    (x86 : context.env.layout = .x86_64)
    (isEntry : session.manager.entry = some entry)
    (first : entry.savedAnchor.isEmpty = true)
    (stands : session.manager.activations = rest.push held)
    (top : held.activation.stackTop ≠ 0)
    (sized : ∀ held ∈ session.manager.activations,
      ∀ method ∈ context.env.methods.find? held.activation.method,
        method.codeSize.toNat ≤ 65536)
    (scans : (RootScan.scanThread context.env safepoint).Gives session.machine
      report after) :
    (RootScan.scanThread context.env safepoint session.machine).1.notes.slots =
      ((held :: rest.toList.reverse).flatMap fun held =>
        held.activation.roots context.env.methods) ++
          entry.handles session.machine.stack := by
  have active : safepoint.active = true := by
    cases isActive : safepoint.active with
    | true => rfl
    | false =>
        unfold RootScan.scanThread at scans
        obtain ⟨before, _, atState, goesOn⟩ := gives_bind.mp scans
        rw [isActive] at goesOn
        exact (gives_fail goesOn).elim
  have same := stacked.scanThread_eq coded x86 isEntry first stands top active
  unfold Gives at scans
  rw [same] at scans ⊢
  refine RootScan.slots_of_scanFrames (stacked.walkable isEntry stands top) coded
    x86 rfl (fun later inside => sized later ?_) scans
  exact (mem_activations_iff stands).mpr inside

end Session.Stacked

end ManagedStack
