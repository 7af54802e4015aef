import ManagedStack.Proofs.Returning

namespace ManagedStack

/-!
# Runs that end alike

Two runs *end alike* when they come to one outcome and, if that is an answer, leave
related states; what they noted on the way does not count.  A chain ends alike if its
links do.  The sessions compared here are *alike* as far as some words go: they have one
bookkeeping and one set of records, and their threads differ in the anchor at most.
Delivering a result to a caller reads nothing else, so that it ends alike in all of them.
-/

open Operation

namespace Operation

/-- The outcome is the same, and an answer comes with related states. -/
def EndsAlike
    (related : σ → σ → Prop)
    (one other : Except (Failure ε) α × σ) :
    Prop :=
  one.1 = other.1 ∧ ∀ value, one.1 = .ok value → related one.2 other.2

namespace EndsAlike

variable {middle related : σ → σ → Prop} {left right : σ}

/-- The links of a chain are compared one after the other. -/
theorem bind
    {first twin : Operation σ ε α}
    {next twinNext : α → Operation σ ε β}
    (alike : EndsAlike middle (first.ending left) (twin.ending right))
    (goesOn : ∀ value leftBetween rightBetween,
      first.Gives left value leftBetween →
      twin.Gives right value rightBetween →
      middle leftBetween rightBetween →
      EndsAlike related ((next value).ending leftBetween)
        ((twinNext value).ending rightBetween)) :
    EndsAlike related ((first >>= next).ending left)
      ((twin >>= twinNext).ending right) := by
  obtain ⟨sameOutcome, sameStates⟩ := alike
  rw [ending_bind, ending_bind]
  rcases one : first.ending left with ⟨failure | value, leftBetween⟩
  · rcases other : twin.ending right with ⟨twinFailure | value, rightBetween⟩
    · rw [one, other] at sameOutcome
      obtain rfl : failure = twinFailure := Except.error.inj sameOutcome
      exact ⟨rfl, nofun⟩
    · rw [one, other] at sameOutcome
      cases sameOutcome
  · rcases other : twin.ending right with ⟨twinFailure | twinValue, rightBetween⟩
    · rw [one, other] at sameOutcome
      cases sameOutcome
    · rw [one, other] at sameOutcome sameStates
      obtain rfl : value = twinValue := Except.ok.inj sameOutcome
      exact goesOn value leftBetween rightBetween (gives_of_ending one)
        (gives_of_ending other) (sameStates value rfl)

theorem mono
    {one other : Except (Failure ε) α × σ}
    (alike : EndsAlike middle one other)
    (weaker : ∀ left right, middle left right → related left right) :
    EndsAlike related one other :=
  ⟨alike.1, fun value answered => weaker _ _ (alike.2 value answered)⟩

/-- What answers leave can be said to be related in view of the answers. -/
theorem imp
    {operation twin : Operation σ ε α}
    (alike : EndsAlike middle (operation.ending left) (twin.ending right))
    (stronger : ∀ value leftAfter rightAfter,
      operation.Gives left value leftAfter → middle leftAfter rightAfter →
      related leftAfter rightAfter) :
    EndsAlike related (operation.ending left) (twin.ending right) :=
  ⟨alike.1, fun value answered =>
    stronger value _ _ ⟨answered, rfl⟩ (alike.2 value answered)⟩

/-- If one run answers, so does the other, and the states are related. -/
theorem gives
    {operation twin : Operation σ ε α}
    {value : α}
    {leftAfter : σ}
    (alike : EndsAlike related (operation.ending left) (twin.ending right))
    (answered : operation.Gives left value leftAfter) :
    ∃ rightAfter, twin.Gives right value rightAfter ∧
      related leftAfter rightAfter := by
  obtain ⟨sameOutcome, sameStates⟩ := alike
  rw [ending_of_gives answered] at sameOutcome sameStates
  exact ⟨_, ⟨sameOutcome.symm, rfl⟩, sameStates value rfl⟩

/-- Runs that both answer with one value end alike. -/
theorem of_gives
    {operation twin : Operation σ ε α}
    {value : α}
    {leftAfter rightAfter : σ}
    (gives : operation.Gives left value leftAfter)
    (twinGives : twin.Gives right value rightAfter)
    (states : related leftAfter rightAfter) :
    EndsAlike related (operation.ending left) (twin.ending right) := by
  rw [ending_of_gives gives, ending_of_gives twinGives]
  exact ⟨rfl, fun _ _ => states⟩

/-- Looks that see the same end alike. -/
theorem inspect
    {look twinLook : σ → Probe ε α}
    (same : (look left).outcome = (twinLook right).outcome)
    (states : related left right) :
    EndsAlike related ((Operation.inspect look).ending left)
      ((Operation.inspect twinLook).ending right) :=
  ⟨same, fun _ _ => states⟩

/-- After looks that see the same, what follows is compared. -/
theorem inspect_bind
    {look twinLook : σ → Probe ε α}
    {next twinNext : α → Operation σ ε β}
    (same : (look left).outcome = (twinLook right).outcome)
    (goesOn : ∀ value, (look left).Gives value →
      EndsAlike related ((next value).ending left)
        ((twinNext value).ending right)) :
    EndsAlike related ((Operation.inspect look >>= next).ending left)
      ((Operation.inspect twinLook >>= twinNext).ending right) := by
  have looks : EndsAlike (fun one other => one = left ∧ other = right)
      ((Operation.inspect look).ending left)
      ((Operation.inspect twinLook).ending right) :=
    inspect same ⟨rfl, rfl⟩
  refine bind looks fun value _ _ seen _ stays => ?_
  obtain ⟨rfl, rfl⟩ := stays
  exact goesOn value (gives_inspect.mp seen).1

theorem pure
    {value : α}
    (states : related left right) :
    EndsAlike related ((Pure.pure value : Operation σ ε α).ending left)
      ((Pure.pure value : Operation σ ε α).ending right) :=
  ⟨rfl, fun _ _ => states⟩

theorem update
    {change twinChange : σ → σ}
    (states : related (change left) (twinChange right)) :
    EndsAlike related ((Operation.update change : Operation σ ε Unit).ending left)
      ((Operation.update twinChange : Operation σ ε Unit).ending right) :=
  ⟨rfl, fun _ _ => states⟩

theorem fail {cause : ε} :
    EndsAlike related ((Operation.fail cause : Operation σ ε α).ending left)
      ((Operation.fail cause : Operation σ ε α).ending right) :=
  ⟨rfl, nofun⟩

theorem ite
    {condition : Prop}
    [Decidable condition]
    {yes no twinYes twinNo : Operation σ ε α}
    (whenYes : condition →
      EndsAlike related (yes.ending left) (twinYes.ending right))
    (whenNo : ¬condition →
      EndsAlike related (no.ending left) (twinNo.ending right)) :
    EndsAlike related ((if condition then yes else no).ending left)
      ((if condition then twinYes else twinNo).ending right) := by
  by_cases holds : condition
  · simpa only [holds, if_true] using whenYes holds
  · simpa only [holds, if_false] using whenNo holds

theorem mapError
    {operation twin : Operation σ ε α}
    {restate : ε → ε'}
    (alike : EndsAlike related (operation.ending left) (twin.ending right)) :
    EndsAlike related ((operation.mapError restate).ending left)
      ((twin.mapError restate).ending right) := by
  obtain ⟨sameOutcome, sameStates⟩ := alike
  refine ⟨congrArg (Except.mapError (Failure.mapError restate)) sameOutcome,
    fun value answered => sameStates value ?_⟩
  exact Probe.gives_mapError.mp answered

/-- Work on a part ends alike if the parts do and their places are related. -/
theorem onPart
    {split : σ → ρ × (ρ → σ)}
    {operation twin : Operation ρ ε α}
    (relatedPart : ρ → ρ → Prop)
    (alike : EndsAlike relatedPart (operation.ending (split left).1)
      (twin.ending (split right).1))
    (restores : ∀ leftPart rightPart, relatedPart leftPart rightPart →
      related ((split left).2 leftPart) ((split right).2 rightPart)) :
    EndsAlike related ((operation.onPart split).ending left)
      ((twin.onPart split).ending right) :=
  ⟨alike.1, fun value answered => restores _ _ (alike.2 value answered)⟩

end EndsAlike

end Operation

namespace Stack

variable {kept : Nat → Prop} {left right : Stack}

/-- Where one stack has a word the other one has one, at the same position. -/
theorem Keeps.index?
    (keeps : Keeps kept left right)
    (address : Address) :
    right.index? address = left.index? address := by
  unfold Stack.index?
  rw [keeps.limit, keeps.base]

/-- Only words that are there can differ. -/
theorem Keeps.of_covered
    (keeps : Keeps kept left right)
    {more : Nat → Prop}
    (same : ∀ address : Address, more address.toNat → left.Covers address →
      right.read? address = left.read? address) :
    Keeps more left right where
  base := keeps.base
  size := keeps.size
  word := by
    intro address inside
    by_cases covers : left.Covers address
    · exact same address inside covers
    · rcases missing : left.index? address with cause | index
      · have missingToo := (keeps.index? address).trans missing
        unfold Stack.read?
        rw [missing, missingToo]
      · exact (covers (covers_of_index? missing)).elim

/-- Above a run of words that was written to both, and in it, the words are the same. -/
theorem Keeps.of_written
    {level count : Nat}
    {start : Address}
    (keeps : Keeps (fun place =>
        level ≤ place ∨ ∃ index < count, place = (start.offset index).toNat)
      left right)
    (aligned : start.toNat % 8 = 0)
    (extent : start.toNat + 8 * count = level) :
    Keeps (start.toNat ≤ ·) left right := by
  refine keeps.of_covered fun address above covers => keeps.word address ?_
  by_cases inRun : address.toNat < level
  · have place := covers.1
    have small := address.toNat_lt
    obtain ⟨index, exact⟩ : ∃ index : Nat,
        start.toNat + 8 * index = address.toNat :=
      ⟨(address.toNat - start.toNat) / 8, by omega⟩
    have reached : (start.offset index).toNat = address.toNat :=
      Word.toNat_offset_of_fits (by omega) small
    exact .inr ⟨index, by omega, reached.symm⟩
  · exact .inl (Nat.le_of_not_lt inRun)

/-- A word that is written to both is the same in both. -/
theorem Keeps.put_both
    (keeps : Keeps kept left right)
    (address : Address)
    (word : Word) :
    Keeps (fun place => kept place ∨ place = address.toNat)
      (left.put address word) (right.put address word) := by
  have extent : Keeps (fun _ => False) (left.put address word)
      (right.put address word) := by
    have put (stack : Stack) : Keeps (fun _ => False) stack
        (stack.put address word) :=
      .put stack word id
    exact (put left).symm.trans ((keeps.mono fun _ => False.elim).trans (put right))
  refine extent.of_covered fun other inside covers => ?_
  by_cases same : other = address
  · subst same
    have leftCovers := covers_put.mp covers
    have rightCovers := keeps.covers_iff.mpr leftCovers
    exact (holds_put_same rightCovers).trans (holds_put_same leftCovers).symm
  · rw [read?_put_of_ne same, read?_put_of_ne same]
    refine keeps.word other (inside.resolve_right fun samePlace => ?_)
    exact same (UInt64.toNat_inj.mp samePlace)

/-- Writes to one place end alike wherever the stacks have the same extent. -/
theorem endsAlike_write
    {related : Stack → Stack → Prop}
    (keeps : Keeps kept left right)
    (address : Address)
    {word twinWord : Word}
    (puts : related (left.put address word) (right.put address twinWord)) :
    EndsAlike related ((write address word).ending left)
      ((write address twinWord).ending right) := by
  rcases found : left.index? address with cause | index
  · have foundToo := (keeps.index? address).trans found
    unfold EndsAlike ending write
    rw [found, foundToo]
    exact ⟨rfl, nofun⟩
  · have leftCovers := covers_of_index? found
    have rightCovers := keeps.covers_iff.mpr leftCovers
    have writes : (write address word).Gives left () _ :=
      gives_write.mpr ⟨leftCovers, rfl⟩
    have writesToo : (write address twinWord).Gives right () _ :=
      gives_write.mpr ⟨rightCovers, rfl⟩
    exact .of_gives writes writesToo puts

/-- So does a run of writes. -/
theorem endsAlike_writeAll
    (keeps : Keeps kept left right)
    (start : Address)
    (words : List Word) :
    EndsAlike (Keeps fun place =>
        kept place ∨ ∃ index < words.length, place = (start.offset index).toNat)
      ((writeAll start words).ending left)
      ((writeAll start words).ending right) := by
  induction words generalizing start left right kept with
  | nil => exact .pure (keeps.mono fun place inside => by simpa using inside)
  | cons word rest inductionHypothesis =>
      refine .bind (endsAlike_write keeps start (keeps.put_both start word))
        fun _ _ _ _ _ written => ?_
      refine (inductionHypothesis written (start.offset 1)).mono
        fun _ _ later => later.mono fun place inside => ?_
      rcases inside with inside | ⟨index, lower, rfl⟩
      · exact .inl (.inl inside)
      · rcases index with _ | index
        · refine .inl (.inr ?_)
          rw [Int.natCast_zero, Word.offset_zero]
        · refine .inr ⟨index, by simpa using lower, ?_⟩
          rw [Word.offset_offset]
          congr 2
          omega

end Stack

/-- Machines whose stacks have the same extent. -/
abbrev Machine.SameExtent (one other : Machine) : Prop :=
  Stack.Keeps (fun _ => False) one.stack other.stack

/-- Words go to the same places in stacks of the same extent. -/
theorem Machine.endsAlike_write
    {left right : Machine}
    (extent : left.SameExtent right)
    (address : Address)
    (word twinWord : Word) :
    EndsAlike SameExtent ((write address word).ending left)
      ((write address twinWord).ending right) := by
  have put (stack : Stack) (written : Word) :
      Stack.Keeps (fun _ => False) stack (stack.put address written) :=
    .put stack written id
  refine .onPart (Stack.Keeps fun _ => False)
    (Stack.endsAlike_write extent address ?_) fun _ _ written => written
  exact (put _ _).symm.trans (extent.trans (put _ _))

namespace Frame

variable {env : Env} {frame twin : Frame} {left right : Machine}
  {kept : Nat → Prop}

/-- A field that is kept is read alike. -/
theorem field_of_keeps
    (fp : twin.fp = frame.fp)
    (keeps : Stack.Keeps kept left.stack right.stack)
    {offset : Int}
    (inside : kept (frame.slot offset).toNat) :
    twin.field (right.view env) offset = frame.field (left.view env) offset := by
  have slot : twin.slot offset = frame.slot offset := by
    rw [Frame.slot, Frame.slot, fp]
  change right.stack.read (twin.slot offset) = left.stack.read (frame.slot offset)
  unfold Stack.read
  rw [slot, keeps.word _ inside]

/--
A position is stored alike where the words that decide on it are kept.  What the slot
is set to may differ, since only the outcomes are compared.
-/
theorem endsAlike_setBcx
    (fp : twin.fp = frame.fp)
    (kind : twin.kind = frame.kind)
    (keeps : Stack.Keeps kept left.stack right.stack)
    (reads : ∀ offset ∈ [env.layout.bcx, env.layout.mdx, env.layout.method],
      kept (frame.slot offset).toNat)
    (position : Word) :
    EndsAlike Machine.SameExtent ((frame.setBcx env position).ending left)
      ((twin.setBcx env position).ending right) := by
  have slot (offset : Int) : twin.slot offset = frame.slot offset := by
    rw [Frame.slot, Frame.slot, fp]
  have read (offset : Int)
      (inside : offset ∈ [env.layout.bcx, env.layout.mdx, env.layout.method]) :
      twin.field (right.view env) offset = frame.field (left.view env) offset :=
    field_of_keeps fp keeps (reads offset inside)
  have extent : left.SameExtent right := keeps.mono fun _ => False.elim
  have expects : twin.expectInterpreted = frame.expectInterpreted := by
    unfold expectInterpreted expectKind
    rw [kind]
  have converts (formerly : Bool) (profiling : Word) :
      twin.convertMdx (right.view env) formerly profiling =
        frame.convertMdx (left.view env) formerly profiling := by
    have word : twin.methodWord (right.view env) =
        frame.methodWord (left.view env) :=
      read env.layout.method (by simp)
    unfold convertMdx method
    rw [expects, word]
    rfl
  have puts {one other : Machine} (extent : one.SameExtent other) (offset : Int)
      (word : Word) :
      EndsAlike Machine.SameExtent ((frame.putField offset word).ending one)
        ((twin.putField offset word).ending other) := by
    unfold putField
    rw [slot]
    exact Machine.endsAlike_write extent _ word word
  unfold setBcx
  rw [expects]
  refine .inspect_bind rfl fun _ _ => ?_
  refine .ite (fun _ => ?_) fun _ => puts extent _ position
  refine .inspect_bind (congrArg _ (read env.layout.bcx (by simp)).symm)
    fun former _ => ?_
  refine .inspect_bind (congrArg _ (read env.layout.mdx (by simp)).symm)
    fun profiling _ => ?_
  refine .ite (fun _ => puts extent _ position) fun _ => ?_
  refine .inspect_bind (congrArg _ (converts _ profiling).symm)
    fun converted _ => ?_
  refine .bind (puts extent _ position) fun _ _ _ _ _ extentAfter => ?_
  exact .inspect_bind rfl fun _ _ => puts extentAfter _ converted

end Frame

namespace Workspace

/-- One activation, and the same words at some places. -/
structure Alike
    (kept : Nat → Prop)
    (one other : Workspace) :
    Prop where
  activation : other.activation = one.activation
  words : Stack.Keeps kept one.stack other.stack

theorem endsAlike_updateActivation
    {kept : Nat → Prop}
    {one other : Workspace}
    (alike : Alike kept one other)
    (change : Activation → Activation) :
    EndsAlike (Alike kept)
      ((updateActivation change : Operation _ ProtocolError _).ending one)
      ((updateActivation change : Operation _ ProtocolError _).ending other) :=
  .update ⟨congrArg change alike.activation, alike.words⟩

/-- What is resumed is resumed alike. -/
theorem endsAlike_resume
    {kept : Nat → Prop}
    {one other : Workspace}
    (alike : Alike kept one other)
    (response : Message) :
    EndsAlike (Alike kept) ((resume response).ending one)
      ((resume response).ending other) := by
  unfold resume
  have same : one.activation = other.activation := alike.activation.symm
  refine .inspect_bind (congrArg Except.ok same) fun activation _ => ?_
  refine .ite (fun _ => .fail) fun _ => .ite (fun _ => ?_) fun _ => ?_
  · exact .inspect_bind rfl fun _ _ => .fail
  · exact endsAlike_updateActivation alike _

end Workspace

namespace Session

/-- One bookkeeping and one set of records, one thread but for its anchor, and the
same words at some places. -/
structure Alike
    (kept : Nat → Prop)
    (left right : Session τ) :
    Prop where
  manager : right.manager = left.manager
  thread : right.machine.thread =
    { left.machine.thread with anchor := right.machine.thread.anchor }
  records : right.machine.records = left.machine.records
  words : Stack.Keeps kept left.machine.stack right.machine.stack

/-- Sessions that are alike, their anchors as well. -/
structure Agree
    (kept : Nat → Prop)
    (left right : Session τ) :
    Prop where
  manager : right.manager = left.manager
  thread : right.machine.thread = left.machine.thread
  records : right.machine.records = left.machine.records
  words : Stack.Keeps kept left.machine.stack right.machine.stack

variable {context : ManagerContext τ} {left right : Session τ}
  {kept : Nat → Prop} {related : Session τ → Session τ → Prop}

/-- Sessions that are alike agree once their anchors are set to one value. -/
theorem Alike.agree
    (alike : Alike kept left right)
    (anchor : FrameAnchor) :
    Agree kept
      (left.withThread { left.machine.thread with anchor := anchor })
      (right.withThread { right.machine.thread with anchor := anchor }) where
  manager := alike.manager
  thread := by
    change { right.machine.thread with anchor := anchor } =
      { left.machine.thread with anchor := anchor }
    rw [alike.thread]
  records := alike.records
  words := alike.words

/-- Work on one activation ends alike in sessions that are alike. -/
theorem endsAlike_onWorkspace
    {index : Nat}
    {activation : Activation}
    {operation : Operation Workspace ProtocolError α}
    (alike : Alike kept left right)
    (found : left.manager.activation? index = some activation)
    (ends : EndsAlike (Workspace.Alike kept)
      (operation.ending ⟨activation, left.machine.stack⟩)
      (operation.ending ⟨activation, right.machine.stack⟩)) :
    EndsAlike (Alike kept) ((onWorkspace index operation).ending left)
      ((onWorkspace index operation).ending right) := by
  have foundToo : right.manager.activation? index = some activation :=
    alike.manager ▸ found
  have runs (session : Session τ)
      (isThere : session.manager.activation? index = some activation) :
      (onWorkspace index operation).ending session =
        ((operation.ending ⟨activation, session.machine.stack⟩).1,
          session.withWorkspace index
            (operation.ending ⟨activation, session.machine.stack⟩).2) := by
    simp only [onWorkspace, onActivation, ending, isThere]
    rfl
  rw [runs left found, runs right foundToo]
  refine ⟨ends.1, fun value answered => ?_⟩
  obtain ⟨same, words⟩ : Workspace.Alike kept _ _ := ends.2 value answered
  refine ⟨?_, alike.thread, alike.records, words⟩
  rw [manager_withWorkspace, manager_withWorkspace, same, alike.manager]

/-- Work on the stack ends alike in sessions that are alike. -/
theorem endsAlike_onStack
    {more : Nat → Prop}
    {operation : Operation Stack FrameError α}
    (alike : Alike kept left right)
    (ends : EndsAlike (Stack.Keeps more) (operation.ending left.machine.stack)
      (operation.ending right.machine.stack)) :
    EndsAlike (Alike more)
      ((onMachine (Machine.onStack operation)).ending left)
      ((onMachine (Machine.onStack operation)).ending right) := by
  refine .onPart (fun one other =>
      one.thread = left.machine.thread ∧ one.records = left.machine.records ∧
        other.thread = right.machine.thread ∧
        other.records = right.machine.records ∧
        Stack.Keeps more one.stack other.stack)
    (.mapError (.onPart _ ends fun _ _ words => ⟨rfl, rfl, rfl, rfl, words⟩)) ?_
  rintro one other ⟨thread, records, twinThread, twinRecords, words⟩
  refine ⟨alike.manager, ?_, ?_, words⟩
  · change other.thread = { one.thread with anchor := other.thread.anchor }
    rw [thread, twinThread]
    exact alike.thread
  · exact twinRecords.trans (alike.records.trans records.symm)

section Publishing

variable {index : Nat} {activation : Activation}

/-- Whether an activation can be published hangs on the words of its frame alone. -/
theorem endsAlike_commit
    {twin : Activation}
    (interpreter : context.env.code.interpreterContains
      context.entryPoints.interpreterReturnPc = true)
    (found : left.manager.activation? index = some activation)
    (foundTwin : right.manager.activation? index = some twin)
    (fp : twin.fp = activation.fp)
    (position : twin.bcp = activation.bcp)
    (keeps : Stack.Keeps kept left.machine.stack right.machine.stack)
    (reads : ∀ offset ∈ [context.env.layout.bcx, context.env.layout.mdx,
      context.env.layout.method], kept (activation.fp.offset offset).toNat) :
    EndsAlike (fun _ _ => True) ((commit context index).ending left)
      ((commit context index).ending right) := by
  obtain ⟨frame, framed, kind, frameFp⟩ :=
    exists_gives_frameOf interpreter left activation
  obtain ⟨twinFrame, framedTwin, twinKind, twinFp⟩ :=
    exists_gives_frameOf interpreter right twin
  have sameFp : twinFrame.fp = frame.fp := twinFp.trans (fp.trans frameFp.symm)
  have puts {one other : Machine} (extent : one.SameExtent other) (offset : Int)
      (word twinWord : Word) :
      EndsAlike Machine.SameExtent ((frame.putField offset word).ending one)
        ((twinFrame.putField offset twinWord).ending other) := by
    unfold Frame.putField Frame.slot
    rw [sameFp]
    exact Machine.endsAlike_write extent _ _ _
  unfold commit
  dsimp only
  rw [ending_bind_of_gives (gives_activation.mpr ⟨found, rfl⟩),
    ending_bind_of_gives (gives_activation.mpr ⟨foundTwin, rfl⟩),
    ending_bind_of_gives framed, ending_bind_of_gives framedTwin, position]
  refine .onPart Machine.SameExtent (.mapError ?_) fun _ _ _ => trivial
  refine .bind (Frame.endsAlike_setBcx sameFp (twinKind.trans kind.symm) keeps ?_ _)
    fun _ _ _ _ _ extent => ?_
  · intro offset inside
    rw [Frame.slot, frameFp]
    exact reads offset inside
  refine .bind (puts extent _ _ _) fun _ _ _ _ _ extent => ?_
  refine .bind (puts extent _ _ _) fun _ _ _ _ _ extent => ?_
  refine .bind (puts extent _ _ _) fun _ _ _ _ _ extent => ?_
  exact puts extent _ _ _

/-- The slots that a commit reads lie between the monitors and the return address. -/
theorem near_of_committed
    {offset : Int}
    (inside : offset ∈ [FrameLayout.x86_64.bcx, FrameLayout.x86_64.mdx,
      FrameLayout.x86_64.method]) :
    -9 ≤ offset ∧ offset ≤ 1 := by
  simp only [List.mem_cons, List.not_mem_nil, or_false] at inside
  rcases inside with rfl | rfl | rfl <;> decide

/-- Words of the fixed slots lie right above the monitors. -/
theorem monitorBase_le_slot
    {stack : Stack}
    (sits : activation.Sits stack)
    {offset : Int}
    (inside : offset ∈ [FrameLayout.x86_64.bcx, FrameLayout.x86_64.mdx,
      FrameLayout.x86_64.method]) :
    activation.monitorBase.toNat ≤ (activation.fp.offset offset).toNat := by
  have near := near_of_committed inside
  have place := sits.toNat_slot near.1 near.2
  have base := sits.monitorBase
  omega

/--
An activation is published alike where the words above its monitors are the same.
Both runs write the registers of one activation into the same slots.
-/
theorem endsAlike_publish
    {level : Nat}
    (x86 : context.env.layout = .x86_64)
    (interpreter : context.env.code.interpreterContains
      context.entryPoints.interpreterReturnPc = true)
    (alike : Alike (level ≤ ·) left right)
    (found : left.manager.activation? index = some activation)
    (sits : activation.Sits left.machine.stack)
    (below : level ≤ activation.monitorBase.toNat)
    (response : Message) :
    EndsAlike (Agree (level ≤ ·)) ((publish context index response).ending left)
      ((publish context index response).ending right) := by
  have foundToo : right.manager.activation? index = some activation :=
    alike.manager ▸ found
  have outcomes : EndsAlike (fun _ _ => True)
      ((commit context index).ending left) ((commit context index).ending right) := by
    refine endsAlike_commit interpreter found foundToo rfl rfl alike.words ?_
    rw [x86]
    exact fun offset inside => Nat.le_trans below (monitorBase_le_slot sits inside)
  refine .bind outcomes fun _ leftDone rightDone leftGives rightGives _ => ?_
  obtain ⟨one, leftStack, foundOne, leftPublishes, rfl⟩ := gives_commit leftGives
  obtain rfl := Option.some.inj (found.symm.trans foundOne)
  obtain ⟨two, rightStack, foundTwo, rightPublishes, rfl⟩ := gives_commit rightGives
  obtain rfl := Option.some.inj (foundToo.symm.trans foundTwo)
  have words : Stack.Keeps (level ≤ ·) leftStack rightStack := by
    have extent : Stack.Keeps (fun _ => False) leftStack rightStack :=
      (leftPublishes.keeps.mono fun _ => False.elim).symm.trans
        ((alike.words.mono fun _ => False.elim).trans
          (rightPublishes.keeps.mono fun _ => False.elim))
    refine extent.of_covered fun address inside _ => ?_
    by_cases isSlot : ∃ slot : PublishedSlot,
        (slot.address context.env.layout activation).toNat = address.toNat
    · obtain ⟨slot, same⟩ := isSlot
      obtain rfl := UInt64.toNat_inj.mp same
      have apart : ∀ slot other : PublishedSlot, slot ≠ other →
          slot.address context.env.layout activation ≠
            other.address context.env.layout activation := by
        rw [x86]
        exact fun slot other => PublishedSlot.address_ne activation
      exact (rightPublishes.holds apart slot).trans (leftPublishes.holds apart slot).symm
    · have outside : ∀ slot : PublishedSlot,
          (slot.address context.env.layout activation).toNat ≠ address.toNat :=
        fun slot same => isSlot ⟨slot, same⟩
      rw [rightPublishes.keeps.word address outside,
        leftPublishes.keeps.word address outside]
      exact alike.words.word address inside
  have published : Alike (level ≤ ·) (left.withStack leftStack)
      (right.withStack rightStack) :=
    ⟨alike.manager, alike.thread, alike.records, words⟩
  have tops : right.manager.top? = left.manager.top? := by rw [alike.manager]
  have anchored (session : Session τ) :
      (commitAnchor context : Operation _ ProtocolError Unit).Gives session () _ :=
    gives_commitAnchor.mpr rfl
  rw [ending_bind_of_gives (anchored _), ending_bind_of_gives (anchored _)]
  refine .inspect_bind ?_ fun manager _ => .pure ?_
  · exact congrArg Except.ok alike.manager.symm
  · change Agree _ ((left.withStack leftStack).withThread
        { left.machine.thread with anchor := anchorFor context left.manager.top? })
      ((right.withStack rightStack).withThread
        { right.machine.thread with anchor := anchorFor context right.manager.top? })
    rw [tops]
    exact published.agree _

end Publishing

section Returning

variable {caller parameters : Nat} {waiting : Activation} {value : List Word}

/-- An entry frame is dropped alike, and its record says what the anchor is then. -/
theorem endsAlike_finishEntry
    {entry : EntryRecord}
    (alike : Alike kept left right)
    (isEntry : left.manager.entry = some entry) :
    EndsAlike (Agree kept)
      ((finishEntry : Operation _ ProtocolError Unit).ending left)
      ((finishEntry : Operation _ ProtocolError Unit).ending right) := by
  have isEntryToo : right.manager.entry = some entry := alike.manager ▸ isEntry
  have finishes {session : Session τ}
      (isThere : session.manager.entry = some entry) :
      (finishEntry : Operation _ ProtocolError Unit).Gives session () _ :=
    gives_finishEntry.mpr (.inr ⟨entry, isThere, rfl⟩)
  refine .of_gives (finishes isEntry) (finishes isEntryToo) ⟨?_, ?_, ?_, ?_⟩
  · change ({ right.manager with entry := none } : FrameManager) =
      { left.manager with entry := none }
    rw [alike.manager]
  · change leftThread right.machine.thread _ = leftThread left.machine.thread _
    rw [alike.thread]
    rfl
  · exact alike.records
  · exact alike.words

/--
A result is delivered alike where the words above the arguments are the same.  Below
the result the stacks may differ, but nothing there is read again.
-/
theorem endsAlike_returnIntoCaller
    (x86 : context.env.layout = .x86_64)
    (interpreter : context.env.code.interpreterContains
      context.entryPoints.interpreterReturnPc = true)
    (alike : Alike (waiting.stackTop.toNat + 8 * parameters ≤ ·) left right)
    (found : left.manager.activation? caller = some waiting)
    (sits : waiting.Sits left.machine.stack)
    (arguments : waiting.stackTop.toNat + 8 * parameters ≤
      waiting.monitorEnd.toNat) :
    EndsAlike
      (Agree ((waiting.stackTop.offset (parameters - value.length)).toNat ≤ ·))
      ((returnIntoCaller context caller parameters value).ending left)
      ((returnIntoCaller context caller parameters value).ending right) := by
  have foundToo : right.manager.activation? caller = some waiting :=
    alike.manager ▸ found
  obtain ⟨top, isTop⟩ : ∃ top,
      waiting.stackTop.offset (parameters - value.length) = top := ⟨_, rfl⟩
  unfold returnIntoCaller
  rw [ending_bind_of_gives (gives_activation.mpr ⟨found, rfl⟩),
    ending_bind_of_gives (gives_activation.mpr ⟨foundToo, rfl⟩)]
  dsimp only
  rw [isTop]
  unfold expectAccepts
  by_cases accepts : waiting.accepts .methodResume = true
  case neg =>
    simp only [accepts, if_false, Bool.false_eq_true, fail_bind]
    exact .fail
  simp only [accepts, if_true, pure_bind]
  refine .inspect_bind rfl fun call _ => .ite (fun _ => .fail) fun enough => ?_
  refine .bind (endsAlike_onStack alike
    (Stack.endsAlike_writeAll alike.words top value))
    fun _ leftWritten rightWritten leftGives rightGives written => ?_
  obtain ⟨_, ran, rfl⟩ := gives_onMachine.mp leftGives
  obtain ⟨leftStack, leftWrites, rfl⟩ := Machine.gives_onStack.mp ran
  obtain ⟨extent, -, leftKeeps⟩ :=
    Workspace.places_of_result sits arguments isTop.symm leftWrites
  have aligned := sits.topAligned
  have resumed : Alike (top.toNat ≤ ·)
      { left with machine := { left.machine with stack := leftStack } }
      rightWritten :=
    ⟨written.manager, written.thread, written.records,
      written.words.of_written (by omega) extent⟩
  refine .bind (endsAlike_onWorkspace resumed found ?_)
    fun _ leftReady rightReady leftGives rightGives ready => ?_
  · have same : Workspace.Alike (top.toNat ≤ ·) ⟨waiting, leftStack⟩
        ⟨waiting, rightWritten.machine.stack⟩ :=
      ⟨rfl, resumed.words⟩
    refine .bind (Workspace.endsAlike_updateActivation same _)
      fun _ _ _ _ _ moved => ?_
    refine .inspect_bind rfl fun bcp _ => ?_
    refine .bind (Workspace.endsAlike_updateActivation moved _)
      fun _ _ _ _ _ placed => ?_
    exact Workspace.endsAlike_resume placed _
  · simp only [gives_onWorkspace, gives_bind, Workspace.gives_updateActivation,
      gives_check, Workspace.gives_resume, and_assoc, exists_and_left,
      exists_eq_left, exists_const] at leftGives
    obtain ⟨again, foundAgain, _, ⟨bcp, -, -, -, rfl⟩, rfl⟩ := leftGives
    obtain rfl := Option.some.inj (found.symm.trans foundAgain)
    have worked : Workspace.Worked ⟨waiting, left.machine.stack⟩
        ⟨returnedInto waiting top bcp, leftStack⟩ :=
      Workspace.worked_returnedInto arguments isTop.symm
        (Nat.le_of_not_lt fun lower => enough (UInt64.lt_iff_toNat_lt.mpr lower))
        leftWrites
    refine endsAlike_publish x86 interpreter ready
      (FrameManager.activation?_withActivation found _) (worked.sits sits) ?_ _
    have base := sits.monitorEndLe
    change top.toNat ≤ waiting.monitorBase.toNat
    omega

end Returning

end Session

end ManagedStack
