import ManagedStack.Proofs.Redirecting
import ManagedStack.RootScan

namespace ManagedStack

/-!
# Redirecting frames is transparent

Whoever walks a stack after compiled frames were redirected sees the frames from
before.  Each redirected frame has lost one word, the return address that its callee
keeps: the step from the callee finds a handler there, and with it the record of the
frame.  Every other step and every scan finds its own words unchanged, because the
words of different frames are different words.
-/

open Operation

namespace Frame

/-- A frame as walks see it once it has been redirected. -/
def marked (frame : Frame) : Frame :=
  { frame with deoptState := .deoptimized }

section Marked

variable {view : View} {frame : Frame} {map : RegisterMap}

theorem visitFrameSlots_marked (slots : List Nat) :
    (frame.marked.visitFrameSlots slots : Probe FrameError Unit) =
      frame.visitFrameSlots slots := by
  induction slots with
  | nil => rfl
  | cons slot rest inductionHypothesis =>
    simp only [visitFrameSlots, inductionHypothesis]
    rfl

theorem visitCompiledArguments_marked
    (locations : List (Option ArgumentLocation))
    (index : Nat)
    (types : List BasicType) :
    frame.marked.visitCompiledArguments map locations index types =
      frame.visitCompiledArguments map locations index types := by
  induction types generalizing index with
  | nil => rfl
  | cons type rest inductionHypothesis =>
    simp only [visitCompiledArguments, inductionHypothesis]
    rfl

/-- So is its caller. -/
theorem sender_marked (notRicochet : frame.kind ≠ .ricochet) :
    frame.marked.sender view = frame.sender view := by
  have sameKind : frame.marked.kind = frame.kind := rfl
  unfold sender
  rw [sameKind]
  cases kind : frame.kind with
  | ricochet => exact (notRicochet kind).elim
  | entry | interpreted | compiled | nativeWrapper | stub | native => rfl

/-- The references of a compiled frame are the same once it has been redirected. -/
theorem visitReferences_marked (isCompiled : frame.kind = .compiled) :
    frame.marked.visitReferences view map = frame.visitReferences view map := by
  have sameKind : frame.marked.kind = frame.kind := rfl
  have sameArguments : frame.marked.visitCalleeArguments map =
      frame.visitCalleeArguments map := by
    simp only [visitCalleeArguments, visitCallArguments,
      visitCompiledArguments_marked]
    rfl
  have sameMap (blob : Blob) : frame.marked.visitOopMap map blob =
      frame.visitOopMap map blob := by
    simp only [visitOopMap, visitFrameSlots_marked, sameArguments]
    rfl
  simp only [visitReferences, sameKind, isCompiled, visitGenerated, sameMap]
  rfl

end Marked

end Frame

/--
Redirecting frames of a walk, the latest first, each with the handler chosen for it.

Each has been reached by a step that reads its return address off the stack; only the
steps from entry frames and from adapter frames may find a caller in another way.
-/
inductive RedirectsAll
    (env : Env)
    (frames : List WalkedFrame)
    (before : Machine) :
    List (Frame × Address) → Machine → Prop where
  | nothing : RedirectsAll env frames before [] before
  | another
      {index : Nat}
      {callee target : WalkedFrame}
      {request : DeoptRequest}
      {handler : Address}
      {patched : Frame}
      {others : List (Frame × Address)}
      {between after : Machine}
      (earlier : RedirectsAll env frames before others between)
      (isCallee : frames[index]? = some callee)
      (isTarget : frames[index + 1]? = some target)
      (notEntry : callee.frame.kind ≠ .entry)
      (notRicochet : callee.frame.kind ≠ .ricochet)
      (gives : (target.frame.deoptimize env request).Gives between
        (.patched handler, patched) after) :
      RedirectsAll env frames before ((target.frame, handler) :: others) after

/-- A stack and records that show redirected frames, each with its handler. -/
structure ShowsRedirected
    (view : View)
    (stack : Stack)
    (records : DeoptRecords)
    (redirected : List (Frame × Address)) :
    Prop where
  keeps : Stack.Keeps
    (fun place => ∀ pair ∈ redirected, place ≠ pair.1.returnSlot.toNat)
    view.stack stack
  others : ∀ frameId, (∀ pair ∈ redirected, pair.1.id ≠ frameId) →
    ∀ unitStart, records.displacedPc? unitStart frameId =
      view.records.displacedPc? unitStart frameId
  holds : ∀ pair ∈ redirected, stack.Holds pair.1.returnSlot pair.2
  fits : ∀ pair ∈ redirected, ∃ blob compiled,
    pair.1.Redirectable blob compiled ∧
      pair.2 = compiled.handlerFor pair.1.pc ∧
        records.displacedPc? blob.start pair.1.id = some pair.1.pc

theorem Frame.returnSlot_ne
    {frame other : Frame}
    (different : frame.sp ≠ other.sp) :
    frame.returnSlot ≠ other.returnSlot := by
  intro same
  have moved := congrArg (Word.offset · 1) same
  simp only [Frame.returnSlot, Word.offset_offset] at moved
  exact different (by simpa using moved)

theorem Frame.Redirectable.unique
    {frame : Frame}
    {blob other : Blob}
    {compiled otherUnit : CompiledUnit}
    (fit : frame.Redirectable blob compiled)
    (alsoFit : frame.Redirectable other otherUnit) :
    blob = other ∧ compiled = otherUnit := by
  obtain rfl := Option.some.inj (fit.runsIn.symm.trans alsoFit.runsIn)
  exact ⟨rfl, Option.some.inj (fit.unit.symm.trans alsoFit.unit)⟩

/-- Redirecting one more frame shows it, and shows the others as before. -/
theorem ShowsRedirected.redirect
    {view : View}
    {stack : Stack}
    {records : DeoptRecords}
    {others : List (Frame × Address)}
    {frame : Frame}
    {blob : Blob}
    {compiled : CompiledUnit}
    (shows : ShowsRedirected view stack records others)
    (fit : frame.Redirectable blob compiled)
    (covers : stack.Covers frame.returnSlot)
    (apart : ∀ pair ∈ others, pair.1 ≠ frame →
      pair.1.sp ≠ frame.sp ∧ pair.1.id ≠ frame.id) :
    ShowsRedirected view
      (stack.put frame.returnSlot (compiled.handlerFor frame.pc))
      (records.record blob.start frame.id frame.pc)
      ((frame, compiled.handlerFor frame.pc) :: others) where
  keeps := by
    refine .trans (shows.keeps.mono fun place outside pair inOthers =>
      outside pair (.tail _ inOthers)) (.put _ _ fun outside => ?_)
    exact outside _ (.head _) rfl
  others := by
    intro frameId outside unitStart
    refine (records.displacedPc?_record_of_ne fun same =>
      outside _ (.head _) same.2).trans ?_
    exact shows.others frameId (fun pair inOthers =>
      outside pair (.tail _ inOthers)) unitStart
  holds := by
    intro pair listed
    rcases List.mem_cons.mp listed with rfl | inOthers
    · exact Stack.holds_put_same covers
    · by_cases same : pair.1 = frame
      · obtain ⟨_, _, alsoFit, chosen, -⟩ := shows.fits pair inOthers
        obtain ⟨rfl, rfl⟩ := fit.unique (same ▸ alsoFit)
        rw [chosen, same]
        exact Stack.holds_put_same covers
      · have different := Frame.returnSlot_ne (apart pair inOthers same).1
        exact (Stack.holds_put_of_ne different).mpr (shows.holds pair inOthers)
  fits := by
    intro pair listed
    rcases List.mem_cons.mp listed with rfl | inOthers
    · exact ⟨blob, compiled, fit, rfl, records.displacedPc?_record_same ..⟩
    · obtain ⟨unitBlob, unit, alsoFit, chosen, recorded⟩ := shows.fits pair inOthers
      refine ⟨unitBlob, unit, alsoFit, chosen, ?_⟩
      by_cases same : pair.1 = frame
      · obtain ⟨rfl, -⟩ := fit.unique (same ▸ alsoFit)
        rw [same]
        exact records.displacedPc?_record_same ..
      · have different := (apart pair inOthers same).2
        exact (records.displacedPc?_record_of_ne fun sameKey =>
          different sameKey.2.symm).trans recorded

namespace SeparateWalk

variable {view : View} {frames : List WalkedFrame} {callee target : WalkedFrame}
  {index : Nat}

/-- The return address of a frame is a word of its callee. -/
theorem owns_returnSlot
    (walk : SeparateWalk view frames)
    (separates : view.layout.SeparatesReturn)
    (isCallee : frames[index]? = some callee)
    (isTarget : frames[index + 1]? = some target)
    (notEntry : callee.frame.kind ≠ .entry)
    (notRicochet : callee.frame.kind ≠ .ricochet)
    {blob : Blob}
    {compiled : CompiledUnit}
    (fit : target.frame.Redirectable blob compiled) :
    callee.frame.sp.toNat ≤ target.frame.returnSlot.toNat ∧
      target.frame.returnSlot.toNat < target.frame.sp.toNat := by
  have leads := walk.leads isCallee isTarget
  have steps := Frame.gives_sender_iff.mp (Frame.gives_senderAbove.mp leads).1
  obtain ⟨adjusts, unextendedSp, fp, pc, isCaller, returns, finds⟩ :=
    steps.returning separates notEntry notRicochet
  constructor
  · by_contra outside
    let current := view.stack.put target.frame.returnSlot
      (compiled.handlerFor target.frame.pc)
    have own := walk.apart _ _ isCallee
    rw [isTarget] at own
    have keeps : Stack.Keeps (callee.Owns (some target)) view.stack current :=
      .put _ _ fun owns => outside owns.1
    have keepsOthers : Stack.Keeps
        (fun place => place ≠ target.frame.returnSlot.toNat) view.stack current :=
      .put _ _ (not_not.mpr rfl)
    have alsoLeads :=
      (own.steps current keeps ⟨by simp [Frame.isFirst, notEntry], leads⟩).2
    have found : (callee.frame.sender { view with stack := current }).Gives
        callee.map _ target.map :=
      Frame.gives_sender_iff.mpr (finds current view.records _
        keepsOthers (Stack.holds_put_same returns.covers))
    have same := found.1.unique (Frame.gives_senderAbove.mp alsoLeads).1.1
    exact fit.resolved_handlerFor_ne (walk.apart _ _ isTarget).elsewhere isCaller same
  · have above := UInt64.lt_iff_toNat_lt.mp (Frame.gives_senderAbove.mp leads).2
    have place := Word.toNat_offset target.frame.sp (-1)
    have room := view.stack.base_le
    have high := returns.covers.2.2
    unfold Frame.returnSlot at *
    omega

end SeparateWalk

section Redirected

variable {env : Env} {before after : Machine} {frames : List WalkedFrame}
  {redirected : List (Frame × Address)} {pair : Frame × Address}

/-- Each redirected frame is the caller of a frame that is no entry or adapter frame. -/
theorem RedirectsAll.reached
    (redirects : RedirectsAll env frames before redirected after)
    (listed : pair ∈ redirected) :
    ∃ index callee target, frames[index]? = some callee ∧
      frames[index + 1]? = some target ∧ callee.frame.kind ≠ .entry ∧
        callee.frame.kind ≠ .ricochet ∧ target.frame = pair.1 := by
  induction redirects with
  | nothing => cases listed
  | another earlier isCallee isTarget notEntry notRicochet gives inductionHypothesis =>
    rcases List.mem_cons.mp listed with rfl | inOthers
    · exact ⟨_, _, _, isCallee, isTarget, notEntry, notRicochet, rfl⟩
    · exact inductionHypothesis inOthers

/-- What has been redirected one after the other is shown together. -/
theorem RedirectsAll.shows
    (redirects : RedirectsAll env frames before redirected after)
    (walk : SeparateWalk (before.view env) frames) :
    ShowsRedirected (before.view env) after.stack after.records redirected := by
  induction redirects with
  | nothing =>
    exact ⟨.refl _, fun _ _ _ => rfl, fun _ listed => (List.not_mem_nil listed).elim,
      fun _ listed => (List.not_mem_nil listed).elim⟩
  | another earlier isCallee isTarget _ _ gives inductionHypothesis =>
    obtain ⟨blob, compiled, fit, rfl, covers, rfl⟩ := Frame.redirected_of_gives gives
    have shown := inductionHypothesis.redirect fit covers
    simp only [Frame.redirection]
    refine shown fun pair inOthers different => ?_
    obtain ⟨index, _, other, -, isOther, -, -, same⟩ := earlier.reached inOthers
    rw [← same] at different ⊢
    refine walk.distinct isOther isTarget ?_
    rintro same
    rw [same, isTarget] at isOther
    exact different (by rw [Option.some.inj isOther])

end Redirected

/-- A frame as it is seen after some have been redirected. -/
def Frame.seenIn
    (redirected : List (Frame × Address))
    (frame : Frame) :
    Frame :=
  if frame ∈ redirected.map Prod.fst then frame.marked else frame

/-- A walked frame as it is seen after some have been redirected. -/
def WalkedFrame.seenIn
    (redirected : List (Frame × Address))
    (walked : WalkedFrame) :
    WalkedFrame :=
  { walked with frame := walked.frame.seenIn redirected }

section Seen

variable {env : Env} {before after : Machine} {frames : List WalkedFrame}
  {redirected : List (Frame × Address)} {walked caller : WalkedFrame}
  {index : Nat}

variable (walk : SeparateWalk (before.view env) frames)
  (separates : env.layout.SeparatesReturn)
  (redirects : RedirectsAll env frames before redirected after)
include walk separates redirects

/-- The only return address among a frame's words is the one into its caller. -/
theorem RedirectsAll.spares
    {pair : Frame × Address}
    (isWalked : frames[index]? = some walked)
    (listed : pair ∈ redirected)
    (owns : walked.Owns frames[index + 1]? pair.1.returnSlot.toNat) :
    ∃ caller, frames[index + 1]? = some caller ∧ caller.frame = pair.1 := by
  obtain ⟨position, callee, target, isCallee, isTarget, notEntry, notRicochet, same⟩ :=
    redirects.reached listed
  obtain ⟨blob, compiled, fit, -, -⟩ := (redirects.shows walk).fits pair listed
  rw [← same] at owns fit ⊢
  obtain ⟨low, high⟩ :=
    walk.owns_returnSlot separates isCallee isTarget notEntry notRicochet fit
  rcases Nat.lt_trichotomy position index with earlier | rfl | later
  · have upwards := walk.sp_le isTarget isWalked earlier
    have above := owns.1
    omega
  · obtain rfl := Option.some.inj (isCallee.symm.trans isWalked)
    exact ⟨target, isTarget, rfl⟩
  · obtain ⟨_, isNext⟩ := SeparateWalk.exists_earlier isCallee later
    have upwards := walk.sp_le isNext isCallee later
    have below := owns.2 _ isNext
    omega

/-- A frame whose caller has not been redirected has all its words from before. -/
theorem RedirectsAll.keeps_own
    (isWalked : frames[index]? = some walked)
    (untouched : ∀ caller, frames[index + 1]? = some caller →
      caller.frame ∉ redirected.map Prod.fst) :
    Stack.Keeps (walked.Owns frames[index + 1]?) before.stack after.stack := by
  refine (redirects.shows walk).keeps.mono fun place owns pair listed same => ?_
  rw [same] at owns
  obtain ⟨caller, isCaller, sameFrame⟩ :=
    redirects.spares walk separates isWalked listed owns
  exact untouched caller isCaller (List.mem_map.mpr ⟨pair, listed, sameFrame.symm⟩)

/-- The walk ends where it ended. -/
theorem RedirectsAll.followedBy_none
    (isWalked : frames[index]? = some walked)
    (isLast : frames[index + 1]? = none)
    (followed : walked.FollowedBy (before.view env) none) :
    walked.FollowedBy (after.view env) none := by
  have keeps := redirects.keeps_own walk separates isWalked fun caller isCaller => by
    rw [isLast] at isCaller
    cases isCaller
  have own := walk.apart _ _ isWalked
  rw [isLast] at own keeps
  exact own.steps _ keeps followed

/--
A frame whose caller has been redirected has its words from before, once the return
address is put back.
-/
theorem RedirectsAll.keeps_own_put
    {pc : Word}
    (isWalked : frames[index]? = some walked)
    (isCaller : frames[index + 1]? = some caller)
    (returned : before.stack.Holds caller.frame.returnSlot pc) :
    Stack.Keeps (walked.Owns frames[index + 1]?) before.stack
      (after.stack.put caller.frame.returnSlot pc) := by
  have keeps := (redirects.shows walk).keeps
  have covers := keeps.covers_iff.mpr returned.covers
  refine ⟨(Stack.base_put ..).trans keeps.base, (Stack.size_put ..).trans keeps.size,
    fun address owns => ?_⟩
  by_cases isReturn : address = caller.frame.returnSlot
  · rw [isReturn]
    exact (Stack.holds_put_same covers).trans returned.symm
  · rw [Stack.read?_put_of_ne isReturn]
    refine keeps.word address fun pair listed same => isReturn ?_
    rw [same] at owns
    obtain ⟨other, isOther, sameFrame⟩ :=
      redirects.spares walk separates isWalked listed owns
    obtain rfl := Option.some.inj (isCaller.symm.trans isOther)
    rw [sameFrame]
    exact UInt64.toNat_inj.mp same

/-- A frame whose caller has not been redirected leads to it as before. -/
theorem RedirectsAll.followedBy_untouched
    (reliable : env.adapters.Reliable)
    (isWalked : frames[index]? = some walked)
    (isCaller : frames[index + 1]? = some caller)
    (untouched : caller.frame ∉ redirected.map Prod.fst)
    (followed : walked.FollowedBy (before.view env) (some caller)) :
    walked.FollowedBy (after.view env) (some caller) := by
  have shows := redirects.shows walk
  have keeps := redirects.keeps_own walk separates isWalked fun other isOther => by
    obtain rfl := Option.some.inj (isCaller.symm.trans isOther)
    exact untouched
  have own := walk.apart _ _ isWalked
  rw [isCaller] at own keeps
  obtain ⟨isFirst, leads⟩ := own.steps _ keeps followed
  obtain ⟨gives, above⟩ := Frame.gives_senderAbove.mp leads
  have known := shows.others caller.frame.id fun pair listed sameId => by
    obtain ⟨position, _, target, -, isTarget, -, -, sameFrame⟩ :=
      redirects.reached listed
    by_cases samePlace : position = index
    · rw [samePlace, isCaller] at isTarget
      rw [← Option.some.inj isTarget] at sameFrame
      exact untouched (List.mem_map.mpr ⟨pair, listed, sameFrame.symm⟩)
    · rw [← sameFrame] at sameId
      exact (walk.distinct isTarget isCaller (by omega)).2 sameId
  have found : (walked.frame.sender (after.view env)).Gives walked.map
      caller.frame caller.map :=
    Frame.gives_sender_iff.mpr
      ((Frame.gives_sender_iff.mp gives).of_records reliable known)
  exact ⟨isFirst, Frame.gives_senderAbove.mpr ⟨found, above⟩⟩

omit separates in
/-- The step to a redirected frame is not one from an entry or an adapter frame. -/
theorem RedirectsAll.kind_ne
    (isWalked : frames[index]? = some walked)
    (isCaller : frames[index + 1]? = some caller)
    (touched : caller.frame ∈ redirected.map Prod.fst) :
    walked.frame.kind ≠ .entry ∧ walked.frame.kind ≠ .ricochet := by
  obtain ⟨pair, listed, sameFrame⟩ := List.mem_map.mp touched
  obtain ⟨position, _, target, isCallee, isTarget, notEntry, notRicochet, same⟩ :=
    redirects.reached listed
  obtain rfl : position = index :=
    Nat.succ.inj (walk.index_eq isTarget isCaller (same.trans sameFrame))
  obtain rfl := Option.some.inj (isCallee.symm.trans isWalked)
  exact ⟨notEntry, notRicochet⟩

/--
A frame whose caller has been redirected leads to the caller where it was.

With the return address put back, the step would read the words from before; with the
handler there instead, it finds the record.
-/
theorem RedirectsAll.followedBy_redirected
    (built : env.code.Built)
    (isWalked : frames[index]? = some walked)
    (isCaller : frames[index + 1]? = some caller)
    (touched : caller.frame ∈ redirected.map Prod.fst) :
    walked.FollowedBy (after.view env)
      (some { caller with frame := caller.frame.marked }) := by
  have shows := redirects.shows walk
  obtain ⟨pair, listed, sameFrame⟩ := List.mem_map.mp touched
  obtain ⟨blob, compiled, fit, chosen, recorded⟩ := shows.fits pair listed
  have holds := shows.holds pair listed
  rw [sameFrame] at fit chosen recorded holds
  rw [chosen] at holds
  obtain ⟨notEntry, notRicochet⟩ := redirects.kind_ne walk isWalked isCaller touched
  have leads := walk.leads isWalked isCaller
  obtain ⟨_, _, _, pc, -, returned, -⟩ :=
    (Frame.gives_sender_iff.mp (Frame.gives_senderAbove.mp leads).1).returning
      separates notEntry notRicochet
  let putBack := after.stack.put caller.frame.returnSlot pc
  have own := walk.apart _ _ isWalked
  have keepsOwn :=
    redirects.keeps_own_put walk separates isWalked isCaller returned
  rw [isCaller] at own keepsOwn
  have notFirst : (walked.frame.isFirst (before.view env)).Gives false := by
    simp [Frame.isFirst, notEntry]
  have alsoLeads := (own.steps putBack keepsOwn ⟨notFirst, leads⟩).2
  obtain ⟨gives, above⟩ := Frame.gives_senderAbove.mp alsoLeads
  obtain ⟨adjusts, unextendedSp, fp, _, isFound, -, finds⟩ :=
    (Frame.gives_sender_iff.mp gives).returning separates notEntry notRicochet
  have keeps : Stack.Keeps (fun place => place ≠ caller.frame.returnSlot.toNat)
      putBack after.stack :=
    (Stack.Keeps.put after.stack pc (not_not.mpr rfl)).symm
  have resolves := fit.resolved_handlerFor built.ordered
    (walk.apart _ _ isCaller).elsewhere isFound recorded
  have found : (walked.frame.sender (after.view env)).Gives walked.map
      caller.frame.marked caller.map := by
    have arrives := finds after.stack after.records
      (compiled.handlerFor caller.frame.pc)
    dsimp only at arrives
    rw [resolves] at arrives
    exact Frame.gives_sender_iff.mpr (arrives keeps holds)
  exact ⟨by simp [Frame.isFirst, notEntry],
    Frame.gives_senderAbove.mpr ⟨found, above⟩⟩

omit separates in
/-- A redirected frame runs compiled code. -/
theorem RedirectsAll.isCompiled
    {frame : Frame}
    (touched : frame ∈ redirected.map Prod.fst) :
    frame.kind = .compiled := by
  obtain ⟨pair, listed, rfl⟩ := List.mem_map.mp touched
  obtain ⟨_, _, fit, -⟩ := (redirects.shows walk).fits pair listed
  exact fit.kind

omit separates in
/-- A frame that has been redirected is followed by what followed it. -/
theorem RedirectsAll.followedBy_seenIn
    {view : View}
    {caller? : Option WalkedFrame} :
    (walked.seenIn redirected).FollowedBy view caller? ↔
      walked.FollowedBy view caller? := by
  unfold WalkedFrame.seenIn Frame.seenIn
  split
  · rename_i touched
    have isCompiled := redirects.isCompiled walk touched
    have sameStep : walked.frame.marked.senderAbove view = walked.frame.senderAbove view := by
      unfold Frame.senderAbove
      rw [Frame.sender_marked (by simp [isCompiled])]
      rfl
    unfold WalkedFrame.FollowedBy WalkedFrame.LeadsTo
    simp only [sameStep]
    rfl
  · rfl

/-- The scan of a frame of the walk is the one from before. -/
theorem RedirectsAll.visitReferences_eq
    (reliable : env.adapters.Reliable)
    (isWalked : frames[index]? = some walked) :
    walked.frame.visitReferences (after.view env) walked.map =
      walked.frame.visitReferences (before.view env) walked.map := by
  have own := walk.apart _ _ isWalked
  by_cases touched : ∃ caller, frames[index + 1]? = some caller ∧
      caller.frame ∈ redirected.map Prod.fst
  · obtain ⟨caller, isCaller, touched⟩ := touched
    have steps := Frame.gives_sender_iff.mp
      (Frame.gives_senderAbove.mp (walk.leads isWalked isCaller)).1
    obtain ⟨notEntry, notRicochet⟩ := redirects.kind_ne walk isWalked isCaller touched
    obtain ⟨_, _, _, pc, -, returned, -⟩ :=
      steps.returning separates notEntry notRicochet
    rw [← own.scans _ (redirects.keeps_own_put walk separates isWalked isCaller
      returned)]
    refine Frame.visitReferences_congr notEntry notRicochet fun interpreted =>
      ⟨rfl, fun offset listed => ?_⟩
    have apart : walked.frame.slot offset ≠ caller.frame.returnSlot := by
      rw [steps.returnSlot_eq separates interpreted]
      exact separates.apart offset (.tail _ (.tail _ listed)) walked.frame.fp
    have kept : (after.stack.put caller.frame.returnSlot pc).read?
        (walked.frame.slot offset) = after.stack.read? (walked.frame.slot offset) :=
      Stack.read?_put_of_ne apart
    simp only [Frame.field, Stack.read, Machine.view, kept]
  · have keeps := redirects.keeps_own walk separates isWalked fun caller isCaller =>
      fun redirected => touched ⟨caller, isCaller, redirected⟩
    have recorded : after.view env =
        { ({ before.view env with stack := after.stack } : View) with
          records := after.records } :=
      rfl
    rw [← own.scans _ keeps, recorded, Frame.visitReferences_withRecords reliable]

/-- The whole scan is the one from before. -/
theorem RedirectsAll.visitFrames_eq
    (reliable : env.adapters.Reliable)
    {rest : List WalkedFrame}
    (isRest : rest = frames.drop index) :
    RootScan.visitFrames (after.view env) (rest.map (·.seenIn redirected)) =
      RootScan.visitFrames (before.view env) rest := by
  induction rest generalizing index with
  | nil => rfl
  | cons walked rest inductionHypothesis =>
    have isWalked : frames[index]? = some walked := by
      rw [← List.head?_drop, ← isRest]
      rfl
    have others : rest = frames.drop (index + 1) := by
      rw [← List.tail_drop, ← isRest]
      rfl
    have marks : (walked.frame.seenIn redirected).visitReferences (after.view env)
        walked.map = walked.frame.visitReferences (after.view env) walked.map := by
      unfold Frame.seenIn
      split
      · rename_i touched
        exact Frame.visitReferences_marked (redirects.isCompiled walk touched)
      · rfl
    simp only [List.map_cons, RootScan.visitFrames, inductionHypothesis others]
    congr 1
    exact marks.trans (redirects.visitReferences_eq walk separates reliable isWalked)

/-- The walk goes on to the caller as it is seen now. -/
theorem RedirectsAll.followedBy_some
    (reliable : env.adapters.Reliable)
    (built : env.code.Built)
    (isWalked : frames[index]? = some walked)
    (isCaller : frames[index + 1]? = some caller)
    (followed : walked.FollowedBy (before.view env) (some caller)) :
    walked.FollowedBy (after.view env) (some (caller.seenIn redirected)) := by
  unfold WalkedFrame.seenIn Frame.seenIn
  split
  · rename_i touched
    exact redirects.followedBy_redirected walk separates built isWalked isCaller
      touched
  · rename_i untouched
    exact redirects.followedBy_untouched walk separates reliable isWalked isCaller
      untouched followed

/-- The new walk lists the frames of the old one as they are seen now. -/
theorem RedirectsAll.lists
    (reliable : env.adapters.Reliable)
    (built : env.code.Built)
    {count : Nat}
    {stream : FrameStream}
    {rest : List WalkedFrame}
    (lists : FrameStream.Lists (before.view env) count stream rest)
    (isRest : rest = frames.drop index)
    (limited : rest.length < count) :
    FrameStream.Lists (after.view env) count
      ⟨stream.next.map (Except.map (Frame.seenIn redirected)), stream.map⟩
      (rest.map (·.seenIn redirected)) := by
  induction lists generalizing index with
  | full => cases limited
  | ended count map => exact .ended count map
  | @frame count frame map last next rest follows lists inductionHypothesis =>
    have isWalked : frames[index]? = some ⟨frame, map⟩ := by
      rw [← List.head?_drop, ← isRest]
      rfl
    have others : rest = frames.drop (index + 1) := by
      rw [← List.tail_drop, ← isRest]
      rfl
    have isNext : frames[index + 1]? = rest.head? := by
      rw [others, List.head?_drop]
    have goesOn := inductionHypothesis others (Nat.lt_of_succ_lt_succ limited)
    cases lists with
    | full => cases Nat.lt_of_succ_lt_succ limited
    | ended =>
      rcases FrameStream.gives_following.mp follows with
        ⟨_, ⟨⟩, -⟩ | ⟨-, isFirst, rfl⟩ | ⟨_, ⟨⟩, -⟩
      have followed := (redirects.followedBy_seenIn walk).mpr
        (redirects.followedBy_none walk separates isWalked isNext isFirst)
      exact .frame (FrameStream.gives_following.mpr
        (.inr (.inl ⟨rfl, followed, rfl⟩))) goesOn
    | frame =>
      rcases FrameStream.gives_following.mp follows with
        ⟨_, ⟨⟩, -⟩ | ⟨⟨⟩, -⟩ | ⟨_, ⟨⟩, isFirst, leads⟩
      have followed := (redirects.followedBy_seenIn walk).mpr
        (redirects.followedBy_some walk separates reliable built isWalked isNext
          ⟨isFirst, leads⟩)
      exact .frame (FrameStream.gives_following.mpr
        (.inr (.inr ⟨_, rfl, followed.1, followed.2⟩))) goesOn

end Seen

/-- A frame and the same frame seen later have the same registers and kind. -/
theorem Frame.sameAs_seenIn
    {redirected : List (Frame × Address)}
    (frame : Frame) :
    (frame.seenIn redirected).sameAs frame = true ∧
      (frame.seenIn redirected).kind = frame.kind := by
  unfold Frame.seenIn
  split
  · exact ⟨by simp [sameAs, marked], rfl⟩
  · exact ⟨by simp [sameAs], rfl⟩

/-- A walk and its scan show redirected frames where they were. -/
structure Transparent
    (env : Env)
    (before after : Machine)
    (redirected : List (Frame × Address))
    (frames seen : List WalkedFrame) :
    Prop where
  /-- The same activations are seen, in the same order. -/
  activations : List.Forall₂ (fun walked now =>
    now.frame.sameAs walked.frame = true ∧ now.frame.kind = walked.frame.kind)
    frames seen
  /-- A redirected frame is seen as such, with the handler its callee returns to. -/
  redirected : ∀ pair ∈ redirected, ∃ now ∈ seen,
    now.frame = { pair.1 with deoptState := .deoptimized } ∧
      now.frame.rawPc = pair.2 ∧
        after.stack.Holds (now.frame.sp.offset (-1)) pair.2
  /-- A scan visits what it visited before. -/
  scan : RootScan.visitFrames (after.view env) seen =
    RootScan.visitFrames (before.view env) frames

/--
Redirecting frames of a walk, in whatever order, is transparent to a new walk from the
same frame and to its scan.
-/
theorem redirecting_transparent
    {env : Env}
    {before after : Machine}
    {start : Frame}
    {tracking : Bool}
    {frames : List WalkedFrame}
    {redirected : List (Frame × Address)}
    (separates : env.layout.SeparatesReturn)
    (reliable : env.adapters.Reliable)
    (built : env.code.Built)
    (walks : ((FrameStream.ofFrame start tracking).frames
      (before.view env)).Gives frames)
    (apart : ∀ (index : Nat) (walked : WalkedFrame),
      frames[index]? = some walked →
        walked.KeepsToItself (before.view env) frames[index + 1]?)
    (redirects : RedirectsAll env frames before redirected after) :
    ∃ seen : List WalkedFrame,
      ((FrameStream.ofFrame start tracking).frames (after.view env)).Gives seen ∧
        Transparent env before after redirected frames seen := by
  have lists := FrameStream.gives_frames.mp walks
  have walk : SeparateWalk (before.view env) frames := ⟨lists.isChain, apart⟩
  have shows := redirects.shows walk
  refine ⟨frames.map (·.seenIn redirected), ?_, ?_, ?_, ?_⟩
  · have limited : frames.length < FrameStream.itemLimit :=
      Nat.lt_succ_of_le walk.length_le
    have seen := redirects.lists walk separates reliable built lists
      frames.drop_zero.symm limited
    have isStart : frames[0]? = some ⟨start, .empty tracking⟩ := by
      cases lists
      rfl
    have untouched : start ∉ redirected.map Prod.fst := by
      intro touched
      obtain ⟨pair, listed, same⟩ := List.mem_map.mp touched
      obtain ⟨index, _, target, -, isTarget, -, -, isFrame⟩ := redirects.reached listed
      exact absurd (walk.index_eq isTarget isStart (isFrame.trans same))
        index.succ_ne_zero
    have sameStart : start.seenIn redirected = start := if_neg untouched
    rw [FrameStream.gives_frames]
    simpa [FrameStream.ofFrame, Except.map, sameStart] using seen
  · rw [List.forall₂_map_right_iff, List.forall₂_same]
    exact fun walked _ => walked.frame.sameAs_seenIn
  · intro pair listed
    obtain ⟨_, _, target, -, isTarget, -, -, isFrame⟩ := redirects.reached listed
    obtain ⟨blob, compiled, fit, chosen, -⟩ := shows.fits pair listed
    have isMarked : target.frame.seenIn redirected = pair.1.marked := by
      rw [isFrame]
      exact if_pos (List.mem_map.mpr ⟨pair, listed, rfl⟩)
    refine ⟨target.seenIn redirected, List.mem_map.mpr
      ⟨target, List.mem_of_getElem? isTarget, rfl⟩, isMarked, ?_, ?_⟩
    · change (target.frame.seenIn redirected).rawPc = pair.2
      rw [isMarked, chosen]
      simp [Frame.rawPc, Frame.marked, Frame.compiled?, fit.runsIn, fit.unit]
    · change after.stack.Holds (target.frame.seenIn redirected).returnSlot pair.2
      rw [isMarked]
      exact shows.holds pair listed
  · exact redirects.visitFrames_eq walk separates reliable frames.drop_zero.symm

namespace Nested

/-- A compiled method that calls through a method handle at one place. -/
def compiledUnit : CompiledUnit where
  method := 0x10
  deoptHandler := 0x4800
  methodHandleDeoptHandler := 0x4900
  methodHandleReturns := [0x4020]

def compiled : Blob :=
  { Blob.ofRange "compiled" 0x4000 0x5000 (.compiled compiledUnit) with
    frameSize := 4 }

def stub : Blob :=
  { Blob.ofRange "stub" 0x3000 0x4000 .runtimeStub with frameSize := 2 }

def callStub : Blob :=
  .ofRange "call_stub" 0x6000 0x7000 (.callStub 0x6040)

def env : Env where
  code := ⟨[stub, compiled, callStub]⟩
  methods := {}
  layout := .x86_64
  diagnostics := {}
  adapters := .noAdapters

/-- A stub, the method at a call, the method at a method-handle call, and an entry. -/
def stack : Stack where
  base := 0x8000
  words := #[0x7f20, 0x4010, 0, 0, 0x7f38, 0x4020, 0, 0, 0, 0x7fa0, 0x6040, 0, 0, 0,
    0x7fb0, 0, 0, 0, 0, 0, 0, 0, 0, 0, 0, 0, 0, 0, 0, 0, 0, 0]
  base_aligned := Stack.aligned_8000
  fits := by decide
  allocated := by decide

def before : Machine where
  thread := { id := 1 }
  stack := stack
  records := {}

def start : Frame where
  sp := 0x7f00
  unextendedSp := 0x7f00
  fp := 0
  pc := 0x3008
  blob := some stub
  deoptState := .notDeoptimized

/-- The frames of the method, and the entry frame. -/
def called : Frame where
  sp := 0x7f10
  unextendedSp := 0x7f10
  fp := 0x7f20
  pc := 0x4010
  blob := some compiled
  deoptState := .notDeoptimized

def handling : Frame where
  sp := 0x7f30
  unextendedSp := 0x7f38
  fp := 0x7f38
  pc := 0x4020
  blob := some compiled
  deoptState := .notDeoptimized

def entry : Frame where
  sp := 0x7f58
  unextendedSp := 0x7f58
  fp := 0x7fa0
  pc := 0x6040
  blob := some callStub
  deoptState := .notDeoptimized

def frames : List WalkedFrame :=
  [⟨start, .empty false⟩, ⟨called, .empty false⟩, ⟨handling, .empty false⟩,
    ⟨entry, .empty false⟩]

theorem built : env.code.Built :=
  CodeCache.built_of_foldlM .empty
    (rfl : [stub, compiled, callStub].foldlM CodeCache.insert {} = .ok env.code)

theorem walks : ((FrameStream.ofFrame start false).frames
    (before.view env)).Gives frames := by
  unfold Probe.Gives
  decide +kernel

/-- The owner of a thread may redirect its frames at any time. -/
def request : DeoptRequest :=
  ⟨{ active := false }, false, true⟩

/-- The machine after the frame at the method-handle call has been redirected. -/
def between : Machine :=
  (handling.deoptimize env request before).2

/-- The machine after the other frame of the method has been redirected, too. -/
def after : Machine :=
  (called.deoptimize env request between).2

def redirected : List (Frame × Address) :=
  [(called, 0x4800), (handling, 0x4900)]

theorem redirects : RedirectsAll env frames before redirected after := by
  have handled : (handling.deoptimize env request).Gives before
      (.patched 0x4900, handling.marked) between :=
    ⟨rfl, rfl⟩
  have alsoHandled : (called.deoptimize env request).Gives between
      (.patched 0x4800, called.marked) after :=
    ⟨rfl, rfl⟩
  have first : RedirectsAll env frames before [(handling, 0x4900)] between :=
    .another .nothing (rfl : frames[1]? = some ⟨called, .empty false⟩)
      (rfl : frames[2]? = some ⟨handling, .empty false⟩) (by decide) (by decide) handled
  exact .another first (rfl : frames[0]? = some ⟨start, .empty false⟩)
    (rfl : frames[1]? = some ⟨called, .empty false⟩) (by decide) (by decide) alsoHandled

theorem apart_start :
    (WalkedFrame.mk start (.empty false)).KeepsToItself (before.view env)
      (some ⟨called, .empty false⟩) :=
  WalkedFrame.keepsToItself_of_fixed (.inr (.inr rfl)) rfl ⟨by decide, by decide⟩
    ⟨by decide, by decide⟩ (by decide) (by decide) rfl

theorem apart_called :
    (WalkedFrame.mk called (.empty false)).KeepsToItself (before.view env)
      (some ⟨handling, .empty false⟩) :=
  WalkedFrame.keepsToItself_of_fixed (.inl rfl) rfl ⟨by decide, by decide⟩
    ⟨by decide, by decide⟩ (by decide) (by decide) rfl

theorem apart_handling :
    (WalkedFrame.mk handling (.empty false)).KeepsToItself (before.view env)
      (some ⟨entry, .empty false⟩) :=
  WalkedFrame.keepsToItself_of_fixed (.inl rfl) rfl ⟨by decide, by decide⟩
    ⟨by decide, by decide⟩ (by decide) (by decide) rfl

theorem apart_entry :
    (WalkedFrame.mk entry (.empty false)).KeepsToItself (before.view env) none := by
  have points : before.stack.Holds (entry.slot (-6)) 0x7fb0 := rfl
  have counts : before.stack.Holds ((0x7fb0 : Word).offset 4) 0 := rfl
  refine WalkedFrame.keepsToItself_of_first rfl (WalkedFrame.owns_none (by decide)) points
    counts (fun word inside => WalkedFrame.owns_none ?_) (by decide) rfl
  exact (by decide : ∀ word < 5,
    0x7f58 ≤ ((0x7fb0 : Word).offset (word : Nat)).toNat) word inside

/-- All frames of the walk keep to themselves. -/
theorem apart : ∀ (index : Nat) (walked : WalkedFrame), frames[index]? = some walked →
    walked.KeepsToItself (before.view env) frames[index + 1]?
  | 0, _, rfl => apart_start
  | 1, _, rfl => apart_called
  | 2, _, rfl => apart_handling
  | 3, _, rfl => apart_entry
  | _ + 4, _, isWalked => nomatch isWalked

/-- The upper frame of the method is redirected first, and the lower one then. -/
theorem redirecting_transparent_nested :
    env.adapters.Reliable ∧ RedirectsAll env frames before redirected after ∧ ∃ seen,
      ((FrameStream.ofFrame start false).frames (after.view env)).Gives seen ∧
        Transparent env before after redirected frames seen :=
  ⟨AdapterResolver.reliable_noAdapters, redirects,
    redirecting_transparent FrameLayout.separatesReturn_x86_64
      AdapterResolver.reliable_noAdapters built walks apart redirects⟩

end Nested

end ManagedStack
