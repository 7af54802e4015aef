import Mathlib.Logic.Relation
import ManagedStack.Proofs.Expecting
import ManagedStack.Proofs.Reaching
import ManagedStack.Proofs.Redirecting
import ManagedStack.Proofs.Walks

namespace ManagedStack

/-!
# Where an entry continues

The frame that was last before an entry is found again as the caller of the entry frame,
and as the last frame once the entry is left.  The wrapper record keeps the anchor that
named it.  If that had no address, the word below its stack pointer is taken for one; but
the record was written right there, so that the word is the last handle, or, where there
are no handles, their count.

What the frame is seen as also depends on the records of redirected frames.  An image can
release the record of any frame, and one that was redirected is then seen at its handler.
-/

open Operation FrameManager

namespace DeoptRecords

variable {before after : DeoptRecords} {unitStart frameId otherStart otherId : Address}

/-- What is forgotten of one frame says nothing about the others. -/
theorem ForgetsOne.displacedPc?_of_ne
    (forgets : before.ForgetsOne after unitStart frameId)
    (different : ¬(unitStart = otherStart ∧ frameId = otherId)) :
    after.displacedPc? otherStart otherId = before.displacedPc? otherStart otherId := by
  rw [← displacedPc?_forget_of_ne before different]
  unfold displacedPc?
  rw [forgets.others]
  rfl

end DeoptRecords

section Records

variable {context : ManagerContext τ} {first session before after : Session τ}
  {unitStart frameId : Address}

/-- An image that stands for a frame of a unit is put on the chain. -/
def Call.Releases
    (context : ManagerContext τ)
    (unitStart frameId : Address)
    (call : Call τ) :
    Prop :=
  ∃ image source blob, call = .pushDeoptimized image ∧ image.source = some source ∧
    (context.env.code.find? source.pc).filter Blob.isCompiled = some blob ∧
    blob.start = unitStart ∧ source.frameId = frameId

/-- An image does to the records what its source says. -/
theorem Session.released_of_pushDeoptimized
    {image : DeoptimizedActivation}
    (gives : (pushDeoptimized context image).Gives before () after) :
    Released context.env.code image.source before.machine.records after.machine.records := by
  obtain ⟨callee, rest, held, bcp, laid, restored, parts⟩ := exists_rebuildsFrom gives
  have lays := Quiet.pushActivation.of_gives parts.laysOut
  have fills := (Quiet.restoreImage _ _ _).of_gives parts.restores
  have same : restored.machine.records = before.machine.records :=
    fills.records.trans lays.records
  exact same ▸ parts.released

/-- A record stays known across a call, unless the call puts an image in its place. -/
theorem Call.displacedPc?_of_gives
    {call : Call τ}
    {result : Option StepOutcome}
    (performed : (call.perform context).Gives before result after) :
    after.machine.records.displacedPc? unitStart frameId =
        before.machine.records.displacedPc? unitStart frameId ∨
      call.Releases context unitStart frameId ∧
        after.machine.records.displacedPc? unitStart frameId = none := by
  have unchanged (same : after.machine.records = before.machine.records) :
      after.machine.records.displacedPc? unitStart frameId =
          before.machine.records.displacedPc? unitStart frameId ∨
        call.Releases context unitStart frameId ∧
          after.machine.records.displacedPc? unitStart frameId = none :=
    .inl (by rw [same])
  cases call with
  | setUp engine =>
      obtain ⟨_, _, gives, ended⟩ := gives_bind.mp performed
      obtain ⟨-, rfl⟩ := gives_pure.mp ended
      exact unchanged ((Quiet.setUp engine).of_gives gives).records
  | start method arguments handles =>
      obtain ⟨_, _, gives, ended⟩ := gives_bind.mp performed
      obtain ⟨-, rfl⟩ := gives_pure.mp ended
      exact unchanged ((Quiet.start method arguments handles).of_gives gives).records
  | step engine =>
      obtain ⟨_, _, gives, ended⟩ := gives_bind.mp performed
      obtain ⟨-, rfl⟩ := gives_pure.mp ended
      have quiet : QuietUnlessReplaced (Session.step context engine) := .step engine
      rcases quiet before with ⟨_, _, replaces, same⟩ | leaves
      · obtain rfl := gives.2.symm.trans replaces.2
        exact unchanged same
      · exact unchanged (leaves.of_gives gives).records
  | completeOsr kind value =>
      obtain ⟨_, _, gives, ended⟩ := gives_bind.mp performed
      obtain ⟨-, rfl⟩ := gives_pure.mp ended
      exact unchanged ((Quiet.completeOsr kind value).of_gives gives).records
  | pushDeoptimized image =>
      obtain ⟨_, _, gives, ended⟩ := gives_bind.mp performed
      obtain ⟨-, rfl⟩ := gives_pure.mp ended
      have released := Session.released_of_pushDeoptimized gives
      rcases sourced : image.source with _ | source <;> rw [sourced] at released
      · exact unchanged released
      unfold Session.Released at released
      rcases found : (context.env.code.find? source.pc).filter Blob.isCompiled with _ | blob <;>
        simp only [found] at released
      · exact unchanged released
      by_cases about : blob.start = unitStart ∧ source.frameId = frameId
      · obtain ⟨rfl, rfl⟩ := about
        exact .inr ⟨⟨image, source, blob, rfl, sourced, found, rfl, rfl⟩, released.entry⟩
      · exact .inl (released.displacedPc?_of_ne about)

/-- In the course of a run, an image took the place of a frame of a unit. -/
def ReleasedIn
    (context : ManagerContext τ)
    (during : Session τ → Prop)
    (unitStart frameId : Address)
    (first session : Session τ) :
    Prop :=
  ∃ before after call result, Leads context during first before ∧
    Call.Releases context unitStart frameId call ∧
    (call.perform context).Gives before result after ∧ Leads context during after session

/-- So does it across a run, unless an image takes its place in the course of it. -/
theorem Leads.displacedPc?_eq
    {during : Session τ → Prop}
    (leads : Leads context during first session)
    (unitStart frameId : Address) :
    session.machine.records.displacedPc? unitStart frameId =
        first.machine.records.displacedPc? unitStart frameId ∨
      ReleasedIn context during unitStart frameId first session ∧
        session.machine.records.displacedPc? unitStart frameId = none := by
  induction leads with
  | refl => exact .inl rfl
  | call leads holds call acts performed inductionHypothesis =>
      rcases Call.displacedPc?_of_gives performed with same | ⟨releases, gone⟩
      · rw [same]
        refine inductionHypothesis.imp_right fun ⟨released, gone⟩ => ⟨?_, gone⟩
        obtain ⟨before, after, other, result, leadsTo, releases, replaced, goesOn⟩ := released
        exact ⟨before, after, other, result, leadsTo, releases, replaced,
          goesOn.call holds call acts performed⟩
      · exact .inr ⟨⟨_, _, call, _, leads, releases, performed, .refl _⟩, gone⟩

end Records

section Frames

variable {context : ManagerContext τ} {earlier first session : Session τ}

/-- A frame as it is seen after a run in which nothing wrote to it. -/
structure SeenAfter
    (context : ManagerContext τ)
    (first session : Session τ)
    (pc : Address)
    (frame seen : Frame) :
    Prop where
  sp : seen.sp = frame.sp
  fp : seen.fp = frame.fp
  kind : seen.kind = frame.kind
  /-- All else is the same, too, unless an image took the place of a redirected frame. -/
  same : seen = frame ∨
    frame.deoptState = .deoptimized ∧
      seen = { frame with pc := pc, deoptState := .notDeoptimized } ∧
      ∃ blob, frame.blob = some blob ∧
        ReleasedIn context (·.manager.entry.isSome = true) blob.start frame.id first session

theorem SeenAfter.refl
    (first session : Session τ)
    (pc : Address)
    (frame : Frame) :
    SeenAfter context first session pc frame frame :=
  ⟨rfl, rfl, rfl, .inl rfl⟩

/-- A frame at a handler is in a compiled unit, whatever its address is there. -/
theorem Frame.exists_blob_of_resumesAtHandler
    {frame : Frame}
    (atHandler : frame.resumesAtHandler = true) :
    ∃ blob, frame.blob = some blob ∧
      ∀ (pc : Address) (state : DeoptState),
        { frame with pc := pc, deoptState := state }.kind = frame.kind := by
  unfold resumesAtHandler compiled? at atHandler
  rcases inBlob : frame.blob with _ | blob <;> simp only [inBlob] at atHandler
  · cases atHandler
  refine ⟨blob, rfl, fun pc state => ?_⟩
  change blob.compiled?.any (·.isDeoptPc frame.pc) = true at atHandler
  unfold Blob.compiled? at atHandler
  unfold kind
  simp only [inBlob]
  split at atHandler
  · rename_i isCompiled
    simp only [isCompiled]
  · cases atHandler

/--
The registers of a frame show the same frame later, as far as its record is known.
What was recorded for the frame is still there, or was released on the way.
-/
theorem SeenAfter.of_leads
    {sp fp pc : Address}
    (leads : Leads context (·.manager.entry.isSome = true) first session)
    (sameRecords : first.machine.records = earlier.machine.records) :
    SeenAfter context first session pc
      (Frame.plainFrame (earlier.machine.view context.env) sp fp pc)
      (Frame.plainFrame (session.machine.view context.env) sp fp pc) := by
  obtain ⟨frame, isFrame⟩ : ∃ frame, frame = Frame.unresolved
      (earlier.machine.view context.env) sp sp fp pc := ⟨_, rfl⟩
  have plain : Frame.plainFrame (earlier.machine.view context.env) sp fp pc =
      frame.resolved earlier.machine.records := by rw [isFrame]; rfl
  have plainLater : Frame.plainFrame (session.machine.view context.env) sp fp pc =
      frame.resolved session.machine.records := by rw [isFrame]; rfl
  have isPc : frame.pc = pc := by rw [isFrame]; rfl
  rw [plain, plainLater]
  have unchanged
      (same : frame.resolved session.machine.records = frame.resolved earlier.machine.records) :
      SeenAfter context first session pc (frame.resolved earlier.machine.records)
        (frame.resolved session.machine.records) := by
    rw [same]
    exact .refl ..
  rcases atHandler : frame.resumesAtHandler with _ | _
  · exact unchanged (by simp [Frame.resolved, atHandler])
  obtain ⟨blob, inBlob, sameKind⟩ := Frame.exists_blob_of_resumesAtHandler atHandler
  have recorded (records : DeoptRecords) :
      frame.recordedPc? records = records.displacedPc? blob.start frame.id := by
    simp [Frame.recordedPc?, inBlob]
  rcases leads.displacedPc?_eq blob.start frame.id with same | ⟨released, gone⟩
  · rw [sameRecords] at same
    exact unchanged (by simp only [Frame.resolved, atHandler, recorded, same])
  rcases known : earlier.machine.records.displacedPc? blob.start frame.id with _ | displaced
  · exact unchanged (by simp only [Frame.resolved, atHandler, recorded, gone, known])
  · have redirected : frame.resolved earlier.machine.records =
        { frame with pc := displaced, deoptState := .deoptimized } := by
      simp only [Frame.resolved, atHandler, recorded, known]
    have handled : frame.resolved session.machine.records =
        { frame with deoptState := .notDeoptimized } := by
      simp only [Frame.resolved, atHandler, recorded, gone]
    rw [redirected, handled]
    exact {
      sp := rfl
      fp := rfl
      kind := (sameKind frame.pc .notDeoptimized).trans (sameKind displaced .deoptimized).symm
      same := .inr ⟨rfl, by rw [isPc], blob, inBlob, released⟩ }

end Frames

section Entries

variable {context : ManagerContext τ} {earlier first session before after : Session τ}
  {methodWord : Word} {arguments handles : List Word} {entry : EntryRecord}

/-- The word that an entry leaves right below the anchor from before. -/
def lastHandle (handles : List Word) : Word :=
  handles.getLast?.getD 0

/-- The record of an entry ends with the last handle, or else with their count. -/
theorem Session.LaysEntry.holds_lastHandle
    {wrapper argumentTop : Address}
    {anchor : FrameAnchor}
    {before after : Stack}
    (laysEntry : LaysEntry wrapper argumentTop methodWord anchor arguments handles before
      after) :
    after.Holds (wrapper.offset (4 + handles.length)) (lastHandle handles) := by
  obtain ⟨recorded, held⟩ := holds_record_of_entry laysEntry
  rcases isEmpty : handles.length with _ | fewer
  · obtain rfl := List.length_eq_zero_iff.mp isEmpty
    exact recorded (wrapper.offset 4, 0) (by simp [record])
  · have found : handles[fewer]? = some (lastHandle handles) := by
      have last : handles.getLast? = handles[fewer]? := by
        rw [List.getLast?_eq_getElem?, isEmpty]
        rfl
      rw [lastHandle, last, List.getElem?_eq_getElem (by omega)]
      rfl
    have holds := held fewer _ found
    rwa [show (5 + (fewer : Int)) = 4 + (fewer + 1 : Nat) by omega] at holds

/-- Below the anchor from before an entry its record ends, as long as the entry is open. -/
theorem OpenedBy.holds_lastHandle
    (opened : OpenedBy context earlier first session methodWord arguments handles)
    (x86 : context.env.layout = .x86_64)
    (isEntry : session.manager.entry = some entry)
    (nonempty : entry.savedAnchor.isEmpty = false) :
    session.machine.stack.Holds (entry.savedAnchor.sp.offset (-1)) (lastHandle handles) := by
  obtain ⟨wrapper, argumentTop, entered, isFirst, -, laysEntry, keeps⟩ :=
    Session.laysEntry_of_start x86 opened.started
  obtain rfl := Option.some.inj
    (isFirst.symm.trans (Session.entry_of_leads x86 opened.reached_first opened.leads isEntry))
  have atMost : ∀ entry ∈ first.manager.entry, entry.floor ≤
      EntryRecord.floor ⟨wrapper, earlier.machine.thread.anchor⟩ := by
    intro entry isEntry
    rw [isFirst] at isEntry
    obtain rfl := Option.some.inj isEntry
    exact Nat.le_refl _
  have kept := (Session.keeps_of_leads x86 opened.reached_first atMost opened.leads).2
  have holds := (keeps.trans kept).holds laysEntry.holds_lastHandle (by
    have place := Session.toNat_offset_of_entry laysEntry (4 + handles.length) (by omega)
    have frame := (Session.stands_of_entry laysEntry).1.toNat_framePointer
    simp only [EntryRecord.floor] at frame ⊢
    omega)
  have isWrapper := laysEntry.belowAnchor nonempty
  rw [isWrapper, Word.offset_offset] at holds
  have distance : -((5 + handles.length : Nat) : Int) + (4 + (handles.length : Int)) = -1 := by
    omega
  rw [distance] at holds
  exact holds

/-- The address at which an entry with these handles takes the frame of an anchor to go on. -/
def FrameAnchor.resumesAt
    (anchor : FrameAnchor)
    (handles : List Word) :
    Address :=
  if anchor.pc ≠ 0 then anchor.pc else lastHandle handles

/-- The entry frame of a record: it points at the wrapper, and is below the anchor. -/
structure Frame.Enters
    (view : View)
    (entry : EntryRecord)
    (frame : Frame) :
    Prop where
  kind : frame.kind = .entry
  callWrapper : (frame.callWrapper view).Gives ⟨entry.wrapper⟩
  below : frame.sp < entry.savedAnchor.sp

/-- One frame is found to be the caller of another, whatever a walk has recorded. -/
def Frame.CallerIs
    (view : View)
    (frame caller : Frame) :
    Prop :=
  ∀ map, ∃ after, (frame.sender view).Gives map caller after

/-- The caller of an entry frame is what the anchor in the record names. -/
theorem OpenedBy.callerIs
    {standing : Frame}
    (opened : OpenedBy context earlier first session methodWord arguments handles)
    (x86 : context.env.layout = .x86_64)
    (isEntry : session.manager.entry = some entry)
    (nonempty : entry.savedAnchor.isEmpty = false)
    (enters : standing.Enters (session.machine.view context.env) entry) :
    standing.CallerIs (session.machine.view context.env)
      (Frame.plainFrame (session.machine.view context.env) entry.savedAnchor.sp
        entry.savedAnchor.fp (entry.savedAnchor.resumesAt handles)) := by
  have reached := opened.leads.reached opened.reached_first
  have stands : entry.Stands session.machine.stack :=
    ((reached.stacked x86).chained entry isEntry).stands
  have resumes : Frame.AnchorPc session.machine.stack entry.savedAnchor
      (entry.savedAnchor.resumesAt handles) := by
    unfold FrameAnchor.resumesAt
    by_cases unknown : entry.savedAnchor.pc = 0
    · rw [if_neg (not_not_intro unknown)]
      exact .inr ⟨unknown, opened.holds_lastHandle x86 isEntry nonempty⟩
    · rw [if_pos unknown]
      exact .inl ⟨unknown, rfl⟩
  intro map
  exact ⟨_, Frame.gives_sender_iff.mpr (.entry enters.kind
    (Frame.gives_callWrapper.mp enters.callWrapper).2
    ⟨stands.anchorSp, stands.anchorFp, stands.anchorPc⟩ nonempty enters.below resumes)⟩

/-- Frame by frame, a walk of a chain comes to the entry frame below which it lies. -/
theorem reaches_entry_of_chained
    {sp unextendedSp : Address}
    {view : View}
    {chain : List HeldActivation}
    (coded : Coded context)
    (sameEnv : view.toEnv = context.env)
    (layout : view.layout = .x86_64)
    (nonempty : entry.savedAnchor.isEmpty = false)
    (walkable : Walkable context view.stack entry sp chain) :
    ∃ standing, Relation.ReflTransGen (Frame.CallerIs view)
        (chainFrame context entry sp unextendedSp chain) standing ∧
      standing.Enters view entry := by
  induction chain generalizing sp unextendedSp with
  | nil =>
      have stands : entry.Stands view.stack := walkable.chained
      obtain ⟨count, -, -, anchorSp⟩ := stands.handles
      have place := anchorSp nonempty
      have frame := stands.toNat_framePointer
      have low : sp.toNat ≤ entry.floor := walkable.spLe
      refine ⟨_, .refl, kind_chainFrame_nil coded, ?_, ?_⟩
      · rw [callWrapper_chainFrame coded layout stands]
        exact Probe.gives_pure.mpr rfl
      · unfold EntryRecord.floor at low
        rw [UInt64.lt_iff_toNat_lt]
        change sp.toNat < _
        omega
  | cons held callers inductionHypothesis =>
      obtain ⟨standing, reaches, enters⟩ : ∃ standing,
          Relation.ReflTransGen (Frame.CallerIs view)
            (chainFrame context entry (held.activation.fp.offset 2) held.argumentTop callers)
            standing ∧ standing.Enters view entry :=
        inductionHypothesis walkable.rest
      have callerIs : (chainFrame context entry sp unextendedSp (held :: callers)).CallerIs view
          (chainFrame context entry (held.activation.fp.offset 2) held.argumentTop callers) :=
        fun map => ⟨_, (runs_sender coded sameEnv layout walkable.chained.1 map).gives⟩
      exact ⟨standing, .head callerIs reaches, enters⟩

/-- A walk of the thread comes to an entry frame of the record. -/
def Session.ComesTo
    (context : ManagerContext τ)
    (entry : EntryRecord)
    (session : Session τ) :
    Prop :=
  ∃ lowest standing : Frame,
    (session.machine.thread.lastFrame (session.machine.view context.env) :
        Probe FrameError Frame).Gives lowest ∧
      Relation.ReflTransGen (Frame.CallerIs (session.machine.view context.env)) lowest
        standing ∧
      standing.Enters (session.machine.view context.env) entry

/-- From a top that the anchor can name, a walk comes to the entry frame. -/
theorem Reached.comesTo
    {top : Activation}
    (reached : Reached context session)
    (x86 : context.env.layout = .x86_64)
    (coded : Coded context)
    (isEntry : session.manager.entry = some entry)
    (nonempty : entry.savedAnchor.isEmpty = false)
    (isTop : session.manager.top? = some top)
    (nonzero : top.stackTop ≠ 0) :
    session.ComesTo context entry := by
  obtain ⟨rest, held, stands, rfl⟩ := push_of_top? isTop
  have walkable : Walkable context (session.machine.view context.env).stack entry _ _ :=
    (reached.stacked x86).walkable isEntry stands nonzero
  obtain ⟨standing, reaches, enters⟩ := reaches_entry_of_chained coded rfl x86 nonempty walkable
  refine ⟨_, standing, ?_, reaches, enters⟩
  rw [(reached.stacked x86).lastFrame_eq coded entry isEntry stands nonzero]
  exact Probe.gives_pure.mpr rfl

/-- Whether the outcome of a call says that the entry frame was left. -/
def StepOutcome.leavesEntry : StepOutcome → Bool
  | .returned _ _ => true
  | .threw _ => true
  | _ => false

/-- An entry that is dropped gives the thread back the anchor that it keeps. -/
theorem Session.anchor_of_finishEntry
    {between : Session τ}
    (finished : (finishEntry : Operation (Session τ) ProtocolError _).Gives between () after)
    (isEntry : between.manager.entry = some entry)
    (nonempty : entry.savedAnchor.isEmpty = false) :
    after.machine.thread.anchor = entry.savedAnchor := by
  rcases gives_finishEntry.mp finished with ⟨noEntry, -⟩ | ⟨other, isOther, rfl⟩
  · rw [isEntry] at noEntry
    cases noEntry
  · obtain rfl := Option.some.inj (isEntry.symm.trans isOther)
    change (if entry.savedAnchor.isEmpty = true then _ else entry.savedAnchor) = _
    rw [if_neg (by simp [nonempty])]

/-- What serves a request and leaves the entry drops it last. -/
theorem Session.anchor_of_serve
    {rest : Array HeldActivation}
    {held : HeldActivation}
    {message : Message}
    {outcome : StepOutcome}
    (stands : before.manager.activations = rest.push held)
    (isEntry : before.manager.entry = some entry)
    (nonempty : entry.savedAnchor.isEmpty = false)
    (gives : (serve context rest.size message).Gives before outcome after)
    (leaves : outcome.leavesEntry = true) :
    after.machine.thread.anchor = entry.savedAnchor := by
  cases message with
  | callMethod | callMethodHandle =>
      obtain ⟨_, _, _, _, _, _, _, _, -, -, -, -, -, -, -, -, -, rfl⟩ := gives_serveCall gives
      cases leaves
  | returnFromMethod =>
      obtain ⟨_, _, -, -, -, ⟨-, finished, -⟩ | ⟨_, -, returns⟩⟩ :=
        gives_serveReturn stands gives
      · exact anchor_of_finishEntry finished isEntry nonempty
      · rw [outcome_of_returnIntoCaller returns] at leaves
        cases leaves
  | moreMonitors =>
      obtain ⟨_, _, _, _, -, -, -, -, rfl⟩ := gives_serveMonitor gives
      cases leaves
  | throwingException =>
      obtain ⟨_, -, ⟨-, finished, -⟩ | ⟨_, _, _, _, -, -, -, -, -, -, rfl⟩⟩ :=
        gives_serveThrow stands gives
      · exact anchor_of_finishEntry finished isEntry nonempty
      · cases leaves
  | poppingFrame =>
      obtain ⟨_, _, _, -, -, -, -, rfl⟩ := gives_servePop stands gives
      cases leaves
  | doOsr =>
      obtain ⟨_, _, _, -, -, -, -, -, rfl⟩ := gives_serveOsr stands gives
      cases leaves
  | _ => exact (gives_fail gives).elim

/-- A call by which an entry is left gives the thread back the anchor from before. -/
theorem Call.anchor_of_leavesEntry
    {call : Call τ}
    {outcome : StepOutcome}
    (isEntry : before.manager.entry = some entry)
    (nonempty : entry.savedAnchor.isEmpty = false)
    (performed : (call.perform context).Gives before (some outcome) after)
    (leaves : outcome.leavesEntry = true) :
    after.machine.thread.anchor = entry.savedAnchor := by
  rcases Call.step_or_completeOsr performed with ⟨engine, rfl, gives⟩ | ⟨_, _, rfl, gives⟩
  · rw [Session.step_eq] at gives
    obtain ⟨posted, ready, advanced, served⟩ := gives_bind.mp gives
    obtain ⟨rest, held, turn, rfl, advances⟩ := Session.advances_of_gives advanced
    have isEntryStill : ready.manager.entry = some entry := by
      rw [advances.managed]
      exact isEntry
    exact Session.anchor_of_serve (by rw [advances.managed]) isEntryStill nonempty served leaves
  · obtain ⟨_, -, -, ⟨-, finished, -⟩ | ⟨_, -, returns⟩⟩ := Session.gives_completeOsr gives
    · exact Session.anchor_of_finishEntry finished isEntry nonempty
    · rw [Session.outcome_of_returnIntoCaller returns] at leaves
      cases leaves

/-- Where nothing is in progress, no call has an outcome. -/
theorem Call.entered_of_outcome
    {call : Call τ}
    {outcome : StepOutcome}
    (reached : Reached context before)
    (performed : (call.perform context).Gives before (some outcome) after) :
    before.manager.entry.isSome = true := by
  refine reached.followsProtocol.entry.mpr ?_
  rcases Call.step_or_completeOsr performed with ⟨engine, rfl, gives⟩ | ⟨_, _, rfl, gives⟩
  · rw [Session.step_eq] at gives
    obtain ⟨_, _, advanced, -⟩ := gives_bind.mp gives
    obtain ⟨_, _, _, -, advances⟩ := Session.advances_of_gives advanced
    exact .inl (by simp [depth_of_push advances.stands])
  · obtain ⟨_, isPending, -⟩ := Session.gives_completeOsr gives
    exact .inr (by simp [isPending])

/--
From an entry that is open on a thread with a last frame, a walk goes on with that frame.

The address at which the frame goes on is found where the anchor had one, or where the
word that the entry left below the anchor is zero as well.
-/
structure ContinuesWith
    (context : ManagerContext τ)
    (first session : Session τ)
    (anchor : FrameAnchor)
    (handles : List Word)
    (frame : Frame) :
    Prop where
  /-- As long as there is a top that the anchor can name, a walk comes to the entry frame. -/
  walked : Coded context → ∀ entry top, session.manager.entry = some entry →
    session.manager.top? = some top → top.stackTop ≠ 0 → session.ComesTo context entry
  /-- From an entry frame it goes on. -/
  goesOn : ∀ entry (standing : Frame), session.manager.entry = some entry →
    standing.Enters (session.machine.view context.env) entry → ∃ outer,
      standing.CallerIs (session.machine.view context.env) outer ∧
        outer.sp = frame.sp ∧ outer.fp = frame.fp ∧
        (anchor.pc ≠ 0 ∨ lastHandle handles = 0 →
          SeenAfter context first session anchor.pc frame outer) ∧
        (anchor.pc = 0 → outer = Frame.plainFrame (session.machine.view context.env) anchor.sp
          anchor.fp (lastHandle handles))
  /-- A call by which the entry is left makes the frame the last one again. -/
  restored : ∀ (call : Call τ) outcome after, call.Acts →
    (call.perform context).Gives session (some outcome) after → outcome.leavesEntry = true →
      ∃ last, (after.machine.thread.lastFrame (after.machine.view context.env) :
          Probe FrameError Frame).Gives last ∧
        SeenAfter context first after anchor.pc frame last

/-- Where a thread has a last frame, its anchor names it. -/
theorem Thread.gives_lastFrame
    {thread : Thread}
    {view : View}
    {frame : Frame} :
    (thread.lastFrame view : Probe FrameError Frame).Gives frame ↔
      thread.anchor.isEmpty = false ∧
        frame = Frame.plainFrame view thread.anchor.sp thread.anchor.fp thread.anchor.pc := by
  unfold lastFrame
  rw [Probe.gives_ite, Frame.gives_plain, Bool.not_eq_true]
  constructor
  · rintro (⟨-, never⟩ | found)
    · exact (Probe.gives_fail never).elim
    · exact found
  · exact .inr

@[simp] theorem Frame.fp_plainFrame
    {view : View}
    {sp fp pc : Address} :
    (plainFrame view sp fp pc).fp = fp := by
  unfold plainFrame resolved
  split <;> rfl

/-- An entry continues with the frame that was the last one before it. -/
theorem continuesWith_of_openedBy
    {frame : Frame}
    (x86 : context.env.layout = .x86_64)
    (opened : OpenedBy context earlier first session methodWord arguments handles)
    (last : (earlier.machine.thread.lastFrame (earlier.machine.view context.env) :
      Probe FrameError Frame).Gives frame) :
    ContinuesWith context first session earlier.machine.thread.anchor handles frame := by
  obtain ⟨nonempty, rfl⟩ := Thread.gives_lastFrame.mp last
  have reached := opened.leads.reached opened.reached_first
  have sameRecords : first.machine.records = earlier.machine.records :=
    ((Quiet.start methodWord arguments handles).of_gives opened.started).records
  refine ⟨fun coded entry top isEntry isTop nonzero => ?_,
    fun entry standing isEntry enters => ?_, fun call outcome after acts performed leaves => ?_⟩
  · exact reached.comesTo x86 coded isEntry (opened.savedAnchor x86 isEntry ▸ nonempty) isTop
      nonzero
  · have saved := opened.savedAnchor x86 isEntry
    have callerIs := opened.callerIs x86 isEntry (saved ▸ nonempty) enters
    rw [saved] at callerIs
    refine ⟨_, callerIs, by simp, by simp, fun known => ?_, fun unknown => ?_⟩
    · have sameAddress : earlier.machine.thread.anchor.resumesAt handles =
          earlier.machine.thread.anchor.pc := by
        unfold FrameAnchor.resumesAt
        by_cases unknown : earlier.machine.thread.anchor.pc = 0
        · rw [if_neg (not_not_intro unknown), known.resolve_left (not_not_intro unknown),
            unknown]
        · rw [if_pos unknown]
      rw [sameAddress]
      exact .of_leads opened.leads sameRecords
    · rw [FrameAnchor.resumesAt, if_neg (not_not_intro unknown)]
  · have entered := Call.entered_of_outcome reached performed
    obtain ⟨entry, isEntry⟩ := Option.isSome_iff_exists.mp entered
    have saved := opened.savedAnchor x86 isEntry
    have anchor := Call.anchor_of_leavesEntry isEntry (saved ▸ nonempty) performed leaves
    rw [saved] at anchor
    refine ⟨_, Thread.gives_lastFrame.mpr ⟨by rw [anchor]; exact nonempty, rfl⟩, ?_⟩
    rw [anchor]
    exact .of_leads (opened.leads.call entered call acts performed) sameRecords

end Entries

/-- An entry continues with the last frame from before, whatever its anchor was. -/
def ContinuesAsBefore (context : ManagerContext τ) : Prop :=
  ∀ earlier first session methodWord arguments handles frame,
    OpenedBy context earlier first session methodWord arguments handles →
    (earlier.machine.thread.lastFrame (earlier.machine.view context.env) :
      Probe FrameError Frame).Gives frame →
    ∀ entry (standing : Frame), session.manager.entry = some entry →
      standing.Enters (session.machine.view context.env) entry → ∃ outer,
        standing.CallerIs (session.machine.view context.env) outer ∧ outer.sp = frame.sp ∧
          outer.fp = frame.fp ∧ outer.pc = frame.pc ∧ outer.kind = frame.kind

/-! The asking method is entered with one handle, on a thread that has a last frame. -/

namespace Calling

open Asking Layered

/-- The thread stopped in a frame, whose address it published or not. -/
def stopped (pc : Address) : Session Unit :=
  visitor { Pair.fresh.machine with
    thread := { Pair.fresh.machine.thread with anchor := ⟨0x7f80, 0x7f90, pc⟩ } }

def frame (pc : Address) : Frame :=
  Frame.plainFrame ((stopped pc).machine.view replacing.env) 0x7f80 0x7f90 pc

def entered (pc : Address) : Session Unit :=
  (Session.start replacing 0x500000 [] [0x700020] (stopped pc)).2

/-- The method has left for compiled code. -/
def replaced : Session Unit :=
  (Session.step replacing leave (entered 0x1100)).2

def ended : Session Unit :=
  (Session.completeOsr replacing .void [] replaced).2

theorem coded : Coded replacing :=
  ⟨by decide +kernel, by decide +kernel⟩

theorem openedBy_entered : OpenedBy replacing (stopped 0x1100) (entered 0x1100) (entered 0x1100)
    0x500000 [] [0x700020] where
  reached := reached_visitor _
  started := gives_of_toOption (by decide +kernel)
  leads := .refl _

theorem openedBy_unaddressed : OpenedBy replacing (stopped 0) (entered 0) (entered 0)
    0x500000 [] [0x700020] where
  reached := reached_visitor _
  started := gives_of_toOption (by decide +kernel)
  leads := .refl _

theorem openedBy_replaced : OpenedBy replacing (stopped 0x1100) (entered 0x1100) replaced
    0x500000 [] [0x700020] where
  reached := reached_visitor _
  started := gives_of_toOption (by decide +kernel)
  leads := by
    have stepped : (Session.step replacing leave).Gives (entered 0x1100)
        (.onStackReplaced ⟨0x5000, 0x5040⟩) replaced :=
      gives_of_toOption (by decide +kernel)
    exact .call (.refl _) (by decide +kernel) (.step leave) (.offered (.requestOsr _))
      (gives_bind.mpr ⟨_, _, stepped, gives_pure.mpr ⟨rfl, rfl⟩⟩)

theorem gives_frame (pc : Address) :
    ((stopped pc).machine.thread.lastFrame ((stopped pc).machine.view replacing.env) :
      Probe FrameError Frame).Gives (frame pc) :=
  Thread.gives_lastFrame.mpr ⟨rfl, rfl⟩

/-- What is seen of the frame is the frame, since it was not redirected. -/
theorem eq_frame
    {session : Session Unit}
    {seen : Frame}
    (sees : SeenAfter replacing (entered 0x1100) session 0x1100 (frame 0x1100) seen) :
    seen = frame 0x1100 :=
  sees.same.resolve_right fun ⟨redirected, _⟩ =>
    absurd redirected (by decide +kernel)

/-- The frame is the caller of the entry frame, and the last one when that is gone. -/
theorem continues_entered :
    (∃ entry lowest standing,
      (entered 0x1100).manager.entry = some entry ∧
        ((entered 0x1100).machine.thread.lastFrame
          ((entered 0x1100).machine.view replacing.env) : Probe FrameError Frame).Gives
            lowest ∧
        Relation.ReflTransGen
          (Frame.CallerIs ((entered 0x1100).machine.view replacing.env)) lowest standing ∧
        standing.CallerIs ((entered 0x1100).machine.view replacing.env) (frame 0x1100)) ∧
      (Session.completeOsr replacing .void []).Gives replaced (.returned .void []) ended ∧
      (ended.machine.thread.lastFrame (ended.machine.view replacing.env) :
        Probe FrameError Frame).Gives (frame 0x1100) := by
  have continues := continuesWith_of_openedBy rfl openedBy_entered (gives_frame _)
  have completes : (Session.completeOsr replacing .void []).Gives replaced
      (.returned .void []) ended :=
    gives_of_toOption (by decide +kernel)
  obtain ⟨last, isLast, sees⟩ :=
    (continuesWith_of_openedBy rfl openedBy_replaced (gives_frame _)).restored
      (.completeOsr .void []) _ ended trivial
      (gives_bind.mpr ⟨_, _, completes, gives_pure.mpr ⟨rfl, rfl⟩⟩) rfl
  obtain ⟨entry, isEntry⟩ : ∃ entry, (entered 0x1100).manager.entry = some entry :=
    Option.isSome_iff_exists.mp (by decide +kernel)
  obtain ⟨top, isTop⟩ : ∃ top, (entered 0x1100).manager.top? = some top :=
    Option.isSome_iff_exists.mp (by decide +kernel)
  have nonzero : (entered 0x1100).manager.top?.all (·.stackTop != 0) = true := by
    decide +kernel
  rw [isTop, Option.all_some, bne_iff_ne] at nonzero
  obtain ⟨lowest, standing, isLowest, reaches, enters⟩ :=
    continues.walked coded entry top isEntry isTop nonzero
  obtain ⟨outer, callerIs, -, -, seen, -⟩ := continues.goesOn entry standing isEntry enters
  obtain rfl := eq_frame (seen (.inl (by decide)))
  obtain rfl := eq_frame sees
  exact ⟨⟨entry, lowest, standing, isEntry, isLowest, reaches, callerIs⟩, completes, isLast⟩

/-- From an anchor without an address, the handle is taken for the address. -/
theorem not_continuesAsBefore : ¬ContinuesAsBefore replacing := by
  intro continues
  have reached : Reached replacing (entered 0) := openedBy_unaddressed.reached_first
  obtain ⟨entry, isEntry⟩ : ∃ entry, (entered 0).manager.entry = some entry :=
    Option.isSome_iff_exists.mp (by decide +kernel)
  obtain ⟨top, isTop⟩ : ∃ top, (entered 0).manager.top? = some top :=
    Option.isSome_iff_exists.mp (by decide +kernel)
  have nonzero : (entered 0).manager.top?.all (·.stackTop != 0) = true := by
    decide +kernel
  rw [isTop, Option.all_some, bne_iff_ne] at nonzero
  have saved := openedBy_unaddressed.savedAnchor rfl isEntry
  have nonempty : entry.savedAnchor.isEmpty = false := by rw [saved]; rfl
  obtain ⟨lowest, standing, -, -, enters⟩ :=
    reached.comesTo rfl coded isEntry nonempty isTop nonzero
  obtain ⟨outer, callerIs, -, -, samePc, -⟩ :=
    continues _ _ _ _ _ _ _ openedBy_unaddressed (gives_frame 0) entry standing isEntry enters
  obtain ⟨_, found⟩ := callerIs (.empty false)
  obtain ⟨_, foundToo⟩ :=
    openedBy_unaddressed.callerIs rfl isEntry nonempty enters (.empty false)
  rw [found.1.unique foundToo.1, saved] at samePc
  revert samePc
  decide +kernel

end Calling

end ManagedStack
