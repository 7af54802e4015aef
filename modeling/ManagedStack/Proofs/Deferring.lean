import ManagedStack.Proofs.Alike
import ManagedStack.Proofs.Redirecting

namespace ManagedStack

/-!
# Requests that are left to the owner

Where a thread may not be patched while it returns from native code, a request for the
frame that it returns to only marks the thread, and the owner carries the request out.
-/

open Operation

/-- The machine after the mark of its thread was taken back. -/
def Machine.unmarked (machine : Machine) : Machine :=
  { machine with thread := { machine.thread with
      mustDeoptId := 0
      deoptSuspended := false } }

/-- However an operation ends, the thread publishes what it did. -/
def KeepsThread (operation : Operation Machine ε α) : Prop :=
  operation.Respects fun before after => after.thread = before.thread

namespace KeepsThread

/-- A chain keeps the thread if its links do. -/
theorem bind
    {first : Operation Machine ε α}
    {next : α → Operation Machine ε β}
    (firstKeeps : KeepsThread first)
    (nextKeeps : ∀ value, KeepsThread (next value)) :
    KeepsThread (first >>= next) :=
  Respects.andThen (fun first second => second.trans first) firstKeeps nextKeeps

theorem write
    (address : Address)
    (word : Word) :
    KeepsThread (Machine.write address word) :=
  fun _ => rfl

end KeepsThread

namespace Frame

variable {frame : Frame} {env : Env} {request : DeoptRequest}
  {before after : Machine}

/-- Redirecting a frame is no matter of its thread. -/
theorem keepsThread_redirect
    (blob : Blob)
    (compiled : CompiledUnit) :
    KeepsThread (frame.redirect env blob compiled) := by
  have patches : KeepsThread (frame.patchPc env (compiled.handlerFor frame.pc)) := by
    unfold patchPc
    dsimp only
    by_cases traces : env.diagnostics.tracePcPatching = true
    · simp only [traces, if_true]
      exact .bind (fun _ => rfl) fun _ => .bind (fun _ => rfl) fun _ =>
        .bind (.write _ _) fun _ _ => rfl
    · simp only [traces]
      exact .bind (.write _ _) fun _ _ => rfl
  exact .bind (fun _ => rfl) fun _ => .bind patches fun _ _ => rfl

/--
A request defers a frame, or leaves the thread as it was.  A request from elsewhere
marks the thread, unless it is marked for the frame already.
-/
theorem deferred_or_keepsThread
    (frame : Frame)
    (env : Env)
    (request : DeoptRequest)
    (before : Machine) :
    (frame.deoptimize env request).Gives before (.deferred, frame)
        (before.markedFor frame.id) ∨
      (frame.deoptimize env request).Leaves before (·.thread = before.thread) := by
  unfold deoptimize
  split
  · exact .inr rfl
  split
  · exact .inr rfl
  split
  · exact .inr rfl
  split
  · rename_i blob compiled _ _
    split
    · split
      · exact .inr rfl
      · by_cases pending : (before.thread.deoptSuspended &&
            before.thread.mustDeoptId == frame.id) = true
        · refine .inr (leaves_bind.mpr ⟨fun _ _ reads => ?_, fun _ => rfl⟩)
          obtain ⟨rfl, rfl⟩ := gives_state.mp reads
          dsimp only
          rw [if_pos pending]
          exact rfl
        by_cases returns : (frame.isReturnedToFromNative (before.view env)
            before.thread request.safepoint).Gives true
        · refine .inl (gives_bind.mpr
            ⟨before, before, gives_state.mpr ⟨rfl, rfl⟩, ?_⟩)
          dsimp only
          rw [if_neg pending]
          exact gives_bind.mpr ⟨true, before, Machine.gives_look.mpr ⟨returns, rfl⟩,
            gives_bind.mpr ⟨(), _, gives_update.mpr rfl, gives_pure.mpr ⟨rfl, rfl⟩⟩⟩
        · refine .inr (leaves_bind.mpr ⟨fun _ _ reads => ?_, fun _ => rfl⟩)
          obtain ⟨rfl, rfl⟩ := gives_state.mp reads
          dsimp only
          rw [if_neg pending]
          refine leaves_bind.mpr ⟨fun answer _ looks => ?_, fun _ => rfl⟩
          obtain ⟨answers, rfl⟩ := Machine.gives_look.mp looks
          cases answer with
          | true => exact (returns answers).elim
          | false => exact keepsThread_redirect blob compiled _
    · exact .inr (keepsThread_redirect blob compiled before)
  · exact .inr rfl

/-- What a request found when it left a frame to its owner. -/
structure Defers
    (frame : Frame)
    (env : Env)
    (request : DeoptRequest)
    (machine : Machine) :
    Prop where
  eligible : ∃ blob compiled, frame.Eligible blob compiled
  returns : (frame.isReturnedToFromNative (machine.view env) machine.thread
    request.safepoint).Gives true

/-- A request that deferred a frame has marked the thread for it, and no more. -/
theorem deferred_of_gives
    {seen : Frame}
    (gives : (frame.deoptimize env request).Gives before (.deferred, seen) after) :
    frame.Defers env request before ∧ after = before.markedFor frame.id := by
  cases gives_deoptimize.mp gives with
  | deferred eligible remote active unmarked returns =>
      exact ⟨⟨⟨_, _, eligible⟩, returns⟩, rfl⟩

/-- The owner of a frame redirects it, or finds that it has been. -/
theorem owner_redirects
    {outcome : DeoptOutcome}
    {seen : Frame}
    (byOwner : request.byOwner = true)
    (gives : (frame.deoptimize env request).Gives before (outcome, seen) after) :
    outcome = .alreadyDeoptimized ∨ ∃ handler, outcome = .patched handler := by
  cases gives_deoptimize.mp gives with
  | already => exact .inl rfl
  | redirected => exact .inr ⟨_, rfl⟩
  | pending _ remote | deferred _ remote => simp [byOwner] at remote

/-- The owner redirects a frame that its unit allows to redirect. -/
theorem exists_gives_deoptimize
    {blob : Blob}
    {compiled : CompiledUnit}
    (env : Env)
    (eligible : frame.Eligible blob compiled)
    (covers : before.stack.Covers frame.returnSlot)
    (byOwner : request.byOwner = true) :
    ∃ seen, (frame.deoptimize env request).Gives before
      (.patched (compiled.handlerFor frame.pc), seen)
      (frame.redirection blob (compiled.handlerFor frame.pc) before) :=
  ⟨_, eligible.gives_deoptimize.mpr (.inr ⟨by simp [byOwner],
    gives_redirect.mpr ⟨rfl, covers, rfl, rfl⟩⟩)⟩

/-- Where the next return from native code lands. -/
theorem exists_caller_of_returns
    {view : View}
    {thread : Thread}
    {safepoint : Safepoint}
    (returns : (frame.isReturnedToFromNative view thread safepoint).Gives true) :
    ∃ last caller map, (thread.lastFrame view).Gives last ∧
      (last.sender view).Gives (.empty false) caller map ∧ caller.id = frame.id := by
  unfold isReturnedToFromNative at returns
  simp only [Probe.gives_ite, Probe.gives_bind, Probe.gives_pure] at returns
  obtain ⟨-, never⟩ | ⟨-, last, isLast, caller, isCaller, same⟩ := returns
  · cases never
  · exact ⟨last, caller, _, isLast, ⟨isCaller, rfl⟩, by simpa using same.symm⟩

/-- So no owner marks its own thread. -/
theorem keepsThread_of_owner
    (frame : Frame)
    (byOwner : request.byOwner = true) :
    KeepsThread (frame.deoptimize env request) := by
  intro machine
  rcases frame.deferred_or_keepsThread env request machine with defers | keeps
  · rcases owner_redirects byOwner defers with never | ⟨_, never⟩ <;> cases never
  · exact keeps

end Frame

section Processing

variable {env : Env} {request : DeoptRequest} {before after : Machine}
  {outcome : Option DeoptOutcome}

/-- How the owner of a marked thread carries the request out. -/
inductive Carries
    (env : Env)
    (request : DeoptRequest)
    (before : Machine) :
    Option DeoptOutcome → Machine → Prop where
  /-- The marked frame is no longer on the stack. -/
  | gone
      {stream : FrameStream}
      (walks : (before.thread.frameStream (before.view env) false).Gives stream)
      (finds : (stream.find? (before.view env)
        (fun walked => walked.frame.id == before.thread.mustDeoptId &&
          walked.frame.kind == .compiled) FrameStream.itemLimit).Gives none) :
      Carries env request before none before.unmarked
  | found
      {stream : FrameStream}
      {walked : WalkedFrame}
      {outcome : DeoptOutcome}
      {seen : Frame}
      {between : Machine}
      (walks : (before.thread.frameStream (before.view env) false).Gives stream)
      (finds : (stream.find? (before.view env)
        (fun walked => walked.frame.id == before.thread.mustDeoptId &&
          walked.frame.kind == .compiled) FrameStream.itemLimit).Gives (some walked))
      (redirects : (walked.frame.deoptimize env request).Gives before (outcome, seen)
        between) :
      Carries env request before (some outcome) between.unmarked

/--
The owner of a marked thread answers in these ways only.  The walk finds the frame
that was marked, or the frame has gone since.
-/
theorem gives_processDeferred
    (suspended : before.thread.deoptSuspended = true)
    (byOwner : request.byOwner = true) :
    (processDeferred env request).Gives before outcome after ↔
      Carries env request before outcome after := by
  have owned : require .deferredWorkOnOwner request.byOwner = .ok () := by
    rw [byOwner]
    rfl
  simp only [processDeferred, suspended, owned, gives_bind, gives_state, gives_check,
    Machine.gives_look, and_assoc, exists_and_left, exists_eq_left, Bool.not_true,
    Bool.false_eq_true, if_false, true_and, exists_const]
  constructor
  · rintro ⟨stream, walks, marked, finds, carries⟩
    cases marked with
    | some walked =>
        obtain ⟨⟨outcome, seen⟩, between, redirects, answers⟩ := gives_bind.mp carries
        obtain ⟨_, _, answered, unmarks⟩ := gives_bind.mp answers
        obtain ⟨rfl, rfl⟩ := gives_answer.mp answered
        obtain ⟨_, _, unmarked, ends⟩ := gives_bind.mp unmarks
        obtain rfl := gives_update.mp unmarked
        obtain ⟨rfl, rfl⟩ := gives_pure.mp ends
        exact .found walks finds redirects
    | none =>
        obtain ⟨_, _, reports, answers⟩ := gives_bind.mp carries
        obtain rfl := gives_report.mp reports
        obtain ⟨_, _, answered, unmarks⟩ := gives_bind.mp answers
        obtain ⟨rfl, rfl⟩ := gives_answer.mp answered
        obtain ⟨_, _, unmarked, ends⟩ := gives_bind.mp unmarks
        obtain rfl := gives_update.mp unmarked
        obtain ⟨rfl, rfl⟩ := gives_pure.mp ends
        exact .gone walks finds
  · intro carries
    cases carries with
    | gone walks finds =>
        exact ⟨_, walks, none, finds, gives_bind.mpr ⟨(), _, gives_report.mpr rfl,
          gives_bind.mpr ⟨none, _, gives_answer.mpr ⟨rfl, rfl⟩, gives_bind.mpr
            ⟨(), _, gives_update.mpr rfl, gives_pure.mpr ⟨rfl, rfl⟩⟩⟩⟩⟩
    | @found _ walked outcome seen between walks finds redirects =>
        exact ⟨_, walks, some walked, finds, gives_bind.mpr ⟨_, _, redirects,
          gives_bind.mpr ⟨some outcome, _, gives_answer.mpr ⟨rfl, rfl⟩, gives_bind.mpr
            ⟨(), _, gives_update.mpr rfl, gives_pure.mpr ⟨rfl, rfl⟩⟩⟩⟩⟩

/--
Until the owner has an answer, the thread publishes what it did.  Past the redirection
nothing can fail, and up to it the thread is not touched.
-/
theorem answers_or_keepsThread
    (suspended : before.thread.deoptSuspended = true)
    (byOwner : request.byOwner = true) :
    (∃ outcome after, Carries env request before outcome after) ∨
      (processDeferred env request).Leaves before (·.thread = before.thread) := by
  by_cases answers : ∃ outcome after, Carries env request before outcome after
  · exact .inl answers
  refine .inr (leaves_bind.mpr ⟨fun _ _ reads => ?_, fun _ => rfl⟩)
  obtain ⟨rfl, rfl⟩ := gives_state.mp reads
  simp only [suspended, Bool.not_true, Bool.false_eq_true, if_false]
  refine leaves_bind.mpr ⟨fun _ _ checks => ?_, fun _ => rfl⟩
  obtain ⟨-, rfl⟩ := gives_check.mp checks
  refine leaves_bind.mpr ⟨fun stream _ walks => ?_, fun _ => rfl⟩
  obtain ⟨walks, rfl⟩ := Machine.gives_look.mp walks
  refine leaves_bind.mpr ⟨fun marked _ finds => ?_, fun _ => rfl⟩
  obtain ⟨finds, rfl⟩ := Machine.gives_look.mp finds
  cases marked with
  | none => exact (answers ⟨none, _, .gone walks finds⟩).elim
  | some walked =>
      refine leaves_bind.mpr ⟨fun redirected between redirects => ?_, fun _ => ?_⟩
      · exact (answers ⟨_, _, .found walks finds redirects⟩).elim
      · exact Frame.keepsThread_of_owner walked.frame byOwner _

/-- The owner patches the frame, or finds it redirected or gone. -/
inductive Settles : Option DeoptOutcome → Prop where
  | patched (handler : Address) : Settles (some (.patched handler))
  | redirected : Settles (some .alreadyDeoptimized)
  | gone : Settles none

/-- The owner never leaves a request where it found it. -/
theorem Carries.settles
    (carries : Carries env request before outcome after)
    (byOwner : request.byOwner = true) :
    Settles outcome := by
  cases carries with
  | gone => exact .gone
  | found walks finds redirects =>
      rcases Frame.owner_redirects byOwner redirects with rfl | ⟨handler, rfl⟩
      · exact .redirected
      · exact .patched handler

end Processing

/-- A thread that others ask to deoptimize, and the safepoint service. -/
structure Handshake where
  machine : Machine
  safepoint : Safepoint

/-- What happens around requests, in any order. -/
inductive HandshakeEvent where
  /-- A safepoint begins for other threads, and for the owner or not. -/
  | begins (others : List Thread) (stopsOwner : Bool)
  | ends
  | changesState (state : ThreadState)
  | movesAnchor (anchor : FrameAnchor)
  /-- The owner runs, and leaves another stack and other records. -/
  | runs (stack : Stack) (records : DeoptRecords)
  /-- Another thread asks for a frame. -/
  | request (frame : Frame)
  /-- The owner carries out what was left to it. -/
  | process

namespace Handshake

/-- What other threads ask where the owner may not be patched while it returns. -/
def remoteRequest (handshake : Handshake) : DeoptRequest :=
  ⟨handshake.safepoint, true, false⟩

/-- What the owner asks. -/
def ownRequest (handshake : Handshake) : DeoptRequest :=
  ⟨handshake.safepoint, true, true⟩

/-- What an event leaves, whether it comes to an answer or not. -/
def after
    (env : Env)
    (handshake : Handshake) :
    HandshakeEvent → Handshake
  | .begins others stopsOwner =>
      { handshake with
        safepoint := .begin
          (if stopsOwner then others ++ [handshake.machine.thread] else others) }
  | .ends => { handshake with safepoint := .inactive }
  | .changesState state =>
      { handshake with machine.thread.state := state }
  | .movesAnchor anchor =>
      { handshake with machine.thread.anchor := anchor }
  | .runs stack records =>
      { handshake with machine.stack := stack, machine.records := records }
  | .request frame =>
      { handshake with
        machine := (frame.deoptimize env handshake.remoteRequest handshake.machine).2 }
  | .process =>
      { handshake with
        machine := (processDeferred env handshake.ownRequest handshake.machine).2 }

/-- What a run of events leaves. -/
def run
    (env : Env)
    (handshake : Handshake)
    (events : List HandshakeEvent) :
    Handshake :=
  events.foldl (after env) handshake

/-- A request for a frame is answered by leaving it to the owner. -/
def Defers
    (env : Env)
    (handshake : Handshake)
    (frame : Frame) :
    Prop :=
  ∃ seen later, (frame.deoptimize env handshake.remoteRequest).Gives
    handshake.machine (.deferred, seen) later

/-- The owner handles the frame that it is marked for. -/
def Handles
    (env : Env)
    (handshake : Handshake) :
    Prop :=
  ∃ outcome later, Settles outcome ∧
    (processDeferred env handshake.ownRequest).Gives handshake.machine outcome later

/-- The thread has to stop, and to deoptimize this frame. -/
structure Pending
    (handshake : Handshake)
    (id : Address) :
    Prop where
  suspended : handshake.machine.thread.deoptSuspended = true
  marked : handshake.machine.thread.mustDeoptId = id

/-- What takes the mark of a frame from the thread. -/
inductive TakesMark
    (env : Env)
    (handshake : Handshake)
    (id : Address) :
    HandshakeEvent → Prop where
  | handled (handles : handshake.Handles env) : TakesMark env handshake id .process
  /-- Another frame is left to the owner, too. -/
  | displaced
      {other : Frame}
      (different : other.id ≠ id)
      (defers : handshake.Defers env other) :
      TakesMark env handshake id (.request other)

section Marks

variable {env : Env} {handshake : Handshake} {id : Address}

/-- A frame that was left to the owner is marked. -/
theorem Defers.pending
    {frame : Frame}
    (defers : handshake.Defers env frame) :
    (handshake.after env (.request frame)).Pending frame.id := by
  obtain ⟨seen, later, gives⟩ := defers
  obtain ⟨-, rfl⟩ := Frame.deferred_of_gives gives
  have left : (frame.deoptimize env handshake.remoteRequest handshake.machine).2 =
      handshake.machine.markedFor frame.id :=
    gives.2
  exact ⟨by rw [after, left]; rfl, by rw [after, left]; rfl⟩

/-- Whoever leaves the thread what it publishes leaves it marked. -/
theorem Pending.of_thread
    {other : Handshake}
    (pending : handshake.Pending id)
    (same : other.machine.thread = handshake.machine.thread) :
    other.Pending id :=
  ⟨same ▸ pending.suspended, same ▸ pending.marked⟩

/-- An event takes the mark from the thread, or the thread keeps it. -/
theorem Pending.after
    (pending : handshake.Pending id)
    (env : Env)
    (event : HandshakeEvent) :
    (handshake.after env event).Pending id ∨ handshake.TakesMark env id event := by
  cases event with
  | begins | ends | changesState | movesAnchor | runs =>
      exact .inl ⟨pending.suspended, pending.marked⟩
  | request frame =>
      rcases frame.deferred_or_keepsThread env handshake.remoteRequest
        handshake.machine with gives | keeps
      · have defers : handshake.Defers env frame := ⟨_, _, gives⟩
        by_cases same : frame.id = id
        · exact .inl (same ▸ defers.pending)
        · exact .inr (.displaced same defers)
      · exact .inl (pending.of_thread keeps)
  | process =>
      rcases answers_or_keepsThread pending.suspended
        (rfl : handshake.ownRequest.byOwner = true) with
        ⟨outcome, later, carries⟩ | keeps
      · have gives := (gives_processDeferred pending.suspended rfl).mpr carries
        exact .inr (.handled ⟨outcome, later, carries.settles rfl, gives⟩)
      · exact .inl (pending.of_thread keeps)

/-- After any events the thread is marked still, or one of them took the mark. -/
theorem Pending.run
    (pending : handshake.Pending id)
    (env : Env)
    (events : List HandshakeEvent) :
    (handshake.run env events).Pending id ∨
      ∃ earlier event later, events = earlier ++ event :: later ∧
        (handshake.run env earlier).Pending id ∧
        (handshake.run env earlier).TakesMark env id event := by
  induction events generalizing handshake with
  | nil => exact .inl pending
  | cons event rest inductionHypothesis =>
      rcases pending.after env event with still | takes
      · rcases inductionHypothesis still with kept | ⟨earlier, taking, later, rfl, was, takes⟩
        · exact .inl kept
        · exact .inr ⟨event :: earlier, taking, later, rfl, was, takes⟩
      · exact .inr ⟨[], event, rest, rfl, pending, takes⟩

/--
A frame that was left to the owner stays marked until the owner handles it, or until
another frame is left to the owner, too.
-/
theorem pending_of_defers
    {frame : Frame}
    (defers : handshake.Defers env frame)
    (events : List HandshakeEvent) :
    ((handshake.after env (.request frame)).run env events).Pending frame.id ∨
      ∃ earlier event later, events = earlier ++ event :: later ∧
        ((handshake.after env (.request frame)).run env earlier).Pending frame.id ∧
        ((handshake.after env (.request frame)).run env earlier).TakesMark env
          frame.id event :=
  defers.pending.run env events

/-- A frame that was left to the owner stays marked until the owner handles it. -/
def KeepsRequests (env : Env) : Prop :=
  ∀ (handshake : Handshake) (frame : Frame) (events : List HandshakeEvent),
    handshake.Defers env frame →
    ((handshake.after env (.request frame)).run env events).Pending frame.id ∨
      ∃ earlier later, events = earlier ++ .process :: later ∧
        ((handshake.after env (.request frame)).run env earlier).Pending frame.id ∧
        ((handshake.after env (.request frame)).run env earlier).Handles env

end Marks

/-!
Native code that a compiled frame called runs managed code, which calls native code
again from another compiled frame.
-/

namespace Reentering

def stub : Blob :=
  { Blob.ofRange "stub" 0x3000 0x4000 .runtimeStub with frameSize := 2 }

def compiledUnit : CompiledUnit where
  method := 0x10
  deoptHandler := 0x4800
  methodHandleDeoptHandler := 0x4900

def compiled : Blob :=
  { Blob.ofRange "compiled" 0x4000 0x5000 (.compiled compiledUnit) with
    frameSize := 4 }

def env : Env where
  code := ⟨[stub, compiled]⟩
  methods := {}
  layout := .x86_64
  diagnostics := {}
  adapters := .noAdapters

/-- The words at 0x7f18 and 0x7f58 return into the two frames. -/
def stack : Stack where
  base := 0x8000
  words := #[0, 0, 0, 0x4020, 0, 0, 0, 0, 0, 0, 0, 0x4010, 0, 0, 0, 0, 0, 0, 0, 0, 0, 0, 0,
    0, 0, 0, 0, 0, 0, 0, 0, 0]
  base_aligned := Stack.aligned_8000
  fits := by decide
  allocated := by decide

def outer : Frame where
  sp := 0x7f60
  unextendedSp := 0x7f60
  fp := 0
  pc := 0x4010
  blob := some compiled
  deoptState := .notDeoptimized

def inner : Frame where
  sp := 0x7f20
  unextendedSp := 0x7f20
  fp := 0
  pc := 0x4020
  blob := some compiled
  deoptState := .notDeoptimized

/-- The thread is in native code that the outer frame called. -/
def machine : Machine where
  thread := { id := 1, state := .inNative, anchor := ⟨0x7f50, 0, 0x3008⟩ }
  stack := stack
  records := {}

def stopped : Handshake where
  machine := machine
  safepoint := .begin [machine.thread]

/-- At the next safepoint it is in native code that the inner frame called. -/
def reentry : List HandshakeEvent :=
  [.ends, .movesAnchor ⟨0x7f10, 0, 0x3008⟩, .begins [] true]

theorem defers_outer : stopped.Defers env outer :=
  ⟨outer, machine.markedFor 0x7f60, rfl, rfl⟩

theorem defers_inner :
    ((stopped.after env (.request outer)).run env reentry).Defers env inner :=
  ⟨inner, _, rfl, rfl⟩

/-- Neither the owner's return to managed code nor further requests take the mark. -/
theorem pending_outer :
    stopped.Defers env outer ∧
      ((stopped.after env (.request outer)).run env
        [.ends, .changesState .inJava, .request outer, .begins [] true,
          .request outer]).Pending outer.id := by
  refine ⟨defers_outer, ?_⟩
  rcases pending_of_defers defers_outer [.ends, .changesState .inJava,
    .request outer, .begins [] true, .request outer] with
    pending | ⟨earlier, event, later, split, -, takes⟩
  · exact pending
  · have listed : event ∈ earlier ++ event :: later := by simp
    rw [← split] at listed
    cases takes with
    | handled => simp at listed
    | displaced different =>
        obtain rfl : _ = outer := by simpa using listed
        exact (different rfl).elim

/-- The request for the outer frame is lost when the inner one is left, too. -/
theorem not_keepsRequests : ¬KeepsRequests env := by
  intro keeps
  rcases keeps stopped outer (reentry ++ [.request inner]) defers_outer with
    pending | ⟨earlier, later, split, -⟩
  · have displaced := pending.marked
    rw [run, List.foldl_append] at displaced
    exact absurd (defers_inner.pending.marked.symm.trans displaced) (by decide)
  · have listed : HandshakeEvent.process ∈ earlier ++ .process :: later := by simp
    rw [← split] at listed
    simp [reentry] at listed

end Reentering

end Handshake

end ManagedStack
