import ManagedStack.Proofs.Deferring
import ManagedStack.Proofs.Transparency

namespace ManagedStack

/-!
# What the owner makes of a request

The owner of a marked thread looks for the frame from the anchor on, while whoever asked
for it had the frame at hand.  As long as the anchor, the stack and the records stay as
they are, both see one frame, and it can be redirected: the word that its callee returns
to was read when the frame was found.  So it makes no difference to the stack and to the
records that the request was left to the owner.
-/

open Operation

/-- A walk from the anchor meets the same frames in both machines. -/
structure Machine.ShowsSame (one other : Machine) : Prop where
  stack : other.stack = one.stack
  records : other.records = one.records
  anchor : other.thread.anchor = one.thread.anchor

namespace Machine.ShowsSame

variable {one other third : Machine}

theorem refl (machine : Machine) : machine.ShowsSame machine :=
  ⟨rfl, rfl, rfl⟩

theorem trans
    (first : one.ShowsSame other)
    (second : other.ShowsSame third) :
    one.ShowsSame third where
  stack := second.stack.trans first.stack
  records := second.records.trans first.records
  anchor := second.anchor.trans first.anchor

theorem view_eq
    (shows : one.ShowsSame other)
    (env : Env) :
    other.view env = one.view env := by
  unfold view
  rw [shows.stack, shows.records]

theorem lastFrame_eq
    (shows : one.ShowsSame other)
    (env : Env) :
    other.thread.lastFrame (other.view env) =
      one.thread.lastFrame (one.view env) := by
  unfold Thread.lastFrame
  rw [shows.anchor, shows.view_eq env]

end Machine.ShowsSame

/-- The frame that an anchor names is known by its stack pointer. -/
theorem Thread.id_lastFrame
    {thread : Thread}
    {view : View}
    {last : Frame}
    (isLast : (thread.lastFrame view).Gives last) :
    last.id = last.sp := by
  unfold lastFrame at isLast
  obtain ⟨-, never⟩ | ⟨-, isLast⟩ := Probe.gives_ite.mp isLast
  · exact (Probe.gives_fail never).elim
  · obtain rfl := Frame.gives_plain.mp isLast
    rw [Frame.plainFrame, Frame.id_resolved, Frame.sp_resolved]
    rfl

namespace Handshake

variable {env : Env} {handshake : Handshake} {frame : Frame}
  {events : List HandshakeEvent}

/-- Events among which the owner neither runs nor carries out what was left to it. -/
def Undisturbed
    (env : Env) :
    Handshake → List HandshakeEvent → Prop
  | _, [] => True
  | handshake, event :: rest =>
      event ≠ .process ∧
        handshake.machine.ShowsSame (handshake.after env event).machine ∧
        Undisturbed env (handshake.after env event) rest

theorem undisturbed_append
    {earlier later : List HandshakeEvent} :
    handshake.Undisturbed env (earlier ++ later) ↔
      handshake.Undisturbed env earlier ∧
        (handshake.run env earlier).Undisturbed env later := by
  induction earlier generalizing handshake with
  | nil => simp [Undisturbed, run]
  | cons event rest inductionHypothesis =>
      simp only [List.cons_append, Undisturbed, inductionHypothesis, and_assoc]
      rfl

theorem Undisturbed.shows
    (undisturbed : handshake.Undisturbed env events) :
    handshake.machine.ShowsSame (handshake.run env events).machine := by
  induction events generalizing handshake with
  | nil => exact .refl _
  | cons event rest inductionHypothesis =>
      obtain ⟨-, shows, others⟩ := undisturbed
      exact shows.trans (inductionHypothesis others)

/-- Marking a thread leaves its frames alone. -/
theorem Defers.shows (defers : handshake.Defers env frame) :
    handshake.machine.ShowsSame (handshake.after env (.request frame)).machine := by
  obtain ⟨seen, later, gives⟩ := defers
  obtain ⟨-, rfl⟩ := Frame.deferred_of_gives gives
  have left : (frame.deoptimize env handshake.remoteRequest handshake.machine).2 =
      handshake.machine.markedFor frame.id :=
    gives.2
  rw [after, left]
  exact ⟨rfl, rfl, rfl⟩

/-- As long as the frames are the same, there is one that can be left to the owner. -/
theorem Defers.id_eq
    {later : Handshake}
    {other : Frame}
    (defers : handshake.Defers env frame)
    (shows : handshake.machine.ShowsSame later.machine)
    (alsoDefers : later.Defers env other) :
    other.id = frame.id := by
  obtain ⟨_, _, gives⟩ := defers
  obtain ⟨_, _, alsoGives⟩ := alsoDefers
  obtain ⟨last, caller, map, isLast, isCaller, same⟩ :=
    Frame.exists_caller_of_returns (Frame.deferred_of_gives gives).1.returns
  obtain ⟨alsoLast, alsoCaller, alsoMap, alsoIsLast, alsoIsCaller, alsoSame⟩ :=
    Frame.exists_caller_of_returns (Frame.deferred_of_gives alsoGives).1.returns
  rw [shows.lastFrame_eq env] at alsoIsLast
  rw [shows.view_eq env] at alsoIsCaller
  obtain rfl := isLast.unique alsoIsLast
  obtain rfl : caller = alsoCaller := isCaller.1.unique alsoIsCaller.1
  exact alsoSame.symm.trans same

/-- So the frame that was left first stays marked. -/
theorem Defers.pending_run
    (defers : handshake.Defers env frame)
    (undisturbed : (handshake.after env (.request frame)).Undisturbed env events) :
    ((handshake.after env (.request frame)).run env events).Pending frame.id := by
  rcases defers.pending.run env events with
    pending | ⟨earlier, event, later, rfl, -, takes⟩
  · exact pending
  · obtain ⟨before, notProcess, -⟩ := undisturbed_append.mp undisturbed
    cases takes with
    | handled => exact (notProcess rfl).elim
    | displaced different alsoDefers =>
        exact (different (defers.id_eq (defers.shows.trans before.shows)
          alsoDefers)).elim

section Settling

variable {last : Frame} {map : RegisterMap} {later : Machine} {request : DeoptRequest}

/-- The owner finds the frame that it returns to, as whoever asked for it did. -/
theorem finds_caller
    (negates : fitsSigned (-env.layout.senderSp) = true)
    (reliable : env.adapters.Reliable)
    (isLast : (later.thread.lastFrame (later.view env)).Gives last)
    (isCaller : (last.sender (later.view env)).Gives (.empty false) frame map)
    (notEntry : last.kind ≠ .entry)
    (kind : frame.kind = .compiled)
    (above : last.sp < frame.sp)
    (spLe : frame.sp ≤ frame.unextendedSp)
    (marked : later.thread.mustDeoptId = frame.id) :
    ((FrameStream.ofFrame last false).find? (later.view env)
      (fun walked => walked.frame.id == later.thread.mustDeoptId &&
        walked.frame.kind == .compiled) FrameStream.itemLimit).Gives
      (some ⟨frame, map⟩) := by
  have otherId : last.id ≠ frame.id := by
    rw [Thread.id_lastFrame isLast]
    intro same
    have reaches : frame.sp.toNat ≤ frame.id.toNat := spLe
    have below : last.sp.toNat < frame.sp.toNat := above
    rw [← same] at reaches
    omega
  have follows : (FrameStream.following (later.view env) last :
      Operation RegisterMap FrameError _).Gives (.empty false) (some (.ok frame)) map :=
    FrameStream.gives_following.mpr (.inr (.inr ⟨frame, rfl,
      by simp [Frame.isFirst, notEntry], Frame.gives_senderAbove.mpr ⟨isCaller, above⟩⟩))
  obtain ⟨next, after, goesOn⟩ : ∃ next after, (FrameStream.following (later.view env)
      frame : Operation RegisterMap FrameError _).Gives map next after :=
    Frame.exists_gives_following negates reliable map
  obtain ⟨count, limit⟩ : ∃ count, FrameStream.itemLimit = count + 1 + 1 :=
    ⟨UInt64.size - 1, rfl⟩
  rw [limit]
  refine FrameStream.gives_find?_further follows ?_
    (FrameStream.gives_find?_here goesOn ?_)
  · simp [marked, otherId]
  · simp [marked, kind]

/--
What the owner does about a frame that was left to it is what it would have done had it
been asked directly, as long as the frames are the same.
-/
theorem deferring_transparent
    {events : List HandshakeEvent}
    (separates : env.layout.SeparatesReturn)
    (negates : fitsSigned (-env.layout.senderSp) = true)
    (reliable : env.adapters.Reliable)
    (isLast : (handshake.machine.thread.lastFrame (handshake.machine.view env)).Gives
      last)
    (isCaller : (last.sender (handshake.machine.view env)).Gives (.empty false) frame
      map)
    (notEntry : last.kind ≠ .entry)
    (above : last.sp < frame.sp)
    (spLe : frame.sp ≤ frame.unextendedSp)
    (defers : handshake.Defers env frame)
    (undisturbed : (handshake.after env (.request frame)).Undisturbed env events) :
    ∃ handler patched direct settled,
      (frame.deoptimize env handshake.ownRequest).Gives handshake.machine
          (.patched handler, patched) direct ∧
        (processDeferred env
            ((handshake.after env (.request frame)).run env events).ownRequest).Gives
          ((handshake.after env (.request frame)).run env events).machine
          (some (.patched handler)) settled ∧
        settled.stack = direct.stack ∧ settled.records = direct.records ∧
        settled.thread.deoptSuspended = false ∧ settled.thread.mustDeoptId = 0 := by
  obtain ⟨later, isLater⟩ : ∃ later,
      (handshake.after env (.request frame)).run env events = later := ⟨_, rfl⟩
  have pending : later.Pending frame.id := isLater ▸ defers.pending_run undisturbed
  have shows : handshake.machine.ShowsSame later.machine :=
    isLater ▸ defers.shows.trans undisturbed.shows
  obtain ⟨_, _, gives⟩ := defers
  obtain ⟨⟨⟨blob, compiled, eligible⟩, -⟩, -⟩ := Frame.deferred_of_gives gives
  have steps := Frame.gives_sender_iff.mp isCaller
  have covers : (handshake.machine.view env).stack.Covers frame.returnSlot :=
    steps.covers_returnSlot separates reliable notEntry
  change handshake.machine.stack.Covers frame.returnSlot at covers
  have finds := finds_caller negates reliable (shows.lastFrame_eq env ▸ isLast)
    (shows.view_eq env ▸ isCaller) notEntry eligible.kind above spLe pending.marked
  obtain ⟨patched, direct⟩ := Frame.exists_gives_deoptimize env eligible
    covers (rfl : handshake.ownRequest.byOwner = true)
  obtain ⟨alsoPatched, redirects⟩ := Frame.exists_gives_deoptimize env eligible
    (shows.stack ▸ covers) (rfl : later.ownRequest.byOwner = true)
  have walks : (later.machine.thread.frameStream (later.machine.view env) false).Gives
      (.ofFrame last false) :=
    Probe.gives_bind.mpr ⟨last, shows.lastFrame_eq env ▸ isLast, Probe.gives_pure.mpr rfl⟩
  have carries : Carries env later.ownRequest later.machine
      (some (.patched (compiled.handlerFor frame.pc)))
      (frame.redirection blob (compiled.handlerFor frame.pc) later.machine).unmarked :=
    .found walks finds redirects
  have settles := (gives_processDeferred pending.suspended rfl).mpr carries
  rw [isLater]
  refine ⟨_, patched, _, _, direct, settles, ?_, ?_, rfl, rfl⟩
  · simp only [Machine.unmarked, Frame.redirection, shows.stack]
  · simp only [Machine.unmarked, Frame.redirection, shows.records]

end Settling

namespace FromNative

/-- A stub that the frame at the method-handle call called is in native code. -/
def stopped : Handshake where
  machine := { Nested.before with
    thread := { id := 1, state := .inNative, anchor := ⟨0x7f20, 0, 0x3008⟩ } }
  safepoint := .begin [{ id := 1, state := .inNative }]

def last : Frame where
  sp := 0x7f20
  unextendedSp := 0x7f20
  fp := 0
  pc := 0x3008
  blob := some Nested.stub
  deoptState := .notDeoptimized

/-- The frame is known by another address than its stack pointer. -/
theorem deferring_transparent_handling :
    Nested.env.adapters.Reliable ∧ stopped.Defers Nested.env Nested.handling ∧
      ∃ handler patched direct settled,
        (Nested.handling.deoptimize Nested.env stopped.ownRequest).Gives stopped.machine
            (.patched handler, patched) direct ∧
          (processDeferred Nested.env
              ((stopped.after Nested.env (.request Nested.handling)).run Nested.env
                [.ends, .changesState .inNativeTrans]).ownRequest).Gives
            ((stopped.after Nested.env (.request Nested.handling)).run Nested.env
              [.ends, .changesState .inNativeTrans]).machine
            (some (.patched handler)) settled ∧
          settled.stack = direct.stack ∧ settled.records = direct.records ∧
          settled.thread.deoptSuspended = false ∧ settled.thread.mustDeoptId = 0 := by
  have defers : stopped.Defers Nested.env Nested.handling := ⟨_, _, rfl, rfl⟩
  have isLast : (stopped.machine.thread.lastFrame
      (stopped.machine.view Nested.env)).Gives last :=
    rfl
  have isCaller : (last.sender (stopped.machine.view Nested.env)).Gives (.empty false)
      Nested.handling (.empty false) :=
    ⟨rfl, rfl⟩
  exact ⟨AdapterResolver.reliable_noAdapters, defers,
    deferring_transparent FrameLayout.separatesReturn_x86_64 rfl
      AdapterResolver.reliable_noAdapters isLast isCaller (by decide) (by decide)
      (by decide) defers ⟨nofun, ⟨rfl, rfl, rfl⟩, nofun, ⟨rfl, rfl, rfl⟩, trivial⟩⟩

end FromNative

end Handshake

end ManagedStack
