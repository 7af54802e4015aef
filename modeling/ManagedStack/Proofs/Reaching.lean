import ManagedStack.Proofs.Opening
import ManagedStack.Proofs.Replacement
import ManagedStack.Proofs.Walks

namespace ManagedStack

/-!
# What stays in reach

While an entry is open and activations lie below it, a walk of the thread comes to the
entry frame and goes on to the frames that were there before, and whoever enters the
thread anew lays out below all of them.  An entry whose last activation left for
compiled code is still open; but the anchor is then empty whatever it was before, so
that no walk begins, and a new entry is laid out over the frames of the older ones.
-/

open Operation FrameManager

/-- A stream comes to an entry frame, with the frame that was last before it behind. -/
inductive FrameStream.ReachesEntry
    (view : View)
    (entry : EntryRecord) :
    FrameStream → Prop where
  | here
      {stream rest : FrameStream}
      {walked : WalkedFrame}
      (advances : (stream.advance view : Probe FrameError _).Gives
        (some (.ok walked, rest)))
      (kind : walked.frame.kind = .entry)
      (callWrapper : walked.frame.callWrapper view = pure ⟨entry.wrapper⟩)
      (outer : entry.savedAnchor.isEmpty = false → ∃ pc frame,
        Frame.AnchorPc view.stack entry.savedAnchor pc ∧
          (Frame.plain view entry.savedAnchor.sp entry.savedAnchor.fp pc :
            Probe FrameError Frame).Gives frame ∧
          rest.next = some (.ok frame)) :
      ReachesEntry view entry stream
  | later
      {stream rest : FrameStream}
      {walked : WalkedFrame}
      (advances : (stream.advance view : Probe FrameError _).Gives
        (some (.ok walked, rest)))
      (reaches : ReachesEntry view entry rest) :
      ReachesEntry view entry stream

/-- A walk that begins on a chain comes to the entry frame below which it lies. -/
theorem reachesEntry_of_chained
    {context : ManagerContext τ}
    {entry : EntryRecord}
    {sp unextendedSp : Address}
    {view : View}
    {chain : List HeldActivation}
    (coded : Coded context)
    (sameEnv : view.toEnv = context.env)
    (layout : view.layout = .x86_64)
    (walkable : Walkable context view.stack entry sp chain)
    (map : RegisterMap) :
    (⟨some (.ok (chainFrame context entry sp unextendedSp chain)), map⟩ :
      FrameStream).ReachesEntry view entry := by
  induction chain generalizing sp unextendedSp map with
  | nil =>
      have stands : entry.Stands view.stack := walkable.chained
      have kind : (chainFrame context entry sp unextendedSp []).kind = .entry :=
        kind_chainFrame_nil coded
      rcases first : entry.savedAnchor.isEmpty with _ | _
      · obtain ⟨pc, resumes⟩ := stands.exists_anchorPc first
        obtain ⟨frame, notes, found, runs⟩ := runs_following_entry
          (ε := FrameError) sp unextendedSp coded layout stands first resumes
          walkable.spLe map
        refine .here (congrArg Probe.outcome (FrameStream.advance_of_runs runs))
          kind (callWrapper_chainFrame coded layout stands) fun _ => ?_
        exact ⟨pc, frame, resumes, congrArg Probe.outcome found, rfl⟩
      · refine .here (congrArg Probe.outcome (FrameStream.advance_of_runs
          (runs_following_entry_first coded layout stands first map))) kind
          (callWrapper_chainFrame coded layout stands) fun nonempty => ?_
        rw [first] at nonempty
        cases nonempty
  | cons held callers inductionHypothesis =>
      exact .later (congrArg Probe.outcome (FrameStream.advance_of_runs
          (runs_following coded sameEnv layout walkable.chained.1 walkable.spLe
            map)))
        (inductionHypothesis walkable.rest _)

/-- A walk of the thread comes to the entry, and other entries are laid out below. -/
structure InReach
    (context : ManagerContext τ)
    (entry : EntryRecord)
    (session : Session τ) :
    Prop where
  walked : ∀ tracking, ∃ stream,
    (session.machine.thread.frameStream (session.machine.view context.env)
        tracking).Gives stream ∧
      stream.ReachesEntry (session.machine.view context.env) entry
  /-- Whatever is entered from here on leaves the words of the frames alone. -/
  spared : ∀ (σ : Type) (outside : ManagerContext σ) (earlier first later : Session σ)
      (methodWord : Word) (arguments handles : List Word),
    outside.env.layout = .x86_64 →
    OpenedBy outside earlier first later methodWord arguments handles →
    earlier.machine = session.machine →
    Stack.Keeps (session.machine.thread.anchor.sp.toNat ≤ ·)
      session.machine.stack later.machine.stack

section Law

variable {context : ManagerContext τ} {earlier first session : Session τ}
  {methodWord : Word} {arguments handles : List Word} {entry : EntryRecord}

/-- What is entered where an anchor stands is laid out below it. -/
theorem OpenedBy.keeps_anchored
    (opened : OpenedBy context earlier first session methodWord arguments
      handles)
    (x86 : context.env.layout = .x86_64)
    (nonempty : earlier.machine.thread.anchor.isEmpty = false) :
    Stack.Keeps (earlier.machine.thread.anchor.sp.toNat ≤ ·)
      earlier.machine.stack session.machine.stack := by
  have kept := (opened.keeps x86).2
  rw [Session.startTop, if_neg (by simp [nonempty])] at kept
  exact kept

/--
As long as an activation of an entry is there, so is the way to its frames.

There are two cases in which the thread's anchor is empty although an entry is open:
the top ends at address zero, or the last activation left for compiled code.
-/
theorem inReach_of_openedBy
    (x86 : context.env.layout = .x86_64)
    (coded : Coded context)
    (opened : OpenedBy context earlier first session methodWord arguments
      handles)
    (isEntry : session.manager.entry = some entry) :
    entry.savedAnchor = earlier.machine.thread.anchor ∧
      (∀ top, session.manager.top? = some top →
        (top.stackTop ≠ 0 →
          session.machine.thread.anchor.isEmpty = false ∧
            InReach context entry session) ∧
        (top.stackTop = 0 →
          session.machine.thread.anchor.isEmpty = true ∧
            session.machine.stack.limit = 0)) ∧
      (session.manager.top? = none →
        session.machine.thread.anchor = {} ∧
          Session.startTop session.machine = session.machine.stack.base ∧
          ∃ pending, session.manager.pendingOsr = some pending ∧
            pending.caller = none) := by
  have reached := opened.leads.reached opened.reached_first
  have entered : session.manager.entry.isSome = true := by rw [isEntry]; rfl
  have stacked := reached.stacked x86
  have anchor := stacked.anchored entered
  refine ⟨opened.savedAnchor x86 isEntry, fun top isTop => ?_, fun noTop => ?_⟩
  · obtain ⟨rest, held, stands, rfl⟩ := push_of_top? isTop
    rw [isTop] at anchor
    have isEmpty : session.machine.thread.anchor.isEmpty =
        (held.activation.stackTop == 0) := by
      rw [anchor]
      rfl
    refine ⟨fun nonzero => ?_, fun zero => ?_⟩
    · have nonempty : session.machine.thread.anchor.isEmpty = false := by
        simpa [isEmpty] using nonzero
      refine ⟨nonempty, fun tracking => ?_, ?_⟩
      · refine ⟨_, congrArg Probe.outcome
          (stacked.frameStream_eq coded isEntry stands nonzero tracking), ?_⟩
        exact reachesEntry_of_chained coded rfl x86
          (stacked.walkable isEntry stands nonzero) _
      · intro σ outside begun laid later _ _ _ layout nested sameMachine
        rw [← sameMachine] at nonempty ⊢
        exact nested.keeps_anchored layout nonempty
    · have chained := stacked.chained entry isEntry
      rw [Session.reverse_of_push stands] at chained
      have limitLe := chained.1.sits.limitLe
      rw [zero] at limitLe
      refine ⟨?_, UInt64.toNat_inj.mp (Nat.le_zero.mp limitLe)⟩
      rw [isEmpty, zero]
      rfl
  · rw [noTop] at anchor
    have empty : session.manager.depth = 0 := by
      simpa [top?, depth] using noTop
    have isPending : session.manager.pendingOsr.isSome = true :=
      (reached.followsProtocol.entry.mp entered).resolve_left
        fun nonempty => nonempty empty
    obtain ⟨pending, isPending⟩ := Option.isSome_iff_exists.mp isPending
    refine ⟨anchor, ?_, pending, isPending, ?_⟩
    · rw [Session.startTop, anchor]
      rfl
    · cases callerOf : pending.caller with
      | none => rfl
      | some caller =>
          have topIs := reached.followsProtocol.pending pending caller isPending
            callerOf
          simp [topIndex?, empty] at topIs

end Law

/-- A thread that was entered where it had a last frame has one as long as that is
open. -/
def KeepsAnchor (context : ManagerContext τ) : Prop :=
  ∀ earlier first session methodWord arguments handles,
    OpenedBy context earlier first session methodWord arguments handles →
    session.manager.entry.isSome = true →
    earlier.machine.thread.anchor.isEmpty = false →
    session.machine.thread.anchor.isEmpty = false

/-- Whoever enters the thread meanwhile leaves the frames from before alone. -/
def SparesOuterFrames (context : ManagerContext τ) : Prop :=
  ∀ earlier first session methodWord arguments handles,
    OpenedBy context earlier first session methodWord arguments handles →
    session.manager.entry.isSome = true →
    earlier.machine.thread.anchor.isEmpty = false →
    ∀ begun laid later methodWord arguments handles,
      OpenedBy context begun laid later methodWord arguments handles →
      begun.machine = session.machine →
      Stack.Keeps (earlier.machine.thread.anchor.sp.toNat ≤ ·)
        session.machine.stack later.machine.stack

/-!
Three managers on one thread: the first has a method on the stack, and the second
enters another one that leaves for compiled code.
-/

namespace Layered

open Asking

/-- A manager with nothing in progress, on a thread that others may have entered. -/
def visitor (machine : Machine) : Session Unit where
  own := ()
  manager := { initialized := true }
  machine := machine

theorem machine_visitor (machine : Machine) :
    (visitor machine).machine = machine :=
  rfl

theorem reached_visitor (machine : Machine) :
    Reached replacing (visitor machine) := by
  have unused : Reached replacing
      ({ own := (), manager := {}, machine := machine } : Session Unit) :=
    .fresh rfl
  exact unused.call (.setUp Pair.idle) (.probe _) ⟨rfl, rfl⟩

/-- The first manager has entered the asking method. -/
def outer : Session Unit :=
  (Session.start replacing 0x500000 [] [] (visitor Pair.fresh.machine)).2

/-- The second one has entered the other method. -/
def begun : Session Unit :=
  (Session.start replacing 0x500008 [] [] (visitor outer.machine)).2

/-- That method has left for compiled code. -/
def left : Session Unit :=
  (Session.step replacing leave begun).2

/-- The third one has entered it again. -/
def newcomer : Session Unit :=
  (Session.start replacing 0x500008 [] [] (visitor left.machine)).2

theorem openedBy_begun :
    OpenedBy replacing (visitor outer.machine) begun begun 0x500008 [] [] where
  reached := reached_visitor _
  started := gives_of_toOption (by decide +kernel)
  leads := .refl _

theorem openedBy_left :
    OpenedBy replacing (visitor outer.machine) begun left 0x500008 [] [] where
  reached := reached_visitor _
  started := gives_of_toOption (by decide +kernel)
  leads := by
    have stepped : (Session.step replacing leave).Gives begun
        (.onStackReplaced ⟨0x5000, 0x5040⟩) left :=
      gives_of_toOption (by decide +kernel)
    exact .call (.refl _) (by decide +kernel) (.step leave)
      (.offered (.requestOsr _))
      (gives_bind.mpr ⟨_, _, stepped, gives_pure.mpr ⟨rfl, rfl⟩⟩)

theorem openedBy_newcomer :
    OpenedBy replacing (visitor left.machine) newcomer newcomer 0x500008 [] []
      where
  reached := reached_visitor _
  started := gives_of_toOption (by decide +kernel)
  leads := .refl _

/-- As long as it is there, the frames of both managers are in reach. -/
theorem inReach_begun :
    ∃ entry, begun.manager.entry = some entry ∧
      entry.savedAnchor = outer.machine.thread.anchor ∧
      entry.savedAnchor.isEmpty = false ∧
      InReach replacing entry begun := by
  obtain ⟨entry, isEntry⟩ : ∃ entry, begun.manager.entry = some entry :=
    Option.isSome_iff_exists.mp (by decide +kernel)
  obtain ⟨saved, reaches, -⟩ := inReach_of_openedBy rfl
    ⟨by decide +kernel, by decide +kernel⟩ openedBy_begun isEntry
  obtain ⟨top, isTop⟩ : ∃ top, begun.manager.top? = some top :=
    Option.isSome_iff_exists.mp (by decide +kernel)
  have nonzero : begun.manager.top?.all (·.stackTop != 0) = true := by
    decide +kernel
  rw [isTop, Option.all_some, bne_iff_ne] at nonzero
  refine ⟨entry, isEntry, saved, ?_, ((reaches top isTop).1 nonzero).2⟩
  rw [saved]
  decide +kernel

/-- Once it left, the thread has no last frame, and its stack is written anew. -/
theorem not_keepsAnchor :
    ¬KeepsAnchor replacing ∧ ¬SparesOuterFrames replacing := by
  refine ⟨fun keeps => ?_, fun spares => ?_⟩
  · have kept := keeps _ _ _ _ _ _ openedBy_left (by decide +kernel)
      (by decide +kernel)
    revert kept
    decide +kernel
  · have spared := spares _ _ _ _ _ _ openedBy_left (by decide +kernel)
      (by decide +kernel) _ _ _ _ _ _ openedBy_newcomer
      (machine_visitor _)
    have same := congrArg Except.toOption
      (spared.word 0x7f70 (by decide +kernel))
    revert same
    decide +kernel

end Layered

end ManagedStack
