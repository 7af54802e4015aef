import ManagedStack.Proofs.Resuming

namespace ManagedStack

/-!
# Open entries

An entry frame that is there was laid out by one start, and has been there since: it
keeps its record, and with it the anchor that the thread had before.  So the place that
the start began to lay out from can be told from the record at any later time.
-/

open Operation FrameManager

/-- The address that an entry was laid out below: the last managed frame before it, or
the base of the stack. -/
def EntryRecord.origin
    (entry : EntryRecord)
    (stack : Stack) :
    Address :=
  if entry.savedAnchor.isEmpty then stack.base else entry.savedAnchor.sp

/-- A start opened the entry of a session, and it has been open since. -/
structure OpenedBy
    (context : ManagerContext τ)
    (earlier first session : Session τ)
    (methodWord : Word)
    (arguments handles : List Word) :
    Prop where
  reached : Reached context earlier
  started : (Session.start context methodWord arguments handles).Gives earlier ()
    first
  leads : Leads context (·.manager.entry.isSome = true) first session

/-- What is in progress was started. -/
theorem Reached.exists_openedBy
    {context : ManagerContext τ}
    {session : Session τ}
    (reached : Reached context session)
    (entered : session.manager.entry.isSome = true) :
    ∃ earlier first methodWord arguments handles,
      OpenedBy context earlier first session methodWord arguments handles := by
  induction reached with
  | fresh unused =>
      rw [unused] at entered
      cases entered
  | idle _ noEntry _ _ _ =>
      rw [noEntry] at entered
      cases entered
  | @call before after _ reached call acts performed inductionHypothesis =>
      by_cases enteredBefore : before.manager.entry.isSome = true
      · obtain ⟨earlier, first, methodWord, arguments, handles, opened⟩ :=
          inductionHypothesis enteredBefore
        exact ⟨earlier, first, methodWord, arguments, handles, opened.reached,
          opened.started, opened.leads.call enteredBefore call acts performed⟩
      · obtain ⟨methodWord, arguments, handles, -, started⟩ :=
          Call.isStart_of_entered reached (by simpa using enteredBefore)
            performed entered
        exact ⟨before, after, methodWord, arguments, handles, reached, started,
          .refl _⟩

namespace Session

variable {context : ManagerContext τ} {first last : Session τ}

/-- As long as there is an entry, it is the one that there was. -/
theorem entry_of_leads
    {entry : EntryRecord}
    (x86 : context.env.layout = .x86_64)
    (reached : Reached context first)
    (leads : Leads context (·.manager.entry.isSome = true) first last)
    (isEntry : last.manager.entry = some entry) :
    first.manager.entry = some entry := by
  induction leads with
  | refl => exact isEntry
  | call leads entered call acts performed inductionHypothesis =>
      have reachedBefore := leads.reached reached
      obtain ⟨_, touches⟩ := touches_call x86 reachedBefore.followsProtocol
        (reachedBefore.stacked x86) entered acts performed
      exact inductionHypothesis (touches.entry entry isEntry)

end Session

namespace OpenedBy

variable {context : ManagerContext τ} {earlier first session : Session τ}
  {methodWord : Word} {arguments handles : List Word} {entry : EntryRecord}

/-- The session in which the entry was opened was reached. -/
theorem reached_first
    (opened : OpenedBy context earlier first session methodWord arguments
      handles) :
    Reached context first :=
  opened.reached.call (.start methodWord arguments handles) trivial
    (gives_bind.mpr ⟨_, _, opened.started, gives_pure.mpr ⟨rfl, rfl⟩⟩)

/-- The record of an entry holds the anchor that the start found. -/
theorem savedAnchor
    (opened : OpenedBy context earlier first session methodWord arguments
      handles)
    (x86 : context.env.layout = .x86_64)
    (isEntry : session.manager.entry = some entry) :
    entry.savedAnchor = earlier.machine.thread.anchor := by
  have isFirst := Session.entry_of_leads x86 opened.reached_first opened.leads
    isEntry
  obtain ⟨callee, wrapper, _, _, _, _, pushed, laid, _, _, -, -, -, -, -, -, -, -,
    -, laidOut, -, -, settles⟩ := Session.gives_start opened.started
  obtain ⟨_, _, _, -, -, -, -, -, -, managed⟩ :=
    Session.gives_pushActivation laidOut
  rw [settles.managed] at isFirst
  have isLaid : laid.manager.entry = some entry := isFirst
  rw [managed] at isLaid
  obtain rfl := Option.some.inj isLaid
  rfl

/-- The words that were there before the start lie above the entry, as they were. -/
theorem keeps
    (opened : OpenedBy context earlier first session methodWord arguments
      handles)
    (x86 : context.env.layout = .x86_64) :
    (∀ entry ∈ session.manager.entry,
        entry.floor ≤ (Session.startTop earlier.machine).toNat) ∧
      Stack.Keeps ((Session.startTop earlier.machine).toNat ≤ ·)
        earlier.machine.stack session.machine.stack := by
  obtain ⟨laid, below⟩ := Session.keeps_of_start x86 opened.started
  obtain ⟨belowStill, kept⟩ := Session.keeps_of_leads x86 opened.reached_first
    below opened.leads
  exact ⟨belowStill, laid.trans kept⟩

/-- The start began to lay out from the origin of the entry. -/
theorem origin_eq
    (opened : OpenedBy context earlier first session methodWord arguments
      handles)
    (x86 : context.env.layout = .x86_64)
    (isEntry : session.manager.entry = some entry) :
    entry.origin session.machine.stack = Session.startTop earlier.machine := by
  unfold EntryRecord.origin Session.startTop
  rw [opened.savedAnchor x86 isEntry, (opened.keeps x86).2.base]

end OpenedBy

/-- No activation of an entry reaches over its origin. -/
theorem Reached.floor_le_origin
    {context : ManagerContext τ}
    {session : Session τ}
    {entry : EntryRecord}
    (reached : Reached context session)
    (x86 : context.env.layout = .x86_64)
    (isEntry : session.manager.entry = some entry) :
    entry.floor ≤ (entry.origin session.machine.stack).toNat := by
  obtain ⟨earlier, first, methodWord, arguments, handles, opened⟩ :=
    reached.exists_openedBy (by rw [isEntry]; rfl)
  rw [opened.origin_eq x86 isEntry]
  exact (opened.keeps x86).1 entry isEntry

end ManagedStack
