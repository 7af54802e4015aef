import ManagedStack.Machine

namespace ManagedStack

/-!
# Several threads over one code space

Each thread has its own stack; the records of redirected frames are shared.  An
operation works on one stack and one thread at a time, which are usually but not
always the same member's.
-/

/-- A thread together with its stack. -/
structure Member where
  thread : Thread
  stack : Stack

/-- Threads that share one code space. -/
structure ThreadGroup where
  members : Array Member
  records : DeoptRecords := {}

namespace ThreadGroup

/-- Give the computation up because there is no such member. -/
def noMember
    (group : ThreadGroup)
    (index : Nat) :
    Probe ε α :=
  Probe.check (.error (.indexOutOfRange group.members.size index))

/-- Store a stack back into a member. -/
def withStack
    (group : ThreadGroup)
    (index : Nat)
    (stack : Stack) :
    ThreadGroup :=
  { group with
    members := group.members.modify index fun member =>
      { member with stack := stack } }

/-- Store a thread back into a member. -/
def withThread
    (group : ThreadGroup)
    (index : Nat)
    (thread : Thread) :
    ThreadGroup :=
  { group with
    members := group.members.modify index fun member =>
      { member with thread := thread } }

/-- Run an operation on the stack of one member and the thread of another. -/
def onMembers
    (stackIndex threadIndex : Nat)
    (operation : Operation Machine ε α) :
    Operation ThreadGroup ε α :=
  fun group =>
    match group.members[stackIndex]?, group.members[threadIndex]? with
    | some stackMember, some threadMember =>
        let (probe, after) :=
          operation ⟨threadMember.thread, stackMember.stack, group.records⟩
        let group := { group with records := after.records }
        (probe,
          (group.withStack stackIndex after.stack).withThread threadIndex
            after.thread)
    | none, _ => (group.noMember stackIndex, group)
    | _, none => (group.noMember threadIndex, group)

/-- Run an operation on one member. -/
def onMember
    (index : Nat)
    (operation : Operation Machine ε α) :
    Operation ThreadGroup ε α :=
  onMembers index index operation

end ThreadGroup

end ManagedStack
