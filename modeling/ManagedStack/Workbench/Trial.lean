import ManagedStack.Workbench.Basic

namespace ManagedStack

/-!
# Trials

A trial is one job carried out on a workbench, with everything that an observer
can tell about it: the answer, what the engine recorded, which stack words
changed, and what was reported.
-/

/-- A stack word that a job changed. -/
structure WordChange where
  member : Nat
  address : Address
  value : Word
  deriving Repr, DecidableEq

/-- The changes among the first words of a stack, put before other changes. -/
def Stack.changesAmong
    (after before : Stack)
    (member : Nat) :
    Nat → List WordChange → List WordChange
  | 0, found => found
  | position + 1, found =>
      let new := after.words.getD position 0
      if new = before.words.getD position 0 then
        changesAmong after before member position found
      else
        let change := ⟨member, after.limit.offset position, new⟩
        changesAmong after before member position (change :: found)

/-- The words in which a stack differs from what it was, ascending. -/
def Stack.changesFrom
    (after before : Stack)
    (member : Nat) :
    List WordChange :=
  after.changesAmong before member after.words.size []

/-- The words in which stacks differ from what they were, by member. -/
def ThreadGroup.changesFrom (after before : ThreadGroup) : List WordChange :=
  (after.members.toList.zip before.members.toList).zipIdx.flatMap
    fun ((new, old), member) => new.stack.changesFrom old.stack member

/-- One job carried out, with what could be observed. -/
structure Trial where
  outcome : Except Report Report
  /-- What engine and helpers recorded, in order. -/
  trace : List ScriptRecord
  changes : List WordChange
  events : List Event

namespace Workbench

/-- Carry out a job. -/
def carryOut
    (bench : Workbench)
    (job : Job Report) :
    Trial × Workbench :=
  let (outcome, after) := job.run { bench with events := [] } |>.run
  let recorded := after.memory.records.length - bench.memory.records.length
  ({
    outcome := outcome
    trace := (after.memory.records.take recorded).reverse
    changes := after.group.changesFrom bench.group
    events := after.events
  }, after)

/-- Carry out jobs one after the other. -/
def carryOutAll
    (bench : Workbench) :
    List (Job Report) → List Trial
  | [] => []
  | job :: rest =>
      let (trial, after) := bench.carryOut job
      trial :: after.carryOutAll rest

end Workbench

end ManagedStack
