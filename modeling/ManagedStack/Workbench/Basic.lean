import ManagedStack.Manager.Drive
import ManagedStack.Report.Code
import ManagedStack.Report.Frame
import ManagedStack.Report.Protocol

namespace ManagedStack

/-!
# A workbench

A workbench holds several threads over one code space, and frames, register maps
and frame managers under names, so that an experiment is a sequence of jobs.  A
job reports a value or an error; what it changed before an error stays changed,
and later jobs go on from there.
-/

/-- A frame that was put aside, and the member whose stack holds it. -/
structure KeptFrame where
  member : Nat
  frame : Frame

/-- A frame manager that was put aside, with what drives it. -/
structure KeptManager where
  member : Nat
  entryPoints : EntryPoints
  /-- What a request for on-stack replacement is answered with, if at all. -/
  osrReply : Option (Except String OsrResult)
  manager : FrameManager := {}

/-- Everything that jobs can see or change. -/
structure Workbench where
  env : Env
  group : ThreadGroup
  /-- The members whose threads are not the one that asks. -/
  remote : List Nat := []
  needsSuspend : Bool := false
  safepoint : Safepoint := {}
  /-- Frames by name, the latest first. -/
  frames : List (String × KeptFrame) := []
  /-- Register maps by name, the latest first. -/
  maps : List (String × RegisterMap) := []
  /-- Frame managers by number, the latest first. -/
  managers : List (Nat × KeptManager) := []
  memory : ScriptMemory := {}
  rules : List ScriptRule := []
  /-- For each access that missed a stack, the member it belongs to. -/
  missedAccesses : List Nat := []
  /-- What was reported since the list was last cleared. -/
  events : List Event := []

/-- Why the workbench refuses a job. -/
inductive Refusal where
  | noFrame
  | noManager
  | noCompiled
  | noMethod
  deriving Repr, DecidableEq

/-- The name of a refusal. -/
def Refusal.name : Refusal → String
  | .noFrame => "NoFrame"
  | .noManager => "NoManager"
  | .noCompiled => "NoCompiled"
  | .noMethod => "NoMethod"

/-- A job on a workbench, which gives a value or reports an error. -/
abbrev Job (α : Type) := ExceptT Report (StateM Workbench) α

namespace Job

/-- Refuse. -/
def refuse (reason : Refusal) : Job α :=
  throw (.refused reason.name)

/-- Use an optional value; refuse without it. -/
def orRefuse
    (value : Option α)
    (reason : Refusal) :
    Job α :=
  match value with
  | some present => pure present
  | none => refuse reason

/-- Use an answer, or end with the report of the failure. -/
def require [NamedError ε] : Except (Failure ε) α → Job α
  | .ok value => pure value
  | .error failure => throw (.ofFailure failure)

/-- Use a value whose computation may be given up. -/
def check : Except Abort α → Job α
  | .ok value => pure value
  | .error cause => throw (.ofAbort cause)

/-- Use the result of something that can fail without side effects. -/
def demand [NamedError ε] : Except ε α → Job α
  | .ok value => pure value
  | .error cause => throw (.ofError cause)

/-- Change the workbench. -/
def update (change : Workbench → Workbench) : Job Unit :=
  modify change

/-- What does not change while threads run. -/
def env : Job Env := do
  return (← get).env

/-- The records of redirected frames. -/
def records : Job DeoptRecords := do
  return (← get).group.records

/-- Change the records of redirected frames. -/
def updateRecords (change : DeoptRecords → DeoptRecords) : Job Unit :=
  update fun bench =>
    { bench with
      group := { bench.group with records := change bench.group.records } }

/-- A member of the group. -/
def member (index : Nat) : Job Member := do
  let bench ← get
  match bench.group.members[index]? with
  | some member => return member
  | none => check (.error (.indexOutOfRange bench.group.members.size index))

/-- What frames on a member's stack see. -/
def view (index : Nat) : Job View := do
  let member ← member index
  let bench ← get
  return {
    toEnv := bench.env
    stack := member.stack
    records := bench.group.records
  }

/-- Whether a member's thread is the one that asks. -/
def isCurrent (index : Nat) : Job Bool := do
  return !(← get).remote.contains index

/-- Keep what was noted about a member's stack. -/
def keepNotes
    (index : Nat)
    (notes : Notes) :
    Job Unit :=
  update fun bench =>
    { bench with
      missedAccesses :=
        List.replicate notes.faultCount index ++ bench.missedAccesses
      events := bench.events ++ notes.events }

/-- The outcome of a probe of a member's stack, whose notes are kept. -/
def settle
    (index : Nat)
    (probe : Probe ε α) :
    Job (Except (Failure ε) α) := do
  keepNotes index probe.notes
  return probe.outcome

/-- Look at a member's stack. -/
def look
    (index : Nat)
    (probe : View → Probe ε α) :
    Job (Except (Failure ε) α) := do
  settle index (probe (← view index))

/-- Look at a member's stack and use the answer. -/
def see
    [NamedError ε]
    (index : Nat)
    (probe : View → Probe ε α) :
    Job α := do
  require (← look index probe)

/-- Look for a value that no error can keep away. -/
def observe
    (index : Nat)
    (probe : View → Probe FrameError α) :
    Job α :=
  see index probe

/-- Look at a member's stack and report the answer or the failure. -/
def tell
    [NamedError ε]
    (index : Nat)
    (report : α → Report)
    (probe : View → Probe ε α) :
    Job Report := do
  return .ofOutcome report (← look index probe)

/-- Change the stack of one member and the thread of another. -/
def actOn
    [NamedError ε]
    (stackIndex threadIndex : Nat)
    (operation : Operation Machine ε α) :
    Job α := do
  let bench ← get
  let (probe, group) :=
    bench.group.onMembers stackIndex threadIndex operation
  set { bench with group := group }
  require (← settle stackIndex probe)

/-- Change a member. -/
def act
    (index : Nat)
    (operation : Operation Machine FrameError α) :
    Job α :=
  actOn index index operation

/-- Change the stack of a member. -/
def actOnStack
    (index : Nat)
    (operation : Operation Stack FrameError α) :
    Job α :=
  act index (Machine.onStack operation)

/-- Change what a member's thread publishes. -/
def updateThread
    (index : Nat)
    (change : Thread → Thread) :
    Job Unit :=
  act index (Machine.updateThread change)

/-- The frame that was kept under a name. -/
def frame (name : String) : Job KeptFrame := do
  orRefuse ((← get).frames.lookup name) .noFrame

/-- Keep a frame under a name. -/
def keepFrame
    (name : String)
    (kept : KeptFrame) :
    Job Unit :=
  update fun bench => { bench with frames := (name, kept) :: bench.frames }

/-- Keep a frame if it was given a name, and report it. -/
def deliver
    (target : Option String)
    (kept : KeptFrame) :
    Job Report := do
  match target with
  | some name => keepFrame name kept
  | none => pure ()
  return kept.frame.report

/-- The map under a name, or a fresh one that tracks registers. -/
def map (name : Option String) : Job RegisterMap := do
  let bench ← get
  let kept := name.bind fun name => bench.maps.lookup name
  return kept.getD (RegisterMap.empty true)

/-- Keep a register map if it was given a name. -/
def keepMap
    (name : Option String)
    (map : RegisterMap) :
    Job Unit :=
  match name with
  | some name =>
      update fun bench => { bench with maps := (name, map) :: bench.maps }
  | none => pure ()

/-- Run an operation on a named register map, which is kept also on failure. -/
def onMap
    [NamedError ε]
    (index : Nat)
    (name : Option String)
    (operation : View → Operation RegisterMap ε α) :
    Job (α × RegisterMap) := do
  let view ← view index
  let (probe, after) := operation view (← map name)
  keepMap name after
  let value ← require (← settle index probe)
  return (value, after)

/-- The compiled blob at an address. -/
def compiledBlob (pc : Address) : Job Blob := do
  orRefuse (((← env).code.find? pc).filter Blob.isCompiled) .noCompiled

/-- The method that a method word stands for. -/
def method (id : Word) : Job Method := do
  orRefuse ((← env).methods.find? id) .noMethod

/-- The bounds that were given, or those of a member's stack. -/
def bounds
    (index : Nat)
    (given : Option Bounds) :
    Job Bounds := do
  match given with
  | some bounds => return bounds
  | none => return (← member index).stack.bounds

/-- A request for deoptimization by or on behalf of a member. -/
def deoptRequest (index : Nat) : Job DeoptRequest := do
  let bench ← get
  return ⟨bench.safepoint, bench.needsSuspend, ← isCurrent index⟩

end Job

end ManagedStack
