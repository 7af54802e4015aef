import ManagedStack.Frame.References
import ManagedStack.Frame.Walk
import ManagedStack.ThreadGroup

namespace ManagedStack

/-!
# Scanning threads for references

At a safepoint a thread's stack is walked with register maps.  Interpreted frames
are switched to index form for the duration of the scan, every frame reports its
reference slots, and the frames are switched back.  If a frame cannot be switched,
those already switched go back; if a frame cannot be scanned, all go back.
-/

/-- Counters of one scan. -/
structure ScanStats where
  threads : Nat := 0
  frames : Nat := 0
  compiledFrames : Nat := 0
  oops : Nat := 0
  deriving Repr, DecidableEq

/-- The counters of two scans together. -/
def ScanStats.add (left right : ScanStats) : ScanStats where
  threads := left.threads + right.threads
  frames := left.frames + right.frames
  compiledFrames := left.compiledFrames + right.compiledFrames
  oops := left.oops + right.oops

/-- The counters of a scan, and the stack as its visitor saw it. -/
structure ScanReport where
  stats : ScanStats
  seen : Stack

namespace RootScan

/-- Visit the references of frames, each with its own register map. -/
def visitFrames
    (view : View) :
    List WalkedFrame → Probe FrameError Unit
  | [] => pure ()
  | walked :: rest => do
      walked.frame.visitReferences view walked.map
      visitFrames view rest

/-- Visit the references of frames and count what was visited. -/
def countingVisit
    (view : View)
    (frames : List WalkedFrame) :
    Probe FrameError ScanStats :=
  let visit := visitFrames view frames
  visit.andThen fun _ =>
    .answer {
      threads := 1
      frames := frames.length
      compiledFrames := visit.notes.blobs.countP Blob.isCompiled
      oops := visit.notes.slots.length
    }

/-- Of two results the first error counts. -/
def firstError
    (first second : Except FrameError Unit) :
    Except FrameError Unit :=
  match first with
  | .error cause => .error cause
  | .ok _ => second

/-- Switch all frames back and answer with the first error, if any. -/
def restoreAll
    (env : Env) :
    List WalkedFrame → Operation Machine FrameError (Except FrameError Unit)
  | [] => pure (.ok ())
  | walked :: rest => do
      let first ← Operation.attempt (walked.frame.endScan env)
      let others ← restoreAll env rest
      return firstError first others

/-- Switch all frames back; every frame is tried and the first error counts. -/
def restoreFrames
    (env : Env)
    (frames : List WalkedFrame) :
    Operation Machine FrameError Unit := do
  match ← restoreAll env frames with
  | .ok _ => return ()
  | .error cause => Operation.fail cause

/--
Switch frames to index form; on failure those switched go back.

The frames that were switched before come with the latest first.
-/
def prepareFrames
    (env : Env)
    (thread : ThreadId)
    (switched : List WalkedFrame) :
    List WalkedFrame → Operation Machine FrameError Unit
  | [] => pure ()
  | walked :: rest => do
      match ← Operation.attempt (walked.frame.beginScan env) with
      | .ok _ => prepareFrames env thread (walked :: switched) rest
      | .error cause =>
          Operation.report
            (.prologueFailed (threadText thread) walked.frame.text
              cause.message)
          restoreFrames env switched.reverse
          Operation.fail cause

/-- Report every reference slot on the thread's stack. -/
def scanThread
    (env : Env)
    (safepoint : Safepoint) :
    Operation Machine FrameError ScanReport := do
  let before ← Operation.state
  if !safepoint.active then
    Operation.fail .notAtSafepoint
  else if !before.thread.hasLastFrame then
    return ⟨{ threads := 1 }, before.stack⟩
  else
    let frames ← Machine.look env fun view => do
      let stream ← before.thread.frameStream view true
      stream.frames view
    prepareFrames env before.thread.id [] frames
    let during ← Operation.state
    let scanned ←
      Operation.attempt
        (Machine.look env fun view => countingVisit view frames)
    restoreFrames env frames
    match scanned with
    | .ok stats => return ⟨stats, during.stack⟩
    | .error cause => Operation.fail cause

end RootScan

/--
A thread to scan, and what it takes to walk it.

The stack that is walked is usually, but not always, the thread's own.
-/
structure ScanRoot where
  /-- The member whose thread is scanned. -/
  thread : Nat
  /-- The member whose stack is walked. -/
  stack : Nat
  env : Env

/-- Report every reference slot on the stack of a root. -/
def ScanRoot.scan
    (root : ScanRoot)
    (safepoint : Safepoint) :
    Operation ThreadGroup FrameError ScanReport :=
  ThreadGroup.onMembers root.stack root.thread
    (RootScan.scanThread root.env safepoint)

/-- The result of scanning one root. -/
structure RootResult where
  root : ScanRoot
  scan : Probe FrameError ScanReport

/-- The failure that kept a scan from ending properly, if there is one. -/
def RootResult.fatal? (result : RootResult) : Option (Failure FrameError) :=
  match result.scan.outcome with
  | .ok _ => none
  | .error failure => if failure.isFatal then some failure else none

namespace RootScan

/--
Scan roots one after the other, whatever errors arise.

Each root comes with its place among the roots, and so does its result.  Scans that
go on independently are all carried out; a sequence of scans ends with the first
that is given up.
-/
def carryOut
    (safepoint : Safepoint)
    (independent : Bool) :
    List (ScanRoot × Nat) → ThreadGroup →
      List (Nat × RootResult) × ThreadGroup
  | [], group => ([], group)
  | (root, place) :: rest, group =>
      let (scan, after) := root.scan safepoint group
      let result : RootResult := ⟨root, scan⟩
      if !independent && result.fatal?.isSome then
        ([(place, result)], after)
      else
        let (results, final) := carryOut safepoint independent rest after
        ((place, result) :: results, final)

/--
Scan roots in the order of a schedule, which gives each root its place.

In whatever order the scans are carried out, the results come in that of the places.
-/
def scanRoots
    (safepoint : Safepoint)
    (independent : Bool)
    (schedule : List (ScanRoot × Nat))
    (group : ThreadGroup) :
    List RootResult × ThreadGroup :=
  let (done, final) := carryOut safepoint independent schedule group
  ((List.range schedule.length).filterMap fun place => done.lookup place, final)

/-- The counters of scans together, or the first failure. -/
def sumStats :
    List RootResult → Except (Failure FrameError) ScanStats
  | [] => .ok {}
  | result :: rest =>
      match result.scan.outcome with
      | .error failure => .error failure
      | .ok report => (sumStats rest).map report.stats.add

/-- The overall answer; a scan that was given up counts before any error. -/
def total (results : List RootResult) : Except (Failure FrameError) ScanStats :=
  match results.findSome? RootResult.fatal? with
  | some failure => .error failure
  | none => sumStats results

end RootScan

end ManagedStack
