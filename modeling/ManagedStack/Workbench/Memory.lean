import ManagedStack.Workbench.Basic

namespace ManagedStack.Job

/-!
# Jobs on stacks, code, and threads

Reading and writing stack words, asking about generated code and methods,
changing what threads publish, and taking part in safepoints.
-/

/-- Read a stack word. -/
def readWord
    (index : Nat)
    (address : Address) :
    Job Report := do
  return .word (← see index fun view => view.stack.read address)

/-- Write a stack word. -/
def writeWord
    (index : Nat)
    (address : Address)
    (value : Word) :
    Job Report := do
  actOnStack index (Stack.write address value)
  return .absent

/-- Write stack words in order, up to the first that cannot be written. -/
def writeWords
    (index : Nat)
    (words : List (Address × Word)) :
    Job Report := do
  actOnStack index (Stack.writeEach words)
  return .absent

/-- Read a stack word without looking outside bounds. -/
def readWithin
    (index : Nat)
    (given : Option Bounds)
    (address : Address) :
    Job Report := do
  let bounds ← bounds index given
  let value ← observe index fun view => view.stack.readWithin bounds address
  return .ofOption .word value

/-- Copy stack words. -/
def copyWords
    (index : Nat)
    (source target : Address)
    (count : Nat) :
    Job Report := do
  actOnStack index (Stack.copyWords source target count)
  return .absent

/-- Write zero to stack words. -/
def zeroWords
    (index : Nat)
    (start : Address)
    (count : Nat) :
    Job Report := do
  actOnStack index (Stack.zeroWords start count)
  return .absent

/-- The extent of a stack. -/
def describeStack (index : Nat) : Job Report := do
  return (← member index).stack.report

/-- How many aligned accesses missed a stack so far. -/
def countMisses (index : Nat) : Job Report := do
  return .count ((← get).missedAccesses.count index)

/-- What the code space says about an address. -/
def describeCode (pc : Address) : Job Report := do
  return (← env).code.report (← records) pc

/-- What the blob at a position says about an address. -/
def describeBlob
    (position : Nat)
    (pc : Address) :
    Job Report := do
  let records ← records
  return .ofOption (fun blob => blob.report records pc)
    (← env).code.blobs[position]?

/-- All blobs. -/
def listBlobs : Job Report := do
  return (← env).code.summary

/-- The address a frame of a compiled blob had before it was redirected. -/
def displacedPc
    (pc frameId : Address) :
    Job Report := do
  let blob ← compiledBlob pc
  return .ofOption .word ((← records).displacedPc? blob.start frameId)

/-- Record such an address and report how many the blob has. -/
def recordDisplacedPc
    (pc frameId displaced : Address) :
    Job Report := do
  let blob ← compiledBlob pc
  updateRecords fun records => records.record blob.start frameId displaced
  return .count ((← records).count blob.start)

/-- Forget such an address and report it. -/
def forgetDisplacedPc
    (pc frameId : Address) :
    Job Report := do
  let report ← displacedPc pc frameId
  let blob ← compiledBlob pc
  updateRecords fun records => records.forget blob.start frameId
  return report

/-- Mark a compiled blob for deoptimization. -/
def markForDeoptimization (pc : Address) : Job Report := do
  let blob ← compiledBlob pc
  updateRecords fun records => records.mark blob.start
  return .absent

/-- Drop the record of a replaced frame. -/
def releaseSource
    (index : Nat)
    (source : DeoptSource) :
    Job Report := do
  let released ← act index (source.release (← env))
  return .list [.word source.frameId, .word source.pc,
    .ofOption .word released]

/-- Drop the record of a replaced frame that was kept. -/
def releaseFrame
    (index : Nat)
    (name : String) :
    Job Report := do
  let kept ← frame name
  releaseSource index (.ofFrame kept.frame)

/-- A method as a whole. -/
def describeMethod (id : Word) : Job Report := do
  return (← method id).report (← env).methods.size

/-- Whether a word stands for a method. -/
def isMethod (id : Word) : Job Report := do
  return .flag ((← env).methods.find? id).isSome

/-- Ask a method something. -/
def askMethod
    (id : Word)
    (report : Method → Report) :
    Job Report := do
  return report (← method id)

/-- A thread. -/
def describeThread (index : Nat) : Job Report := do
  return (← member index).thread.report (← isCurrent index)

/-- Publish something for a thread. -/
def publish
    (index : Nat)
    (change : Thread → Thread) :
    Job Report := do
  updateThread index change
  return .absent

/-- Write a call wrapper and report its address and size. -/
def writeCallWrapper
    (index : Nat)
    (address : Address)
    (callee : Word)
    (anchor : FrameAnchor)
    (handles : List Word) :
    Job Report := do
  let wrapper ←
    actOnStack index (CallWrapper.write address callee anchor handles)
  return .list [.word wrapper.address,
    .count (CallWrapper.sizeWords handles.length)]

/-- The parts of a call wrapper. -/
def describeCallWrapper
    (index : Nat)
    (address : Address) :
    Job Report := do
  let wrapper : CallWrapper := ⟨address⟩
  let view ← view index
  let visit := wrapper.visitHandles view.stack
  let anchor (report : FrameAnchor → Report) : Job Report :=
    tell index report fun view => wrapper.anchor view.stack
  return .fields [
    ("callee", ← tell index .word fun view => wrapper.callee view.stack),
    ("anchor", ← anchor FrameAnchor.report),
    ("empty", ← anchor fun anchor => .flag anchor.isEmpty),
    ("count", ← tell index .word fun view => wrapper.handleCount view.stack),
    ("oops", ← tell index (fun _ => .slots visit.notes.slots) fun _ => visit)]

/-- Begin a safepoint with some members. -/
def beginSafepoint (indices : List Nat) : Job Report := do
  let members ← indices.mapM member
  update fun bench =>
    { bench with safepoint := Safepoint.begin (members.map Member.thread) }
  return .absent

/-- End the safepoint. -/
def endSafepoint : Job Report := do
  update fun bench => { bench with safepoint := Safepoint.inactive }
  return .absent

/-- Whether a safepoint is active, and a thread's state when it began. -/
def describeSafepoint (thread : ThreadId) : Job Report := do
  let safepoint := (← get).safepoint
  return .list [.flag safepoint.active,
    .ofOption (fun state => .text state.name) (safepoint.stateOf? thread)]

/-- Carry out the deferred deoptimization of a thread. -/
def carryOutDeferred (index : Nat) : Job Report := do
  let request ← deoptRequest index
  let outcome ← act index (processDeferred (← env) request)
  return .ofOption DeoptOutcome.report outcome

/-- Change a named register map, which is kept as it was on failure. -/
def changeMap
    (name : Option String)
    (change : RegisterMap → Except Abort RegisterMap) :
    Job Report := do
  let before ← map name
  let changed := change before
  keepMap name (changed.toOption.getD before)
  return (← check changed).report

/-- Keep a fresh register map. -/
def freshMap
    (name : Option String)
    (tracking : Bool) :
    Job Report := do
  let fresh := RegisterMap.empty tracking
  keepMap name fresh
  return fresh.report

/-- Where a named register map locates a register. -/
def locateRegister
    (name : Option String)
    (register : Register) :
    Job Report := do
  return .ofOption .word ((← map name).location? register)

end ManagedStack.Job
