import ManagedStack.Frame.References
import ManagedStack.Frame.Validation
import ManagedStack.Workbench.Basic

namespace ManagedStack.Job

/-!
# Jobs on frames

Building frames and asking about them, stepping to callers, deoptimizing,
reporting references, and scanning whole threads.
-/

/-- More steps than a search lives to take that corrupt links lead in a circle. -/
def callerLimit : Nat := 0x4000000000000000

/-- Build a frame; without an unextended stack pointer it equals the other. -/
def makeFrame
    (index : Nat)
    (target : Option String)
    (sp fp pc : Address)
    (unextendedSp : Option Address) :
    Job Report := do
  let frame ← observe index fun view =>
    match unextendedSp with
    | some unextended => Frame.extended view sp unextended fp pc
    | none => Frame.plain view sp fp pc
  deliver target ⟨index, frame⟩

/-- The last managed frame of a thread. -/
def lastFrame
    (index : Nat)
    (target : Option String) :
    Job Report := do
  let thread := (← member index).thread
  let frame ← see index thread.lastFrame
  deliver target ⟨index, frame⟩

/-- Ask a kept frame something that needs no stack. -/
def askFrame
    (name : String)
    (report : Frame → Report) :
    Job Report := do
  return report (← frame name).frame

/-- Whether two kept frames are the same. -/
def compareFrames (name other : String) : Job Report := do
  let kept ← frame name
  let second ← frame other
  return .flag (kept.frame.sameAs second.frame)

/-- What kind of frame this is and what may be done with it. -/
def classifyFrame (name : String) : Job Report := do
  let kept ← frame name
  let frame := kept.frame
  let should ← observe kept.member frame.shouldBeDeoptimized
  let first ← tell kept.member .flag frame.isFirst
  let isOfKind (kind : FrameKind) : Report := .flag (frame.kind == kind)
  return .fields [
    ("entry", isOfKind .entry),
    ("interpreted", isOfKind .interpreted),
    ("compiled", isOfKind .compiled),
    ("native", isOfKind .nativeWrapper),
    ("ricochet", isOfKind .ricochet),
    ("runtime", .flag frame.isRuntime),
    ("safepoint", .flag frame.isSafepoint),
    ("java", .flag frame.isJava),
    ("id", .word frame.id),
    ("deoptimized", .ofChecked .flag frame.isDeoptimized),
    ("should", .flag should),
    ("can", .flag frame.canBeDeoptimized),
    ("first", first)]

/-- What a frame's fields say about its caller. -/
def describeLinks (name : String) : Job Report := do
  let kept ← frame name
  return .fields [
    ("link", ← tell kept.member .word kept.frame.link),
    ("sender_pc", ← tell kept.member .word kept.frame.senderPc),
    ("sender_sp", .word (kept.frame.senderSp (← view kept.member)))]

/-- What a frame says as an entry frame. -/
def describeEntry
    (name : String)
    (argument : Nat) :
    Job Report := do
  let kept ← frame name
  let frame := kept.frame
  return .fields [
    ("wrapper", ← tell kept.member (fun wrapper => .word wrapper.address)
      frame.callWrapper),
    ("wrapper_addr", ← tell kept.member .word frame.callWrapperAddress),
    ("first", ← tell kept.member .flag frame.entryIsFirst),
    ("arg", .word (frame.entryArgument argument))]

/-- Step to a caller with a named register map. -/
def stepToCaller
    (name : String)
    (map target : Option String)
    (step : Frame → View → Operation RegisterMap FrameError Frame) :
    Job Report := do
  let kept ← frame name
  let (caller, after) ← onMap kept.member map (step kept.frame)
  let report ← deliver target ⟨kept.member, caller⟩
  return .list [report, after.report]

/-- The caller of a frame. -/
def sender
    (name : String)
    (map target : Option String) :
    Job Report :=
  stepToCaller name map target Frame.sender

/-- The caller that is no runtime stub or adapter frame. -/
def realSender
    (name : String)
    (map target : Option String) :
    Job Report :=
  stepToCaller name map target fun frame view =>
    frame.realSender view callerLimit

/-- The size of a frame. -/
def frameSize
    (name : String)
    (map : Option String) :
    Job Report := do
  let kept ← frame name
  let (size, after) ← onMap kept.member map kept.frame.size
  return .list [.word size, after.report]

/-- The nearest caller that runs managed code. -/
def javaSender
    (name : String)
    (target : Option String) :
    Job Report := do
  let kept ← frame name
  let found ← see kept.member fun view =>
    kept.frame.javaSender view callerLimit
  deliver target ⟨kept.member, found⟩

/-- Whether no caller runs managed code. -/
def isFirstJava (name : String) : Job Report := do
  let kept ← frame name
  return .flag (← see kept.member fun view =>
    kept.frame.isFirstJava view callerLimit)

/-- The first frame that a sampler finds to run managed code. -/
def profiledJavaSender
    (index : Nat)
    (name : String)
    (given : Option Bounds)
    (target : Option String) :
    Job Report := do
  let kept ← frame name
  let bounds ← bounds index given
  let found ← see kept.member fun view =>
    kept.frame.profiledJavaSender? view bounds
  match found with
  | some frame => deliver target ⟨kept.member, frame⟩
  | none => return .absent

/-- Whether a sampler may trust a frame. -/
def validateFrame
    (index : Nat)
    (name : String)
    (given : Option Bounds) :
    Job Report := do
  let kept ← frame name
  let bounds ← bounds index given
  let safe ← observe kept.member fun view =>
    kept.frame.isSafeForSender view bounds
  let valid ← observe kept.member fun view =>
    kept.frame.isInterpretedValid view bounds
  return .list [.flag safe, .flag valid]

/-- Change the address of a view. -/
def setPc
    (name : String)
    (pc : Address) :
    Job Report := do
  let kept ← frame name
  let moved ← check (kept.frame.withPc (← view kept.member) pc)
  deliver (some name) ⟨kept.member, moved⟩

/-- Overwrite the return address that a frame resumes at. -/
def patchPc
    (name : String)
    (pc : Address) :
    Job Report := do
  let kept ← frame name
  let patched ← act kept.member (kept.frame.patchPc (← env) pc)
  deliver (some name) ⟨kept.member, patched⟩

/-- Deoptimize a frame on behalf of a thread. -/
def deoptimize
    (index : Nat)
    (name : String) :
    Job Report := do
  let kept ← frame name
  let request ← deoptRequest index
  let (outcome, after) ←
    actOn kept.member index (kept.frame.deoptimize (← env) request)
  let report ← deliver (some name) ⟨kept.member, after⟩
  return .list [outcome.report, report]

/-- Visit references and collect the slots and blobs visited. -/
def visit
    (index : Nat)
    (probe : View → Probe FrameError Unit) :
    Job Notes := do
  let visited := probe (← view index)
  require (← settle index visited)
  return visited.notes

/-- All reference slots of a frame, and its blob if that is asked for. -/
def references
    (name : String)
    (map : Option String)
    (wantsBlobs : Bool) :
    Job Report := do
  let kept ← frame name
  let map ← Job.map map
  let notes ← visit kept.member fun view =>
    kept.frame.visitReferences view map
  let blobs := if wantsBlobs then notes.blobs else []
  return .list [.slots notes.slots,
    .ofList (fun blob => .text blob.name) blobs]

/-- The ways to visit references whatever kind of frame this is. -/
inductive VisitManner where
  | interpreted
  | entry
  | generated
  | outgoingArguments (descriptor : String) (hasReceiver : Bool)
  | callArguments (descriptor : String) (hasReceiver : Bool)

/-- The reference slots that one manner of visiting finds. -/
def referencesAs
    (name : String)
    (map : Option String)
    (manner : VisitManner) :
    Job Report := do
  let kept ← frame name
  let frame := kept.frame
  let map ← Job.map map
  let probe : View → Probe FrameError Unit ←
    match manner with
    | .interpreted => pure fun view => frame.visitInterpreted view map
    | .entry => pure fun view => frame.visitEntry view map
    | .generated => pure fun view => frame.visitGenerated view map
    | .outgoingArguments descriptor hasReceiver => do
        let signature ← demand (Signature.parse descriptor)
        pure fun view =>
          frame.visitOutgoingArguments view signature hasReceiver
    | .callArguments descriptor hasReceiver => do
        let signature ← demand (Signature.parse descriptor)
        pure fun _ => frame.visitCallArguments map signature hasReceiver
  let notes ← visit kept.member probe
  return .slots notes.slots

/-- The stack address of an argument location. -/
def argumentSlot
    (name : String)
    (map : Option String)
    (location : ArgumentLocation) :
    Job Report := do
  let kept ← frame name
  let map ← Job.map map
  return .word (← see kept.member fun _ =>
    kept.frame.argumentSlot map location)

/-- The receiver of the call that a compiled frame is making. -/
def receiver
    (name : String)
    (map : Option String) :
    Job Report := do
  let kept ← frame name
  let map ← Job.map map
  return .word (← see kept.member fun view =>
    kept.frame.retrieveReceiver view map)

/-- The slot of the receiver of an interpreted frame's pending call. -/
def calleeReceiverSlot
    (name descriptor : String) :
    Job Report := do
  let kept ← frame name
  let signature ← demand (Signature.parse descriptor)
  return .word (← see kept.member fun view =>
    kept.frame.calleeReceiverSlot view signature)

/-- The compiled blob that a frame keeps active. -/
def activeBlobs (frame : Frame) : Report :=
  .ofList (fun blob => .text blob.name) frame.compiledBlob?.toList

/-- Change what a kept frame names on its stack. -/
def changeFrame
    (name : String)
    (change : Frame → Env → Operation Machine FrameError Unit) :
    Job Report := do
  let kept ← frame name
  act kept.member (change kept.frame (← env))
  return .absent

/-- Store a method word in a frame. -/
def setMethod
    (name : String)
    (id : Word) :
    Job Report := do
  let _ ← frame name
  let method ← method id
  changeFrame name fun frame env => frame.setMethod env method

/-- All fields of a frame as an interpreted frame. -/
def describeInterpreted (name : String) : Job Report := do
  let kept ← frame name
  let frame := kept.frame
  let layout := (← env).layout
  let field (probe : View → Probe FrameError Word) : Job Report :=
    tell kept.member .word probe
  return .fields [
    ("method", ← tell kept.member (fun method => .text method.name)
      frame.method),
    ("method_word", ← field frame.methodWord),
    ("bcx", ← field frame.bcx),
    ("bci", ← tell kept.member .index frame.bci),
    ("bcp", ← field frame.bcp),
    ("mdx", ← field frame.mdx),
    ("mdp", ← field frame.mdp),
    ("locals", ← field frame.localsPointer),
    ("sender_sp", ← field frame.interpreterSenderSp),
    ("last_sp", ← field frame.lastSp),
    ("monitor_end", ← field frame.monitorEnd),
    ("monitors", ← tell kept.member (.ofList .word) frame.monitors),
    ("expressions", ← field frame.expressionBase),
    ("tos", ← field frame.expressionTop),
    ("expr_size", ← field frame.expressionCount),
    ("result", ← tell kept.member
      (fun (type, value) => .list [.text type.name, .word value])
      frame.result),
    ("method_addr", .word (frame.methodSlot layout)),
    ("cache_addr", .word (frame.cacheSlot layout)),
    ("oop_temp_addr", .word (frame.oopTempSlot layout)),
    ("monitor_begin", .word (frame.monitorBegin layout)),
    ("monitor_size", .count layout.monitorWords.toNat)]

/-- The slots of an interpreted frame with a given index. -/
def describeSlots
    (name : String)
    (index : Nat) :
    Job Report := do
  let kept ← frame name
  let frame := kept.frame
  return .fields [
    ("local", ← tell kept.member .word fun view =>
      frame.localSlot view index),
    ("expr", ← tell kept.member .word fun view =>
      frame.expressionSlot view index),
    ("tos", ← tell kept.member .word fun view => frame.topSlot view index)]

/-- A monitor of an interpreted frame. -/
def describeMonitor
    (name : String)
    (monitor : Address) :
    Job Report := do
  let kept ← frame name
  let layout := (← env).layout
  let verified ← tell kept.member .flag fun view =>
    kept.frame.verifyMonitor view monitor
  let previous ← check (Frame.previousMonitor layout monitor)
  return .fields [
    ("verify", verified),
    ("next", .word (Frame.nextMonitor layout monitor)),
    ("previous", .word previous),
    ("owner", .word (Frame.monitorOwner monitor))]

/-! ## Walks and scans -/

/-- Keep the frame and map of an item of a walk, if the walk has a name. -/
def keepItem
    (index : Nat)
    (stem : Option String)
    (position : Nat) :
    Except FrameError WalkedFrame → Job Unit
  | .error _ => pure ()
  | .ok walked => do
      match stem with
      | some stem =>
          let name := stem ++ toString position
          keepFrame name ⟨index, walked.frame⟩
          keepMap (some name) walked.map
      | none => pure ()

/--
Yield at most this many items of a stream, the first at the given position.

Each item is kept as soon as it is yielded, so that those before a step that gives
the walk up are kept.
-/
def yieldItems
    (index : Nat)
    (stem : Option String) :
    Nat → Nat → FrameStream → Job (List (Except FrameError WalkedFrame))
  | 0, _, _ => pure []
  | count + 1, position, stream => do
      match ← observe index fun view => stream.advance view with
      | none => return []
      | some (item, rest) =>
          keepItem index stem position item
          let items ← yieldItems index stem count (position + 1) rest
          return item :: items

/-- The most items of a walk that are reported. -/
def walkLimit : Nat := 200

/-- Walk from a kept frame, or else from the last frame of a thread. -/
def walk
    (index : Nat)
    (start : Option String)
    (tracking : Bool)
    (stem : Option String) :
    Job Report := do
  let (owner, stream) ←
    match start with
    | some name => do
        let kept ← frame name
        pure (kept.member, FrameStream.ofFrame kept.frame tracking)
    | none => do
        let thread := (← member index).thread
        let stream ← see index fun view => thread.frameStream view tracking
        pure (index, stream)
  let items ← yieldItems owner stem walkLimit 0 stream
  return .ofList WalkedFrame.itemReport items

/-- The values of a list, of which equal neighbours count once. -/
def withoutRepeats : List Word → List Word
  | first :: second :: rest =>
      if first = second then
        withoutRepeats (second :: rest)
      else
        first :: withoutRepeats (second :: rest)
  | short => short

/-- Scan a thread, reading one stack word whenever a slot is visited. -/
def scan
    (index : Nat)
    (watched : Option Address) :
    Job Report := do
  let bench ← get
  let (probe, group) :=
    bench.group.onMember index (RootScan.scanThread bench.env bench.safepoint)
  set { bench with group := group }
  let found ← require (← settle index probe)
  let slots := probe.notes.slots
  let values :=
    slots.filterMap fun _ =>
      watched.bind fun address => (found.seen.read? address).toOption
  return .fields [
    ("stats", found.stats.report),
    ("slots", .slots slots),
    ("during", .ofList .word (withoutRepeats values))]

/-- Scan several threads and report the slots of each thread identity. -/
def scanAll
    (indices : List Nat)
    (independent : Bool) :
    Job Report := do
  let bench ← get
  let roots := indices.map fun index => ScanRoot.mk index index bench.env
  let (results, group) :=
    RootScan.scanRoots bench.safepoint independent roots.zipIdx bench.group
  set { bench with group := group }
  results.forM fun result => keepNotes result.root.stack result.scan.notes
  let stats ← require (RootScan.total results)
  let visited := results.filterMap fun result =>
    bench.group.members[result.root.thread]?.map fun member =>
      (member.thread.id, result.scan.notes.slots)
  let ids := ((visited.filter (!·.2.isEmpty)).map Prod.fst).eraseDups
  let slotsOf (id : ThreadId) : Report :=
    .slots ((visited.filter (·.1 == id)).flatMap Prod.snd)
  return .fields [
    ("stats", stats.report),
    ("slots", .ofList (fun id => .list [.count id, slotsOf id])
      (ids.mergeSort (· ≤ ·))),
    ("parallel", .flag independent)]

end ManagedStack.Job
