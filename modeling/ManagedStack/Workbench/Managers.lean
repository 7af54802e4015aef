import ManagedStack.Workbench.Basic

namespace ManagedStack.Job

/-!
# Jobs on frame managers

Creating managers on threads, driving them with scripted engines, and asking
about the activations they hold.
-/

/-- More steps than runs that a scripted engine has. -/
def driveLimit : Nat := ScriptedEngine.runLimit + 10

/-- The manager that was kept under a number. -/
def manager (number : Nat) : Job KeptManager := do
  orRefuse ((← get).managers.lookup number) .noManager

/-- Keep a manager under a number. -/
def keepManager
    (number : Nat)
    (kept : KeptManager) :
    Job Report := do
  let _ ← member kept.member
  update fun bench =>
    { bench with managers := (number, kept) :: bench.managers }
  return .absent

/-- Run an operation of a manager on its thread. -/
def drive
    (number : Nat)
    (operation : ManagerContext ScriptMemory →
      Operation (Session ScriptMemory) ProtocolError α) :
    Job α := do
  let kept ← manager number
  let member ← member kept.member
  let bench ← get
  let context : ManagerContext ScriptMemory :=
    ⟨bench.env, kept.entryPoints, kept.osrReply.map ScriptedEngine.replacing⟩
  let (probe, session) :=
    operation context {
      own := bench.memory
      manager := kept.manager
      machine := ⟨member.thread, member.stack, bench.group.records⟩
    }
  let machine := session.machine
  let group := { bench.group with records := machine.records }
  let group := group.withStack kept.member machine.stack
  set { bench with
    group := group.withThread kept.member machine.thread
    memory := session.own
    managers :=
      (number, { kept with manager := session.manager }) :: bench.managers }
  require (← settle kept.member probe)

/-- Run an operation that gives nothing. -/
def driveOn
    (number : Nat)
    (operation : ManagerContext ScriptMemory →
      Operation (Session ScriptMemory) ProtocolError Unit) :
    Job Report := do
  drive number operation
  return .absent

/-- Run an operation that serves requests. -/
def driveStep
    (number : Nat)
    (operation : ManagerContext ScriptMemory →
      Operation (Session ScriptMemory) ProtocolError StepOutcome) :
    Job Report := do
  return (← drive number operation).report

/-- The engine of a script, or else of the rules of the workbench. -/
def engine (script : Option Script) : Job (Script.Run Unit) := do
  match script with
  | some script => return ScriptedEngine.ofScript script
  | none => return ScriptedEngine.ofRules (← get).rules

/-- Let the engine set itself up. -/
def setUp
    (number : Nat)
    (script : Option Script) :
    Job Report := do
  let engine ← engine script
  driveOn number fun context => Session.setUp context engine

/-- Call into a method. -/
def start
    (number : Nat)
    (method : Word)
    (arguments handles : List Word) :
    Job Report :=
  driveOn number fun context =>
    Session.start context method arguments handles

/-- Serve one request. -/
def serveRequest
    (number : Nat)
    (script : Option Script) :
    Job Report := do
  let engine ← engine script
  driveStep number fun context => Session.step context engine

/-- Serve requests until nothing is left to drive. -/
def serveRequests
    (number : Nat)
    (script : Option Script) :
    Job Report := do
  let engine ← engine script
  driveStep number fun context => Session.run context engine driveLimit

/-- Deliver the result of a method that finished in compiled code. -/
def completeOsr
    (number : Nat)
    (kind : ReturnKind)
    (value : List Word) :
    Job Report :=
  driveStep number fun context => Session.completeOsr context kind value

/-- Rebuild an interpreted activation from a deoptimized compiled one. -/
def pushDeoptimized
    (number : Nat)
    (image : DeoptimizedActivation) :
    Job Report :=
  driveOn number fun context => Session.pushDeoptimized context image

/-- An activation on a member's stack. -/
def describeActivation
    (index : Nat)
    (activation : Activation) :
    Job Report := do
  let survey ← see index fun view =>
    (Workspace.survey ⟨activation, view.stack⟩).1
  return survey.report

/-- The activation at a position of a manager's chain. -/
def describeState
    (number position : Nat) :
    Job Report := do
  let kept ← manager number
  match kept.manager.activation? position with
  | some activation => describeActivation kept.member activation
  | none => return .absent

/-- A manager with its top activation and frame, and its thread. -/
def describeManager (number : Nat) : Job Report := do
  let kept ← manager number
  let manager := kept.manager
  let top ←
    match manager.top? with
    | some activation => describeActivation kept.member activation
    | none => pure .absent
  let frame ← drive number Session.topFrame
  let member ← member kept.member
  return .fields [
    ("initialized", .flag manager.initialized),
    ("depth", .count manager.depth),
    ("wrapper", .ofOption (fun entry => .word entry.wrapper) manager.entry),
    ("chain", .ofList (fun activation => .word activation.method)
      manager.chain),
    ("top", top),
    ("frame", .ofOption Frame.report frame),
    ("thread", member.thread.report (← isCurrent kept.member))]

/-- The frame of a manager's top activation. -/
def topFrame
    (number : Nat)
    (target : Option String) :
    Job Report := do
  let kept ← manager number
  match ← drive number Session.topFrame with
  | some frame => deliver target ⟨kept.member, frame⟩
  | none => return .absent

/-- The text of a manager. -/
def managerText (number : Nat) : Job Report := do
  let kept ← manager number
  let member ← member kept.member
  return .text (kept.manager.text member.thread.id)

end ManagedStack.Job
