import ManagedStack.Manager.Basic

namespace ManagedStack

/-!
# Scripted engines

A script is a list of steps on one activation, in which named variables and the
registers of the activation can be computed with.  A scripted engine chooses a script
for each run by the method and the message it is resumed with, keeps its variables
over all runs, and records what the steps gave.  A step that fails ends the run,
unless it is told to record the error and go on.
-/

/-- The registers of an activation that expressions can name. -/
inductive ScriptRegister where
  | bcp
  | stackTop
  | fp
  | monitorEnd
  deriving Repr, DecidableEq

/-- A word computed by a script; arithmetic wraps around. -/
inductive ScriptExpression where
  | word (value : Word)
  | named (name : String)
  | register (register : ScriptRegister)
  | add (left right : ScriptExpression)
  | subtract (left right : ScriptExpression)
  | multiply (left right : ScriptExpression)
  deriving Repr

/-- What one step of a script does. -/
inductive ScriptAction where
  | push (value : ScriptExpression)
  | pop (target : Option String)
  | peek (depth : Nat) (target : Option String)
  | readLocal (index : Nat) (target : Option String)
  | writeLocal (index : Nat) (value : ScriptExpression)
  | assign (value : ScriptExpression) (target : Option String)
  | readWord (address : ScriptExpression) (target : Option String)
  | writeWord (address : Address) (value : ScriptExpression)
  | setBcp (value : ScriptExpression)
  | setMdx (value : ScriptExpression)
  | setOopTemp (value : ScriptExpression)
  | saveScratch (index : Nat) (value : ScriptExpression)
  | call (request : CallRequest)
  | callMethodHandle (request : CallRequest)
  | returning (kind : ReturnKind)
  | moreMonitors
  | throwing (exception : ScriptExpression)
  | popFrame
  | osr (request : OsrRequest)
  | listAccepted
  | resume (response : Message)
  | failing (cause : String)
  | survey
  deriving Repr

/-- A script; every step says whether its errors are recorded and passed over. -/
inductive Script where
  | done
  | step (action : ScriptAction) (catches : Bool) (rest : Script)
  | branch
      (condition : ScriptExpression)
      (whenNonzero whenZero : Script)
      (catches : Bool)
      (rest : Script)
  deriving Repr

/-- An activation with what can be asked about it, at one moment. -/
structure Survey where
  activation : Activation
  monitors : List (Option Address)
  depth : Word
  /-- The topmost entries, or why they cannot be read. -/
  entries : List (Except ProtocolError Word)

/-- What a scripted run records. -/
inductive ScriptRecord where
  | word (value : Word)
  | flag (value : Bool)
  | messages (accepted : List Message)
  | survey (survey : Survey)
  | error (cause : ProtocolError)
  | migration
      (method : String)
      (message : Message)
      (request : OsrRequest)

/-- The memory of a scripted engine. -/
structure ScriptMemory where
  assignments : List (String × Word) := []
  runs : Nat := 0
  /-- What was recorded, the latest first. -/
  records : List ScriptRecord := []

namespace ScriptMemory

/-- The value of a variable; zero before it is assigned. -/
def value
    (memory : ScriptMemory)
    (name : String) :
    Word :=
  (memory.assignments.lookup name).getD 0

/-- Assign a variable. -/
def assign
    (memory : ScriptMemory)
    (name : String)
    (value : Word) :
    ScriptMemory :=
  { memory with
    assignments := (name, value) ::
      memory.assignments.filter fun entry => entry.1 != name }

/-- Record something. -/
def record
    (memory : ScriptMemory)
    (item : ScriptRecord) :
    ScriptMemory :=
  { memory with records := item :: memory.records }

end ScriptMemory

namespace Workspace

/-- Ask about each of the first monitors. -/
def monitorsUpTo
    (activation : Activation)
    (count : Nat) :
    Except Abort (List (Option Address)) :=
  (List.range count).mapM activation.monitorAt?

/-- The entries at the given depths, or why they cannot be read. -/
def entriesAt :
    List Nat →
      Operation Workspace ProtocolError (List (Except ProtocolError Word))
  | [] => pure []
  | depth :: rest => do
      let entry ← Operation.attempt (peek depth)
      let entries ← entriesAt rest
      return entry :: entries

/-- Ask all there is to ask about the activation; at most 64 entries. -/
def survey : Operation Workspace ProtocolError Survey := do
  let activation ← current
  let count ← Operation.check activation.monitorCount
  let monitors ←
    Operation.check (monitorsUpTo activation (count.toNat + 1))
  let depth ← Operation.check activation.stackDepth
  let entries ← entriesAt (List.range (min depth.toNat 64))
  return ⟨activation, monitors, depth, entries⟩

end Workspace

namespace ScriptExpression

/-- The value of an expression. -/
def value
    (memory : ScriptMemory)
    (activation : Activation) :
    ScriptExpression → Word
  | .word value => value
  | .named name => memory.value name
  | .register .bcp => activation.bcp
  | .register .stackTop => activation.stackTop
  | .register .fp => activation.fp
  | .register .monitorEnd => activation.monitorEnd
  | .add left right =>
      left.value memory activation + right.value memory activation
  | .subtract left right =>
      left.value memory activation - right.value memory activation
  | .multiply left right =>
      left.value memory activation * right.value memory activation

end ScriptExpression

namespace Script

/-- One run of a scripted engine, or a part of it. -/
abbrev Run (α : Type) := Operation (Turn ScriptMemory) ProtocolError α

/-- Record something. -/
def record (item : ScriptRecord) : Run Unit :=
  Turn.onOwn (Operation.update fun memory => memory.record item)

/-- Keep a word in a variable, if one is named. -/
def keep
    (target : Option String)
    (value : Word) :
    Run Unit :=
  match target with
  | some name =>
      Turn.onOwn (Operation.update fun memory => memory.assign name value)
  | none => pure ()

/-- Keep and record a word that a step gave. -/
def yieldWord
    (target : Option String)
    (operation : Operation Workspace ProtocolError Word) :
    Run Unit := do
  let value ← Turn.onWorkspace operation
  keep target value
  record (.word value)

/-- The value of an expression. -/
def evaluate (expression : ScriptExpression) : Run Word :=
  Operation.inspect fun turn =>
    .answer (expression.value turn.own turn.workspace.activation)

/-- Change the activation by the value of an expression. -/
def adjust
    (expression : ScriptExpression)
    (change : Word → Activation → Activation) :
    Run Unit := do
  let value ← evaluate expression
  Turn.onWorkspace (Workspace.updateActivation (change value))

/-- Spill a word, if there is such a scratch slot. -/
def saveScratch
    (index : Nat)
    (value : Word) :
    Operation Workspace ProtocolError Bool := do
  let activation ← Workspace.current
  match activation.scratch.save? index value with
  | none => return false
  | some scratch =>
      Workspace.updateActivation fun activation =>
        { activation with scratch := scratch }
      return true

/-- Carry out one action. -/
def perform : ScriptAction → Run Unit
  | .push expression => do
      let value ← evaluate expression
      Turn.onWorkspace (Workspace.push value)
  | .pop target => yieldWord target Workspace.pop
  | .peek depth target => yieldWord target (Workspace.peek depth)
  | .readLocal index target =>
      yieldWord target (Workspace.readLocal index)
  | .writeLocal index expression => do
      let value ← evaluate expression
      Turn.onWorkspace (Workspace.writeLocal index value)
  | .assign expression target => do
      let value ← evaluate expression
      keep target value
      record (.word value)
  | .readWord expression target => do
      let address ← evaluate expression
      yieldWord target (Workspace.readWord address)
  | .writeWord address expression => do
      let value ← evaluate expression
      Turn.onWorkspace (Workspace.writeWord address value)
  | .setBcp expression =>
      adjust expression fun value activation =>
        { activation with bcp := value }
  | .setMdx expression =>
      adjust expression fun value activation =>
        { activation with mdx := value }
  | .setOopTemp expression =>
      adjust expression fun value activation =>
        { activation with oopTemp := value }
  | .saveScratch index expression => do
      let value ← evaluate expression
      let saved ← Turn.onWorkspace (saveScratch index value)
      record (.flag saved)
  | .call request => Turn.onWorkspace (Workspace.requestCall request)
  | .callMethodHandle request =>
      Turn.onWorkspace (Workspace.requestMethodHandleCall request)
  | .returning kind => Turn.onWorkspace (Workspace.requestReturn kind)
  | .moreMonitors => Turn.onWorkspace Workspace.requestMonitor
  | .throwing expression => do
      let exception ← evaluate expression
      Turn.onWorkspace (Workspace.requestThrow exception)
  | .popFrame => Turn.onWorkspace Workspace.requestPop
  | .osr request => Turn.onWorkspace (Workspace.requestOsr request)
  | .listAccepted => do
      let activation ← Turn.onWorkspace Workspace.current
      record (.messages (Message.all.filter activation.accepts))
  | .resume response => Turn.onWorkspace (Workspace.resume response)
  | .failing cause => Operation.fail (.engine cause)
  | .survey => do
      let survey ← Turn.onWorkspace Workspace.survey
      record (.survey survey)

/-- Record an error and go on, if told to. -/
def guarded
    (catches : Bool)
    (part : Run Unit) :
    Run Unit :=
  if catches then do
    match ← Operation.attempt part with
    | .ok _ => return ()
    | .error cause => record (.error cause)
  else
    part

/-- Carry out a script. -/
def run : Script → Run Unit
  | .done => pure ()
  | .step action catches rest => do
      guarded catches (perform action)
      run rest
  | .branch condition whenNonzero whenZero catches rest => do
      let value ← evaluate condition
      guarded catches (if value ≠ 0 then run whenNonzero else run whenZero)
      run rest

end Script

/-- A script together with the activations that it is for. -/
structure ScriptRule where
  method : Option Word
  message : Option String
  script : Script

/-- Whether a rule is for an activation. -/
def ScriptRule.isFor
    (rule : ScriptRule)
    (activation : Activation) :
    Bool :=
  rule.method.all (· == activation.method) &&
    rule.message.all (· == activation.message.name)

namespace ScriptedEngine

/-- How many runs a scripted engine has. -/
def runLimit : Nat := 2000

/-- Count a run; there are only so many. -/
def countRun : Script.Run Unit := do
  Turn.onOwn do
    Operation.update fun memory => { memory with runs := memory.runs + 1 }
    let memory ← Operation.state
    if runLimit < memory.runs then
      Operation.fail (.engine "fuel exhausted")

/-- The engine that carries out the first rule for an activation. -/
def ofRules (rules : List ScriptRule) : Script.Run Unit := do
  countRun
  let activation ← Turn.onWorkspace Workspace.current
  match rules.find? (·.isFor activation) with
  | some rule => rule.script.run
  | none =>
      Operation.fail (.engine
        ("unexpected " ++ activation.message.name ++ " in " ++
          activation.method.hex))

/-- The engine that carries out one script whatever it is resumed with. -/
def ofScript (script : Script) : Script.Run Unit := do
  countRun
  script.run

/-- A handler of on-stack replacement that records the request and answers. -/
def replacing (reply : Except String OsrResult) : OsrHandler ScriptMemory :=
  fun method activation request => do
    Operation.update fun memory =>
      memory.record (.migration method.name activation.message request)
    match reply with
    | .ok result => return result
    | .error cause => Operation.fail (.engine cause)

end ScriptedEngine

end ManagedStack
