import ManagedStack.Diagnostics
import ManagedStack.Settings.Document

namespace ManagedStack

/-!
# Configuration

The switches that are read once, before anything runs: diagnostics, a property
of the platform, how roots are scanned, and the least level that is logged.
Settings that are not given have defaults, and settings with other names are
skipped.
-/

/-- The least severity that is logged. -/
inductive LogLevel where
  | trace
  | debug
  | info
  | warn
  | error
  deriving Repr, DecidableEq

namespace LogLevel

/-- All levels, the most talkative first. -/
def all : List LogLevel :=
  [.trace, .debug, .info, .warn, .error]

/-- The word for a level in a settings text. -/
def word : LogLevel → String
  | .trace => "trace"
  | .debug => "debug"
  | .info => "info"
  | .warn => "warn"
  | .error => "error"

/-- The name of a level in a log. -/
def name : LogLevel → String
  | .trace => "TRACE"
  | .debug => "DEBUG"
  | .info => "INFO"
  | .warn => "WARN"
  | .error => "ERROR"

/-- The level of a word. -/
def ofWord? (word : String) : Option LogLevel :=
  all.find? fun level => level.word = word

/-- A level as a setting: its word, or a table that holds nothing else. -/
def ofValue? : Settings.Value → Option LogLevel
  | .text word => ofWord? word
  | .table _ [(word, content)] =>
      if content.isEmptyCollection then ofWord? word else none
  | _ => none

end LogLevel

/-- The configuration of a running system. -/
structure Configuration where
  /-- Monitors are verified unless that is switched off. -/
  diagnostics : Diagnostics := { verifyMonitors := true }
  /--
  A return address of another thread may be replaced only while that thread
  cannot return from native code.
  -/
  needsDeoptSuspend : Bool := false
  /-- Threads are scanned for roots independently of one another. -/
  parallelRootScan : Bool := true
  level : LogLevel := .info
  deriving Repr, DecidableEq

namespace Configuration

open Settings (Value)

/-- A switch of a record, or its default when the record does not hold it. -/
def readSwitch?
    (value : Value)
    (position : Nat)
    (name : String)
    (default : Bool) :
    Option Bool :=
  match value.field? position name with
  | some none => some default
  | some (some (.boolean switch)) => some switch
  | _ => none

/-- The diagnostics switches of a record. -/
def readDiagnostics? (value : Value) : Option Diagnostics := do
  let tracePcPatching ← readSwitch? value 0 "trace_pc_patching" false
  let traceDependencies ← readSwitch? value 1 "trace_dependencies" false
  let traceFrameWalk ← readSwitch? value 2 "trace_frame_walk" false
  let profileInterpreter ← readSwitch? value 3 "profile_interpreter" false
  let verifyMonitors ← readSwitch? value 4 "verify_monitors" true
  return {
    tracePcPatching, traceDependencies, traceFrameWalk, profileInterpreter,
    verifyMonitors
  }

/-- The level of a record, or the default level. -/
def readLevel? (value : Value) : Option LogLevel :=
  match value.field? 0 "level" with
  | some none => some .info
  | some (some level) => LogLevel.ofValue? level
  | none => none

/-- Read a part of the configuration unless it is missing. -/
def readPart?
    (whole : Value)
    (position : Nat)
    (name : String)
    (default : α)
    (read? : Value → Option α) :
    Option α :=
  match whole.field? position name with
  | some none => some default
  | some (some part) => read? part
  | none => none

/-- The configuration that a settings value stands for. -/
def ofValue? (whole : Value) : Option Configuration := do
  let standard : Configuration := {}
  let diagnostics ←
    readPart? whole 0 "diagnostics" standard.diagnostics readDiagnostics?
  let needsDeoptSuspend ←
    readPart? whole 1 "platform" standard.needsDeoptSuspend fun part =>
      readSwitch? part 0 "needs_deopt_suspend" false
  let parallelRootScan ←
    readPart? whole 2 "gc" standard.parallelRootScan fun part =>
      readSwitch? part 0 "parallel_root_scan" true
  let level ← readPart? whole 3 "log" standard.level readLevel?
  return { diagnostics, needsDeoptSuspend, parallelRootScan, level }

/-- The configuration that a settings text gives. -/
def parse? (text : String) : Option Configuration :=
  (Settings.parse? text).bind ofValue?

/-- The configuration of a settings file; one that is missing gives defaults. -/
def ofFile? (content : Option String) : Option Configuration :=
  match content with
  | none => some {}
  | some text => parse? text

/-- A line that sets a switch. -/
def switchLine
    (name : String)
    (switch : Bool) :
    String :=
  name ++ " = " ++ (if switch then "true" else "false") ++ "\n"

/-- The settings text of a configuration, with nothing left to defaults. -/
def text (configuration : Configuration) : String :=
  let switches := configuration.diagnostics
  "[diagnostics]\n" ++
    switchLine "trace_pc_patching" switches.tracePcPatching ++
    switchLine "trace_dependencies" switches.traceDependencies ++
    switchLine "trace_frame_walk" switches.traceFrameWalk ++
    switchLine "profile_interpreter" switches.profileInterpreter ++
    switchLine "verify_monitors" switches.verifyMonitors ++
    "\n[platform]\n" ++
    switchLine "needs_deopt_suspend" configuration.needsDeoptSuspend ++
    "\n[gc]\n" ++
    switchLine "parallel_root_scan" configuration.parallelRootScan ++
    "\n[log]\nlevel = \"" ++ configuration.level.word ++ "\"\n"

end Configuration

end ManagedStack
