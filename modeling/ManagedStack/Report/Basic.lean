import ManagedStack.Code.Cache
import ManagedStack.Frame.Error
import ManagedStack.Protocol.Error

namespace ManagedStack

/-!
# Reports

A report says in a uniform shape what a value of the domain is or why there is
none, for tools that show it or pass it on.  Machine words are kept apart from
counts, because they are shown differently.
-/

/-- What a tool is told. -/
inductive Report where
  | absent
  | flag (value : Bool)
  | count (value : Nat)
  | word (value : Word)
  | text (value : String)
  | list (items : List Report)
  | fields (entries : List (String × Report))

/-- Errors that have a name and a message. -/
class NamedError (ε : Type) where
  name : ε → String
  message : ε → String

instance : NamedError FrameError := ⟨FrameError.name, FrameError.message⟩

instance : NamedError ProtocolError :=
  ⟨ProtocolError.name, ProtocolError.message⟩

instance : NamedError CodeCacheError :=
  ⟨CodeCacheError.name, CodeCacheError.message⟩

instance : NamedError SignatureError :=
  ⟨SignatureError.name, SignatureError.message⟩

namespace Report

/-- The report of an optional value. -/
def ofOption
    (report : α → Report) :
    Option α → Report
  | some value => report value
  | none => .absent

/-- The report of several values. -/
def ofList
    (report : α → Report)
    (values : List α) :
    Report :=
  .list (values.map report)

/-- The report of an integer index. -/
def index (value : UInt32) : Report :=
  .count value.toNat

/-- An error that is known by its name alone. -/
def refused (name : String) : Report :=
  .fields [("error", .text name)]

/-- An error with its message. -/
def failed
    (name message : String) :
    Report :=
  .fields [("error", .text name), ("message", .text message)]

/-- The report of an error. -/
def ofError
    [NamedError ε]
    (cause : ε) :
    Report :=
  failed (NamedError.name cause) (NamedError.message cause)

/-- The report of a computation that was given up. -/
def ofAbort (cause : Abort) : Report :=
  failed "panic" cause.message

/-- The report of a failure. -/
def ofFailure [NamedError ε] : Failure ε → Report
  | .error cause => ofError cause
  | .abort cause => ofAbort cause
  | .outOfSteps => refused "OutOfSteps"

/-- The report of an answer, or of the failure in its place. -/
def ofOutcome
    [NamedError ε]
    (report : α → Report) :
    Except (Failure ε) α → Report
  | .ok value => report value
  | .error failure => ofFailure failure

/-- The report of a value, or of the abort in its place. -/
def ofChecked
    (report : α → Report) :
    Except Abort α → Report
  | .ok value => report value
  | .error cause => ofAbort cause

/-- The report of a value, or of the error in its place. -/
def ofResult
    [NamedError ε]
    (report : α → Report) :
    Except ε α → Report
  | .ok value => report value
  | .error cause => ofError cause

/-- A report with one more field; only reports with fields have room for it. -/
def withField
    (report : Report)
    (name : String)
    (value : Report) :
    Report :=
  match report with
  | .fields entries => .fields (entries ++ [(name, value)])
  | other => other

/-- Addresses in ascending order. -/
def slots (addresses : List Address) : Report :=
  ofList .word (addresses.mergeSort fun left right => left ≤ right)

end Report

end ManagedStack
