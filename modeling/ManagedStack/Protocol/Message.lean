import ManagedStack.Signature

namespace ManagedStack

/-!
# Messages between engine and frame manager

A bytecode engine runs one interpreted activation until it needs something that
only the owner of the stack can give it.  It then posts one request and returns;
the frame manager serves the request and resumes an activation with a response.
What a request needs besides its name travels in a payload.
-/

/-- Which side a message travels to. -/
inductive Direction where
  | toEngine
  | toManager
  | nowhere
  deriving Repr, DecidableEq

/-- The name of a direction. -/
def Direction.name : Direction → String
  | .toEngine => "ToEngine"
  | .toManager => "ToManager"
  | .nowhere => "None"

/-- The vocabulary of the protocol. -/
inductive Message where
  | noRequest
  | engineSetup
  | methodEntry
  /-- The callee returned normally. -/
  | methodResume
  /-- The activation was rebuilt from a compiled frame. -/
  | deoptResume
  /-- The callee was popped and the invoke is executed again. -/
  | deoptResume2
  | gotMonitors
  /-- The callee threw; the exception is on top of the expression stack. -/
  | rethrowException
  | callMethod
  | callMethodHandle
  | returnFromMethod
  | moreMonitors
  | throwingException
  | poppingFrame
  | doOsr
  deriving Repr, DecidableEq

namespace Message

/-- All messages in order. -/
def all : List Message :=
  [.noRequest, .engineSetup, .methodEntry, .methodResume, .deoptResume,
    .deoptResume2, .gotMonitors, .rethrowException, .callMethod,
    .callMethodHandle, .returnFromMethod, .moreMonitors, .throwingException,
    .poppingFrame, .doOsr]

/-- Which side a message travels to. -/
def direction : Message → Direction
  | .noRequest => .nowhere
  | .engineSetup => .toEngine
  | .methodEntry => .toEngine
  | .methodResume => .toEngine
  | .deoptResume => .toEngine
  | .deoptResume2 => .toEngine
  | .gotMonitors => .toEngine
  | .rethrowException => .toEngine
  | .callMethod => .toManager
  | .callMethodHandle => .toManager
  | .returnFromMethod => .toManager
  | .moreMonitors => .toManager
  | .throwingException => .toManager
  | .poppingFrame => .toManager
  | .doOsr => .toManager

/-- Whether an engine posts this message. -/
def isRequest (message : Message) : Bool :=
  message.direction == .toManager

/-- Whether a frame manager resumes an activation with this message. -/
def isResponse (message : Message) : Bool :=
  message.direction == .toEngine

/-- Whether the message asks for a call. -/
def isCall (message : Message) : Bool :=
  message == .callMethod || message == .callMethodHandle

/-- The name of a message. -/
def name : Message → String
  | .noRequest => "no_request"
  | .engineSetup => "initialize"
  | .methodEntry => "method_entry"
  | .methodResume => "method_resume"
  | .deoptResume => "deopt_resume"
  | .deoptResume2 => "deopt_resume2"
  | .gotMonitors => "got_monitors"
  | .rethrowException => "rethrow_exception"
  | .callMethod => "call_method"
  | .callMethodHandle => "call_method_handle"
  | .returnFromMethod => "return_from_method"
  | .moreMonitors => "more_monitors"
  | .throwingException => "throwing_exception"
  | .poppingFrame => "popping_frame"
  | .doOsr => "do_osr"

/-- The words of a name in capitals, without what separates them. -/
def joinCapitalized : Bool → List Char → List Char
  | _, [] => []
  | _, '_' :: rest => joinCapitalized true rest
  | true, letter :: rest => letter.toUpper :: joinCapitalized false rest
  | false, letter :: rest => letter :: joinCapitalized false rest

/-- The name of a message as one capitalized word. -/
def title (message : Message) : String :=
  String.ofList (joinCapitalized true message.name.toList)

/-- The message with a name. -/
def ofName? (name : String) : Option Message :=
  all.find? (·.name == name)

end Message

/-- The kinds of result a method returns. -/
inductive ReturnKind where
  | void
  | int
  | long
  | float
  | double
  | object
  deriving Repr, DecidableEq

namespace ReturnKind

/-- Expression stack words taken by a result. -/
def words : ReturnKind → Nat
  | .void => 0
  | .long => 2
  | .double => 2
  | _ => 1

/-- The kind of result that a value type is returned as. -/
def ofType : BasicType → ReturnKind
  | .void => .void
  | .long => .long
  | .float => .float
  | .double => .double
  | .object => .object
  | .array => .object
  | _ => .int

/-- All kinds of result. -/
def all : List ReturnKind :=
  [.void, .int, .long, .float, .double, .object]

/-- The name of a kind of result. -/
def name : ReturnKind → String
  | .void => "Void"
  | .int => "Int"
  | .long => "Long"
  | .float => "Float"
  | .double => "Double"
  | .object => "Object"

/-- The kind of result with a name. -/
def ofName? (name : String) : Option ReturnKind :=
  all.find? (·.name == name)

/-- The name of the return instruction for a kind. -/
def text : ReturnKind → String
  | .void => "return"
  | .int => "ireturn"
  | .long => "lreturn"
  | .float => "freturn"
  | .double => "dreturn"
  | .object => "areturn"

end ReturnKind

/-- What a call request says about the callee. -/
structure CallRequest where
  /-- The method word of the callee. -/
  callee : Word
  /-- The code address that the call would jump to. -/
  entryPoint : Address
  /-- Bytes of the invoke, skipped when the call returns. -/
  advance : UInt8
  deriving Repr, DecidableEq

/-- What a request for on-stack replacement says. -/
structure OsrRequest where
  /-- Holds the migrated locals and monitors. -/
  buffer : Address
  /-- Entry of the compiled code. -/
  entry : Address
  deriving Repr, DecidableEq

/-- What an on-stack replacement gave. -/
structure OsrResult where
  /-- Start of the compiled code that now runs the activation. -/
  code : Address
  /-- Where the compiled code returns to its caller. -/
  returnAddress : Address
  deriving Repr, DecidableEq

/-- What travels with a message; its form fits the message. -/
inductive Payload where
  | empty
  | call (request : CallRequest)
  | returning (kind : ReturnKind)
  | osr (request : OsrRequest)
  | osrResult (result : OsrResult)
  deriving Repr, DecidableEq

namespace Payload

/-- The form of a payload. -/
def form : Payload → PayloadForm
  | .empty => .empty
  | .call _ => .call
  | .returning _ => .returning
  | .osr _ => .osrRequest
  | .osrResult _ => .osrResult

/-- The payload as a call request; given up if it is none. -/
def toCall : Payload → Except Abort CallRequest
  | .call request => .ok request
  | other => .error (.payloadForm other.form .call)

/-- The payload as a kind of result; given up if it is none. -/
def toReturnKind : Payload → Except Abort ReturnKind
  | .returning kind => .ok kind
  | other => .error (.payloadForm other.form .returning)

/-- The payload as a replacement request; given up if it is none. -/
def toOsr : Payload → Except Abort OsrRequest
  | .osr request => .ok request
  | other => .error (.payloadForm other.form .osrRequest)

/-- The payload as a replacement result; given up if it is none. -/
def toOsrResult : Payload → Except Abort OsrResult
  | .osrResult result => .ok result
  | other => .error (.payloadForm other.form .osrResult)

end Payload

end ManagedStack
