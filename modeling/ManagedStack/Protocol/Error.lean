import ManagedStack.Frame.Error
import ManagedStack.Protocol.Message

namespace ManagedStack

/-!
# Protocol errors

Every one of these means that engine and frame manager do not fit together or that
the thread ran out of stack; the activations must not be driven further.
-/

/-- What can go wrong between engine and frame manager. -/
inductive ProtocolError where
  | requestPending (pending requested : Message)
  | notARequest (message : Message)
  | notAResponse (message : Message)
  | incompatibleResume (pending resume : Message)
  | notResumed (pending : Message)
  | noRequest (method : Word)
  | unexpectedRequest (message : Message)
  | notInitialized
  | alreadyStarted
  | noActivation
  | stackOverflow (needed limit : Address)
  | expressionStackOverflow (method : Word)
  | expressionStackUnderflow (method : Word)
  | localOutOfRange (method : Word) (index : Nat)
  | argumentCount (expected found : Nat)
  | unsupportedCallee (callee : Word) (entry : Address)
  | returnKindMismatch (expected found : ReturnKind)
  | missingException
  | popOutermost
  | osrUnavailable
  | noOsrPending
  | engine (cause : String)
  | frame (cause : FrameError)
  deriving Repr, DecidableEq

/-- The name of a protocol error; that of a frame error says so. -/
def ProtocolError.name : ProtocolError → String
  | .requestPending _ _ => "RequestPending"
  | .notARequest _ => "NotARequest"
  | .notAResponse _ => "NotAResponse"
  | .incompatibleResume _ _ => "IncompatibleResume"
  | .notResumed _ => "NotResumed"
  | .noRequest _ => "NoRequest"
  | .unexpectedRequest _ => "UnexpectedRequest"
  | .notInitialized => "NotInitialized"
  | .alreadyStarted => "AlreadyStarted"
  | .noActivation => "NoActivation"
  | .stackOverflow _ _ => "StackOverflow"
  | .expressionStackOverflow _ => "ExpressionStackOverflow"
  | .expressionStackUnderflow _ => "ExpressionStackUnderflow"
  | .localOutOfRange _ _ => "LocalOutOfRange"
  | .argumentCount _ _ => "ArgumentCount"
  | .unsupportedCallee _ _ => "UnsupportedCallee"
  | .returnKindMismatch _ _ => "ReturnKindMismatch"
  | .missingException => "MissingException"
  | .popOutermost => "PopOutermost"
  | .osrUnavailable => "OsrUnavailable"
  | .noOsrPending => "NoOsrPending"
  | .engine _ => "Engine"
  | .frame cause => "Frame." ++ cause.name

/-- The message of a protocol error. -/
def ProtocolError.message : ProtocolError → String
  | .requestPending pending requested =>
      requested.name ++ " posted while " ++ pending.name ++
        " is still pending"
  | .notARequest message => message.name ++ " is not an engine request"
  | .notAResponse message =>
      message.name ++ " is not a frame manager response"
  | .incompatibleResume pending resume =>
      "Cannot resume with " ++ resume.name ++ " while " ++ pending.name ++
        " is pending"
  | .notResumed pending => "Activation still waits on " ++ pending.name
  | .noRequest method =>
      "Engine returned from method " ++ method.hex ++ " without a request"
  | .unexpectedRequest message =>
      "Engine posted " ++ message.name ++ " during initialization"
  | .notInitialized => "Frame manager not initialized"
  | .alreadyStarted => "Frame manager already has an entry frame"
  | .noActivation => "No interpreted activation"
  | .stackOverflow needed limit =>
      "Thread stack exhausted: need " ++ needed.hex ++ ", limit " ++ limit.hex
  | .expressionStackOverflow method =>
      "Expression stack overflow in method " ++ method.hex
  | .expressionStackUnderflow method =>
      "Expression stack underflow in method " ++ method.hex
  | .localOutOfRange method index =>
      "Local " ++ toString index ++ " out of range in method " ++ method.hex
  | .argumentCount expected found =>
      "Expected " ++ toString expected ++ " argument words, got " ++
        toString found
  | .unsupportedCallee callee entry =>
      "Callee " ++ callee.hex ++ " at " ++ entry.hex ++ " is not interpreted"
  | .returnKindMismatch expected found =>
      "Return kind " ++ found.text ++ " does not match declared " ++
        expected.text
  | .missingException => "Exception request without an exception"
  | .popOutermost => "Cannot pop the outermost activation"
  | .osrUnavailable => "No on-stack replacement handler installed"
  | .noOsrPending => "No on-stack replacement in progress"
  | .engine cause => "Engine failure: " ++ cause
  | .frame cause => cause.message

end ManagedStack
