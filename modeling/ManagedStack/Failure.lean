namespace ManagedStack

/-!
# How a computation can fail

A computation of this library ends in one of four ways.  It answers, it reports
an error that its caller is expected to handle, it aborts, or it uses up the
step allowance it was given.  An abort means that arithmetic left the range of a
machine word or that a caller broke a stated condition; handlers of errors never
see it.
-/

/-- An arithmetic operation on machine words that can leave their range. -/
inductive Arithmetic where
  | add
  | subtract
  | multiply
  | negate
  | shiftLeft
  deriving Repr, DecidableEq

/-- The verb that names an arithmetic operation in an abort message. -/
def Arithmetic.verb : Arithmetic → String
  | .add => "add"
  | .subtract => "subtract"
  | .multiply => "multiply"
  | .negate => "negate"
  | .shiftLeft => "shift left"

/-- A condition that callers promise and that is checked where it matters. -/
inductive Assertion where
  | stackBaseAligned
  | stackAboveZero
  | methodIdAligned
  | mapCoversSlot
  | mapTracksRegisters
  | resolvedFramePc
  | deoptimizationKnown
  | bciSetOutsideScan
  | bcpSetOutsideScan
  | profilingEnabled
  | mdpReadOutsideScan
  | mdpSetOutsideScan
  | monitorEndAboveStackPointer
  | monitorEndBelowFramePointer
  | localInsideFrame
  | deferredWorkOnOwner
  deriving Repr, DecidableEq

/-- The message an abort carries when the condition does not hold. -/
def Assertion.message : Assertion → String
  | .stackBaseAligned => "stack base must be word aligned"
  | .stackAboveZero => "stack must not extend below address zero"
  | .methodIdAligned => "method ids are aligned words"
  | .mapCoversSlot => "oop map covers 64 frame slots"
  | .mapTracksRegisters => "updating a map that does not track registers"
  | .resolvedFramePc => "a resolved frame never holds a deopt pc"
  | .deoptimizationKnown => "not answerable"
  | .bciSetOutsideScan => "should not set bci during GC"
  | .bcpSetOutsideScan => "should not set bcp during GC"
  | .profilingEnabled => "must be profiling interpreter"
  | .mdpReadOutsideScan => "should not access mdp during GC"
  | .mdpSetOutsideScan => "should not set mdp during GC"
  | .monitorEndAboveStackPointer =>
      "monitor end should be above the stack pointer"
  | .monitorEndBelowFramePointer =>
      "monitor end should be strictly below the frame pointer"
  | .localInsideFrame => "local must be inside the frame"
  | .deferredWorkOnOwner =>
      "deferred deoptimization runs on the owning thread"

/-- The forms a protocol payload can take. -/
inductive PayloadForm where
  | empty
  | call
  | returning
  | osrRequest
  | osrResult
  deriving Repr, DecidableEq

/-- The words that name what a payload holds. -/
def PayloadForm.description : PayloadForm → String
  | .empty => "empty"
  | .call => "call"
  | .returning => "return kind"
  | .osrRequest => "osr request"
  | .osrResult => "osr result"

/-- The words that name what a payload was expected to hold. -/
def PayloadForm.expectation : PayloadForm → String
  | .empty => "an empty payload"
  | .call => "a call"
  | .returning => "a return kind"
  | .osrRequest => "an osr request"
  | .osrResult => "an osr result"

/-- Why a computation was given up instead of answering. -/
inductive Abort where
  | overflow (operation : Arithmetic)
  | divisionByZero
  | remainderByZero
  | broken (assertion : Assertion)
  | payloadForm (held expected : PayloadForm)
  | indexOutOfRange (count index : Nat)
  /-- A list of words would take half the addresses or more. -/
  | capacity
  deriving Repr, DecidableEq

/-- The message of an abort. -/
def Abort.message : Abort → String
  | .overflow operation => "attempt to " ++ operation.verb ++ " with overflow"
  | .divisionByZero => "attempt to divide by zero"
  | .remainderByZero =>
      "attempt to calculate the remainder with a divisor of zero"
  | .broken assertion => assertion.message
  | .payloadForm held expected =>
      "frame manager message holds " ++ held.description ++ ", not " ++
        expected.expectation
  | .indexOutOfRange count index =>
      "index out of bounds: the len is " ++ toString count ++
        " but the index is " ++ toString index
  | .capacity => "capacity overflow"

/-- The ways in which a computation ends without an answer. -/
inductive Failure (ε : Type) where
  | error (cause : ε)
  | abort (cause : Abort)
  | outOfSteps
  deriving Repr, DecidableEq

/-- Whether a failure is not an error that a caller can handle. -/
def Failure.isFatal : Failure ε → Bool
  | .error _ => false
  | .abort _ => true
  | .outOfSteps => true

/-- Restate the cause of an error; aborts stay as they are. -/
def Failure.mapError
    (restate : ε → ε') :
    Failure ε → Failure ε'
  | .error cause => .error (restate cause)
  | .abort cause => .abort cause
  | .outOfSteps => .outOfSteps

/-- Succeed when a condition that the caller promised holds, else abort. -/
def require
    (assertion : Assertion)
    (holds : Bool) :
    Except Abort Unit :=
  if holds then .ok () else .error (.broken assertion)

end ManagedStack
