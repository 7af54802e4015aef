import ManagedStack.Computation

namespace ManagedStack

/-!
# Frame kinds and frame errors

The kind of an activation is decided by its resume address and the blob that
contains it.  Everything except the validator reports a corrupt stack as a frame
error; a caller that gets one must stop walking the stack it came from.
-/

/-- The kinds of activation. -/
inductive FrameKind where
  /-- The boundary where managed code was called. -/
  | entry
  | interpreted
  /-- A compiled method. -/
  | compiled
  /-- The compiled wrapper of a native method. -/
  | nativeWrapper
  /-- A method-handle adapter frame. -/
  | ricochet
  /-- A runtime stub, adapter or safepoint stub. -/
  | stub
  /-- Code outside the code space. -/
  | native
  deriving Repr, DecidableEq

/-- The words that name a kind of activation. -/
def FrameKind.text : FrameKind → String
  | .entry => "entry"
  | .interpreted => "interpreted"
  | .compiled => "compiled"
  | .nativeWrapper => "native wrapper"
  | .ricochet => "ricochet"
  | .stub => "stub"
  | .native => "native"

/-- The parts of an interpreter frame that can be found corrupt. -/
inductive InterpreterField where
  | monitorBlock
  | expressionStackTop
  deriving Repr, DecidableEq

/-- The words that name a part of an interpreter frame. -/
def InterpreterField.text : InterpreterField → String
  | .monitorBlock => "monitor block"
  | .expressionStackTop => "expression stack top"

/-- What can be wrong with a frame or with the stack it lies on. -/
inductive FrameError where
  | access (cause : AccessError)
  | zeroFrameSize (name : String)
  | unknownSenderPc (pc : Address)
  | noProgress (sp senderSp : Address)
  | pastFirstFrame
  | noLastJavaFrame
  | unknownMethod (method : Word)
  | invalidBcx (method : String) (bcx : Word)
  | missingMethodData (method : String)
  | missingOopMap (name : String) (pc : Address)
  | missingInterpreterOopMap (method : String) (bci : UInt32)
  | missingRegisterLocation (register : Register)
  | notDeoptimizable (sp : Address)
  | wrongKind (expected found : FrameKind)
  | unsupportedAdapter (pc : Address)
  | unscannableFrame (kind : FrameKind)
  | notAtSafepoint
  | notJavaFrame (sp : Address)
  | corruptInterpreterFrame (fp : Address) (field : InterpreterField)
  deriving Repr, DecidableEq

/-- The name of a frame error. -/
def FrameError.name : FrameError → String
  | .access (.outOfBounds _) => "OutOfBounds"
  | .access (.misaligned _) => "Misaligned"
  | .zeroFrameSize _ => "ZeroFrameSize"
  | .unknownSenderPc _ => "UnknownSenderPc"
  | .noProgress _ _ => "NoProgress"
  | .pastFirstFrame => "PastFirstFrame"
  | .noLastJavaFrame => "NoLastJavaFrame"
  | .unknownMethod _ => "UnknownMethod"
  | .invalidBcx _ _ => "InvalidBcx"
  | .missingMethodData _ => "MissingMethodData"
  | .missingOopMap _ _ => "MissingOopMap"
  | .missingInterpreterOopMap _ _ => "MissingInterpreterOopMap"
  | .missingRegisterLocation _ => "MissingRegisterLocation"
  | .notDeoptimizable _ => "NotDeoptimizable"
  | .wrongKind _ _ => "WrongKind"
  | .unsupportedAdapter _ => "UnsupportedAdapter"
  | .unscannableFrame _ => "UnscannableFrame"
  | .notAtSafepoint => "NotAtSafepoint"
  | .notJavaFrame _ => "NotJavaFrame"
  | .corruptInterpreterFrame _ _ => "CorruptInterpreterFrame"

/-- The message of a frame error. -/
def FrameError.message : FrameError → String
  | .access (.outOfBounds address) =>
      "Stack address " ++ address.hex ++ " out of bounds"
  | .access (.misaligned address) =>
      "Misaligned stack address " ++ address.hex
  | .zeroFrameSize name => "Zero frame size for code blob '" ++ name ++ "'"
  | .unknownSenderPc pc =>
      "Sender pc " ++ pc.hex ++ " is not in any known code region"
  | .noProgress sp senderSp =>
      "Sender sp " ++ senderSp.hex ++ " does not move up the stack from sp " ++
        sp.hex
  | .pastFirstFrame => "Walked past the first frame"
  | .noLastJavaFrame => "Thread has no last Java frame"
  | .unknownMethod method => "Unknown method " ++ method.hex
  | .invalidBcx method bcx =>
      "Invalid bytecode index " ++ bcx.hex ++ " for method '" ++ method ++ "'"
  | .missingMethodData method =>
      "Method '" ++ method ++ "' has no profiling data"
  | .missingOopMap name pc => "No oop map at pc " ++ pc.hex ++ " in '" ++
      name ++ "'"
  | .missingInterpreterOopMap method bci =>
      "No interpreter oop map at bci " ++ toString bci.toNat ++ " in '" ++
        method ++ "'"
  | .missingRegisterLocation register =>
      "No saved location for register " ++ register.name
  | .notDeoptimizable sp =>
      "Frame at sp " ++ sp.hex ++ " cannot be deoptimized"
  | .wrongKind expected found =>
      "Expected " ++ expected.text ++ " frame, found " ++ found.text
  | .unsupportedAdapter pc =>
      "No adapter resolver for ricochet frame at pc " ++ pc.hex
  | .unscannableFrame kind =>
      "Frame kind " ++ kind.text ++ " cannot be scanned for oops"
  | .notAtSafepoint => "Operation requires a safepoint"
  | .notJavaFrame sp => "No Java frame above sp " ++ sp.hex
  | .corruptInterpreterFrame fp field =>
      "Interpreter frame at fp " ++ fp.hex ++ " has a corrupt " ++ field.text

namespace Stack

/-- Note an access that missed the stack. -/
def accessNotes : AccessError → Notes
  | .outOfBounds address => [.fault address]
  | .misaligned _ => []

/-- Read a word; an aligned address outside the stack is noted as a fault. -/
def read
    (stack : Stack)
    (address : Address) :
    Probe FrameError Word :=
  match stack.read? address with
  | .ok word => .answer word
  | .error cause => ⟨.error (.error (.access cause)), accessNotes cause⟩

/-- Read a word without ever looking outside the given bounds. -/
def readWithin
    (stack : Stack)
    (bounds : Bounds)
    (address : Address) :
    Probe ε (Option Word) :=
  if !address.isAligned || !bounds.contains address then
    .answer none
  else
    match stack.read? address with
    | .ok word => .answer (some word)
    | .error cause => ⟨.ok none, accessNotes cause⟩

/-- Write a word; an aligned address outside the stack is noted as a fault. -/
def write
    (address : Address)
    (value : Word) :
    Operation Stack FrameError Unit :=
  fun stack =>
    match stack.index? address with
    | .ok index => (.answer (), stack.set index value)
    | .error cause =>
        (⟨.error (.error (.access cause)), accessNotes cause⟩, stack)

/-- Write words to addresses, in order. -/
def writeEach : List (Address × Word) → Operation Stack FrameError Unit
  | [] => pure ()
  | (address, word) :: rest => do
      write address word
      writeEach rest

/-- Write words to ascending addresses. -/
def writeAll
    (start : Address) :
    List Word → Operation Stack FrameError Unit
  | [] => pure ()
  | word :: rest => do
      write start word
      writeAll (start.offset 1) rest

/-- Read words from ascending addresses. -/
def readAll
    (stack : Stack)
    (start : Address) :
    Nat → Probe FrameError (List Word)
  | 0 => pure []
  | count + 1 => do
      let word ← stack.read start
      let rest ← readAll stack (start.offset 1) count
      return word :: rest

/-- Copy words; every word is read before the first is written. -/
def copyWords
    (source target : Address)
    (count : Nat) :
    Operation Stack FrameError Unit := do
  let words ← Operation.inspect fun stack => stack.readAll source count
  writeAll target words

/-- Write zero to ascending addresses. -/
def zeroWords
    (start : Address) :
    Nat → Operation Stack FrameError Unit
  | 0 => pure ()
  | count + 1 => do
      write start 0
      zeroWords (start.offset 1) count

end Stack

end ManagedStack
