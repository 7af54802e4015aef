import ManagedStack.Code.OopMap
import ManagedStack.Signature

namespace ManagedStack

/-!
# Units of generated code

A blob covers a half-open address range and knows its frame size, its reference
maps and, for a compiled method, what deoptimization needs.  Every address that a
blob names has to lie inside it, and no return address of a compiled method may
be two of: its deoptimization handler, its method-handle deoptimization handler,
and a method-handle return.
-/

/-- The callee of the call that returns to one address. -/
structure CalleeSignature where
  signature : Signature
  hasReceiver : Bool
  deriving Repr, DecidableEq

/-- A compiled method, or the compiled wrapper of a native method. -/
structure CompiledUnit where
  method : Word
  isNative : Bool := false
  deoptHandler : Address
  methodHandleDeoptHandler : Address
  pollReturns : List Address := []
  methodHandleReturns : List Address := []
  /-- Callees by return address; the first entry for an address counts. -/
  callSites : List (Address × CalleeSignature) := []
  deoptimizable : Bool := true
  deriving Repr, DecidableEq

namespace CompiledUnit

/-- Whether an address is one of the two deoptimization handlers. -/
def isDeoptPc
    (compiled : CompiledUnit)
    (pc : Address) :
    Bool :=
  pc == compiled.deoptHandler || pc == compiled.methodHandleDeoptHandler

/-- Whether a method-handle call returns to this address. -/
def isMethodHandleReturn
    (compiled : CompiledUnit)
    (pc : Address) :
    Bool :=
  compiled.methodHandleReturns.contains pc

/-- Whether this address is the safepoint poll of a return. -/
def isPollReturn
    (compiled : CompiledUnit)
    (pc : Address) :
    Bool :=
  compiled.pollReturns.contains pc

/-- The handler for a frame that resumes at this address. -/
def handlerFor
    (compiled : CompiledUnit)
    (pc : Address) :
    Address :=
  if compiled.isMethodHandleReturn pc then
    compiled.methodHandleDeoptHandler
  else
    compiled.deoptHandler

/-- The callee of the call that returns to this address. -/
def callSiteAt?
    (compiled : CompiledUnit)
    (pc : Address) :
    Option CalleeSignature :=
  compiled.callSites.lookup pc

/-- The addresses that the unit names. -/
def namedPcs (compiled : CompiledUnit) : List Address :=
  [compiled.deoptHandler, compiled.methodHandleDeoptHandler] ++
    compiled.pollReturns ++ compiled.methodHandleReturns

/-- Whether an address is of more than one kind of return address. -/
def isAmbiguous
    (compiled : CompiledUnit)
    (pc : Address) :
    Bool :=
  1 <
    (pc == compiled.deoptHandler).toNat +
      (pc == compiled.methodHandleDeoptHandler).toNat +
      (compiled.isMethodHandleReturn pc).toNat

/-- The first named address that is of more than one kind. -/
def ambiguousPc? (compiled : CompiledUnit) : Option Address :=
  compiled.namedPcs.find? compiled.isAmbiguous

end CompiledUnit

/-- The kinds of generated code. -/
inductive BlobKind where
  | interpreter
  /-- The stub through which managed code is called; it resumes at `returnPc`. -/
  | callStub (returnPc : Address)
  | compiled (compiledUnit : CompiledUnit)
  | runtimeStub
  | adapter
  | safepointStub
  /-- Argument reshaping for method handles; frames resume at `bouncePc`. -/
  | ricochet (bouncePc : Address)
  deriving Repr, DecidableEq

/-- The words that name a kind of generated code. -/
def BlobKind.name : BlobKind → String
  | .interpreter => "interpreter"
  | .callStub _ => "call stub"
  | .compiled _ => "compiled"
  | .runtimeStub => "runtime stub"
  | .adapter => "adapter"
  | .safepointStub => "safepoint stub"
  | .ricochet _ => "ricochet"

/-- One unit of generated code, covering `start` up to but not `stop`. -/
structure Blob where
  name : String
  start : Address
  stop : Address
  kind : BlobKind
  /-- The first instruction, after the header. -/
  codeBegin : Address
  /-- Words of one frame, the return address included. -/
  frameSize : Word := 0
  /-- Distance from the start after which a frame is fully built. -/
  frameCompleteOffset : Option Word
  oopMaps : Option OopMapSet := none
  callerMustGcArguments : Bool := false
  deriving Repr, DecidableEq

namespace Blob

/-- A blob without header; only adapters never complete their frames. -/
def ofRange
    (name : String)
    (start stop : Address)
    (kind : BlobKind) :
    Blob where
  name := name
  start := start
  stop := stop
  kind := kind
  codeBegin := start
  frameCompleteOffset := if kind = .adapter then none else some 0

/-- The blob with its first instruction after a header of this many bytes. -/
def withHeader
    (blob : Blob)
    (bytes : Word) :
    Except Abort Blob := do
  return { blob with codeBegin := ← blob.start.plus bytes }

/-- Whether an address lies in the blob. -/
def contains
    (blob : Blob)
    (pc : Address) :
    Bool :=
  blob.start ≤ pc && pc < blob.stop

/-- Whether an address lies in the instructions of the blob. -/
def codeContains
    (blob : Blob)
    (pc : Address) :
    Bool :=
  blob.codeBegin ≤ pc && pc < blob.stop

/-- Whether the frame is fully built when execution is at an address. -/
def isFrameCompleteAt
    (blob : Blob)
    (pc : Address) :
    Except Abort Bool :=
  match blob.frameCompleteOffset with
  | none => .ok false
  | some offset =>
      if blob.contains pc then
        (blob.start.plus offset).map (· ≤ pc)
      else
        .ok false

/-- The reference map for a return address. -/
def oopMapAt?
    (blob : Blob)
    (pc : Address) :
    Option OopMap := do
  let offset ← pc.sub? blob.start
  guard (offset.toNat < UInt32.size)
  let maps ← blob.oopMaps
  maps.find? offset.toUInt32

/-- The compiled unit that the blob holds, if it is compiled code. -/
def compiled? (blob : Blob) : Option CompiledUnit :=
  match blob.kind with
  | .compiled compiledUnit => some compiledUnit
  | _ => none

/-- Whether the blob is compiled code. -/
def isCompiled (blob : Blob) : Bool :=
  blob.compiled?.isSome

/-- Whether the blob is a runtime stub. -/
def isRuntimeStub (blob : Blob) : Bool :=
  blob.kind == .runtimeStub

/-- Whether the blob is an adapter. -/
def isAdapter (blob : Blob) : Bool :=
  blob.kind == .adapter

/-- Whether the blob is a safepoint stub. -/
def isSafepointStub (blob : Blob) : Bool :=
  blob.kind == .safepointStub

/-- The addresses that the blob names. -/
def namedPcs (blob : Blob) : List Address :=
  match blob.kind with
  | .callStub returnPc => [returnPc]
  | .ricochet bouncePc => [bouncePc]
  | .compiled compiledUnit => compiledUnit.namedPcs
  | _ => []

end Blob

end ManagedStack
