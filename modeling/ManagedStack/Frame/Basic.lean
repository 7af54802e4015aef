import ManagedStack.CallWrapper
import ManagedStack.Code.DeoptRecords
import ManagedStack.Diagnostics
import ManagedStack.Frame.RegisterMap
import ManagedStack.Layout
import ManagedStack.Method

namespace ManagedStack

/-!
# Frames

A frame is a copyable view of one activation: its stack pointer, its unextended
stack pointer, its frame pointer, the address it resumes at, the blob containing
that address, and whether it has been redirected to a deoptimization handler.
Views own nothing; they are built again after the stack moved.

For a redirected frame the view holds the address from before, found in the
records under the identity of the frame, which is its unextended stack pointer.

The frames of method-handle adapters are laid out as the runtime likes.  What it
knows of them is a parameter of everything that walks or scans frames.
-/

/-- Whether a frame is known to have been redirected to a handler. -/
inductive DeoptState where
  | unknown
  | notDeoptimized
  | deoptimized
  deriving Repr, DecidableEq

/-- A view of one activation. -/
structure Frame where
  sp : Address
  unextendedSp : Address
  fp : Address
  /-- Where the frame resumes, or would have before it was redirected. -/
  pc : Address
  blob : Option Blob
  deoptState : DeoptState
  deriving Repr, DecidableEq

/-- What there is to know of a stack and its frames, apart from adapters. -/
structure Surroundings where
  code : CodeCache
  methods : MethodTable
  layout : FrameLayout
  diagnostics : Diagnostics
  stack : Stack
  records : DeoptRecords

/-- Layout knowledge for method-handle adapter frames, which a runtime supplies. -/
structure AdapterResolver where
  /-- The caller of an adapter frame; the step may record where registers lie. -/
  sender : Surroundings → Frame → Operation RegisterMap FrameError Frame
  /-- Visit the references that an adapter frame keeps besides its reference map. -/
  visit : Surroundings → Frame → RegisterMap → Probe FrameError Unit

/-- The resolver of runtimes without adapter frames, for which to meet one is an error. -/
def AdapterResolver.noAdapters : AdapterResolver where
  sender _ frame := Operation.fail (.unsupportedAdapter frame.pc)
  visit _ frame _ := Probe.fail (.unsupportedAdapter frame.pc)

/-- What does not change while threads run. -/
structure Env where
  code : CodeCache
  methods : MethodTable
  layout : FrameLayout
  diagnostics : Diagnostics
  adapters : AdapterResolver

/-- Everything a frame needs to make sense of stack words. -/
structure View extends Env where
  stack : Stack
  records : DeoptRecords

/-- What a resolver of adapter frames gets to see. -/
def View.surroundings (view : View) : Surroundings where
  code := view.code
  methods := view.methods
  layout := view.layout
  diagnostics := view.diagnostics
  stack := view.stack
  records := view.records

namespace Frame

/-- The compiled unit that the frame runs in. -/
def compiled? (frame : Frame) : Option CompiledUnit :=
  frame.blob.bind Blob.compiled?

/-- Stable identity of the activation. -/
def id (frame : Frame) : Address :=
  frame.unextendedSp

/-- The kind of the activation. -/
def kind (frame : Frame) : FrameKind :=
  match frame.blob with
  | none => .native
  | some blob =>
      match blob.kind with
      | .interpreter => .interpreted
      | .callStub returnPc => if returnPc = frame.pc then .entry else .stub
      | .compiled compiledUnit =>
          if compiledUnit.isNative then .nativeWrapper else .compiled
      | .ricochet bouncePc => if bouncePc = frame.pc then .ricochet else .stub
      | .runtimeStub => .stub
      | .adapter => .stub
      | .safepointStub => .stub

/-- Whether the activation runs managed code, interpreted or compiled. -/
def isJava (frame : Frame) : Bool :=
  frame.kind == .interpreted || frame.kind == .compiled

/-- Whether the frame is in a runtime stub. -/
def isRuntime (frame : Frame) : Bool :=
  frame.blob.any Blob.isRuntimeStub

/-- Whether the frame is in a safepoint stub. -/
def isSafepoint (frame : Frame) : Bool :=
  frame.blob.any Blob.isSafepointStub

/-- Two views are the same frame when their registers agree. -/
def sameAs
    (frame other : Frame) :
    Bool :=
  frame.sp == other.sp && frame.unextendedSp == other.unextendedSp &&
    frame.fp == other.fp && frame.pc == other.pc

/-- The record of the address this frame had before it was redirected. -/
def recordedPc?
    (frame : Frame)
    (records : DeoptRecords) :
    Option Address :=
  frame.blob.bind fun blob => records.displacedPc? blob.start frame.id

/-- Whether the frame resumes at a deoptimization handler. -/
def resumesAtHandler (frame : Frame) : Bool :=
  frame.compiled?.any (·.isDeoptPc frame.pc)

/-- Decide whether the frame is redirected, and restore its own address. -/
def resolve
    (frame : Frame)
    (view : View) :
    Probe ε Frame :=
  if frame.resumesAtHandler then
    match frame.recordedPc? view.records with
    | some displaced =>
        pure { frame with pc := displaced, deoptState := .deoptimized }
    | none => do
        Probe.report (.unrecordedDisplacedPc frame.sp frame.pc)
        return { frame with deoptState := .notDeoptimized }
  else
    pure { frame with deoptState := .notDeoptimized }

/-- A method-handle return takes the unextended stack pointer from fp. -/
def adjust (frame : Frame) : Frame :=
  match frame.compiled? with
  | some compiled =>
      if frame.pc = compiled.methodHandleDeoptHandler ||
          compiled.isMethodHandleReturn frame.pc then
        { frame with unextendedSp := frame.fp }
      else
        frame
  | none => frame

/-- A view that has not been resolved. -/
def unresolved
    (view : View)
    (sp unextendedSp fp pc : Address) :
    Frame where
  sp := sp
  unextendedSp := unextendedSp
  fp := fp
  pc := pc
  blob := view.code.find? pc
  deoptState := .unknown

/-- A frame whose unextended stack pointer is its stack pointer. -/
def plain
    (view : View)
    (sp fp pc : Address) :
    Probe ε Frame :=
  (unresolved view sp sp fp pc).resolve view

/-- A frame whose caller may have extended the stack below it. -/
def extended
    (view : View)
    (sp unextendedSp fp pc : Address) :
    Probe ε Frame :=
  (unresolved view sp unextendedSp fp pc).adjust.resolve view

/-- The address that execution will really return to. -/
def rawPc (frame : Frame) : Address :=
  match frame.deoptState, frame.compiled? with
  | .deoptimized, some compiled => compiled.handlerFor frame.pc
  | _, _ => frame.pc

/-- Change the address of this view only; the stack is left alone. -/
def withPc
    (frame : Frame)
    (view : View)
    (pc : Address) :
    Except Abort Frame := do
  require .resolvedFramePc !frame.resumesAtHandler
  return { frame with
    pc := pc, blob := view.code.find? pc, deoptState := .unknown }

/-- Whether the frame has been redirected; asked only of resolved frames. -/
def isDeoptimized (frame : Frame) : Except Abort Bool := do
  require .deoptimizationKnown (frame.deoptState != .unknown)
  return frame.deoptState == .deoptimized

/-- Whether the frame's unit allows redirecting it where it is. -/
def canBeDeoptimized (frame : Frame) : Bool :=
  frame.kind == .compiled &&
    frame.compiled?.any fun compiled =>
      compiled.deoptimizable && !compiled.isPollReturn frame.pc

/-- Whether the frame should be redirected, being marked and not returning. -/
def shouldBeDeoptimized
    (frame : Frame)
    (view : View) :
    Probe ε Bool :=
  if frame.deoptState == .deoptimized || frame.kind != .compiled then
    pure false
  else
    match frame.blob, frame.compiled? with
    | some blob, some compiled => do
        let marked := view.records.isMarked blob.start
        if view.diagnostics.traceDependencies then
          Probe.report (.dependencyChecked marked blob.name)
        return marked && !compiled.isPollReturn frame.pc
    | _, _ => pure false

/-- Address of the field at a word offset from the frame pointer. -/
def slot
    (frame : Frame)
    (offset : Int) :
    Address :=
  frame.fp.offset offset

/-- The field at a word offset from the frame pointer. -/
def field
    (frame : Frame)
    (view : View)
    (offset : Int) :
    Probe FrameError Word :=
  view.stack.read (frame.slot offset)

/-- The saved frame pointer of the caller. -/
def link
    (frame : Frame)
    (view : View) :
    Probe FrameError Address :=
  frame.field view view.layout.link

/-- The return address into the caller, found through the frame pointer. -/
def senderPc
    (frame : Frame)
    (view : View) :
    Probe FrameError Address :=
  frame.field view view.layout.returnAddress

/-- The caller's stack pointer, just above the return address. -/
def senderSp
    (frame : Frame)
    (view : View) :
    Address :=
  frame.slot view.layout.senderSp

/-- Make sure of the kind of a frame. -/
def expectKind
    (frame : Frame)
    (expected : FrameKind) :
    Probe FrameError Unit :=
  if frame.kind = expected then
    pure ()
  else
    Probe.fail (.wrongKind expected frame.kind)

/-- Address of the call wrapper, read from whatever frame this is. -/
def callWrapperAddress
    (frame : Frame)
    (view : View) :
    Probe FrameError Address :=
  frame.field view view.layout.entryCallWrapper

/-- The call wrapper of an entry frame. -/
def callWrapper
    (frame : Frame)
    (view : View) :
    Probe FrameError CallWrapper := do
  frame.expectKind .entry
  let address ← frame.callWrapperAddress view
  return ⟨address⟩

/-- Whether no managed activation lies above an entry frame. -/
def entryIsFirst
    (frame : Frame)
    (view : View) :
    Probe FrameError Bool := do
  let wrapper ← frame.callWrapper view
  let anchor ← wrapper.anchor view.stack
  return anchor.isEmpty

/-- Whether this is an entry frame with no managed activation above it. -/
def isFirst
    (frame : Frame)
    (view : View) :
    Probe FrameError Bool :=
  if frame.kind = .entry then frame.entryIsFirst view else pure false

/-- Argument slot of an entry frame; the last argument is at zero. -/
def entryArgument
    (frame : Frame)
    (index : Nat) :
    Address :=
  frame.unextendedSp.offset index

/-- The text of a frame. -/
def text (frame : Frame) : String :=
  let registers :=
    frame.kind.text ++ " frame (sp=" ++ frame.sp.hex ++ " unextended_sp=" ++
      frame.unextendedSp.hex ++ ", fp=" ++ frame.fp.hex ++ ", pc=" ++
      frame.pc.hex ++ ")"
  match frame.blob with
  | some blob => registers ++ " in " ++ blob.name
  | none => registers

end Frame

end ManagedStack
