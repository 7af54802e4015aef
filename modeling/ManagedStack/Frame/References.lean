import ManagedStack.CallingConvention
import ManagedStack.Frame.ExpressionStack
import ManagedStack.Frame.Sender

namespace ManagedStack.Frame

/-!
# The references a frame holds

Visitors receive the addresses of slots and not their values, so that a collector
can update references in place.  An interpreted frame reports its monitors' owners,
its fixed reference slots, and the locals and expressions that the mask at its
position marks; an entry frame reports its handles; generated code reports what its
reference map says.  Outgoing arguments are reported by the caller only while the
callee has no frame that would report them.
-/

/-- Visit the owners of the monitors, verifying each if asked to. -/
def visitMonitors
    (frame : Frame)
    (view : View) :
    List Address → Probe FrameError Unit
  | [] => pure ()
  | monitor :: rest => do
      if view.diagnostics.verifyMonitors then
        if !(← frame.verifyMonitor view monitor) then
          Probe.report (.misalignedMonitor monitor frame.sp)
          Probe.fail (.access (.misaligned monitor))
      Probe.visit (monitorOwner monitor)
      frame.visitMonitors view rest

/--
Distance from the last argument of each reference among arguments.

The list starts `slots` slots above the last argument, and the receiver, if any,
comes first.
-/
def referenceDistances : Nat → List BasicType → List Nat
  | _, [] => []
  | slots, type :: rest =>
      let below := slots - type.slots
      if type.isReference then
        below :: referenceDistances below rest
      else
        referenceDistances below rest

/-- Visit expression stack slots given by their distance from the top. -/
def visitFromTop
    (frame : Frame)
    (view : View) :
    List Nat → Probe FrameError Unit
  | [] => pure ()
  | distance :: rest => do
      let slot ← frame.topSlot view distance
      Probe.visit slot
      frame.visitFromTop view rest

/-- The types of the arguments of a call, the receiver first. -/
def argumentTypes
    (signature : Signature)
    (hasReceiver : Bool) :
    List BasicType :=
  if hasReceiver then
    BasicType.object :: signature.parameters
  else
    signature.parameters

/-- Visit the references among the arguments on top of the expression stack. -/
def visitOutgoingArguments
    (frame : Frame)
    (view : View)
    (signature : Signature)
    (hasReceiver : Bool) :
    Probe FrameError Unit :=
  frame.visitFromTop view
    (referenceDistances (signature.slotsWith hasReceiver)
      (argumentTypes signature hasReceiver))

/-- Visit the arguments of the invoke a frame waits at, if they are its own. -/
def visitPendingArguments
    (frame : Frame)
    (view : View)
    (map : RegisterMap)
    (site : InvokeSite) :
    Probe FrameError Unit := do
  let count ← frame.expressionCount view
  if map.includeArgumentOops && 0 < count &&
      site.argumentSlots ≤ count.toNat then
    frame.visitOutgoingArguments view site.signature site.hasReceiver

/-- Visit the locals with the given indices. -/
def visitLocals
    (frame : Frame)
    (view : View) :
    List Nat → Probe FrameError Unit
  | [] => pure ()
  | index :: rest => do
      let slot ← frame.localSlot view index
      Probe.check (require .localInsideFrame (frame.sp ≤ slot))
      Probe.visit slot
      frame.visitLocals view rest

/--
Visit the expression stack entries with the given indices.

A throw resets the stack, so that entries above its top are dead.
-/
def visitExpressions
    (frame : Frame)
    (view : View)
    (top : Address) :
    List Nat → Probe FrameError Unit
  | [] => pure ()
  | index :: rest => do
      let slot ← frame.expressionSlot view index
      if top ≤ slot then
        Probe.visit slot
      frame.visitExpressions view top rest

/-- Visit the references of an interpreted frame. -/
def visitInterpreted
    (frame : Frame)
    (view : View)
    (map : RegisterMap) :
    Probe FrameError Unit := do
  let method ← frame.method view
  let bci ← frame.bci view
  let monitors ← frame.monitors view
  frame.visitMonitors view monitors
  Probe.visit (frame.methodSlot view.layout)
  Probe.visit (frame.cacheSlot view.layout)
  if method.isNative then
    Probe.visit (frame.oopTempSlot view.layout)
  else
    match method.invokeAt? bci with
    | some site => frame.visitPendingArguments view map site
    | none => pure ()
  let mask ←
    Probe.demand (method.maskAt? bci)
      (.missingInterpreterOopMap method.name bci)
  let localCount :=
    if method.isNative then method.parameterSlots else method.maxLocals
  frame.visitLocals view (mask.oopLocals.filter (· < localCount))
  let top ← frame.expressionTop view
  frame.visitExpressions view top
    (mask.oopExpressions.filter (· < method.maxStack.toNat))

/--
Visit the reference parameters that an entry frame passes.

The first parameter lies at the given distance above the unextended stack pointer
and the others below it.
-/
def visitEntryParameters
    (frame : Frame) :
    Int → List BasicType → Probe ε Unit
  | _, [] => pure ()
  | distance, type :: rest => do
      if type.isReference then
        Probe.visit (frame.unextendedSp.offset distance)
      frame.visitEntryParameters (distance - type.slots) rest

/-- Visit the receiver and the reference parameters an entry frame passes. -/
def visitEntryArguments
    (frame : Frame)
    (method : Method) :
    Probe ε Unit := do
  let slots := method.signature.slots
  if !method.isStatic then
    Probe.visit (frame.entryArgument slots)
  frame.visitEntryParameters (slots - 1) method.signature.parameters

/-- Visit the references of an entry frame. -/
def visitEntry
    (frame : Frame)
    (view : View)
    (map : RegisterMap) :
    Probe FrameError Unit := do
  let wrapper ← frame.callWrapper view
  if map.includeArgumentOops then
    let word ← wrapper.callee view.stack
    let method ← Probe.demand (view.methods.find? word) (.unknownMethod word)
    frame.visitEntryArguments method
  wrapper.visitHandles view.stack

/-- Stack address of an argument location. -/
def argumentSlot
    (frame : Frame)
    (map : RegisterMap) :
    ArgumentLocation → Probe FrameError Address
  | .register register =>
      Probe.demand (map.location? register) (.missingRegisterLocation register)
  | .float _ => Probe.fail (.unscannableFrame frame.kind)
  | .stack slot => pure (frame.unextendedSp.offset slot.toNat)

/-- Visit the reference arguments of a compiled call. -/
def visitCompiledArguments
    (frame : Frame)
    (map : RegisterMap)
    (locations : List (Option ArgumentLocation)) :
    Nat → List BasicType → Probe FrameError Unit
  | _, [] => pure ()
  | index, type :: rest => do
      if type.isReference then
        match locations[index]?.join with
        | some location =>
            let slot ← frame.argumentSlot map location
            Probe.visit slot
        | none => pure ()
      frame.visitCompiledArguments map locations (index + type.slots) rest

/-- Visit the reference arguments of a call with a signature. -/
def visitCallArguments
    (frame : Frame)
    (map : RegisterMap)
    (signature : Signature)
    (hasReceiver : Bool) :
    Probe FrameError Unit := do
  let locations ←
    Probe.check (CallingConvention.locations signature hasReceiver)
  frame.visitCompiledArguments map locations 0
    (argumentTypes signature hasReceiver)

/-- Visit the saved locations of registers. -/
def visitRegisters
    (map : RegisterMap) :
    List Register → Probe FrameError Unit
  | [] => pure ()
  | register :: rest => do
      let slot ←
        Probe.demand (map.location? register)
          (.missingRegisterLocation register)
      Probe.visit slot
      visitRegisters map rest

/-- Visit frame slots given in words above the unextended stack pointer. -/
def visitFrameSlots
    (frame : Frame) :
    List Nat → Probe ε Unit
  | [] => pure ()
  | slot :: rest => do
      Probe.visit (frame.unextendedSp.offset slot)
      frame.visitFrameSlots rest

/-- Visit the arguments of a call whose callee has no frame of its own yet. -/
def visitCalleeArguments
    (frame : Frame)
    (map : RegisterMap) :
    Probe FrameError Unit :=
  match frame.compiled? with
  | none => pure ()
  | some compiled =>
      if compiled.isNative then
        pure ()
      else
        match compiled.callSiteAt? frame.pc with
        | some callee =>
            frame.visitCallArguments map callee.signature callee.hasReceiver
        | none => pure ()

/-- Visit what the reference map of a blob says about a frame. -/
def visitOopMap
    (frame : Frame)
    (map : RegisterMap)
    (blob : Blob) :
    Probe FrameError Unit := do
  let oopMap ←
    Probe.demand (blob.oopMapAt? frame.pc) (.missingOopMap blob.name frame.pc)
  visitRegisters map oopMap.oopRegisters
  frame.visitFrameSlots oopMap.oopSlots
  if map.includeArgumentOops then
    frame.visitCalleeArguments map

/-- Visit the references of a frame in generated code, and its blob. -/
def visitGenerated
    (frame : Frame)
    (view : View)
    (map : RegisterMap) :
    Probe FrameError Unit := do
  match frame.blob with
  | none => Probe.fail (.unscannableFrame frame.kind)
  | some blob =>
      if frame.kind = .ricochet then
        view.adapters.visit view.surroundings frame map
      if blob.oopMaps.isSome then
        frame.visitOopMap map blob
      Probe.note (.blob blob)

/-- Visit every reference slot of a frame. -/
def visitReferences
    (frame : Frame)
    (view : View)
    (map : RegisterMap) :
    Probe FrameError Unit :=
  match frame.kind with
  | .interpreted => frame.visitInterpreted view map
  | .entry => frame.visitEntry view map
  | .native => Probe.fail (.unscannableFrame .native)
  | _ => frame.visitGenerated view map

/-- The receiver of the call that a compiled frame is making. -/
def retrieveReceiver
    (frame : Frame)
    (view : View)
    (map : RegisterMap) :
    Probe FrameError Word := do
  let slot ← frame.argumentSlot map (.register Register.receiver)
  view.stack.read slot

/-- The compiled blob that a frame runs in, if any. -/
def compiledBlob? (frame : Frame) : Option Blob :=
  frame.blob.filter Blob.isCompiled

/-- Switch an interpreted frame to the index form of its position. -/
def beginScan
    (frame : Frame)
    (env : Env) :
    Operation Machine FrameError Unit := do
  if frame.kind = .interpreted then
    let index ← Machine.look env frame.bci
    frame.setBcx env index.toUInt64

/-- Switch an interpreted frame back to the address form of its position. -/
def endScan
    (frame : Frame)
    (env : Env) :
    Operation Machine FrameError Unit := do
  if frame.kind = .interpreted then
    let position ← Machine.look env frame.bcp
    frame.setBcx env position

end ManagedStack.Frame
