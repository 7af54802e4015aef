import ManagedStack.Frame.Walk

namespace ManagedStack

/-!
# Sending compiled frames back to the interpreter

A compiled frame is redirected by overwriting the return address that its callee
will use with a deoptimization handler of its unit; the address from before goes
into the records under the identity of the frame, so that walks still see the
frame where it really was.

Where a thread must not be patched while it returns from native code, another
thread's request is only recorded, and the owner carries it out later.
-/

/-- What a deoptimization request did. -/
inductive DeoptOutcome where
  /-- The return address now is this handler. -/
  | patched (handler : Address)
  /-- The owning thread will deoptimize the frame itself. -/
  | deferred
  /-- The frame is already marked for its owner. -/
  | alreadyPending
  | alreadyDeoptimized
  deriving Repr, DecidableEq

/-- Who asks for deoptimization, and under which circumstances. -/
structure DeoptRequest where
  safepoint : Safepoint
  /-- Whether a thread may not be patched while it returns from native code. -/
  needsSuspend : Bool
  /-- Whether the request comes from the thread that owns the frame. -/
  byOwner : Bool
  deriving Repr, DecidableEq

/-- A frame whose record is to be dropped once it has been replaced. -/
structure DeoptSource where
  frameId : Address
  /-- Any address inside the compiled unit. -/
  pc : Address
  deriving Repr, DecidableEq

namespace DeoptSource

/-- The source that stands for a frame. -/
def ofFrame (frame : Frame) : DeoptSource :=
  ⟨frame.id, frame.pc⟩

/-- Drop the record of the replaced frame and return the recorded address. -/
def release
    (source : DeoptSource)
    (env : Env) :
    Operation Machine ε (Option Address) := do
  match (env.code.find? source.pc).filter Blob.isCompiled with
  | none => return none
  | some blob =>
      let machine ← Operation.state
      let recorded := machine.records.displacedPc? blob.start source.frameId
      Machine.updateRecords fun records =>
        records.forget blob.start source.frameId
      return recorded

end DeoptSource

namespace Frame

/-- The view of a frame after its return address was overwritten. -/
def repointed
    (frame : Frame)
    (view : View)
    (pc : Address) :
    Frame :=
  let blob := view.code.find? pc
  let atHandler : Frame := { frame with pc := pc, blob := blob }
  if atHandler.resumesAtHandler &&
      (atHandler.recordedPc? view.records).isSome then
    { frame with blob := blob, deoptState := .deoptimized }
  else
    { atHandler with deoptState := .notDeoptimized }

/--
Overwrite the return address that the frame resumes at.

A view whose address from before is on record keeps it and becomes deoptimized.
-/
def patchPc
    (frame : Frame)
    (env : Env)
    (pc : Address) :
    Operation Machine FrameError Frame := do
  let slot := frame.sp.offset (-1)
  if env.diagnostics.tracePcPatching then
    let old ← Machine.look env fun view => view.stack.read slot
    Operation.report (.returnAddressPatched slot old pc)
  Machine.write slot pc
  Machine.look env fun view => pure (frame.repointed view pc)

/-- Whether the thread's next return from native code lands in this frame. -/
def isReturnedToFromNative
    (frame : Frame)
    (view : View)
    (thread : Thread)
    (safepoint : Safepoint) :
    Probe FrameError Bool := do
  let wasNative := (safepoint.stateOf? thread.id).any ThreadState.isNative
  if !wasNative || !thread.hasLastFrame then
    return false
  else
    let last ← thread.lastFrame view
    let caller ← (last.sender view (RegisterMap.empty false)).1
    return caller.id == frame.id

/-- Record the address of a frame and redirect it to its handler. -/
def redirect
    (frame : Frame)
    (env : Env)
    (blob : Blob)
    (compiled : CompiledUnit) :
    Operation Machine FrameError (DeoptOutcome × Frame) := do
  let handler := compiled.handlerFor frame.pc
  Machine.updateRecords fun records =>
    records.record blob.start frame.id frame.pc
  let patched ← frame.patchPc env handler
  return (.patched handler, patched)

/-- Mark a frame for the thread that owns it. -/
def deferToOwner (frame : Frame) : Operation Machine ε Unit :=
  Machine.updateThread fun thread =>
    { thread with mustDeoptId := frame.id, deoptSuspended := true }

/--
Redirect a frame to its handler, or leave that to the thread that owns it.

The request is idempotent: a frame that is already redirected keeps its record.
-/
def deoptimize
    (frame : Frame)
    (env : Env)
    (request : DeoptRequest) :
    Operation Machine FrameError (DeoptOutcome × Frame) := do
  if frame.kind ≠ .compiled then
    Operation.fail (.wrongKind .compiled frame.kind)
  else if frame.deoptState = .deoptimized then
    return (.alreadyDeoptimized, frame)
  else if !frame.canBeDeoptimized then
    Operation.fail (.notDeoptimizable frame.sp)
  else
    match frame.blob, frame.compiled? with
    | some blob, some compiled =>
        if request.needsSuspend && !request.byOwner then
          if !request.safepoint.active then
            Operation.fail .notAtSafepoint
          else
            let machine ← Operation.state
            let thread := machine.thread
            if thread.deoptSuspended && thread.mustDeoptId == frame.id then
              return (.alreadyPending, frame)
            else if ← Machine.look env fun view =>
                frame.isReturnedToFromNative view thread request.safepoint then
              frame.deferToOwner
              return (.deferred, frame)
            else
              frame.redirect env blob compiled
        else
          frame.redirect env blob compiled
    | _, _ => Operation.fail (.notDeoptimizable frame.sp)

end Frame

/--
Carry out a deferred request on the thread that was marked.

The answer is `none` when nothing was pending or the marked frame is gone.
-/
def processDeferred
    (env : Env)
    (request : DeoptRequest) :
    Operation Machine FrameError (Option DeoptOutcome) := do
  let machine ← Operation.state
  let thread := machine.thread
  if !thread.deoptSuspended then
    return none
  else
    Operation.check (require .deferredWorkOnOwner request.byOwner)
    let target := thread.mustDeoptId
    let stream ← Machine.look env fun view => thread.frameStream view false
    let marked ← Machine.look env fun view =>
      stream.find? view
        (fun walked =>
          walked.frame.id == target && walked.frame.kind == .compiled)
        FrameStream.itemLimit
    let outcome ←
      match marked with
      | some walked => do
          let (outcome, _) ← walked.frame.deoptimize env request
          Operation.answer (some outcome)
      | none => do
          Operation.report (.markedFrameGone (threadText thread.id) target)
          Operation.answer none
    Machine.updateThread fun thread =>
      { thread with mustDeoptId := 0, deoptSuspended := false }
    return outcome

end ManagedStack
