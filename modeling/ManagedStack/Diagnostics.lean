namespace ManagedStack

/-!
# Diagnostics switches

What frame operations report or verify besides their work.  The switches are
passed along explicitly; nothing is global.
-/

/-- Switches consulted by frame operations. -/
structure Diagnostics where
  /-- Report every redirected return address. -/
  tracePcPatching : Bool := false
  /-- Report every check of a deoptimization dependency. -/
  traceDependencies : Bool := false
  /-- Report every sender step, at a level that is not kept. -/
  traceFrameWalk : Bool := false
  /-- The interpreter keeps a profiling cursor beside its position. -/
  profileInterpreter : Bool := false
  /-- Check monitor addresses against the monitor block while scanning. -/
  verifyMonitors : Bool := false
  deriving Repr, DecidableEq

end ManagedStack
