import ManagedStack.Proofs.OwnWords
import ManagedStack.Proofs.Roots

namespace ManagedStack

/-!
# Monitors that are verified while they are scanned

A scan lists the monitors of an interpreted frame and may verify each before it visits
the owner.  Lister and verifier bound the block by different tests of one word, which
nothing vouches for.  Where the lister answers, the verifier has the same bounds, so
that the switch changes nothing about a scan.
-/

/-- The view of a process that does or does not verify monitors. -/
def View.verifying
    (view : View)
    (verify : Bool) :
    View :=
  { view with diagnostics := { view.diagnostics with verifyMonitors := verify } }

namespace Frame

variable {frame : Frame} {view : View} {lowest : Address} {count : Nat}

namespace HasMonitors

/-- The monitors do not depend on whether they are verified. -/
theorem verifying
    (has : frame.HasMonitors view lowest count)
    (verify : Bool) :
    frame.HasMonitors (view.verifying verify) lowest count :=
  ⟨has.layout, has.holds, has.spLe, has.extent⟩

/-- The owner of a monitor lies below the slot that bounds the block. -/
theorem toNat_monitorOwner_lt
    (has : frame.HasMonitors view lowest count)
    {monitor : Address}
    (listed : monitor ∈ spaced lowest 16 count) :
    (monitorOwner monitor).toNat < (frame.slot view.layout.monitorBlockTop).toNat := by
  have extent := has.extent
  have small := frame.fp.toNat_lt
  have highest := toNat_monitorBegin frame (by omega)
  obtain ⟨above, below, whole⟩ := has.mem_spaced_iff.mp listed
  have owner := toNat_monitorOwner monitor (by omega)
  rw [has.layout]
  change (monitorOwner monitor).toNat < (frame.monitorBegin .x86_64).toNat
  omega

/-- Updating the owners in place leaves the block where it is. -/
theorem of_keeps
    (has : frame.HasMonitors view lowest count)
    {after : Stack}
    (keeps : Stack.Keeps
      (fun place => ∀ monitor ∈ spaced lowest 16 count, (monitorOwner monitor).toNat ≠ place)
      view.stack after) :
    frame.HasMonitors { view with stack := after } lowest count where
  layout := has.layout
  holds := by
    have kept := keeps.word (frame.slot view.layout.monitorBlockTop) fun monitor listed =>
      Nat.ne_of_lt (has.toNat_monitorOwner_lt listed)
    rw [has.layout] at kept
    exact kept.trans has.holds
  spLe := has.spLe
  extent := has.extent

end HasMonitors

/--
Verifying the monitors of a frame never rejects one that is listed.

Whatever the stack pointer, the stack and the word that bounds the block are, a scan is
the same with the check and without it.
-/
structure VerifiesListed
    (frame : Frame)
    (view : View) :
    Prop where
  /-- Listed are the addresses that pass the check and no others. -/
  listed_iff : ∀ listed, (frame.monitors view).Gives listed →
    ∀ monitor, monitor ∈ listed ↔ (frame.verifyMonitor view monitor).Gives true
  /-- What the check asserts about its lower bound holds. -/
  bounded : ∀ listed, (frame.monitors view).Gives listed →
    ∃ lowest, frame.monitorEnd view = pure lowest
  /-- A visitor that updates owners in place changes no later verdict. -/
  steady : ∀ listed, (frame.monitors view).Gives listed →
    ∀ after, Stack.Keeps
        (fun place => ∀ monitor ∈ listed, (monitorOwner monitor).toNat ≠ place)
        view.stack after →
      ∀ monitor, frame.verifyMonitor { view with stack := after } monitor =
        frame.verifyMonitor view monitor
  /-- Verified or not, the owners of all monitors are visited. -/
  visits : ∀ listed, (frame.monitors view).Gives listed →
    ∀ verify, frame.visitMonitors (view.verifying verify) listed =
      Probe.visiting (listed.map monitorOwner)
  /-- A scan visits the same slots and ends the same way, listed monitors or none. -/
  indifferent : ∀ map,
    frame.visitInterpreted (view.verifying true) map =
      frame.visitInterpreted (view.verifying false) map

/-- A frame pointer that leaves room for the fixed slots is all that this takes. -/
theorem verifiesListed_of_x86_64
    (layout : view.layout = .x86_64)
    (high : 72 ≤ frame.fp.toNat) :
    frame.VerifiesListed view where
  listed_iff listed gives monitor := by
    obtain ⟨lowest, count, has, rfl⟩ := exists_hasMonitors layout high gives
    exact has.gives_verifyMonitor_iff.symm
  bounded listed gives := by
    obtain ⟨lowest, count, has, rfl⟩ := exists_hasMonitors layout high gives
    exact ⟨lowest, has.monitorEnd_eq⟩
  steady listed gives after keeps monitor := by
    obtain ⟨lowest, count, has, rfl⟩ := exists_hasMonitors layout high gives
    rw [(has.of_keeps keeps).verifyMonitor_eq, has.verifyMonitor_eq]
  visits listed gives verify := by
    obtain ⟨lowest, count, has, rfl⟩ := exists_hasMonitors layout high gives
    exact (has.verifying verify).visitMonitors_eq fun monitor listed => listed
  indifferent map := by
    have switched (verify : Bool) : frame.visitInterpreted (view.verifying verify) map =
        frame.visitInterpreted view map := by
      refine ReadsSame.visitInterpreted_eq ⟨rfl, rfl, fun _ _ => rfl⟩ fun listed gives => ?_
      obtain ⟨lowest, count, has, rfl⟩ := exists_hasMonitors layout high gives
      rw [(has.verifying verify).visitMonitors_eq fun monitor listed => listed,
        has.visitMonitors_eq fun monitor listed => listed]
    rw [switched true, switched false]

end Frame

namespace Locked

def method : Method where
  id := 0x10
  name := "Main.update"
  signature := ⟨[], .void⟩
  codeBase := 0x600000
  codeSize := 16
  masks := [(3, ⟨[], []⟩)]

def interpreter : Blob :=
  .ofRange "interpreter" 0x1000 0x2000 .interpreter

/-- The fixed slots of a frame at 0x7fc0, which bound the block from 0x7f58 on. -/
def stack : Stack where
  base := 0x8000
  words := (((Array.replicate 32 0).setIfInBounds 15 0x7f58).setIfInBounds 17
    0x600003).setIfInBounds 21 method.id
  base_aligned := Stack.aligned_8000
  fits := by simp
  allocated := by simp

def view : View where
  code := ⟨[interpreter]⟩
  methods := ⟨[method]⟩
  layout := .x86_64
  diagnostics := {}
  adapters := .noAdapters
  stack := stack
  records := {}

/-- A frame that holds two monitors. -/
def frame : Frame where
  sp := 0x7f40
  unextendedSp := 0x7f40
  fp := 0x7fc0
  pc := 0x1008
  blob := some interpreter
  deoptState := .notDeoptimized

/-- The scan visits two owners before the fixed slots, verified or not. -/
theorem verifiesListed_locked :
    frame.kind = .interpreted ∧
      (frame.monitors view).Gives [0x7f58, 0x7f68] ∧
      (∀ verify, frame.visitInterpreted (view.verifying verify) (.empty true) =
        Probe.visiting [0x7f60, 0x7f70, 0x7fa8, 0x7f98]) ∧
      frame.VerifiesListed view := by
  have verifies : frame.VerifiesListed view :=
    Frame.verifiesListed_of_x86_64 rfl (by decide)
  refine ⟨rfl, rfl, fun verify => ?_, verifies⟩
  cases verify
  · rfl
  · rw [verifies.indifferent]
    rfl

end Locked

end ManagedStack
