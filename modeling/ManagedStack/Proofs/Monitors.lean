import ManagedStack.Frame.Monitors
import ManagedStack.Proofs.Memory

namespace ManagedStack.Frame

/-!
# Blocks of monitors

The monitors of a frame lie side by side between its stack pointer and its fixed slots.
A block is known by its lowest monitor and by how many there are; every bound that a
function checks follows from these two and from where the frame pointer is.
-/

/-- A field that is held is read without a note. -/
theorem field_of_holds
    {view : View}
    {frame : Frame}
    {offset : Int}
    {word : Word}
    (holds : view.stack.Holds (frame.fp.offset offset) word) :
    frame.field view offset = pure word :=
  Stack.read_of_holds holds

variable {frame : Frame} {view : View} {lowest monitor : Address} {count : Nat}

/-- The frame has this many monitors, from the lowest one up to the fixed slots. -/
structure HasMonitors
    (frame : Frame)
    (view : View)
    (lowest : Address)
    (count : Nat) :
    Prop where
  layout : view.layout = .x86_64
  holds : view.stack.Holds (frame.fp.offset (-9)) lowest
  spLe : frame.sp.toNat ≤ lowest.toNat
  extent : lowest.toNat + 16 * count + 72 = frame.fp.toNat

/-- Where the monitor at an index lies. -/
theorem toNat_spaced
    {index : Nat}
    (fits : lowest.toNat + 16 * index < 0x10000000000000000) :
    (lowest + UInt64.ofNat index * 16).toNat = lowest.toNat + 16 * index := by
  have sixteen : (16 : Word).toNat = 16 := rfl
  rw [UInt64.toNat_add, UInt64.toNat_mul, UInt64.toNat_ofNat', sixteen]
  omega

theorem toNat_monitorOwner
    (monitor : Address)
    (fits : monitor.toNat + 8 < 0x10000000000000000) :
    (monitorOwner monitor).toNat = monitor.toNat + 8 :=
  Word.toNat_offset_of_fits (by omega) fits

/-- An address is listed when it is whole monitors above the lowest and in the block. -/
theorem mem_spaced_iff (fits : lowest.toNat + 16 * count < 0x10000000000000000) :
    monitor ∈ spaced lowest 16 count ↔
      lowest.toNat ≤ monitor.toNat ∧ monitor.toNat < lowest.toNat + 16 * count ∧
        (monitor.toNat - lowest.toNat) % 16 = 0 := by
  simp only [spaced, List.mem_map, List.mem_range]
  constructor
  · rintro ⟨index, inside, rfl⟩
    rw [toNat_spaced (by omega)]
    omega
  · rintro ⟨above, below, whole⟩
    refine ⟨(monitor.toNat - lowest.toNat) / 16, by omega, UInt64.toNat_inj.mp ?_⟩
    rw [toNat_spaced (by omega)]
    omega

theorem monitorBytes_x86_64 : FrameLayout.x86_64.monitorBytes = .ok 16 :=
  rfl

theorem modulo_sixteen (word : Word) : word.modulo 16 = .ok (word % 16) :=
  rfl

/-- One address is whole monitors above another. -/
theorem sub_mod_sixteen_iff
    {high low : Address}
    (le : low.toNat ≤ high.toNat) :
    (high - low) % 16 = 0 ↔ (high.toNat - low.toNat) % 16 = 0 := by
  rw [← UInt64.toNat_inj, UInt64.toNat_mod,
    UInt64.toNat_sub_of_le _ _ (UInt64.le_iff_toNat_le.mpr le)]
  rfl

/-- The slot that the block ends at. -/
theorem toNat_monitorBegin
    (frame : Frame)
    (high : 72 ≤ frame.fp.toNat) :
    (frame.monitorBegin .x86_64).toNat + 72 = frame.fp.toNat := by
  have moved := Word.toNat_offset frame.fp (-9)
  have small := frame.fp.toNat_lt
  change (frame.fp.offset (-9)).toNat + 72 = _
  omega

namespace HasMonitors

/-- The slot that bounds the block has its lowest monitor. -/
theorem field_eq (has : frame.HasMonitors view lowest count) :
    frame.field view view.layout.monitorBlockTop = pure lowest := by
  rw [has.layout]
  exact field_of_holds has.holds

/-- The lowest monitor passes the checks that bound it. -/
theorem monitorEnd_eq (has : frame.HasMonitors view lowest count) :
    frame.monitorEnd view = pure lowest := by
  have extent := has.extent
  have aboveSp : decide (frame.sp ≤ lowest) = true :=
    decide_eq_true (UInt64.le_iff_toNat_le.mpr has.spLe)
  have belowFp : decide (lowest < frame.fp) = true :=
    decide_eq_true (UInt64.lt_iff_toNat_lt.mpr (by omega))
  unfold monitorEnd
  simp only [has.field_eq, pure_bind, aboveSp, belowFp, require, if_true]
  rfl

/-- The listed addresses are those of the block. -/
theorem mem_spaced_iff (has : frame.HasMonitors view lowest count) :
    monitor ∈ spaced lowest 16 count ↔
      lowest.toNat ≤ monitor.toNat ∧ monitor.toNat < lowest.toNat + 16 * count ∧
        (monitor.toNat - lowest.toNat) % 16 = 0 := by
  have extent := has.extent
  have small := frame.fp.toNat_lt
  exact Frame.mem_spaced_iff (by omega)

/--
The monitors are spaced from the lowest up to the fixed slots.  Nothing wraps around
there, so that the words count as natural numbers do.
-/
theorem monitors_eq (has : frame.HasMonitors view lowest count) :
    frame.monitors view = pure (spaced lowest 16 count) := by
  have extent := has.extent
  have small := frame.fp.toNat_lt
  have highest := toNat_monitorBegin frame (by omega)
  have ordered : lowest.toNat ≤ (frame.monitorBegin .x86_64).toNat := by omega
  have difference := UInt64.toNat_sub_of_le _ _ (UInt64.le_iff_toNat_le.mpr ordered)
  have block : (frame.monitorBegin .x86_64).sub? lowest =
      some (frame.monitorBegin .x86_64 - lowest) :=
    Word.sub?_eq_some.mpr ⟨ordered, rfl⟩
  have notBelow : ¬lowest < frame.sp := by
    rw [UInt64.lt_iff_toNat_lt]
    exact Nat.not_lt.mpr has.spLe
  have noExcess : (frame.monitorBegin .x86_64 - lowest) % 16 = 0 :=
    (sub_mod_sixteen_iff ordered).mpr (by omega)
  have counted : ((frame.monitorBegin .x86_64 - lowest) / 16).toNat = count := by
    rw [UInt64.toNat_div, difference]
    change _ / 16 = count
    omega
  have few : requireCapacity ((frame.monitorBegin .x86_64 - lowest) / 16) = .ok () := by
    refine if_pos (UInt64.lt_iff_toNat_lt.mpr ?_)
    rw [counted]
    change count < 0x1000000000000000
    omega
  unfold monitors
  simp only [has.field_eq, pure_bind]
  simp only [has.layout, monitorBytes_x86_64, Probe.check_ok, pure_bind, block,
    Probe.demand_some, notBelow, if_false, modulo_sixteen, noExcess, if_true, few, counted]

/--
The verifier passes the addresses that are listed and no others.  Outside the block a
distance may wrap around, so the bounds come before the remainders.
-/
theorem verifyMonitor_eq
    (has : frame.HasMonitors view lowest count)
    (monitor : Address) :
    frame.verifyMonitor view monitor = pure (decide (monitor ∈ spaced lowest 16 count)) := by
  have extent := has.extent
  have small := frame.fp.toNat_lt
  have highest := toNat_monitorBegin frame (by omega)
  unfold verifyMonitor
  simp only [has.monitorEnd_eq, has.layout, monitorBytes_x86_64, Probe.check_ok, pure_bind,
    modulo_sixteen]
  by_cases inside : lowest.toNat ≤ monitor.toNat ∧ monitor.toNat < lowest.toNat + 16 * count
  · obtain ⟨above, below⟩ := inside
    have inBlock : ¬(decide (monitor < lowest) ||
        decide (frame.monitorBegin .x86_64 ≤ monitor)) = true := by
      simp only [Bool.or_eq_true, decide_eq_true_eq, UInt64.lt_iff_toNat_lt,
        UInt64.le_iff_toNat_le]
      omega
    rw [if_neg inBlock]
    refine congrArg pure (Bool.eq_iff_iff.mpr ?_)
    rw [Bool.and_eq_true, decide_eq_true_iff, decide_eq_true_iff, decide_eq_true_iff,
      has.mem_spaced_iff, sub_mod_sixteen_iff (by omega), sub_mod_sixteen_iff above]
    omega
  · have outside : (decide (monitor < lowest) ||
        decide (frame.monitorBegin .x86_64 ≤ monitor)) = true := by
      simp only [Bool.or_eq_true, decide_eq_true_eq, UInt64.lt_iff_toNat_lt,
        UInt64.le_iff_toNat_le]
      omega
    rw [if_pos outside, decide_eq_false (mt has.mem_spaced_iff.mp (by omega))]

theorem gives_verifyMonitor_iff
    (has : frame.HasMonitors view lowest count) :
    (frame.verifyMonitor view monitor).Gives true ↔ monitor ∈ spaced lowest 16 count := by
  rw [has.verifyMonitor_eq, Probe.gives_pure, eq_comm, decide_eq_true_iff]

end HasMonitors

/-- A frame whose monitors can be listed has them. -/
theorem exists_hasMonitors
    {listed : List Address}
    (layout : view.layout = .x86_64)
    (high : 72 ≤ frame.fp.toNat)
    (gives : (frame.monitors view).Gives listed) :
    ∃ lowest count, frame.HasMonitors view lowest count ∧ listed = spaced lowest 16 count := by
  have highest := toNat_monitorBegin frame high
  unfold monitors at gives
  simp only [layout, Probe.gives_bind, Probe.gives_check, Probe.gives_demand,
    monitorBytes_x86_64] at gives
  obtain ⟨lowest, read, size, sizeIs, block, taken, rest⟩ := gives
  obtain rfl := Except.ok.inj sizeIs
  obtain ⟨below, rfl⟩ := Word.sub?_eq_some.mp taken
  simp only [Probe.gives_ite, Probe.gives_bind, Probe.gives_check, Probe.gives_fail,
    Probe.gives_pure, modulo_sixteen, Except.ok.injEq, exists_eq_left', and_false, false_or,
    or_false] at rest
  obtain ⟨notBelow, noExcess, -, -, rfl⟩ := rest
  have difference := UInt64.toNat_sub_of_le _ _ (UInt64.le_iff_toNat_le.mpr below)
  have counted : ((frame.monitorBegin .x86_64 - lowest) / 16).toNat =
      ((frame.monitorBegin .x86_64).toNat - lowest.toNat) / 16 := by
    rw [UInt64.toNat_div, difference]
    rfl
  have whole := (sub_mod_sixteen_iff below).mp noExcess
  have spLe : frame.sp.toNat ≤ lowest.toNat := by
    rw [UInt64.lt_iff_toNat_lt] at notBelow
    omega
  refine ⟨lowest, _, ⟨layout, Stack.gives_read.mp read, spLe, ?_⟩, rfl⟩
  omega

end ManagedStack.Frame
