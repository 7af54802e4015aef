import ManagedStack.Activation
import ManagedStack.Proofs.Writes

namespace ManagedStack

/-!
# Where an activation sits

An activation *sits* on a stack when its registers describe a well-formed piece of
it: going up from the top entry come the expression stack, the monitors, the fixed
slots around the frame pointer, and the locals, none of them wrapping around and all
of them inside the stack.  With the x86-64 layout the fixed slots take nine words
below the frame pointer and two from it upward.  Whatever the engine or the manager
does to an activation, it goes on sitting where it sat.
-/

namespace Activation

/-- The registers of an activation describe a piece of the stack. -/
structure Sits
    (stack : Stack)
    (activation : Activation) :
    Prop where
  fpAligned : activation.fp.toNat % 8 = 0
  monitorWords : activation.monitorWords = 2
  monitorBase : activation.monitorBase.toNat + 72 = activation.fp.toNat
  monitorEndLe : activation.monitorEnd.toNat ≤ activation.monitorBase.toNat
  wholeMonitors :
    (activation.monitorBase.toNat - activation.monitorEnd.toNat) % 16 = 0
  topAligned : activation.stackTop.toNat % 8 = 0
  topLe : activation.stackTop.toNat ≤ activation.monitorEnd.toNat
  limitLe : stack.limit.toNat ≤ activation.stackTop.toNat
  locals :
    activation.locals.toNat + 8 =
      activation.fp.toNat + 16 + 8 * activation.maxLocals
  localsLe :
    activation.fp.toNat + 16 + 8 * activation.maxLocals ≤ stack.base.toNat

/-- The top entry is no lower than an entry may be. -/
def InRoom (activation : Activation) : Prop :=
  activation.stackLimit.toNat ≤ activation.stackTop.toNat

/-- The entries have so many bytes of room below the monitors. -/
structure HasRoom
    (activation : Activation)
    (bytes : Nat) :
    Prop where
  extent : activation.stackLimit.toNat + bytes = activation.monitorEnd.toNat
  inside : activation.InRoom

/-- One past the highest local, which is where the caller's own words begin. -/
def ceiling (activation : Activation) : Nat :=
  activation.fp.toNat + 16 + 8 * activation.maxLocals

namespace Sits

variable {stack : Stack} {activation : Activation}

/-- An activation sits on every stack of the same extent. -/
theorem of_keeps
    {kept : Nat → Prop}
    {after : Stack}
    (sits : activation.Sits stack)
    (keeps : Stack.Keeps kept stack after) :
    activation.Sits after :=
  { sits with
    limitLe := keeps.limit ▸ sits.limitLe
    localsLe := keeps.base ▸ sits.localsLe }

/-- A local of the activation lies above its fixed slots and below its ceiling. -/
theorem toNat_local
    (sits : activation.Sits stack)
    {index : Nat}
    (inside : index < activation.maxLocals) :
    (activation.locals.offset (-index)).toNat + 8 * (index + 1) =
      activation.ceiling := by
  have place := sits.locals
  have exact : (activation.locals.offset (-index)).toNat =
      activation.locals.toNat - 8 * index := by
    refine Word.toNat_offset_of_fits ?_ ?_
    · omega
    · have small := activation.locals.toNat_lt
      omega
  unfold ceiling
  omega

/-- The depth of the expression stack counts the words below the monitors. -/
theorem stackDepth_eq
    (sits : activation.Sits stack) :
    ∃ depth, activation.stackDepth = .ok depth ∧
      activation.stackTop.toNat + 8 * depth.toNat =
        activation.monitorEnd.toNat := by
  have aligned := sits.topAligned
  have whole := sits.wholeMonitors
  have fixed := sits.monitorBase
  have fpAligned := sits.fpAligned
  have topLe := sits.topLe
  have endLe := sits.monitorEndLe
  obtain ⟨taken, subtracted⟩ :
      ∃ taken, activation.monitorEnd.minus activation.stackTop = .ok taken :=
    ⟨activation.monitorEnd - activation.stackTop, Word.minus_eq_ok.mpr ⟨topLe,
      UInt64.toNat_sub_of_le _ _ (UInt64.le_iff_toNat_le.mpr topLe)⟩⟩
  have difference := (Word.minus_eq_ok.mp subtracted).2
  refine ⟨taken / 8, ?_, ?_⟩
  · simp only [stackDepth, subtracted]
    rfl
  · have quotient : (taken / 8).toNat = taken.toNat / 8 := UInt64.toNat_div ..
    omega

/-- Entries that are there lie between the top and the monitors. -/
theorem arguments_le
    (sits : activation.Sits stack)
    {depth : Word}
    {count : Nat}
    (counted : activation.stackDepth = .ok depth)
    (enough : count ≤ depth.toNat) :
    activation.stackTop.toNat + 8 * count ≤ activation.monitorEnd.toNat := by
  obtain ⟨entries, isDepth, place⟩ := sits.stackDepth_eq
  obtain rfl := Except.ok.inj (isDepth.symm.trans counted)
  omega

/-- The top is on the stack, whether there is an entry or not. -/
theorem covers_top (sits : activation.Sits stack) :
    stack.Covers activation.stackTop := by
  have topLe := sits.topLe
  have endLe := sits.monitorEndLe
  have fixed := sits.monitorBase
  have localsLe := sits.localsLe
  exact ⟨sits.topAligned, sits.limitLe, by omega⟩

/-- The expression stack and the monitors lie below the ceiling. -/
theorem monitorEnd_le_ceiling (sits : activation.Sits stack) :
    activation.monitorEnd.toNat ≤ activation.ceiling := by
  have endLe := sits.monitorEndLe
  have fixed := sits.monitorBase
  unfold ceiling
  omega

/-- The ceiling is inside the stack. -/
theorem ceiling_le_base (sits : activation.Sits stack) :
    activation.ceiling ≤ stack.base.toNat :=
  sits.localsLe

/-- The number of monitors tells the size of their block. -/
theorem monitorCount_eq
    (sits : activation.Sits stack) :
    ∃ count, activation.monitorCount = .ok count ∧
      activation.monitorEnd.toNat + 16 * count.toNat =
        activation.monitorBase.toNat := by
  have whole := sits.wholeMonitors
  have endLe := sits.monitorEndLe
  obtain ⟨block, subtracted⟩ :
      ∃ block,
        activation.monitorBase.minus activation.monitorEnd = .ok block :=
    ⟨activation.monitorBase - activation.monitorEnd,
      Word.minus_eq_ok.mpr ⟨endLe,
        UInt64.toNat_sub_of_le _ _ (UInt64.le_iff_toNat_le.mpr endLe)⟩⟩
  have difference := (Word.minus_eq_ok.mp subtracted).2
  refine ⟨block / 16, ?_, ?_⟩
  · simp only [monitorCount, subtracted, sits.monitorWords]
    rfl
  · have quotient : (block / 16).toNat = block.toNat / 16 := UInt64.toNat_div ..
    omega

/-- Monitors are counted from the highest, at two words each. -/
theorem monitorAt?_eq
    (sits : activation.Sits stack)
    {count : Word}
    (counted : activation.monitorCount = .ok count)
    (index : Nat) :
    activation.monitorAt? index =
      .ok (if index < count.toNat then
        some (activation.monitorBase.offset (-(2 * (index + 1) : Nat)))
      else
        none) := by
  have two : activation.monitorWords.toNat = 2 := by
    rw [sits.monitorWords]
    rfl
  simp only [monitorAt?, counted, two]
  change (if index < count.toNat then _ else _) = _
  split
  · rw [Nat.mul_comm]
    rfl
  · rfl

end Sits

end Activation

end ManagedStack
