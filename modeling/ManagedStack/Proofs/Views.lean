import ManagedStack.Frame.ExpressionStack
import ManagedStack.Proofs.Monitors
import ManagedStack.Proofs.Stacked

namespace ManagedStack

/-!
# Frames of published activations

A frame *depicts* an activation when it is the view of its registers and the slots
of the activation are published.  Everything that the frame reads is then what the
activation holds, and reading it neither fails nor notes anything.
-/

namespace Frame

/-- The frame is the view of an activation whose slots are published. -/
structure Depicts
    (view : View)
    (activation : Activation)
    (frame : Frame) :
    Prop where
  layout : view.layout = .x86_64
  kind : frame.kind = .interpreted
  fp : frame.fp = activation.fp
  sits : activation.Sits view.stack
  published : activation.Published view.stack
  method : view.stack.Holds (activation.fp.offset (-3)) activation.method
  locals : view.stack.Holds (activation.fp.offset (-6)) activation.locals
  spLe : frame.sp.toNat ≤ activation.monitorEnd.toNat
  /-- A top at address zero would read as no top at all. -/
  top : activation.stackTop ≠ 0

namespace Depicts

variable {view : View} {activation : Activation} {frame : Frame}

theorem expectInterpreted_eq (depicts : frame.Depicts view activation) :
    frame.expectInterpreted = pure () := by
  simp [expectInterpreted, expectKind, depicts.kind]

theorem methodWord_eq (depicts : frame.Depicts view activation) :
    frame.methodWord view = pure activation.method := by
  unfold methodWord
  rw [depicts.layout]
  exact field_of_holds (depicts.fp ▸ depicts.method)

theorem localsPointer_eq (depicts : frame.Depicts view activation) :
    frame.localsPointer view = pure activation.locals := by
  unfold localsPointer
  rw [depicts.layout]
  exact field_of_holds (depicts.fp ▸ depicts.locals)

/-- A slot that publishing writes is read as its register. -/
theorem field_eq
    (depicts : frame.Depicts view activation)
    (slot : PublishedSlot) :
    frame.field view (slot.offset .x86_64) = pure (slot.word activation) :=
  field_of_holds (depicts.fp ▸ depicts.published slot)

theorem bcx_eq (depicts : frame.Depicts view activation) :
    frame.bcx view = pure activation.bcp := by
  unfold bcx
  rw [depicts.layout]
  exact depicts.field_eq .bcx

theorem mdx_eq (depicts : frame.Depicts view activation) :
    frame.mdx view = pure activation.mdx := by
  unfold mdx
  rw [depicts.layout]
  exact depicts.field_eq .mdx

theorem lastSp_eq (depicts : frame.Depicts view activation) :
    frame.lastSp view = pure activation.stackTop := by
  unfold lastSp
  rw [depicts.layout]
  exact depicts.field_eq .lastSp

theorem oopTemp_eq (depicts : frame.Depicts view activation) :
    frame.field view view.layout.oopTemp = pure activation.oopTemp := by
  rw [depicts.layout]
  exact depicts.field_eq .oopTemp

/-- The frame has the monitors between the registers that bound them. -/
theorem hasMonitors (depicts : frame.Depicts view activation) :
    frame.HasMonitors view activation.monitorEnd
      ((activation.monitorBase.toNat - activation.monitorEnd.toNat) / 16) where
  layout := depicts.layout
  holds := depicts.fp ▸ depicts.published .monitorEnd
  spLe := depicts.spLe
  extent := by
    have below := depicts.sits.monitorEndLe
    have whole := depicts.sits.wholeMonitors
    have fixed := depicts.sits.monitorBase
    rw [depicts.fp]
    omega

theorem monitorEnd_eq (depicts : frame.Depicts view activation) :
    frame.monitorEnd view = pure activation.monitorEnd :=
  depicts.hasMonitors.monitorEnd_eq

theorem expressionTop_eq (depicts : frame.Depicts view activation) :
    frame.expressionTop view = pure activation.stackTop := by
  simp [expressionTop, depicts.lastSp_eq, depicts.top]

theorem expressionBase_eq (depicts : frame.Depicts view activation) :
    frame.expressionBase view = pure (activation.monitorEnd.offset (-1)) := by
  simp [expressionBase, depicts.monitorEnd_eq]

/-- The number of entries is the depth of the activation's stack. -/
theorem expressionCount_eq
    (depicts : frame.Depicts view activation)
    {depth : Word}
    (counted : activation.stackDepth = .ok depth) :
    frame.expressionCount view = pure depth := by
  have topLe : activation.stackTop ≤ activation.monitorEnd :=
    UInt64.le_iff_toNat_le.mpr depicts.sits.topLe
  have taken : activation.monitorEnd.sub? activation.stackTop =
      some (activation.monitorEnd - activation.stackTop) := by
    simp [Word.sub?, topLe]
  have depthIs : (activation.monitorEnd - activation.stackTop) / 8 = depth := by
    unfold Activation.stackDepth Word.minus at counted
    rw [taken] at counted
    exact Except.ok.inj counted
  unfold expressionCount
  simp only [depicts.expressionBase_eq, depicts.expressionTop_eq, pure_bind,
    Word.offset_offset]
  change (Probe.demand
    ((activation.monitorEnd.offset 0).sub? activation.stackTop) _ >>= _) = _
  rw [Word.offset_zero, taken, ← depthIs]
  rfl

/-- The listed monitors are as many as the registers count. -/
theorem monitors_eq
    (depicts : frame.Depicts view activation)
    {count : Word}
    (counted : activation.monitorCount = .ok count) :
    frame.monitors view = pure (spaced activation.monitorEnd 16 count.toNat) := by
  obtain ⟨total, isTotal, extent⟩ := depicts.sits.monitorCount_eq
  obtain rfl := Except.ok.inj (isTotal.symm.trans counted)
  rw [depicts.hasMonitors.monitors_eq, ← extent, Nat.add_sub_cancel_left,
    Nat.mul_div_cancel_left _ (by decide)]

/-- Counted from the highest, the listed monitors are the activation's. -/
theorem getElem?_reverse_spaced
    {stack : Stack}
    (sits : activation.Sits stack)
    {count : Word}
    (counted : activation.monitorCount = .ok count)
    (index : Nat) :
    activation.monitorAt? index =
      .ok (spaced activation.monitorEnd 16 count.toNat).reverse[index]? := by
  obtain ⟨total, isTotal, extent⟩ := sits.monitorCount_eq
  rw [Except.ok.inj (isTotal.symm.trans counted)] at extent
  rw [sits.monitorAt?_eq counted]
  have length : (spaced activation.monitorEnd 16 count.toNat).length =
      count.toNat := by
    simp [spaced]
  by_cases inside : index < count.toNat
  · rw [if_pos inside, List.getElem?_reverse (by rw [length]; exact inside),
      length]
    have small := activation.monitorBase.toNat_lt
    have place (position : Nat) (within : position < count.toNat) :
        (spaced activation.monitorEnd 16 count.toNat)[position]? =
          some (activation.monitorBase.offset
            (-(2 * (count.toNat - position) : Nat))) := by
      simp only [spaced, List.getElem?_map, List.getElem?_range within,
        Option.map_some, Option.some.injEq]
      refine Word.eq_offset ?_
      rw [toNat_spaced (by omega)]
      omega
    rw [place _ (by omega)]
    congr 4
    omega
  · rw [if_neg inside, List.getElem?_eq_none]
    rw [List.length_reverse, length]
    omega

end Depicts

/-- The frame reads as the registers of an activation. -/
structure Shows
    (view : View)
    (activation : Activation)
    (frame : Frame) :
    Prop where
  kind : frame.kind = .interpreted
  fp : frame.fp = activation.fp
  method : frame.methodWord view = pure activation.method
  bcx : frame.bcx view = pure activation.bcp
  mdx : frame.mdx view = pure activation.mdx
  lastSp : frame.lastSp view = pure activation.stackTop
  locals : frame.localsPointer view = pure activation.locals
  oopTemp :
    frame.field view view.layout.oopTemp = pure activation.oopTemp
  monitorEnd : frame.monitorEnd view = pure activation.monitorEnd
  expressionCount : ∃ depth, activation.stackDepth = .ok depth ∧
    frame.expressionCount view = pure depth
  /-- The frame lists its monitors the lowest first. -/
  monitors : ∃ monitors, frame.monitors view = pure monitors ∧
    ∀ index, activation.monitorAt? index = .ok monitors.reverse[index]?

/-- A frame that depicts an activation reads as its registers. -/
theorem Depicts.shows
    {view : View}
    {activation : Activation}
    {frame : Frame}
    (depicts : frame.Depicts view activation) :
    frame.Shows view activation where
  kind := depicts.kind
  fp := depicts.fp
  method := depicts.methodWord_eq
  bcx := depicts.bcx_eq
  mdx := depicts.mdx_eq
  lastSp := depicts.lastSp_eq
  locals := depicts.localsPointer_eq
  oopTemp := depicts.oopTemp_eq
  monitorEnd := depicts.monitorEnd_eq
  expressionCount := by
    obtain ⟨depth, counted, -⟩ := depicts.sits.stackDepth_eq
    exact ⟨depth, counted, depicts.expressionCount_eq counted⟩
  monitors := by
    obtain ⟨count, counted, -⟩ := depicts.sits.monitorCount_eq
    exact ⟨_, depicts.monitors_eq counted,
      getElem?_reverse_spaced depicts.sits counted⟩

end Frame

end ManagedStack
