import ManagedStack.Proofs.Neutrality

namespace ManagedStack

/-!
# The two forms of a frame's position

An interpreted frame says where it is in two words: its bytecode position and, for a
profiling interpreter, its place in the profiling data.  A scan turns both from
addresses into indices and back.  The words carry no tag.  A position is told from an
index by its size, and the index of a datum is stored plus one, so that the first datum
is not mistaken for none; both ways back lead to where the frame was.
-/

open Operation

/-- The code of the method lies above all bytecode indices. -/
structure Method.TellsApart (method : Method) : Prop where
  sized : method.codeSize.toNat ≤ 65536
  addressed : ∀ bci, method.isPosition bci = true →
    ∃ address, method.bcpOf bci = .ok address ∧ 65535 < address.toNat

namespace Method.TellsApart

variable {method : Method} {bci : UInt32} {address : Word}

/-- The index of a position is read as an index. -/
theorem isIndex
    (apart : method.TellsApart)
    (isPosition : method.isPosition bci = true) :
    isBytecodeIndex bci.toUInt64 = true :=
  isBytecodeIndex_of_isPosition isPosition apart.sized

/-- The address of a position is read as an address. -/
theorem isAddress
    (apart : method.TellsApart)
    (isPosition : method.isPosition bci = true)
    (isAt : method.bcpOf bci = .ok address) :
    isBytecodeIndex address = false := by
  obtain ⟨_, same, above⟩ := apart.addressed bci isPosition
  obtain rfl := Except.ok.inj (isAt.symm.trans same)
  exact isBytecodeIndex_eq_false above

/-- A position is found from its index. -/
theorem bciOfBcx?_index
    (apart : method.TellsApart)
    (isPosition : method.isPosition bci = true) :
    method.bciOfBcx? bci.toUInt64 = some bci := by
  unfold Method.bciOfBcx?
  simp [apart.isIndex isPosition, Option.filter, isPosition]

/--
A position is found from its address.  A method without code has one position, as if
it had one bytecode.
-/
theorem bciOfBcx?_address
    (apart : method.TellsApart)
    (isPosition : method.isPosition bci = true)
    (isAt : method.bcpOf bci = .ok address) :
    method.bciOfBcx? address = some bci := by
  obtain ⟨-, sum⟩ := Word.plus_eq_ok.mp isAt
  have base : method.codeBase ≤ address := by
    rw [UInt64.le_iff_toNat_le]
    omega
  have distance : address - method.codeBase = bci.toUInt64 := by
    rw [← UInt64.toNat_inj, UInt64.toNat_sub_of_le _ _ base]
    omega
  have inside : bci.toUInt64 < max method.codeSize 1 := by
    unfold Method.isPosition at isPosition
    split at isPosition
    · obtain rfl := eq_of_beq isPosition
      have zero : (0 : UInt32).toUInt64.toNat = 0 := rfl
      have one : (1 : Word).toNat = 1 := rfl
      rw [UInt64.lt_iff_toNat_lt]
      change _ < (if method.codeSize ≤ 1 then (1 : Word) else method.codeSize).toNat
      split <;> simp only [UInt64.le_iff_toNat_le] at * <;> omega
    · have below := of_decide_eq_true isPosition
      have one : (1 : Word).toNat = 1 := rfl
      rw [UInt64.lt_iff_toNat_lt] at below ⊢
      change _ < (if method.codeSize ≤ 1 then (1 : Word) else method.codeSize).toNat
      split <;> simp only [UInt64.le_iff_toNat_le] at * <;> omega
  have found : method.bciOf? address = some bci := by
    unfold Method.bciOf? Word.sub?
    simp [base, distance, inside]
  unfold Method.bciOfBcx?
  simp [apart.isAddress isPosition isAt, found, Option.filter, isPosition]

end Method.TellsApart

/-- Code above all bytecode indices, up to the end of the address space at most. -/
theorem Method.tellsApart_of_codeBase
    {method : Method}
    (sized : method.codeSize.toNat ≤ 65536)
    (above : 65535 < method.codeBase.toNat)
    (fits : method.codeBase.toNat + method.codeSize.toNat ≤ UInt64.size) :
    method.TellsApart where
  sized := sized
  addressed bci isPosition := by
    have small := method.codeBase.toNat_lt
    have size : UInt64.size = 0x10000000000000000 := rfl
    have room : method.codeBase.toNat + bci.toUInt64.toNat < UInt64.size := by
      unfold Method.isPosition at isPosition
      split at isPosition
      · obtain rfl := eq_of_beq isPosition
        have zero : (0 : UInt32).toUInt64.toNat = 0 := rfl
        omega
      · have below := of_decide_eq_true isPosition
        rw [UInt64.lt_iff_toNat_lt] at below
        omega
    have sum := Word.plus_of_fits room
    exact ⟨_, sum, by have := (Word.plus_eq_ok.mp sum).2; omega⟩

/-- The index that a pointer was made from is the one that is taken from it. -/
theorem ProfilingArea.indexOf?_of_pointerOf
    {area : ProfilingArea}
    {index pointer : Word}
    (inside : index ≤ area.size)
    (points : area.pointerOf index = .ok pointer) :
    area.indexOf? pointer = some index := by
  obtain ⟨-, sum⟩ := Word.plus_eq_ok.mp points
  have base : area.base ≤ pointer := by
    rw [UInt64.le_iff_toNat_le]
    omega
  have distance : pointer - area.base = index := by
    rw [← UInt64.toNat_inj, UInt64.toNat_sub_of_le _ _ base]
    omega
  unfold ProfilingArea.indexOf? Word.sub?
  simp [base, distance, Option.filter, inside]

/--
The profiling word that goes with an address, and the one that goes with an index.

An interpreter that does not profile leaves the word alone.
-/
inductive ProfilingForms
    (env : Env)
    (method : Method) :
    (pointer shifted : Word) → Prop where
  | unprofiled
      {word : Word}
      (off : env.diagnostics.profileInterpreter = false) :
      ProfilingForms env method word word
  | noData
      (on : env.diagnostics.profileInterpreter = true) :
      ProfilingForms env method 0 0
  | datum
      {area : ProfilingArea}
      {index pointer shifted : Word}
      (on : env.diagnostics.profileInterpreter = true)
      (profiled : method.profiling = some area)
      (inside : index ≤ area.size)
      (points : area.pointerOf index = .ok pointer)
      (plusOne : index.plus 1 = .ok shifted) :
      ProfilingForms env method pointer shifted

/-- Every pointer to a datum inside the area has an index form. -/
theorem ProfilingForms.of_inside
    {env : Env}
    {method : Method}
    {area : ProfilingArea}
    {pointer : Word}
    (index : Word)
    (on : env.diagnostics.profileInterpreter = true)
    (profiled : method.profiling = some area)
    (inside : index < area.size)
    (points : area.pointerOf index = .ok pointer) :
    ProfilingForms env method pointer (index + 1) := by
  have below := UInt64.lt_iff_toNat_lt.mp inside
  have small := area.size.toNat_lt
  refine .datum on profiled (UInt64.le_iff_toNat_le.mpr (by omega)) points
    (Word.plus_of_fits ?_)
  change index.toNat + 1 < 0x10000000000000000
  omega

namespace Frame

/-- The words in which a frame says where it is. -/
structure PointsTo
    (env : Env)
    (stack : Stack)
    (frame : Frame)
    (position profiling : Word) :
    Prop where
  position : stack.Holds (frame.slot env.layout.bcx) position
  profiling : stack.Holds (frame.slot env.layout.mdx) profiling

/-- An interpreted frame of a known method, whose slots lie apart. -/
structure Runs
    (env : Env)
    (stack : Stack)
    (frame : Frame)
    (method : Method) :
    Prop where
  interpreted : frame.kind = .interpreted
  method : ∃ word, stack.Holds (frame.slot env.layout.method) word ∧
    env.methods.find? word = some method
  bcx_ne_mdx : frame.slot env.layout.bcx ≠ frame.slot env.layout.mdx
  method_ne_bcx : frame.slot env.layout.method ≠ frame.slot env.layout.bcx
  method_ne_mdx : frame.slot env.layout.method ≠ frame.slot env.layout.mdx

/-- At most the two words of a frame's position differ. -/
structure Moves
    (env : Env)
    (frame : Frame)
    (before after : Machine) :
    Prop where
  machine : after = { before with stack := after.stack }
  words : Stack.Keeps (fun place => place ≠ (frame.slot env.layout.bcx).toNat ∧
    place ≠ (frame.slot env.layout.mdx).toNat) before.stack after.stack

variable {env : Env} {frame : Frame} {method : Method} {before between after : Machine}
  {position profiling : Word}

/-- On x86-64 the slots of a frame lie apart, wherever the frame is. -/
theorem runs_of_x86_64
    {stack : Stack}
    {word : Word}
    (x86 : env.layout = .x86_64)
    (interpreted : frame.kind = .interpreted)
    (holds : stack.Holds (frame.slot (-3)) word)
    (found : env.methods.find? word = some method) :
    frame.Runs env stack method where
  interpreted := interpreted
  method := ⟨word, by simpa [x86, FrameLayout.x86_64] using holds, found⟩
  bcx_ne_mdx := by
    rw [x86]
    exact slot_ne_slot (by decide) (by decide) (by decide)
  method_ne_bcx := by
    rw [x86]
    exact slot_ne_slot (by decide) (by decide) (by decide)
  method_ne_mdx := by
    rw [x86]
    exact slot_ne_slot (by decide) (by decide) (by decide)

namespace Moves

theorem trans
    (first : Moves env frame before between)
    (second : Moves env frame between after) :
    Moves env frame before after where
  machine := by
    rw [second.machine, first.machine]
  words := first.words.trans second.words

/-- Putting a word into one of the two slots moves the frame. -/
theorem put
    (machine : Machine)
    {address : Address}
    (isSlot : address = frame.slot env.layout.bcx ∨ address = frame.slot env.layout.mdx)
    (word : Word) :
    Moves env frame machine { machine with stack := machine.stack.put address word } where
  machine := rfl
  words := by
    refine .put _ _ fun outside => ?_
    rcases isSlot with rfl | rfl
    · exact outside.1 rfl
    · exact outside.2 rfl

/-- A frame that is back where it was has its old stack. -/
theorem eq_of_pointsTo
    (moves : Moves env frame before after)
    (former : frame.PointsTo env before.stack position profiling)
    (points : frame.PointsTo env after.stack position profiling) :
    after = before := by
  have keeps : Stack.Keeps (fun _ => True) before.stack after.stack := by
    refine ⟨moves.words.base, moves.words.size, fun address _ => ?_⟩
    by_cases isPosition : address = frame.slot env.layout.bcx
    · rw [isPosition]
      exact points.position.trans former.position.symm
    by_cases isProfiling : address = frame.slot env.layout.mdx
    · rw [isProfiling]
      exact points.profiling.trans former.profiling.symm
    · exact moves.words.word address ⟨fun same => isPosition (UInt64.toNat_inj.mp same),
        fun same => isProfiling (UInt64.toNat_inj.mp same)⟩
  rw [moves.machine, keeps.eq]

end Moves

namespace Runs

theorem gives_method
    (runs : frame.Runs env before.stack method) :
    (frame.method (before.view env)).Gives method := by
  obtain ⟨word, holds, found⟩ := runs.method
  simp only [Frame.method, expectInterpreted, methodWord, Probe.gives_bind,
    gives_expectKind, gives_field, Probe.gives_demand]
  exact ⟨(), runs.interpreted, word, holds, found⟩

theorem of_moves
    (runs : frame.Runs env before.stack method)
    (moves : Moves env frame before after) :
    frame.Runs env after.stack method := by
  obtain ⟨word, holds, found⟩ := runs.method
  refine ⟨runs.interpreted, ⟨word, moves.words.holds holds ⟨?_, ?_⟩, found⟩,
    runs.bcx_ne_mdx, runs.method_ne_bcx, runs.method_ne_mdx⟩
  · exact fun same => runs.method_ne_bcx (UInt64.toNat_inj.mp same)
  · exact fun same => runs.method_ne_mdx (UInt64.toNat_inj.mp same)

/-- The frame says at which index it is. -/
theorem gives_bci
    {bci : UInt32}
    (runs : frame.Runs env before.stack method)
    (points : frame.PointsTo env before.stack position profiling)
    (found : method.bciOfBcx? position = some bci) :
    (frame.bci (before.view env)).Gives bci := by
  simp only [Frame.bci, bcx, Probe.gives_bind, gives_field, Probe.gives_demand]
  exact ⟨position, points.position, method, runs.gives_method, found⟩

/--
A new position is stored, and the profiling word changes form with it.  The profiling
word is left alone without profiling, without data, or in the same form.
-/
theorem exists_gives_setBcx
    {former converted : Word}
    (runs : frame.Runs env before.stack method)
    (points : frame.PointsTo env before.stack former profiling)
    (keeps : env.diagnostics.profileInterpreter = false ∨ profiling = 0 ∨
      isBytecodeIndex former = isBytecodeIndex position → converted = profiling)
    (converts : env.diagnostics.profileInterpreter = true → profiling ≠ 0 →
      isBytecodeIndex former ≠ isBytecodeIndex position →
        (frame.convertMdx (before.view env) (isBytecodeIndex former)
          profiling).Gives converted) :
    ∃ after, (frame.setBcx env position).Gives before () after ∧
      frame.PointsTo env after.stack position converted ∧ Moves env frame before after := by
  let stored : Machine :=
    { before with stack := before.stack.put (frame.slot env.layout.bcx) position }
  have stores : (frame.putField env.layout.bcx position).Gives before () stored :=
    Machine.gives_write.mpr ⟨points.position.covers, rfl⟩
  have storedMoves : Moves env frame before stored := .put before (.inl rfl) position
  have storedPoints : frame.PointsTo env stored.stack position profiling :=
    ⟨Stack.holds_put_same points.position.covers,
      (Stack.holds_put_of_ne runs.bcx_ne_mdx.symm).mpr points.profiling⟩
  have looksPosition : (frame.bcx (before.view env)).Gives former :=
    gives_field.mpr points.position
  have looksProfiling : (frame.mdx (before.view env)).Gives profiling :=
    gives_field.mpr points.profiling
  by_cases stays : env.diagnostics.profileInterpreter = false ∨ profiling = 0 ∨
      isBytecodeIndex former = isBytecodeIndex position
  · refine ⟨stored, ?_, (keeps stays).symm ▸ storedPoints, storedMoves⟩
    simp only [setBcx, expectInterpreted, gives_bind, gives_lift, gives_expectKind,
      gives_ite, Machine.gives_look]
    refine ⟨(), before, ⟨runs.interpreted, rfl⟩, ?_⟩
    rcases stays with off | same
    · exact .inr ⟨by simp [off], stores⟩
    by_cases on : env.diagnostics.profileInterpreter = true
    · refine .inl ⟨on, former, before, ⟨looksPosition, rfl⟩, profiling, before,
        ⟨looksProfiling, rfl⟩, .inl ⟨?_, stores⟩⟩
      simpa using same
    · exact .inr ⟨on, stores⟩
  · simp only [not_or, Bool.not_eq_false] at stays
    obtain ⟨on, nonzero, differs⟩ := stays
    let final : Machine :=
      { stored with stack := stored.stack.put (frame.slot env.layout.mdx) converted }
    refine ⟨final, ?_, ⟨?_, ?_⟩, storedMoves.trans (.put stored (.inr rfl) converted)⟩
    · simp only [setBcx, expectInterpreted, gives_bind, gives_lift, gives_expectKind,
        gives_ite, Machine.gives_look]
      refine ⟨(), before, ⟨runs.interpreted, rfl⟩, .inl ⟨on, former, before,
        ⟨looksPosition, rfl⟩, profiling, before, ⟨looksProfiling, rfl⟩,
        .inr ⟨?_, converted, before, ⟨converts on nonzero differs, rfl⟩, (), stored,
          stores, ?_⟩⟩⟩
      · simpa [nonzero] using differs
      · unfold setMdx
        simp only [gives_bind, gives_check, require, on, if_true]
        exact ⟨(), stored, ⟨trivial, rfl⟩, Machine.gives_write.mpr
          ⟨storedPoints.profiling.covers, rfl⟩⟩
    · exact (Stack.holds_put_of_ne runs.bcx_ne_mdx).mpr storedPoints.position
    · exact Stack.holds_put_same storedPoints.profiling.covers

variable {bci : UInt32} {shifted : Word}

/-- A frame at an address goes to the index. -/
theorem exists_gives_beginScan
    (runs : frame.Runs env before.stack method)
    (apart : method.TellsApart)
    (isPosition : method.isPosition bci = true)
    (isAt : method.bcpOf bci = .ok position)
    (points : frame.PointsTo env before.stack position profiling)
    (forms : ProfilingForms env method profiling shifted)
    (zeroIsNone : profiling = 0 → shifted = 0) :
    ∃ between, (frame.beginScan env).Gives before () between ∧
      frame.PointsTo env between.stack bci.toUInt64 shifted ∧
        Moves env frame before between := by
  have isAddress := apart.isAddress isPosition isAt
  have isIndex := apart.isIndex isPosition
  obtain ⟨between, stores, pointsAfter, moves⟩ : ∃ between,
      (frame.setBcx env bci.toUInt64).Gives before () between ∧
        frame.PointsTo env between.stack bci.toUInt64 shifted ∧
          Moves env frame before between := by
    refine runs.exists_gives_setBcx points ?keeps ?converts
    case keeps =>
      rintro (off | zero | same)
      · cases forms with
        | unprofiled => rfl
        | noData on => simp [off] at on
        | datum on => simp [off] at on
      · rw [zero, zeroIsNone zero]
      · rw [isAddress, isIndex] at same
        cases same
    case converts =>
      intro on nonzero _
      rw [isAddress]
      cases forms with
      | unprofiled off => simp [off] at on
      | noData => exact absurd rfl nonzero
      | datum _ profiled inside pointed plusOne =>
          exact gives_convertMdx_pointer.mpr ⟨method, _, _, runs.gives_method, profiled,
            ProfilingArea.indexOf?_of_pointerOf inside pointed, plusOne⟩
  exact ⟨between, (gives_beginScan runs.interpreted).mpr
    ⟨bci, runs.gives_bci points (apart.bciOfBcx?_address isPosition isAt), stores⟩,
    pointsAfter, moves⟩

/--
A frame at an index goes to the address.  An index is stored plus one, so that it is
never read as no data.
-/
theorem exists_gives_endScan
    (runs : frame.Runs env before.stack method)
    (apart : method.TellsApart)
    (isPosition : method.isPosition bci = true)
    (isAt : method.bcpOf bci = .ok position)
    (points : frame.PointsTo env before.stack bci.toUInt64 shifted)
    (forms : ProfilingForms env method profiling shifted) :
    ∃ after, (frame.endScan env).Gives before () after ∧
      frame.PointsTo env after.stack position profiling ∧
        Moves env frame before after := by
  have isAddress := apart.isAddress isPosition isAt
  have isIndex := apart.isIndex isPosition
  have gives : (frame.bcp (before.view env)).Gives position := by
    unfold bcp
    rw [Probe.gives_bind]
    refine ⟨bci.toUInt64, gives_field.mpr points.position, ?_⟩
    rw [if_pos isIndex, Probe.gives_bind]
    exact ⟨method, runs.gives_method, Probe.gives_check.mpr (by simpa using isAt)⟩
  obtain ⟨after, stores, pointsAfter, moves⟩ : ∃ after,
      (frame.setBcx env position).Gives before () after ∧
        frame.PointsTo env after.stack position profiling ∧
          Moves env frame before after := by
    refine runs.exists_gives_setBcx points ?keeps ?converts
    case keeps =>
      rintro (off | zero | same)
      · cases forms with
        | unprofiled => rfl
        | noData on => simp [off] at on
        | datum on => simp [off] at on
      · cases forms with
        | unprofiled => rfl
        | noData => rfl
        | datum _ _ _ _ plusOne =>
            have sum := (Word.plus_eq_ok.mp plusOne).2
            rw [zero] at sum
            have none : (0 : Word).toNat = 0 := rfl
            have one : (1 : Word).toNat = 1 := rfl
            omega
      · rw [isAddress, isIndex] at same
        cases same
    case converts =>
      intro on nonzero _
      rw [isIndex]
      cases forms with
      | unprofiled off => simp [off] at on
      | noData => exact absurd rfl nonzero
      | datum _ profiled _ pointed plusOne =>
          have sum := (Word.plus_eq_ok.mp plusOne).2
          have one : (1 : Word).toNat = 1 := rfl
          exact gives_convertMdx_index.mpr ⟨method, _, _, runs.gives_method, profiled,
            Word.minus_eq_ok.mpr ⟨by omega, by omega⟩, pointed⟩
  exact ⟨after, (gives_endScan runs.interpreted).mpr ⟨position, gives, stores⟩,
    pointsAfter, moves⟩

end Runs

/-- A switch back that fails changes nothing. -/
theorem eq_of_raises_endScan
    {cause : FrameError}
    (raises : (frame.endScan env).Raises before cause after) :
    after = before := by
  by_cases interpreted : frame.kind = .interpreted
  · unfold endScan at raises
    rw [if_pos interpreted, raises_bind] at raises
    rcases raises with fails | ⟨position, between, looks, fails⟩
    · exact (Machine.raises_look.mp fails).2
    · rw [eq_of_raises_setBcx fails]
      exact (Machine.gives_look.mp looks).2
  · rw [endScan_of_ne interpreted] at raises
    exact (raises_pure raises).elim

/--
The two switches of a scan undo each other.

A data pointer that is zero reads as no data; a profiling word that is zero stays zero.
-/
structure SwitchesBack
    (env : Env)
    (frame : Frame)
    (method : Method)
    (before : Machine) :
    Prop where
  /-- From an address to the index, and back to the same machine. -/
  fromAddress : ∀ bci position profiling shifted,
    method.isPosition bci = true → method.bcpOf bci = .ok position →
      frame.PointsTo env before.stack position profiling →
        ProfilingForms env method profiling shifted → (profiling = 0 → shifted = 0) →
          ∃ between, (frame.beginScan env).Gives before () between ∧
            frame.PointsTo env between.stack bci.toUInt64 shifted ∧
            Moves env frame before between ∧
            (frame.endScan env).Gives between () before ∧
            (frame.bci (before.view env)).Gives bci ∧
            (frame.bci (between.view env)).Gives bci
  /-- From an index, which a scan begins with as it is, to the address. -/
  fromIndex : ∀ bci position profiling shifted,
    method.isPosition bci = true → method.bcpOf bci = .ok position →
      frame.PointsTo env before.stack bci.toUInt64 shifted →
        ProfilingForms env method profiling shifted →
          (frame.beginScan env).Gives before () before ∧
            ∃ after, (frame.endScan env).Gives before () after ∧
              frame.PointsTo env after.stack position profiling ∧
              Moves env frame before after ∧
              (frame.bci (before.view env)).Gives bci ∧
              (frame.bci (after.view env)).Gives bci
  /-- A switch that fails, from whatever words, changes neither of the two. -/
  onFailure : ∀ (machine after : Machine) cause,
    (frame.beginScan env).Raises machine cause after ∨
        (frame.endScan env).Raises machine cause after →
      after = machine

/-- A frame of a method whose code lies above all indices switches there and back. -/
theorem switchesBack_of_runs
    (runs : frame.Runs env before.stack method)
    (apart : method.TellsApart) :
    frame.SwitchesBack env method before where
  fromAddress bci position profiling shifted isPosition isAt points forms zeroIsNone := by
    obtain ⟨between, begins, pointsBetween, moves⟩ :=
      runs.exists_gives_beginScan apart isPosition isAt points forms zeroIsNone
    have runsBetween := runs.of_moves moves
    obtain ⟨after, ends, pointsAfter, movesBack⟩ :=
      runsBetween.exists_gives_endScan apart isPosition isAt pointsBetween forms
    obtain rfl := (moves.trans movesBack).eq_of_pointsTo points pointsAfter
    exact ⟨between, begins, pointsBetween, moves, ends,
      runs.gives_bci points (apart.bciOfBcx?_address isPosition isAt),
      runsBetween.gives_bci pointsBetween (apart.bciOfBcx?_index isPosition)⟩
  fromIndex bci position profiling shifted isPosition isAt points forms := by
    have atIndex := runs.gives_bci points (apart.bciOfBcx?_index isPosition)
    obtain ⟨between, stores, pointsBetween, stays⟩ :
        ∃ between, (frame.setBcx env bci.toUInt64).Gives before () between ∧
          frame.PointsTo env between.stack bci.toUInt64 shifted ∧
            Moves env frame before between :=
      runs.exists_gives_setBcx points (fun _ => rfl) fun _ _ differs => absurd rfl differs
    obtain rfl := stays.eq_of_pointsTo points pointsBetween
    obtain ⟨after, ends, pointsAfter, moves⟩ :=
      runs.exists_gives_endScan apart isPosition isAt points forms
    exact ⟨(gives_beginScan runs.interpreted).mpr ⟨bci, atIndex, stores⟩, after, ends,
      pointsAfter, moves, atIndex, (runs.of_moves moves).gives_bci pointsAfter
        (apart.bciOfBcx?_address isPosition isAt)⟩
  onFailure machine after cause raises :=
    raises.elim eq_of_raises_beginScan eq_of_raises_endScan

end Frame

namespace Profiled

/-- A method with profiling data. -/
def method : Method :=
  { Pair.caller with profiling := some ⟨0x700000, 16⟩ }

def env : Env :=
  { Pair.context.env with
    methods := ⟨[method]⟩
    diagnostics := { profileInterpreter := true } }

def frame : Frame where
  sp := 0x7f00
  unextendedSp := 0x7f00
  fp := 0x7f90
  pc := 0x1100
  blob := some (.ofRange "interpreter" 0x1000 0x2000 .interpreter)
  deoptState := .notDeoptimized

/-- The frame is at index 3 and at the ninth byte of its profiling data. -/
def machine : Machine :=
  { Pair.fresh.machine with
    stack := ((Pair.fresh.machine.stack.put 0x7f78 method.id).put 0x7f58 0x600003).put
      0x7f70 0x700008 }

theorem runs : frame.Runs env machine.stack method :=
  have held : machine.stack.Holds (frame.slot (-3)) method.id := by rfl
  Frame.runs_of_x86_64 rfl rfl held (by decide)

theorem tellsApart : method.TellsApart :=
  method.tellsApart_of_codeBase (by decide) (by decide) (by decide)

end Profiled

namespace Frame

/-- The position becomes index 3 and the datum index 8, stored as 9. -/
theorem switchesBack_profiled :
    Profiled.frame.SwitchesBack Profiled.env Profiled.method Profiled.machine ∧
      ∃ between, (Profiled.frame.beginScan Profiled.env).Gives Profiled.machine () between ∧
        Profiled.frame.PointsTo Profiled.env between.stack 3 9 ∧
        (Profiled.frame.endScan Profiled.env).Gives between () Profiled.machine := by
  have switches := switchesBack_of_runs Profiled.runs Profiled.tellsApart
  obtain ⟨between, begins, points, -, ends, -⟩ :=
    switches.fromAddress 3 0x600003 0x700008 9 (by decide) (by rfl)
      ⟨by rfl, by rfl⟩
      (.of_inside 8 rfl rfl (by decide) (by rfl)) (absurd · (by decide))
  exact ⟨switches, between, begins, points, ends⟩

end Frame

end ManagedStack
