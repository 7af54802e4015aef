import ManagedStack.Proofs.Ascending
import ManagedStack.Proofs.Calls
import ManagedStack.Proofs.Runs
import ManagedStack.Proofs.Switching
import ManagedStack.RootScan

namespace ManagedStack

/-!
# Scans leave the stack as it was

A scan switches interpreted frames to index form one after the other and switches
them back at its end, or as soon as one of them cannot be switched.  Each switch
writes into the fixed slots of one frame, and the fixed slots of different frames of
a walk lie apart.  So whatever was switched can be switched back in any order, and
whichever way the scan ends, every word of the stack is the one from before.
-/

open Operation

namespace Stack

variable {kept : Nat → Prop} {original current : Stack}

/-- The word at a position is read at the address of the position. -/
theorem read?_offset_limit
    {stack : Stack}
    {index : Nat}
    (inside : index < stack.words.size) :
    stack.read? (stack.limit.offset index) = .ok stack.words[index] := by
  have extent := stack.toNat_limit
  have fits := stack.fits
  have small := stack.base_le
  have aligned := stack.limit_aligned
  have place : (stack.limit.offset index).toNat =
      stack.limit.toNat + 8 * index :=
    Word.toNat_offset_of_fits (by omega) (by omega)
  have covers : stack.Covers (stack.limit.offset index) :=
    ⟨by omega, by omega, by omega⟩
  have position : ((stack.limit.offset index).toNat - stack.limit.toNat) / 8 =
      index := by
    omega
  unfold read?
  rw [index?_of_covers covers, position]
  simp [inside]

/-- A stack that keeps every place is the same stack. -/
theorem Keeps.eq
    (keeps : Keeps (fun _ => True) original current) :
    current = original := by
  have words : current.words = original.words := by
    refine Array.ext keeps.size fun index inCurrent inOriginal => ?_
    have currentRead := read?_offset_limit inCurrent
    have originalRead := read?_offset_limit inOriginal
    rw [keeps.limit, keeps.word _ trivial, originalRead] at currentRead
    exact (Except.ok.inj currentRead).symm
  have base := keeps.base
  cases current
  cases original
  simp_all

/-- Putting back a word that was held keeps its place as well. -/
theorem Keeps.put_held
    {address : Address}
    {word : Word}
    (keeps : Keeps (fun place => kept place ∧ address.toNat ≠ place)
      original current)
    (holds : original.Holds address word) :
    Keeps kept original (current.put address word) where
  base := (base_put ..).trans keeps.base
  size := (size_put ..).trans keeps.size
  word := by
    intro other inside
    by_cases same : other = address
    · subst same
      exact (holds_put_same (keeps.covers_iff.mpr holds.covers)).trans holds.symm
    · rw [read?_put_of_ne same]
      exact keeps.word other ⟨inside, fun equal =>
        same (UInt64.toNat_inj.mp equal.symm)⟩

end Stack

namespace Frame

variable {frame : Frame} {view : View} {env : Env}

@[simp] theorem gives_expectKind
    {expected : FrameKind}
    {value : Unit} :
    (frame.expectKind expected).Gives value ↔ frame.kind = expected := by
  unfold expectKind
  by_cases same : frame.kind = expected <;> simp [same]

section Fields

variable (x86 : view.layout = .x86_64)
include x86

theorem gives_method {method : Method} :
    (frame.method view).Gives method ↔
      frame.kind = .interpreted ∧
        ∃ word, view.stack.Holds (frame.slot (-3)) word ∧
          view.methods.find? word = some method := by
  simp [Frame.method, expectInterpreted, methodWord, x86, FrameLayout.x86_64]

theorem gives_bci {index : UInt32} :
    (frame.bci view).Gives index ↔
      ∃ position method,
        view.stack.Holds (frame.slot (-7)) position ∧
          (frame.method view).Gives method ∧
            method.bciOfBcx? position = some index := by
  simp only [bci, bcx, x86, Probe.gives_bind, gives_field, Probe.gives_demand]
  constructor
  · rintro ⟨position, holds, method, found, isIndex⟩
    exact ⟨position, method, holds, found, isIndex⟩
  · rintro ⟨position, method, holds, found, isIndex⟩
    exact ⟨position, holds, method, found, isIndex⟩

/-- A position in index form is at the address that its method has for it. -/
theorem gives_bcp_of_index
    {index position : Word}
    {method : Method}
    (isIndex : isBytecodeIndex index = true)
    (holds : view.stack.Holds (frame.slot (-7)) index)
    (isMethod : (frame.method view).Gives method)
    (address : method.bcpOf index.toUInt32 = .ok position) :
    (frame.bcp view).Gives position := by
  unfold bcp bcx
  rw [x86, Probe.gives_bind]
  refine ⟨index, gives_field.mpr holds, ?_⟩
  rw [if_pos isIndex, Probe.gives_bind]
  exact ⟨method, isMethod, Probe.gives_check.mpr address⟩

end Fields

/-- A pointer into profiling data becomes its index plus one. -/
theorem gives_convertMdx_pointer
    {pointer converted : Word} :
    (frame.convertMdx view false pointer).Gives converted ↔
      ∃ method area index, (frame.method view).Gives method ∧
        method.profiling = some area ∧ area.indexOf? pointer = some index ∧
          index.plus 1 = .ok converted := by
  simp only [convertMdx, Probe.gives_bind, Probe.gives_demand, Probe.gives_check,
    Bool.false_eq_true, if_false]
  constructor
  · rintro ⟨method, found, area, profiled, index, isIndex, sum⟩
    exact ⟨method, area, index, found, profiled, isIndex, sum⟩
  · rintro ⟨method, area, index, found, profiled, isIndex, sum⟩
    exact ⟨method, found, area, profiled, index, isIndex, sum⟩

/-- An index plus one becomes the pointer again. -/
theorem gives_convertMdx_index
    {shifted converted : Word} :
    (frame.convertMdx view true shifted).Gives converted ↔
      ∃ method area index, (frame.method view).Gives method ∧
        method.profiling = some area ∧ shifted.minus 1 = .ok index ∧
          area.pointerOf index = .ok converted := by
  simp only [convertMdx, Probe.gives_bind, Probe.gives_demand, Probe.gives_check,
    if_true]
  constructor
  · rintro ⟨method, found, area, profiled, index, isIndex, sum⟩
    exact ⟨method, area, index, found, profiled, isIndex, sum⟩
  · rintro ⟨method, area, index, found, profiled, isIndex, sum⟩
    exact ⟨method, found, area, profiled, index, isIndex, sum⟩

end Frame

/-- The pointer that an index was taken from is the one that it leads back to. -/
theorem ProfilingArea.pointerOf_of_indexOf?
    {area : ProfilingArea}
    {pointer index : Word}
    (isIndex : area.indexOf? pointer = some index) :
    area.pointerOf index = .ok pointer := by
  obtain ⟨difference, -⟩ := Option.filter_eq_some_iff.mp isIndex
  unfold Word.sub? at difference
  split at difference
  · rename_i base
    obtain rfl := Option.some.inj difference
    have exact := UInt64.toNat_sub_of_le _ _ base
    have small := pointer.toNat_lt
    have size : UInt64.size = 0x10000000000000000 := rfl
    rw [UInt64.le_iff_toNat_le] at base
    refine Word.plus_eq_ok.mpr ⟨?_, ?_⟩ <;> omega
  · cases difference

namespace Frame

section Stores

variable {frame : Frame} {env : Env} {position : Word}
  {before after : Machine} {value : Unit} {cause : FrameError}

/-- A store of the position word leaves the profiling word in its form. -/
def KeepsProfiling
    (env : Env)
    (stack : Stack)
    (frame : Frame)
    (position : Word) :
    Prop :=
  env.diagnostics.profileInterpreter = true →
    ∃ former profiling,
      stack.Holds (frame.slot (-7)) former ∧
        stack.Holds (frame.slot (-4)) profiling ∧
          (profiling = 0 ∨ isBytecodeIndex former = isBytecodeIndex position)

/-- A store of the position word converts the profiling word to this one. -/
def ConvertsProfiling
    (env : Env)
    (machine : Machine)
    (frame : Frame)
    (position converted : Word) :
    Prop :=
  env.diagnostics.profileInterpreter = true ∧
    ∃ former profiling,
      machine.stack.Holds (frame.slot (-7)) former ∧
        machine.stack.Holds (frame.slot (-4)) profiling ∧
          profiling ≠ 0 ∧ isBytecodeIndex former ≠ isBytecodeIndex position ∧
            (frame.convertMdx (machine.view env) (isBytecodeIndex former)
              profiling).Gives converted

/-- The words that a store of the position word puts. -/
theorem gives_setBcx_iff (x86 : env.layout = .x86_64) :
    (frame.setBcx env position).Gives before value after ↔
      frame.kind = .interpreted ∧
        before.stack.Covers (frame.slot (-7)) ∧
          (KeepsProfiling env before.stack frame position ∧
              after = { before with
                stack := before.stack.put (frame.slot (-7)) position } ∨
            ∃ converted, ConvertsProfiling env before frame position converted ∧
              before.stack.Covers (frame.slot (-4)) ∧
                after = { before with
                  stack := (before.stack.put (frame.slot (-7))
                    position).put (frame.slot (-4)) converted }) := by
  have layout : (before.view env).layout = .x86_64 := x86
  unfold KeepsProfiling ConvertsProfiling
  simp only [x86, layout, FrameLayout.x86_64, setBcx, expectInterpreted, bcx, mdx, putField,
    setMdx, gives_bind, gives_lift, Machine.gives_look, Machine.gives_write, gives_check,
    gives_ite, gives_expectKind, gives_field, and_assoc, exists_and_left, exists_eq_left,
    exists_const, Stack.covers_put]
  refine and_congr_right fun _ => ?_
  cases profiled : env.diagnostics.profileInterpreter with
  | false => simp
  | true =>
      simp only [true_and, not_true_eq_false, false_and, or_false, forall_const,
        require, if_true, exists_const, Bool.or_eq_true, decide_eq_true_eq,
        beq_iff_eq, not_or]
      constructor
      · rintro ⟨former, isFormer, profiling, isProfiling,
          ⟨kept, covers, same⟩ | ⟨⟨nonzero, changed⟩, converted, converts, covers,
            coversMdx, same⟩⟩
        · exact ⟨covers, .inl ⟨⟨former, isFormer, profiling, isProfiling, kept⟩,
            same⟩⟩
        · exact ⟨covers, .inr ⟨converted, ⟨former, isFormer, profiling,
            isProfiling, nonzero, changed, converts⟩, coversMdx, same⟩⟩
      · rintro ⟨covers, ⟨⟨former, isFormer, profiling, isProfiling, kept⟩, same⟩ |
          ⟨converted, ⟨former, isFormer, profiling, isProfiling, nonzero, changed,
            converts⟩, coversMdx, same⟩⟩
        · exact ⟨former, isFormer, profiling, isProfiling,
            .inl ⟨kept, covers, same⟩⟩
        · exact ⟨former, isFormer, profiling, isProfiling,
            .inr ⟨⟨nonzero, changed⟩, converted, converts, covers, coversMdx,
              same⟩⟩

/-- A store of the position word that fails changes nothing. -/
theorem eq_of_raises_setBcx
    (raises : (frame.setBcx env position).Raises before cause after) :
    after = before := by
  simp only [setBcx, expectInterpreted, bcx, mdx, putField, setMdx, raises_bind,
    raises_lift, raises_check, Machine.raises_look, Machine.raises_write,
    raises_ite, gives_lift, gives_check, Machine.gives_look, Machine.gives_write,
    gives_expectKind, gives_field, false_or, and_assoc, exists_and_left,
    exists_eq_left, exists_const, Stack.covers_put] at raises
  rcases raises with ⟨-, same⟩ | ⟨-, ⟨-, looking⟩ | ⟨-, -, same, -⟩⟩
  · exact same
  · rcases looking with ⟨-, same⟩ | ⟨former, -, ⟨-, same⟩ |
      ⟨profiling, isProfiling, ⟨-, -, same, -⟩ | ⟨-, ⟨-, same⟩ |
        ⟨_, _, ⟨-, same, -⟩ | ⟨-, _, -, uncovered, -⟩⟩⟩⟩⟩
    · exact same
    · exact same
    · exact same
    · exact same
    · exact same
    · exact (uncovered isProfiling.covers).elim
  · exact same

end Stores

/-- The places of the fixed slots of an interpreted frame. -/
def FixedPlace
    (frame : Frame)
    (place : Nat) :
    Prop :=
  frame.kind = .interpreted ∧ frame.fp.toNat ≤ place + 72 ∧
    place < frame.fp.toNat

/-- The frame has its slots to itself, and a position that it is at is an address. -/
structure Switchable
    (env : Env)
    (stack : Stack)
    (frame : Frame) :
    Prop where
  slots : frame.sp.toNat + 72 ≤ frame.fp.toNat
  address : ∀ position word method bci,
    stack.Holds (frame.slot (-7)) position →
      stack.Holds (frame.slot (-3)) word →
        env.methods.find? word = some method →
          method.bciOfBcx? position = some bci →
            65535 < position.toNat ∧ method.codeSize.toNat ≤ 65536

/-- Switching the frame back gives its fixed slots their words from before. -/
def Restores
    (env : Env)
    (original current : Stack)
    (frame : Frame) :
    Prop :=
  ∀ machine : Machine,
    Stack.Keeps frame.FixedPlace current machine.stack →
      ∃ restored, (frame.endScan env).Gives machine ()
          { machine with stack := restored } ∧
        Stack.Keeps (fun place => ¬frame.FixedPlace place)
          machine.stack restored ∧
          Stack.Keeps frame.FixedPlace original restored

section Switching

variable {frame : Frame} {env : Env} {before after : Machine}
  {original current : Stack} {words : Int}

/-- The fixed slots lie below the frame pointer without wrapping around. -/
theorem toNat_fixedSlot
    (slots : frame.sp.toNat + 72 ≤ frame.fp.toNat)
    (above : -9 ≤ words)
    (below : words ≤ -1) :
    ((frame.slot words).toNat : Int) = frame.fp.toNat + 8 * words := by
  have moved := Word.toNat_offset frame.fp words
  have small := frame.fp.toNat_lt
  unfold slot
  omega

theorem slot_ne_slot
    {first second : Int}
    (different : first ≠ second)
    (near : first - second < 0x2000000000000000)
    (nearToo : second - first < 0x2000000000000000) :
    frame.slot first ≠ frame.slot second :=
  Word.offset_ne_offset different near nearToo

theorem fixedPlace_slot
    (interpreted : frame.kind = .interpreted)
    (slots : frame.sp.toNat + 72 ≤ frame.fp.toNat)
    (above : -9 ≤ words)
    (below : words ≤ -1) :
    frame.FixedPlace (frame.slot words).toNat := by
  have place := toNat_fixedSlot slots above below
  exact ⟨interpreted, by omega, by omega⟩

/-- The frame is interpreted and at an address that its method has an index for. -/
structure IsAt
    (env : Env)
    (stack : Stack)
    (frame : Frame)
    (position word : Word)
    (method : Method)
    (bci : UInt32) :
    Prop where
  interpreted : frame.kind = .interpreted
  slots : frame.sp.toNat + 72 ≤ frame.fp.toNat
  holdsPosition : stack.Holds (frame.slot (-7)) position
  holdsWord : stack.Holds (frame.slot (-3)) word
  known : env.methods.find? word = some method
  isAddress : isBytecodeIndex position = false
  isIndex : isBytecodeIndex bci.toUInt64 = true
  back : method.bcpOf bci = .ok position

variable {position word : Word} {method : Method} {bci : UInt32}

theorem Switchable.isAt
    (switchable : frame.Switchable env original)
    (interpreted : frame.kind = .interpreted)
    (holdsPosition : original.Holds (frame.slot (-7)) position)
    (holdsWord : original.Holds (frame.slot (-3)) word)
    (known : env.methods.find? word = some method)
    (found : method.bciOfBcx? position = some bci) :
    frame.IsAt env original position word method bci := by
  obtain ⟨address, sized⟩ := switchable.address position word method bci
    holdsPosition holdsWord known found
  exact ⟨interpreted, switchable.slots, holdsPosition, holdsWord, known,
    isBytecodeIndex_eq_false address, (Method.bciOfBcx?_toUInt64 found sized).1,
    Method.bcpOf_of_position found address sized⟩

namespace IsAt

variable (isAt : frame.IsAt env original position word method bci)
include isAt

/-- The slots that a switch is about are fixed slots of the frame. -/
theorem fixedPlace
    (above : -9 ≤ words)
    (below : words ≤ -1) :
    frame.FixedPlace (frame.slot words).toNat :=
  fixedPlace_slot isAt.interpreted isAt.slots above below

variable (x86 : env.layout = .x86_64)
include x86

/-- A frame at the index stores the address that it was at. -/
theorem gives_endScan
    {machine restored : Machine}
    (atIndex : machine.stack.Holds (frame.slot (-7)) bci.toUInt64)
    (runs : machine.stack.Holds (frame.slot (-3)) word)
    (stores : (frame.setBcx env position).Gives machine () restored) :
    (frame.endScan env).Gives machine () restored := by
  refine (Frame.gives_endScan isAt.interpreted).mpr ⟨position, ?_, stores⟩
  exact gives_bcp_of_index x86 isAt.isIndex atIndex
    ((gives_method x86).mpr ⟨isAt.interpreted, word, runs, isAt.known⟩)
    (by simpa using isAt.back)

/--
A switch of the position word alone is taken back.  The form has changed, so that the
profiling word was kept for being zero.
-/
theorem restores_of_keepsProfiling
    (kept : KeepsProfiling env original frame bci.toUInt64) :
    frame.Restores env original
      (original.put (frame.slot (-7)) bci.toUInt64) := by
  have bcxPlace := isAt.fixedPlace (by omega : -9 ≤ (-7 : Int)) (by omega)
  intro machine keeps
  have atIndex := keeps.holds (Stack.holds_put_same isAt.holdsPosition.covers)
    bcxPlace
  have runs := keeps.holds ((Stack.holds_put_of_ne (slot_ne_slot (by omega)
    (by omega) (by omega))).mpr isAt.holdsWord)
    (isAt.fixedPlace (by omega : -9 ≤ (-3 : Int)) (by omega))
  have keepsOthers : Stack.Keeps
      (fun place => frame.FixedPlace place ∧ (frame.slot (-7)).toNat ≠ place)
      original machine.stack :=
    (Stack.Keeps.put _ _ fun inside => inside.2 rfl).trans
      (keeps.mono fun _ => And.left)
  have keepsForm : KeepsProfiling env machine.stack frame position := by
    intro profiled
    obtain ⟨former, profiling, isFormer, isProfiling, form⟩ := kept profiled
    obtain rfl := isAt.holdsPosition.unique isFormer
    refine ⟨_, profiling, atIndex, keeps.holds ((Stack.holds_put_of_ne
      (slot_ne_slot (by omega) (by omega) (by omega))).mpr isProfiling)
      (isAt.fixedPlace (by omega : -9 ≤ (-4 : Int)) (by omega)), .inl ?_⟩
    rcases form with zero | same
    · exact zero
    · rw [isAt.isAddress, isAt.isIndex] at same
      cases same
  have stores : (frame.setBcx env _).Gives _ () _ := (gives_setBcx_iff x86).mpr
    ⟨isAt.interpreted, atIndex.covers, .inl ⟨keepsForm, rfl⟩⟩
  exact ⟨_, isAt.gives_endScan x86 atIndex runs stores,
    .put _ _ fun outside => outside bcxPlace,
    keepsOthers.put_held isAt.holdsPosition⟩

/--
A switch of both words is taken back.  Both slots hold again what they held, so that
all of the frame is as it was.
-/
theorem restores_of_convertsProfiling
    {converted : Word}
    {before : Machine}
    (isBefore : before.stack = original)
    (converts : ConvertsProfiling env before frame bci.toUInt64 converted) :
    frame.Restores env original
      ((original.put (frame.slot (-7)) bci.toUInt64).put (frame.slot (-4))
        converted) := by
  subst isBefore
  obtain ⟨profiled, former, profiling, isFormer, isProfiling, nonzero, -,
    converts⟩ := converts
  obtain rfl := isAt.holdsPosition.unique isFormer
  rw [isAt.isAddress] at converts
  obtain ⟨owner, area, index, isOwner, hasArea, indexed, shifted⟩ :=
    gives_convertMdx_pointer.mp converts
  have isMethod : (frame.method (before.view env)).Gives method :=
    (gives_method x86).mpr ⟨isAt.interpreted, word, isAt.holdsWord, isAt.known⟩
  obtain rfl := isMethod.unique isOwner
  have bcxPlace := isAt.fixedPlace (by omega : -9 ≤ (-7 : Int)) (by omega)
  have mdxPlace := isAt.fixedPlace (by omega : -9 ≤ (-4 : Int)) (by omega)
  have apart : frame.slot (-7) ≠ frame.slot (-4) :=
    slot_ne_slot (by omega) (by omega) (by omega)
  intro machine keeps
  have atIndex := keeps.holds ((Stack.holds_put_of_ne apart).mpr
    (Stack.holds_put_same isAt.holdsPosition.covers)) bcxPlace
  have atShifted := keeps.holds (Stack.holds_put_same
    (Stack.covers_put.mpr isProfiling.covers)) mdxPlace
  have runs := keeps.holds
    ((Stack.holds_put_of_ne (slot_ne_slot (by omega) (by omega) (by omega))).mpr
      ((Stack.holds_put_of_ne (slot_ne_slot (by omega) (by omega)
        (by omega))).mpr isAt.holdsWord))
    (isAt.fixedPlace (by omega : -9 ≤ (-3 : Int)) (by omega))
  have keepsOthers : Stack.Keeps
      (fun place => (frame.FixedPlace place ∧ (frame.slot (-4)).toNat ≠ place) ∧
        (frame.slot (-7)).toNat ≠ place)
      before.stack machine.stack :=
    ((Stack.Keeps.put _ _ fun inside => inside.2 rfl).trans
      (.put _ _ fun inside => inside.1.2 rfl)).trans
      (keeps.mono fun _ inside => inside.1.1)
  have sum := Word.plus_eq_ok.mp shifted
  have one : (1 : Word).toNat = 1 := rfl
  have convertsBack : ConvertsProfiling env machine frame position profiling := by
    refine ⟨profiled, _, converted, atIndex, atShifted, ?_, ?_, ?_⟩
    · rintro rfl
      have zero : (0 : Word).toNat = 0 := rfl
      omega
    · rw [isAt.isIndex, isAt.isAddress]
      decide
    · rw [isAt.isIndex]
      refine gives_convertMdx_index.mpr ⟨method, area, index,
        (gives_method x86).mpr ⟨isAt.interpreted, word, runs, isAt.known⟩,
        hasArea, Word.minus_eq_ok.mpr ⟨?_, ?_⟩,
        ProfilingArea.pointerOf_of_indexOf? indexed⟩ <;> omega
  have stores : (frame.setBcx env _).Gives _ () _ := (gives_setBcx_iff x86).mpr
    ⟨isAt.interpreted, atIndex.covers,
      .inr ⟨profiling, convertsBack, atShifted.covers, rfl⟩⟩
  exact ⟨_, isAt.gives_endScan x86 atIndex runs stores,
    (Stack.Keeps.put _ _ fun outside => outside bcxPlace).trans
      (.put _ _ fun outside => outside mdxPlace),
    (keepsOthers.put_held isAt.holdsPosition).put_held isProfiling⟩

end IsAt

/-- An interpreted frame that was switched can be switched back. -/
theorem restores_of_beginScan_interpreted
    (x86 : env.layout = .x86_64)
    (interpreted : frame.kind = .interpreted)
    (switchable : frame.Switchable env before.stack)
    (gives : (frame.beginScan env).Gives before () after) :
    ∃ stack, after = { before with stack := stack } ∧
      Stack.Keeps (fun place => ¬frame.FixedPlace place) before.stack stack ∧
        frame.Restores env before.stack stack := by
  obtain ⟨bci, isBci, stored⟩ := (gives_beginScan interpreted).mp gives
  obtain ⟨position, method, holdsPosition, isMethod, found⟩ :=
    (gives_bci (by exact x86)).mp isBci
  obtain ⟨-, word, holdsWord, known⟩ := (gives_method (by exact x86)).mp isMethod
  have isAt := switchable.isAt interpreted holdsPosition holdsWord known found
  have bcxPlace := isAt.fixedPlace (by omega : -9 ≤ (-7 : Int)) (by omega)
  have mdxPlace := isAt.fixedPlace (by omega : -9 ≤ (-4 : Int)) (by omega)
  obtain ⟨-, -, ⟨kept, rfl⟩ | ⟨converted, converts, -, rfl⟩⟩ :=
    (gives_setBcx_iff x86).mp stored
  · exact ⟨_, rfl, .put _ _ fun outside => outside bcxPlace,
      isAt.restores_of_keepsProfiling x86 kept⟩
  · exact ⟨_, rfl, (Stack.Keeps.put _ _ fun outside => outside bcxPlace).trans
      (.put _ _ fun outside => outside mdxPlace),
      isAt.restores_of_convertsProfiling x86 rfl converts⟩

/-- Frames that are not interpreted are left as they are. -/
theorem beginScan_of_ne (other : frame.kind ≠ .interpreted) :
    frame.beginScan env = pure () :=
  if_neg other

theorem endScan_of_ne (other : frame.kind ≠ .interpreted) :
    frame.endScan env = pure () :=
  if_neg other

/-- A frame that was begun with can be gone back on. -/
theorem restores_of_beginScan
    (x86 : env.layout = .x86_64)
    (switchable : frame.kind = .interpreted → frame.Switchable env before.stack)
    (gives : (frame.beginScan env).Gives before () after) :
    ∃ stack, after = { before with stack := stack } ∧
      Stack.Keeps (fun place => ¬frame.FixedPlace place) before.stack stack ∧
        frame.Restores env before.stack stack := by
  by_cases interpreted : frame.kind = .interpreted
  · exact restores_of_beginScan_interpreted x86 interpreted
      (switchable interpreted) gives
  · rw [beginScan_of_ne interpreted, gives_pure] at gives
    refine ⟨before.stack, gives.2, .refl _, fun machine keeps =>
      ⟨machine.stack, ?_, .refl _, keeps⟩⟩
    rw [endScan_of_ne interpreted]
    exact gives_pure.mpr ⟨rfl, rfl⟩

/-- A frame that cannot be switched is left as it is. -/
theorem eq_of_raises_beginScan
    {cause : FrameError}
    (raises : (frame.beginScan env).Raises before cause after) :
    after = before := by
  by_cases interpreted : frame.kind = .interpreted
  · unfold beginScan at raises
    rw [if_pos interpreted, raises_bind] at raises
    rcases raises with fails | ⟨bci, between, looks, fails⟩
    · exact (Machine.raises_look.mp fails).2
    · rw [eq_of_raises_setBcx fails]
      exact (Machine.gives_look.mp looks).2
  · rw [beginScan_of_ne interpreted] at raises
    exact (raises_pure raises).elim

/-- A frame can be switched wherever its fixed slots are the same. -/
theorem Switchable.of_keeps
    (switchable : frame.Switchable env original)
    (interpreted : frame.kind = .interpreted)
    (keeps : Stack.Keeps frame.FixedPlace original current) :
    frame.Switchable env current where
  slots := switchable.slots
  address := by
    intro position word method bci isPosition isWord
    have bcxPlace := fixedPlace_slot interpreted switchable.slots
      (by omega : -9 ≤ (-7 : Int)) (by omega)
    have methodPlace := fixedPlace_slot interpreted switchable.slots
      (by omega : -9 ≤ (-3 : Int)) (by omega)
    unfold Stack.Holds at isPosition isWord
    rw [keeps.word _ bcxPlace] at isPosition
    rw [keeps.word _ methodPlace] at isWord
    exact switchable.address position word method bci isPosition isWord

/-- A frame goes on restoring what changed apart from it. -/
theorem Restores.of_keeps
    {changed : Stack}
    (restores : frame.Restores env original current)
    (keeps : Stack.Keeps frame.FixedPlace current changed) :
    frame.Restores env original changed :=
  fun machine others => restores machine (keeps.trans others)

end Switching

/-- The fixed slots of the two frames are different places. -/
def Apart (frame other : Frame) : Prop :=
  ∀ place, frame.FixedPlace place → ¬other.FixedPlace place

/-- A frame below another one has its fixed slots below those of the other. -/
theorem Below.apart
    {lower upper : Frame}
    (below : lower.Below upper)
    (slots : upper.kind = .interpreted →
      upper.sp.toNat + 72 ≤ upper.fp.toNat) :
    lower.Apart upper := by
  rintro place ⟨lowerInterpreted, -, inLower⟩ ⟨upperInterpreted, inUpper, -⟩
  have fp := below.fp lowerInterpreted
  have room := slots upperInterpreted
  omega

end Frame

namespace RootScan

variable {env : Env} {original current : Stack}
  {switched rest : List WalkedFrame} {walked : WalkedFrame}
  {before after : Machine} {thread : ThreadId} {cause : FrameError}

/-- Only fixed slots of these frames changed, and each frame restores its own. -/
structure Switched
    (env : Env)
    (original current : Stack)
    (switched : List WalkedFrame) :
    Prop where
  keeps : Stack.Keeps
    (fun place => ∀ walked ∈ switched, ¬walked.frame.FixedPlace place)
    original current
  restores : ∀ walked ∈ switched, walked.frame.Restores env original current

theorem Switched.nil (stack : Stack) : Switched env stack stack [] :=
  ⟨.refl stack, fun _ inside => (List.not_mem_nil inside).elim⟩

/-- The order of the frames does not matter. -/
theorem Switched.of_mem_iff
    (isSwitched : Switched env original current switched)
    (same : ∀ walked, walked ∈ rest ↔ walked ∈ switched) :
    Switched env original current rest where
  keeps := isSwitched.keeps.mono fun _ outside walked inside =>
    outside walked ((same walked).mpr inside)
  restores := fun walked inside =>
    isSwitched.restores walked ((same walked).mp inside)

/-- One more frame is switched. -/
theorem Switched.cons
    {changed : Stack}
    (isSwitched : Switched env original current switched)
    (apart : ∀ other ∈ switched, other.frame.Apart walked.frame)
    (keeps : Stack.Keeps (fun place => ¬walked.frame.FixedPlace place)
      current changed)
    (restores : walked.frame.Restores env current changed) :
    Switched env original changed (walked :: switched) := by
  have untouched : Stack.Keeps walked.frame.FixedPlace original current :=
    isSwitched.keeps.mono fun place inside other isOther inOther =>
      apart other isOther place inOther inside
  constructor
  case keeps =>
    exact (isSwitched.keeps.mono fun place outside other isOther =>
      outside other (by simp [isOther])).trans
        (keeps.mono fun place outside => outside walked (by simp))
  case restores =>
    intro other isOther
    rcases List.mem_cons.mp isOther with rfl | inSwitched
    · intro machine others
      obtain ⟨restored, ends, outside, inside⟩ := restores machine others
      exact ⟨restored, ends, outside, untouched.trans inside⟩
    · exact (isSwitched.restores other inSwitched).of_keeps
        (keeps.mono (apart other inSwitched))

/--
Switching back all frames that were switched gives the stack from before.  Frames are
apart, so that switching one back leaves the others switched.
-/
theorem gives_restoreAll_of_switched
    (isSwitched : Switched env original before.stack switched)
    (apart : switched.Pairwise fun lower upper =>
      lower.frame.Apart upper.frame) :
    (restoreAll env switched).Gives before (.ok ())
      { before with stack := original } := by
  induction switched generalizing before with
  | nil =>
      have same : before.stack = original :=
        (isSwitched.keeps.mono fun _ _ _ inside =>
          (List.not_mem_nil inside).elim).eq
      subst same
      exact gives_pure.mpr ⟨rfl, rfl⟩
  | cons walked rest inductionHypothesis =>
      obtain ⟨fromWalked, amongRest⟩ := List.pairwise_cons.mp apart
      obtain ⟨restored, ends, keeps, back⟩ :=
        isSwitched.restores walked (by simp) before (.refl _)
      have goesOn : Switched env original restored rest := by
        constructor
        case keeps =>
          refine ⟨keeps.base.trans isSwitched.keeps.base,
            keeps.size.trans isSwitched.keeps.size, fun address outside => ?_⟩
          by_cases inside : walked.frame.FixedPlace address.toNat
          · exact back.word address inside
          · rw [keeps.word address inside]
            refine isSwitched.keeps.word address fun other isOther => ?_
            rcases List.mem_cons.mp isOther with rfl | inRest
            · exact inside
            · exact outside other inRest
        case restores =>
          intro other inRest
          exact (isSwitched.restores other (by simp [inRest])).of_keeps
            (keeps.mono fun place inOther inWalked =>
              fromWalked other inRest place inWalked inOther)
      have others : (restoreAll env rest).Gives { before with stack := restored }
          (.ok ()) { before with stack := original } :=
        inductionHypothesis goesOn amongRest
      exact gives_restoreAll_cons ends others

/-- Frames that are switched go back with the stack from before. -/
theorem gives_restoreFrames_of_switched
    (isSwitched : Switched env original before.stack switched)
    (apart : switched.Pairwise fun lower upper =>
      lower.frame.Apart upper.frame) :
    (restoreFrames env switched).Gives before ()
      { before with stack := original } :=
  gives_restoreFrames (gives_restoreAll_of_switched isSwitched apart)

/-- Switching ends with an error of a later frame, or going back after a failure. -/
theorem raises_prepareFrames_cons
    (raises : (prepareFrames env thread switched (walked :: rest)).Raises
      before cause after) :
    (∃ between, (walked.frame.beginScan env).Gives before () between ∧
        (prepareFrames env thread (walked :: switched) rest).Raises
          between cause after) ∨
      ∃ failure between, (walked.frame.beginScan env).Raises
          before failure between ∧
        ((restoreFrames env switched.reverse).Raises between cause after ∨
          (restoreFrames env switched.reverse).Gives between () after) := by
  rw [prepareFrames] at raises
  simp only [raises_bind, raises_attempt, gives_attempt, false_or] at raises
  obtain ⟨_, between, ⟨_, rfl, begins⟩ | ⟨failure, rfl, fails⟩, goesOn⟩ := raises
  · exact .inl ⟨between, begins, goesOn⟩
  · refine .inr ⟨failure, between, fails, ?_⟩
    simp only [raises_bind, raises_report, gives_report, raises_fail, false_or,
      exists_eq_left, exists_const] at goesOn
    rcases goesOn with fails | ⟨_, restored, restores, -, rfl⟩
    · exact .inl fails
    · exact .inr restores

/--
However switching ends, all can go back, or has gone back already.  A frame that is
switched joins those that are, and the rest goes on from it.
-/
theorem ends_prepareFrames
    (x86 : env.layout = .x86_64)
    (isSwitched : Switched env original before.stack switched)
    (switchable : ∀ walked ∈ rest, walked.frame.kind = .interpreted →
      walked.frame.Switchable env original)
    (apart : (switched.reverse ++ rest).Pairwise fun lower upper =>
      lower.frame.Apart upper.frame) :
    (∀ value after, (prepareFrames env thread switched rest).Gives
        before value after →
      ∃ stack, after = { before with stack := stack } ∧
        Switched env original stack (switched.reverse ++ rest)) ∧
    ∀ cause after, (prepareFrames env thread switched rest).Raises
        before cause after →
      after = { before with stack := original } := by
  induction rest generalizing switched before with
  | nil =>
      constructor
      · intro value after gives
        refine ⟨before.stack, (gives_pure.mp gives).2, isSwitched.of_mem_iff ?_⟩
        simp
      · intro cause after raises
        exact (raises_pure raises).elim
  | cons walked rest inductionHypothesis =>
      have fromSwitched : ∀ other ∈ switched,
          other.frame.Apart walked.frame := fun other isOther =>
        (List.pairwise_append.mp apart).2.2 other (by simpa using isOther) walked
          (by simp)
      have amongSwitched := (List.pairwise_append.mp apart).1
      have untouched : Stack.Keeps walked.frame.FixedPlace original
          before.stack :=
        isSwitched.keeps.mono fun place inside other isOther inOther =>
          fromSwitched other isOther place inOther inside
      have begins (between : Machine)
          (gives : (walked.frame.beginScan env).Gives before () between) :
          (∀ value after, (prepareFrames env thread (walked :: switched)
              rest).Gives between value after →
            ∃ stack, after = { before with stack := stack } ∧
              Switched env original stack (switched.reverse ++ walked :: rest)) ∧
          ∀ cause after, (prepareFrames env thread (walked :: switched)
              rest).Raises between cause after →
            after = { before with stack := original } := by
        obtain ⟨stack, rfl, keeps, restores⟩ :=
          Frame.restores_of_beginScan x86
            (fun interpreted => (switchable walked (by simp)
              interpreted).of_keeps interpreted untouched) gives
        have others := @inductionHypothesis _ { before with stack := stack }
          (isSwitched.cons fromSwitched keeps restores)
          (fun later inRest => switchable later (by simp [inRest]))
          (by simpa using apart)
        simpa using others
      constructor
      · intro value after gives
        obtain ⟨between, begun, goesOn⟩ := gives_prepareFrames_cons.mp gives
        exact (begins between begun).1 value after goesOn
      · intro cause after raises
        rcases raises_prepareFrames_cons raises with
          ⟨between, begun, goesOn⟩ | ⟨failure, between, fails, goesBack⟩
        · exact (begins between begun).2 cause after goesOn
        · obtain rfl := Frame.eq_of_raises_beginScan fails
          have restores : (restoreFrames env switched.reverse).Gives between ()
              { between with stack := original } :=
            gives_restoreFrames_of_switched
              (isSwitched.of_mem_iff (by simp)) amongSwitched
          rcases goesBack with raised | given
          · exact (restores.not_raises raised).elim
          · exact given.2.symm.trans restores.2

/-- The thread's walk, with register maps, yields these frames. -/
def Walks
    (env : Env)
    (machine : Machine)
    (frames : List WalkedFrame) :
    Prop :=
  ∃ stream,
    (machine.thread.frameStream (machine.view env) true).Gives stream ∧
      (stream.frames (machine.view env)).Gives frames

/-- The fixed slots of the frames of a walk lie apart. -/
theorem Walks.apart
    {frames : List WalkedFrame}
    (walks : Walks env before frames)
    (x86 : env.layout = .x86_64)
    (switchable : ∀ walked ∈ frames, walked.frame.kind = .interpreted →
      walked.frame.Switchable env before.stack) :
    frames.Pairwise fun lower upper => lower.frame.Apart upper.frame := by
  obtain ⟨stream, -, gives⟩ := walks
  have lists := FrameStream.gives_frames.mp gives
  refine (pairwise_below_of_isChain x86 lists.isChain).imp_of_mem ?_
  intro lower upper _ inUpper below
  exact below.apart fun interpreted => (switchable upper inUpper interpreted).slots

/--
A scan that answers, or that ends with an error because a frame could not be switched
or not be scanned, leaves the machine as it was.
-/
theorem scanThread_neutral
    {safepoint : Safepoint}
    (x86 : env.layout = .x86_64)
    (switchable : ∀ frames, Walks env before frames →
      ∀ walked ∈ frames, walked.frame.kind = .interpreted →
        walked.frame.Switchable env before.stack)
    (returns : (∃ report, (scanThread env safepoint).Gives before report after) ∨
      ∃ cause, (scanThread env safepoint).Raises before cause after) :
    after = before := by
  have scanning (frames : List WalkedFrame) (walks : Walks env before frames) :
      (∀ value between, (prepareFrames env before.thread.id [] frames).Gives
        before value between →
          (restoreFrames env frames).Gives between () before) ∧
      ∀ cause between, (prepareFrames env before.thread.id [] frames).Raises
        before cause between → between = before := by
    have apart := walks.apart x86 (switchable frames walks)
    obtain ⟨gives, raises⟩ := ends_prepareFrames x86 (.nil before.stack)
      (switchable frames walks) (by simpa using apart)
    refine ⟨fun value between given => ?_, fun cause between raised =>
      raises cause between raised⟩
    obtain ⟨stack, rfl, isSwitched⟩ := gives value between given
    have restores : (restoreFrames env frames).Gives { before with stack := stack }
        () { before with stack := before.stack } :=
      gives_restoreFrames_of_switched isSwitched apart
    exact restores
  have walked {frames : List WalkedFrame} {between : Machine}
      (gives : (Machine.look env fun view => do
        let stream ← before.thread.frameStream view true
        stream.frames view).Gives before frames between) :
      between = before ∧ Walks env before frames := by
    rw [Machine.gives_look, Probe.gives_bind] at gives
    exact ⟨gives.2, gives.1⟩
  rcases returns with ⟨report, gives⟩ | ⟨cause, raises⟩
  · unfold scanThread at gives
    simp only [gives_bind, gives_state, gives_ite, gives_fail, and_false,
      false_or, and_assoc, exists_and_left, exists_eq_left] at gives
    obtain ⟨-, ⟨-, ends⟩ | ⟨-, frames, _, walks, _, switched, prepared, scanned,
      visited, looked, _, restored, restores, ends⟩⟩ := gives
    · exact (gives_pure.mp ends).2
    · obtain ⟨unmoved, isWalk⟩ := walked walks
      rw [unmoved] at prepared
      have unchanged : switched = visited := looked.2
      subst unchanged
      have goesBack := (scanning frames isWalk).1 _ _ prepared
      have same : restored = before := restores.2.symm.trans goesBack.2
      cases scanned with
      | ok stats => exact (gives_pure.mp ends).2.trans same
      | error cause => exact (gives_fail ends).elim
  · unfold scanThread at raises
    simp only [raises_bind, raises_state, raises_ite, raises_fail, gives_state,
      raises_attempt, false_or, and_assoc, exists_and_left, exists_eq_left]
      at raises
    obtain ⟨-, -, same⟩ | ⟨-, ⟨-, ends⟩ | ⟨-, unwalked | ⟨frames, _, walks,
      unprepared | ⟨_, switched, prepared, scanned, visited, looked,
        unrestored | ⟨_, restored, restores, ends⟩⟩⟩⟩⟩ := raises
    · exact same
    · exact (raises_pure ends).elim
    · exact (Machine.raises_look.mp unwalked).2
    · obtain ⟨unmoved, isWalk⟩ := walked walks
      rw [unmoved] at unprepared
      exact (scanning frames isWalk).2 _ _ unprepared
    all_goals
      obtain ⟨unmoved, isWalk⟩ := walked walks
      rw [unmoved] at prepared
      have unchanged : switched = visited := looked.2
      subst unchanged
      have goesBack := (scanning frames isWalk).1 _ _ prepared
    · exact (goesBack.not_raises unrestored).elim
    · have same : restored = before := restores.2.symm.trans goesBack.2
      cases scanned with
      | ok stats => exact (raises_pure ends).elim
      | error cause => exact (raises_fail.mp ends).2.trans same

end RootScan

/-- An operation raises the error that its outcome is. -/
theorem Operation.raises_of_map_outcome
    {σ ε α : Type}
    {operation : Operation σ ε α}
    {before : σ}
    {cause : ε}
    (ends : ((operation before).1.outcome.map fun _ => ()) =
      .error (.error cause)) :
    ∃ after, operation.Raises before cause after := by
  refine ⟨_, ?_, rfl⟩
  cases outcome : (operation before).1.outcome with
  | ok value => rw [outcome] at ends; cases ends
  | error failure =>
    rw [outcome] at ends
    injection ends with same
    rw [same]

namespace Pair

/-- The surroundings in which the method of the caller is not known. -/
def partlyResolved : Env :=
  { context.env with methods := ⟨[callee]⟩ }

/-- The frames that a scan of the thread finds. -/
def scanned : Probe FrameError (List WalkedFrame) := do
  let stream ← entered.machine.thread.frameStream
    (entered.machine.view partlyResolved) true
  stream.frames (entered.machine.view partlyResolved)

/-- The slots of these frames do not overlap, and their positions are addresses. -/
theorem switchable_scanned
    {frames : List WalkedFrame}
    (walks : RootScan.Walks partlyResolved entered.machine frames) :
    ∀ walked ∈ frames, walked.frame.kind = .interpreted →
      walked.frame.Switchable partlyResolved entered.machine.stack := by
  have known : scanned.outcome.toOption.all (fun frames =>
      frames.all fun walked => walked.frame.kind != .interpreted ||
        decide (walked.frame.sp.toNat + 72 ≤ walked.frame.fp.toNat) &&
        (entered.machine.stack.read? (walked.frame.slot (-7))).toOption.all
          fun position => decide (65535 < position.toNat)) = true := by
    decide +kernel
  have sized : partlyResolved.methods.methods.all
      (fun method => decide (method.codeSize.toNat ≤ 65536)) = true := by
    decide +kernel
  have gives : scanned.Gives frames := by
    obtain ⟨stream, starts, gives⟩ := walks
    exact Probe.gives_bind.mpr ⟨stream, starts, gives⟩
  have some : scanned.outcome.toOption = some frames := by
    rw [gives]
    rfl
  rw [some] at known
  intro walked inWalk interpreted
  have placed := List.all_eq_true.mp known walked inWalk
  simp only [interpreted, bne_self_eq_false, Bool.false_or, Bool.and_eq_true,
    decide_eq_true_eq] at placed
  refine ⟨placed.1, fun position word method bci atPosition _ found _ => ?_⟩
  have address := placed.2
  rw [show entered.machine.stack.read? (walked.frame.slot (-7)) = .ok position
    from atPosition] at address
  exact ⟨of_decide_eq_true address, of_decide_eq_true
    (List.all_eq_true.mp sized method (List.mem_of_find?_eq_some found))⟩

end Pair

namespace RootScan

/--
The callee is switched, the caller cannot be switched, and the scan ends with an error
and the words from before.
-/
theorem scanThread_neutral_of_entered :
    ∃ after, (scanThread Pair.partlyResolved ⟨true, []⟩).Raises
        Pair.entered.machine (.unknownMethod Pair.caller.id) after ∧
      after = Pair.entered.machine := by
  obtain ⟨after, raises⟩ := Operation.raises_of_map_outcome
    (by decide +kernel : ((scanThread Pair.partlyResolved ⟨true, []⟩
      Pair.entered.machine).1.outcome.map fun _ => ()) =
        .error (.error (.unknownMethod Pair.caller.id)))
  exact ⟨after, raises, scanThread_neutral rfl (fun _ => Pair.switchable_scanned)
    (.inr ⟨_, raises⟩)⟩

end RootScan
end ManagedStack
