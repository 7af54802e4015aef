import ManagedStack.Frame.Validation
import ManagedStack.Proofs.Ascending
import ManagedStack.Proofs.Loops

namespace ManagedStack

/-!
# The search that trusts nothing

The search of a sampler validates each caller, makes sure that it lies above its
callee and takes any doubt for the end.  So its frames ascend, and it ends on every
stack; the only way for it not to answer is that the sums of a validator leave the
range of a word.
-/

open Operation

namespace Frame

variable {view : View} {bounds : Bounds}

/-! A validator answers or is given up; it neither fails nor runs out of steps. -/

section Validators

/-- A validator was given up for this. -/
def GivenUp (failure : Failure ε) : Prop :=
  ∃ cause, failure = .abort cause

theorem givenUp_check (checked : Except Abort α) :
    FailsOnlyBy GivenUp (Probe.check checked : Probe ε α).outcome := by
  cases checked with
  | error cause => exact .error ⟨cause, rfl⟩
  | ok value => exact .ok value

theorem givenUp_readWithin
    (stack : Stack)
    (address : Address) :
    FailsOnlyBy GivenUp
      (stack.readWithin bounds address : Probe ε (Option Word)).outcome := by
  unfold Stack.readWithin
  split
  · exact .ok none
  · split
    · exact .ok _
    · exact .ok none

theorem givenUp_fieldWithin
    (frame : Frame)
    (offset : Int) :
    FailsOnlyBy GivenUp
      (frame.fieldWithin view bounds offset : Probe ε (Option Word)).outcome :=
  givenUp_readWithin _ _

theorem givenUp_plain (sp fp pc : Address) :
    FailsOnlyBy GivenUp (plain view sp fp pc : Probe ε Frame).outcome := by
  have gives : (plain view sp fp pc : Probe ε Frame).Gives (plainFrame view sp fp pc) :=
    gives_plain.mpr rfl
  exact gives ▸ .ok _

theorem givenUp_savedLinkIfSafe? (senderSp : Address) :
    FailsOnlyBy GivenUp
      (savedLinkIfSafe? view bounds senderSp : Probe ε (Option Address)).outcome :=
  .bind (givenUp_check _) fun _ => .bind (givenUp_readWithin _ _) fun _ => .ok _

theorem givenUp_isCallWrapperSafe (fp : Address) :
    FailsOnlyBy GivenUp (isCallWrapperSafe view bounds fp : Probe ε Bool).outcome :=
  .bind (givenUp_readWithin _ _) fun _ => .ok _

theorem givenUp_isInterpretedValid (frame : Frame) :
    FailsOnlyBy GivenUp
      (frame.isInterpretedValid view bounds : Probe ε Bool).outcome := by
  unfold isInterpretedValid
  refine .ite (.ok _) (.bind (givenUp_fieldWithin _ _) fun word => ?_)
  cases word.bind view.methods.find? with
  | none => exact .ok _
  | some method =>
      refine .bind (givenUp_check _) fun _ => .ite (.ok _) ?_
      refine .bind (givenUp_fieldWithin _ _) fun _ => .ite (.ok _) ?_
      refine .bind (givenUp_fieldWithin _ _) fun _ => .ite (.ok _) ?_
      exact .bind (givenUp_fieldWithin _ _) fun _ => .ok _

theorem givenUp_isReturnSafe (senderSp pc : Address) :
    FailsOnlyBy GivenUp
      (isReturnSafe view bounds senderSp pc : Probe ε Bool).outcome := by
  unfold isReturnSafe
  cases view.code.find? pc with
  | none => exact .ok _
  | some blob =>
      refine .ite (.bind (givenUp_savedLinkIfSafe? _) fun link => ?interpreted)
        (.ite (.ok _) (.ite (.bind (givenUp_savedLinkIfSafe? _) fun link => ?entry)
          (.ok _)))
      case interpreted =>
        cases link with
        | none => exact .ok _
        | some link =>
            exact .bind (givenUp_plain _ _ _) fun _ => givenUp_isInterpretedValid _
      case entry =>
        cases link with
        | none => exact .ok _
        | some link =>
            exact .bind (givenUp_plain _ _ _) fun _ => givenUp_isCallWrapperSafe _

theorem givenUp_isNativeSafe (frame : Frame) :
    FailsOnlyBy GivenUp (frame.isNativeSafe view bounds : Probe ε Bool).outcome :=
  .ite (.bind (givenUp_fieldWithin _ _) fun _ => .ok _) (.ok _)

theorem givenUp_returnWithin?
    (frame : Frame)
    (blob : Blob) :
    FailsOnlyBy GivenUp (frame.returnWithin? view bounds blob :
      Probe ε (Option (Address × Word))).outcome := by
  unfold returnWithin?
  refine .ite (.ite (.bind (givenUp_fieldWithin _ _) fun _ => .ok _) (.ok _)) ?_
  cases frame.fixedSizeSenderSp? blob with
  | none => exact .ok _
  | some senderSp => exact .bind (givenUp_readWithin _ _) fun _ => .ok _

theorem givenUp_isSafeForSender (frame : Frame) :
    FailsOnlyBy GivenUp (frame.isSafeForSender view bounds : Probe ε Bool).outcome := by
  unfold isSafeForSender
  refine .ite (.ok _) ?_
  cases frame.blob with
  | none => exact givenUp_isNativeSafe frame
  | some blob =>
      refine .bind (givenUp_check _) fun complete => .ite (.ok _) ?_
      refine .ite (.ite (givenUp_isCallWrapperSafe _) (.ok _)) ?_
      refine .bind (givenUp_returnWithin? _ _) fun returns => ?_
      cases returns with
      | none => exact .ok _
      | some place => exact .ite (.ok _) (givenUp_isReturnSafe _ _)

end Validators

/-! The search itself. -/

section Profiling

variable {frame : Frame} {map after : RegisterMap}

/-- The validation of a frame was given up. -/
def ValidationGivenUp
    (view : View)
    (bounds : Bounds)
    (failure : Failure FrameError) :
    Prop :=
  ∃ cause visited, failure = .abort cause ∧
    (isSafeForSender visited view bounds : Probe FrameError Bool).GivesUp cause

theorem validationGivenUp_isSafeForSender (frame : Frame) :
    FailsOnlyBy (ValidationGivenUp view bounds)
      (frame.isSafeForSender view bounds : Probe FrameError Bool).outcome := by
  intro failure failed
  obtain ⟨cause, rfl⟩ := givenUp_isSafeForSender frame failure failed
  exact ⟨cause, frame, rfl, failed⟩

/-- A validated step that succeeds has found a caller above, or ends the search. -/
theorem gives_profiledRound
    {ends : Round Frame (Option Frame)}
    (gives : (profiledRound view bounds frame).Gives map ends after) :
    ends = .done none ∨ ∃ caller,
      (frame.senderAbove view).Gives map caller after ∧
        (caller.isFirst view).Gives false ∧
          ends = if caller.isJava then .done (some caller) else .again caller := by
  obtain ⟨stepped, between, tried, moves⟩ := gives_bind.mp gives
  rcases gives_attempt.mp tried with ⟨caller, rfl, steps⟩ | ⟨cause, rfl, -⟩
  · rcases gives_ite.mp moves with ⟨-, stops⟩ | ⟨above, goesOn⟩
    · exact .inl (gives_pure.mp stops).1
    obtain ⟨safe, _, validates, judges⟩ := gives_bind.mp goesOn
    obtain ⟨-, rfl⟩ := gives_ofProbe.mp validates
    rcases gives_ite.mp judges with ⟨-, stops⟩ | ⟨-, trusts⟩
    · exact .inl (gives_pure.mp stops).1
    obtain ⟨looked, _, looks, decides⟩ := gives_bind.mp trusts
    rcases gives_attempt.mp looks with ⟨first, rfl, answers⟩ | ⟨cause, rfl, -⟩
    · obtain ⟨isFirst, rfl⟩ := gives_ofProbe.mp answers
      cases first with
      | true => exact .inl (gives_pure.mp decides).1
      | false =>
          have climbs := gives_senderAbove.mpr ⟨steps, UInt64.not_le.mp above⟩
          rcases gives_ite.mp decides with ⟨isJava, finds⟩ | ⟨notJava, further⟩
          · obtain ⟨rfl, rfl⟩ := gives_pure.mp finds
            exact .inr ⟨caller, climbs, isFirst, (if_pos isJava).symm⟩
          · obtain ⟨rfl, rfl⟩ := gives_pure.mp further
            exact .inr ⟨caller, climbs, isFirst, (if_neg notJava).symm⟩
    · exact .inl (gives_pure.mp decides).1
  · exact .inl (gives_pure.mp moves).1

theorem validationGivenUp_profiledRound
    (negates : fitsSigned (-view.layout.senderSp) = true)
    (reliable : view.adapters.Reliable)
    (frame : Frame)
    (map : RegisterMap) :
    FailsOnlyBy (ValidationGivenUp view bounds)
      (profiledRound view bounds frame map).1.outcome := by
  refine failsOnlyBy_bind (concludes_sender negates reliable).failsOnlyBy_attempt
    fun stepped _ _ => ?_
  cases stepped with
  | error cause => exact .ok _
  | ok caller =>
      dsimp only
      split
      · exact .ok _
      refine failsOnlyBy_bind (validationGivenUp_isSafeForSender caller) fun _ _ _ => ?_
      split
      · exact .ok _
      refine failsOnlyBy_bind (concludes_ofProbe concludes_isFirst).failsOnlyBy_attempt
        fun looked _ _ => ?_
      rcases looked with cause | (_ | _)
      · exact .ok _
      · dsimp only
        split
        · exact .ok _
        · exact .ok _
      · exact .ok _

/-- The search that validates ends, unless a validation is given up. -/
theorem profiledJavaSender?_ends
    (negates : fitsSigned (-view.layout.senderSp) = true)
    (reliable : view.adapters.Reliable)
    (frame : Frame)
    (bounds : Bounds) :
    FailsOnlyBy (ValidationGivenUp view bounds)
      (frame.profiledJavaSender? view bounds).outcome := by
  have climbs {visited next : Frame} {before after : RegisterMap}
      (goesOn : (profiledRound view bounds visited).Gives before (.again next) after) :
      UInt64.size - next.sp.toNat < UInt64.size - visited.sp.toNat := by
    obtain ⟨caller, steps, -, same⟩ := (gives_profiledRound goesOn).resolve_left nofun
    have isNext : next = caller := by
      split at same
      · cases same
      · exact (Round.again.inj same)
    have above := UInt64.lt_iff_toNat_lt.mp (gives_senderAbove.mp steps).2
    have small : caller.sp.toNat < UInt64.size := caller.sp.toNat_lt
    rw [isNext]
    exact Nat.sub_lt_sub_left (Nat.lt_trans above small) above
  have searches : FailsOnlyBy (ValidationGivenUp view bounds)
      (loop (profiledRound view bounds) FrameStream.itemLimit frame
        (RegisterMap.empty false)).1.outcome := by
    obtain ⟨ended, failsOnlyBy, settles⟩ :=
      exists_outcome_loop (profiledRound view bounds) (fun _ => True)
        (fun visited => UInt64.size - visited.sp.toNat) (ValidationGivenUp view bounds)
        (fun _ => validationGivenUp_profiledRound negates reliable _ _)
        (fun _ goesOn => ⟨trivial, climbs goesOn⟩) frame trivial
        (RegisterMap.empty false)
    rw [settles FrameStream.itemLimit (Nat.lt_succ_of_le (Nat.sub_le _ _))]
    exact failsOnlyBy
  unfold profiledJavaSender?
  refine .ite (.ok _) (.bind (validationGivenUp_isSafeForSender frame) fun safe => ?_)
  exact .ite searches (.ok _)

end Profiling

end Frame

end ManagedStack
