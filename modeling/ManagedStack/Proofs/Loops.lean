import Mathlib.Data.Finset.Card
import ManagedStack.Proofs.Endings

namespace ManagedStack

/-!
# Loops and what bounds them

A loop hands a value from round to round.  Where each round brings the value closer
to an end, in the sense of a measure that gets smaller, the loop comes to its end
within as many rounds as the measure says, and whatever more is allowed makes no
difference.  A chain fails only as its links do, and a loop only as its rounds do.
-/

/-- A run that fails does so in one of the allowed ways. -/
def FailsOnlyBy
    (allowed : Failure ε → Prop)
    (outcome : Except (Failure ε) α) :
    Prop :=
  ∀ failure, outcome = .error failure → allowed failure

/-- A run has come to an answer or to an error. -/
def HasReturned (outcome : Except (Failure ε) α) : Prop :=
  FailsOnlyBy (fun failure => ∃ cause, failure = .error cause) outcome

variable {allowed : Failure ε → Prop}

theorem FailsOnlyBy.ok (value : α) :
    FailsOnlyBy allowed (.ok value : Except (Failure ε) α) :=
  nofun

theorem FailsOnlyBy.error
    {failure : Failure ε}
    (isAllowed : allowed failure) :
    FailsOnlyBy allowed (.error failure : Except (Failure ε) α) := by
  rintro _ ⟨⟩
  exact isAllowed

theorem FailsOnlyBy.ite
    {condition : Prop}
    [Decidable condition]
    {yes no : Probe ε α}
    (whenYes : FailsOnlyBy allowed yes.outcome)
    (whenNo : FailsOnlyBy allowed no.outcome) :
    FailsOnlyBy allowed (if condition then yes else no).outcome := by
  split
  · exact whenYes
  · exact whenNo

/-- A chain of probes fails as its links do. -/
theorem FailsOnlyBy.bind
    {first : Probe ε α}
    {next : α → Probe ε β}
    (firstFails : FailsOnlyBy allowed first.outcome)
    (nextFails : ∀ value, FailsOnlyBy allowed (next value).outcome) :
    FailsOnlyBy allowed (first >>= next).outcome := by
  change FailsOnlyBy allowed (first.andThen next).outcome
  obtain ⟨failure | value, notes⟩ := first
  · exact .error (firstFails failure rfl)
  · exact nextFails value

theorem Probe.Concludes.hasReturned
    {probe : Probe ε α}
    (concludes : probe.Concludes) :
    HasReturned probe.outcome := by
  rcases concludes with ⟨value, gives⟩ | ⟨cause, raises⟩
  · exact gives ▸ FailsOnlyBy.ok value
  · exact raises ▸ FailsOnlyBy.error ⟨cause, rfl⟩

namespace Operation

theorem Concludes.hasReturned
    {operation : Operation σ ε α}
    {before : σ}
    (concludes : operation.Concludes before) :
    HasReturned (operation before).1.outcome := by
  rcases concludes with ⟨value, _, gives, -⟩ | ⟨cause, _, raises, -⟩
  · exact gives ▸ FailsOnlyBy.ok value
  · exact raises ▸ FailsOnlyBy.error ⟨cause, rfl⟩

/-- An attempt turns the end of a run that is not given up into an answer. -/
theorem Concludes.failsOnlyBy_attempt
    {operation : Operation σ ε α}
    {before : σ}
    {allowed : Failure ε' → Prop}
    (concludes : operation.Concludes before) :
    FailsOnlyBy allowed
      ((operation.attempt : Operation σ ε' (Except ε α)) before).1.outcome := by
  obtain ⟨ended, after, tried⟩ : ∃ ended after,
      (operation.attempt : Operation σ ε' _).Gives before ended after := by
    rcases concludes with ⟨value, after, gives⟩ | ⟨cause, after, raises⟩
    · exact ⟨_, _, gives_attempt.mpr (.inl ⟨value, rfl, gives⟩)⟩
    · exact ⟨_, _, gives_attempt.mpr (.inr ⟨cause, rfl, raises⟩)⟩
  exact tried.1 ▸ .ok ended

/-- A chain of operations fails as its links do. -/
theorem failsOnlyBy_bind
    {first : Operation σ ε α}
    {next : α → Operation σ ε β}
    {before : σ}
    (firstFails : FailsOnlyBy allowed (first before).1.outcome)
    (nextFails : ∀ value between, first.Gives before value between →
      FailsOnlyBy allowed (next value between).1.outcome) :
    FailsOnlyBy allowed ((first >>= next) before).1.outcome := by
  intro failure failed
  have ended : ((first >>= next).ending before).1 = .error failure := failed
  rw [ending_bind] at ended
  rcases ran : first.ending before with ⟨earlier | value, between⟩
  · rw [ran] at ended
    obtain rfl : earlier = failure := Except.error.inj ended
    exact firstFails _ (congrArg Prod.fst ran)
  · rw [ran] at ended
    exact nextFails value between (gives_of_ending ran) failure ended

variable {round : α → Operation σ ε (Round α β)} {rounds : Nat} {value next : α}
  {before after : σ}

/-- A loop fails where its first round does. -/
theorem ending_loop_of_error
    {failure : Failure ε}
    (fails : (round value).ending before = (.error failure, after)) :
    (loop round (rounds + 1) value).ending before = (.error failure, after) := by
  rw [loop_succ]
  exact (ending_bind _ _ before).trans (by rw [fails])

/-- A loop has the answer of its last round. -/
theorem ending_loop_of_done
    {answer : β}
    (ends : (round value).Gives before (.done answer) after) :
    (loop round (rounds + 1) value).ending before = (.ok answer, after) := by
  rw [loop_succ]
  exact ending_bind_of_gives ends

/-- A round that is not the last one hands its value on to the rounds that are left. -/
theorem ending_loop_of_again
    (goesOn : (round value).Gives before (.again next) after) :
    (loop round (rounds + 1) value).ending before =
      (loop round rounds next).ending after := by
  rw [loop_succ]
  exact ending_bind_of_gives goesOn

/--
A loop whose rounds make a measure smaller ends within as many rounds, and it fails
only as its rounds do.  The outcome of one round more than the measure is that of any
greater number.
-/
theorem exists_outcome_loop
    (round : α → Operation σ ε (Round α β))
    (valid : α → Prop)
    (measure : α → Nat)
    (allowed : Failure ε → Prop)
    (fails : ∀ {value : α} {before : σ}, valid value →
      FailsOnlyBy allowed (round value before).1.outcome)
    (decreases : ∀ {value next : α} {before after : σ}, valid value →
      (round value).Gives before (.again next) after →
        valid next ∧ measure next < measure value)
    (value : α)
    (isValid : valid value)
    (before : σ) :
    ∃ outcome, FailsOnlyBy allowed outcome ∧
      ∀ rounds, measure value < rounds →
        (loop round rounds value before).1.outcome = outcome := by
  induction size : measure value using Nat.strongRecOn
    generalizing value before with
  | _ room inductionHypothesis =>
      have ofRounds {outcome : Except (Failure ε) β}
          (ends : ∀ rounds, room ≤ rounds →
            ((loop round (rounds + 1) value).ending before).1 = outcome) :
          ∀ rounds, room < rounds →
            (loop round rounds value before).1.outcome = outcome := by
        intro rounds enough
        obtain ⟨fewer, rfl⟩ := Nat.exists_eq_add_of_lt enough
        exact ends (room + fewer) (Nat.le_add_right _ _)
      rcases ended : (round value).ending before with ⟨failure | next | answer, after⟩
      · have isAllowed := fails isValid failure (congrArg Prod.fst ended)
        refine ⟨.error failure, .error isAllowed, ofRounds fun rounds _ => ?_⟩
        rw [ending_loop_of_error ended]
      · have goesOn := gives_of_ending ended
        obtain ⟨nextValid, smaller⟩ := decreases isValid goesOn
        obtain ⟨outcome, failsOnlyBy, same⟩ :=
          inductionHypothesis _ (size ▸ smaller) next nextValid after rfl
        refine ⟨outcome, failsOnlyBy, ofRounds fun rounds enough => ?_⟩
        rw [ending_loop_of_again goesOn]
        exact same rounds (by omega)
      · refine ⟨.ok answer, .ok answer, ofRounds fun rounds _ => ?_⟩
        rw [ending_loop_of_done (gives_of_ending ended)]

/-- A loop with a value from which every round goes on to such a value runs out. -/
theorem outcome_loop_of_forever
    (valid : α → Prop)
    (goesOn : ∀ {value : α} (before : σ), valid value →
      ∃ next after, (round value).Gives before (.again next) after ∧ valid next)
    (isValid : valid value)
    (rounds : Nat)
    (before : σ) :
    (loop round rounds value before).1.outcome = .error .outOfSteps := by
  induction rounds generalizing value before with
  | zero => rfl
  | succ rounds inductionHypothesis =>
      obtain ⟨next, after, gives, nextValid⟩ := goesOn before isValid
      have same : (loop round (rounds + 1) value).ending before =
          (loop round rounds next).ending after :=
        ending_loop_of_again gives
      exact (congrArg Prod.fst same).trans (inductionHypothesis nextValid after)

end Operation

/-! A measure: how many of the values that a loop can come to are still ahead. -/

section Ahead

variable [DecidableEq α]

theorem card_ahead_le
    (values : List α)
    (isAhead : α → Prop)
    [DecidablePred isAhead] :
    (values.toFinset.filter isAhead).card ≤ values.length :=
  (Finset.card_filter_le _ _).trans values.toFinset_card_le

/-- Fewer values are ahead once one of them has been passed. -/
theorem card_ahead_lt
    {values : List α}
    {isAhead isStillAhead : α → Prop}
    [DecidablePred isAhead]
    [DecidablePred isStillAhead]
    {passed : α}
    (known : passed ∈ values)
    (wasAhead : isAhead passed)
    (isPassed : ¬isStillAhead passed)
    (further : ∀ value, isStillAhead value → isAhead value) :
    (values.toFinset.filter isStillAhead).card <
      (values.toFinset.filter isAhead).card := by
  have fewer : values.toFinset.filter isStillAhead ⊆ values.toFinset.filter isAhead :=
    Finset.monotone_filter_right _ fun value _ => further value
  have was : passed ∈ values.toFinset.filter isAhead := by simp [known, wasAhead]
  have gone : passed ∉ values.toFinset.filter isStillAhead := by simp [isPassed]
  exact Finset.card_lt_card ((Finset.ssubset_iff_of_subset fewer).mpr ⟨passed, was, gone⟩)

end Ahead

end ManagedStack
