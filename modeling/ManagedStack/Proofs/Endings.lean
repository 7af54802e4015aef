import ManagedStack.Computation

namespace ManagedStack

/-!
# How computations end

Four relations say what a run of a computation came to.  A probe or an operation
*gives* a value when it answers with it, and an operation then also gives the state
that it left.  An operation *raises* an error when it ends with that error, and it
*gives up* when it ends with an abort.  An operation *respects* a relation between
states when every run of it, however it ends, leads from a state to a related one.
Each way of building computations has one law for each relation, so that a run is
taken apart by rewriting.
-/

/-! Checked values are taken apart like computations. -/

/-- A chain of checked values has the value that its links lead to. -/
theorem bind_eq_ok
    {first : Except Abort α}
    {next : α → Except Abort β}
    {value : β} :
    (first >>= next) = .ok value ↔
      ∃ middle, first = .ok middle ∧ next middle = .ok value := by
  change first.bind next = _ ↔ _
  cases first <;> simp [Except.bind]

/-- A chain of checked values is given up in one of its links. -/
theorem bind_eq_error
    {first : Except Abort α}
    {next : α → Except Abort β}
    {cause : Abort} :
    (first >>= next) = .error cause ↔
      first = .error cause ∨
        ∃ value, first = .ok value ∧ next value = .error cause := by
  change first.bind next = _ ↔ _
  cases first <;> simp [Except.bind]

theorem map_eq_ok
    {checked : Except Abort α}
    {restate : α → β}
    {value : β} :
    checked.map restate = .ok value ↔
      ∃ known, checked = .ok known ∧ restate known = value := by
  cases checked <;> simp [Except.map]

/-- A value restated is given up where it was given up. -/
@[simp] theorem map_eq_error
    {checked : Except Abort α}
    {restate : α → β}
    {cause : Abort} :
    checked.map restate = .error cause ↔ checked = .error cause := by
  cases checked <;> simp [Except.map]

namespace Probe

/-- The probe answers with this value. -/
def Gives
    (probe : Probe ε α)
    (value : α) :
    Prop :=
  probe.outcome = .ok value

/-- A chain of probes answers when each of its links does. -/
@[simp] theorem gives_bind
    {first : Probe ε α}
    {next : α → Probe ε β}
    {value : β} :
    (first >>= next).Gives value ↔
      ∃ middle, first.Gives middle ∧ (next middle).Gives value := by
  change (first.andThen next).outcome = .ok value ↔ _
  obtain ⟨outcome, notes⟩ := first
  cases outcome <;> simp [andThen, Gives]

@[simp] theorem gives_pure {value given : α} :
    (pure value : Probe ε α).Gives given ↔ given = value := by
  change (Except.ok value : Except (Failure ε) α) = .ok given ↔ _
  simp [eq_comm]

@[simp] theorem gives_answer {value given : α} :
    (answer value : Probe ε α).Gives given ↔ given = value := by
  simp [answer, Gives, eq_comm]

@[simp] theorem gives_fail
    {cause : ε}
    {value : α} :
    ¬(fail cause : Probe ε α).Gives value := by
  simp [fail, Gives]

@[simp] theorem gives_note
    {item : Note}
    {value : Unit} :
    (note item : Probe ε Unit).Gives value := by
  simp [note, Gives]

@[simp] theorem gives_report
    {event : Event}
    {value : Unit} :
    (report event : Probe ε Unit).Gives value :=
  gives_note

@[simp] theorem gives_visit
    {slot : Address}
    {value : Unit} :
    (visit slot : Probe ε Unit).Gives value :=
  gives_note

@[simp] theorem gives_check
    {checked : Except Abort α}
    {value : α} :
    (check checked : Probe ε α).Gives value ↔ checked = .ok value := by
  cases checked <;> simp [check, Gives]

/-- A value that is there is checked without a note. -/
theorem check_ok (value : α) : (check (.ok value) : Probe ε α) = pure value :=
  rfl

/-- A value that is there is used without a note. -/
theorem demand_some
    (value : α)
    (cause : ε) :
    demand (some value) cause = pure value :=
  rfl

@[simp] theorem gives_demand
    {demanded : Option α}
    {cause : ε}
    {value : α} :
    (demand demanded cause).Gives value ↔ demanded = some value := by
  cases demanded <;> simp [demand, Gives, answer, fail]

@[simp] theorem gives_mapError
    {restate : ε → ε'}
    {probe : Probe ε α}
    {value : α} :
    (probe.mapError restate).Gives value ↔ probe.Gives value := by
  obtain ⟨outcome, notes⟩ := probe
  rcases outcome with failure | known
  · exact ⟨nofun, nofun⟩
  · exact ⟨fun same => congrArg _ (Except.ok.inj same), fun same =>
      congrArg _ (Except.ok.inj same)⟩

/-- A choice gives what the chosen side gives. -/
theorem gives_ite
    {condition : Prop}
    [Decidable condition]
    {yes no : Probe ε α}
    {value : α} :
    (if condition then yes else no).Gives value ↔
      condition ∧ yes.Gives value ∨ ¬condition ∧ no.Gives value := by
  by_cases holds : condition <;> simp [holds]

/-- Chains are the same when they go on alike from what their first link gives. -/
theorem bind_congr_of_gives
    {first : Probe ε α}
    {next other : α → Probe ε β}
    (same : ∀ value, first.Gives value → next value = other value) :
    first >>= next = first >>= other := by
  change first.andThen next = first.andThen other
  unfold andThen
  split
  · rfl
  · rename_i value answered
    rw [same value answered]

/-- A probe gives one value at most. -/
theorem Gives.unique
    {probe : Probe ε α}
    {first second : α}
    (one : probe.Gives first)
    (other : probe.Gives second) :
    first = second := by
  have same : (Except.ok first : Except (Failure ε) α) = .ok second :=
    one.symm.trans other
  exact Except.ok.inj same

/-- The probe ends with this abort. -/
def GivesUp
    (probe : Probe ε α)
    (cause : Abort) :
    Prop :=
  probe.outcome = .error (.abort cause)

section GivesUp

variable {cause : Abort}

/-- A chain of probes is given up in one of its links. -/
@[simp] theorem givesUp_bind
    {first : Probe ε α}
    {next : α → Probe ε β} :
    (first >>= next).GivesUp cause ↔
      first.GivesUp cause ∨
        ∃ value, first.Gives value ∧ (next value).GivesUp cause := by
  change (first.andThen next).outcome = .error (.abort cause) ↔ _
  obtain ⟨outcome, notes⟩ := first
  cases outcome <;> simp [andThen, Gives, GivesUp]

@[simp] theorem givesUp_pure {value : α} :
    ¬(pure value : Probe ε α).GivesUp cause :=
  nofun

@[simp] theorem givesUp_fail {error : ε} :
    ¬(fail error : Probe ε α).GivesUp cause :=
  nofun

@[simp] theorem givesUp_report {event : Event} :
    ¬(report event : Probe ε Unit).GivesUp cause :=
  nofun

@[simp] theorem givesUp_check {checked : Except Abort α} :
    (check checked : Probe ε α).GivesUp cause ↔ checked = .error cause := by
  cases checked <;> simp [check, GivesUp]

@[simp] theorem givesUp_demand
    {demanded : Option α}
    {error : ε} :
    ¬(demand demanded error).GivesUp cause := by
  cases demanded <;> nofun

end GivesUp

/-- The probe ends with this error. -/
def Raises
    (probe : Probe ε α)
    (cause : ε) :
    Prop :=
  probe.outcome = .error (.error cause)

section Raises

variable {cause : ε}

/-- A chain of probes ends with an error of one of its links. -/
@[simp] theorem raises_bind
    {first : Probe ε α}
    {next : α → Probe ε β} :
    (first >>= next).Raises cause ↔
      first.Raises cause ∨
        ∃ value, first.Gives value ∧ (next value).Raises cause := by
  change (first.andThen next).outcome = .error (.error cause) ↔ _
  obtain ⟨outcome, notes⟩ := first
  cases outcome <;> simp [andThen, Gives, Raises]

@[simp] theorem raises_pure {value : α} :
    ¬(pure value : Probe ε α).Raises cause :=
  nofun

@[simp] theorem raises_fail {error : ε} :
    (fail error : Probe ε α).Raises cause ↔ cause = error := by
  simp [fail, Raises, eq_comm]

@[simp] theorem raises_check {checked : Except Abort α} :
    ¬(check checked : Probe ε α).Raises cause := by
  cases checked <;> nofun

end Raises

/-- The probe comes to an answer or to an error; it is not given up. -/
def Concludes (probe : Probe ε α) : Prop :=
  (∃ value, probe.Gives value) ∨ ∃ cause, probe.Raises cause

namespace Concludes

theorem bind
    {first : Probe ε α}
    {next : α → Probe ε β}
    (concludes : first.Concludes)
    (goesOn : ∀ value, first.Gives value → (next value).Concludes) :
    (first >>= next).Concludes := by
  rcases concludes with ⟨value, gives⟩ | ⟨cause, raises⟩
  · rcases goesOn value gives with ⟨last, answers⟩ | ⟨cause, fails⟩
    · exact .inl ⟨last, gives_bind.mpr ⟨value, gives, answers⟩⟩
    · exact .inr ⟨cause, raises_bind.mpr (.inr ⟨value, gives, fails⟩)⟩
  · exact .inr ⟨cause, raises_bind.mpr (.inl raises)⟩

theorem pure {value : α} : (Pure.pure value : Probe ε α).Concludes :=
  .inl ⟨value, gives_pure.mpr rfl⟩

theorem fail {cause : ε} : (Probe.fail cause : Probe ε α).Concludes :=
  .inr ⟨cause, raises_fail.mpr rfl⟩

theorem ite
    {condition : Prop}
    [Decidable condition]
    {yes no : Probe ε α}
    (whenYes : condition → yes.Concludes)
    (whenNo : ¬condition → no.Concludes) :
    (if condition then yes else no).Concludes := by
  by_cases holds : condition
  · simpa only [holds, if_true] using whenYes holds
  · simpa only [holds, if_false] using whenNo holds

end Concludes

end Probe

namespace Operation

/-- The operation answers with a value and leaves a state. -/
def Gives
    (operation : Operation σ ε α)
    (before : σ)
    (value : α)
    (after : σ) :
    Prop :=
  (operation before).1.Gives value ∧ (operation before).2 = after

/-- The operation ends with an error and leaves a state. -/
def Raises
    (operation : Operation σ ε α)
    (before : σ)
    (cause : ε)
    (after : σ) :
    Prop :=
  (operation before).1.outcome = .error (.error cause) ∧
    (operation before).2 = after

/-- A chain of operations answers when each of its links does. -/
@[simp] theorem gives_bind
    {first : Operation σ ε α}
    {next : α → Operation σ ε β}
    {before after : σ}
    {value : β} :
    (first >>= next).Gives before value after ↔
      ∃ middle between,
        first.Gives before middle between ∧
          (next middle).Gives between value after := by
  change (first.andThen next).Gives before value after ↔ _
  simp only [Gives, Probe.Gives, andThen]
  rcases first before with ⟨⟨outcome | middle, notes⟩, between⟩
  · simp
  · constructor
    · intro ended
      exact ⟨middle, between, ⟨rfl, rfl⟩, ended⟩
    · rintro ⟨_, _, ⟨⟨⟩, rfl⟩, ended⟩
      exact ended

@[simp] theorem gives_pure
    {value given : α}
    {before after : σ} :
    (pure value : Operation σ ε α).Gives before given after ↔
      given = value ∧ after = before := by
  change (answer value : Operation σ ε α).Gives before given after ↔ _
  simp [answer, Gives, eq_comm]

@[simp] theorem gives_answer
    {value given : α}
    {before after : σ} :
    (answer value : Operation σ ε α).Gives before given after ↔
      given = value ∧ after = before :=
  gives_pure

@[simp] theorem gives_inspect
    {look : σ → Probe ε α}
    {before after : σ}
    {value : α} :
    (inspect look).Gives before value after ↔
      (look before).Gives value ∧ after = before := by
  simp [inspect, Gives, eq_comm]

@[simp] theorem gives_ofProbe
    {probe : Probe ε α}
    {before after : σ}
    {value : α} :
    (ofProbe probe : Operation σ ε α).Gives before value after ↔
      probe.Gives value ∧ after = before :=
  gives_inspect

@[simp] theorem gives_lift
    {probe : Probe ε α}
    {before after : σ}
    {value : α} :
    (liftM probe : Operation σ ε α).Gives before value after ↔
      probe.Gives value ∧ after = before :=
  gives_inspect

@[simp] theorem gives_state
    {before after value : σ} :
    (state : Operation σ ε σ).Gives before value after ↔
      value = before ∧ after = before := by
  simp [state]

@[simp] theorem gives_update
    {change : σ → σ}
    {before after : σ}
    {value : Unit} :
    (update change : Operation σ ε Unit).Gives before value after ↔
      after = change before := by
  simp [update, Gives, eq_comm]

@[simp] theorem gives_fail
    {cause : ε}
    {before after : σ}
    {value : α} :
    ¬(fail cause : Operation σ ε α).Gives before value after := by
  simp [fail]

@[simp] theorem gives_report
    {event : Event}
    {before after : σ}
    {value : Unit} :
    (report event : Operation σ ε Unit).Gives before value after ↔
      after = before := by
  simp [report]

@[simp] theorem gives_check
    {checked : Except Abort α}
    {before after : σ}
    {value : α} :
    (check checked : Operation σ ε α).Gives before value after ↔
      checked = .ok value ∧ after = before := by
  simp [check]

@[simp] theorem gives_demand
    {demanded : Option α}
    {cause : ε}
    {before after : σ}
    {value : α} :
    (demand demanded cause : Operation σ ε α).Gives before value after ↔
      demanded = some value ∧ after = before := by
  simp [demand]

@[simp] theorem gives_mapError
    {restate : ε → ε'}
    {operation : Operation σ ε α}
    {before after : σ}
    {value : α} :
    (operation.mapError restate).Gives before value after ↔
      operation.Gives before value after := by
  simp [Operation.mapError, Gives]

@[simp] theorem gives_onPart
    {split : σ → ρ × (ρ → σ)}
    {operation : Operation ρ ε α}
    {before after : σ}
    {value : α} :
    (operation.onPart split).Gives before value after ↔
      ∃ part, operation.Gives (split before).1 value part ∧
        after = (split before).2 part := by
  constructor
  · rintro ⟨answered, rfl⟩
    exact ⟨_, ⟨answered, rfl⟩, rfl⟩
  · rintro ⟨_, ⟨answered, rfl⟩, rfl⟩
    exact ⟨answered, rfl⟩

/-- A run that was seen to answer gives its answer. -/
theorem gives_of_toOption
    {operation : Operation σ ε α}
    {before : σ}
    {value : α}
    (answered : (operation before).1.outcome.toOption = some value) :
    operation.Gives before value (operation before).2 := by
  refine ⟨?_, rfl⟩
  unfold Probe.Gives
  cases ended : (operation before).1.outcome with
  | error => simp [ended, Except.toOption] at answered
  | ok other => simpa [ended, Except.toOption] using answered

/-- A choice gives what the chosen side gives. -/
theorem gives_ite
    {condition : Prop}
    [Decidable condition]
    {yes no : Operation σ ε α}
    {before after : σ}
    {value : α} :
    (if condition then yes else no).Gives before value after ↔
      condition ∧ yes.Gives before value after ∨
        ¬condition ∧ no.Gives before value after := by
  by_cases holds : condition <;> simp [holds]

/-- Nothing follows a failure. -/
@[simp] theorem fail_bind
    {cause : ε}
    {next : α → Operation σ ε β} :
    (fail cause >>= next) = fail cause :=
  rfl

/-- What follows a choice follows each of its sides. -/
theorem ite_bind
    {condition : Prop}
    [Decidable condition]
    {yes no : Operation σ ε α}
    {next : α → Operation σ ε β} :
    (if condition then yes else no) >>= next =
      if condition then yes >>= next else no >>= next := by
  split <;> rfl

/-- A chain goes on past a condition that makes it fail only if it is false. -/
@[simp] theorem gives_guard
    {condition : Prop}
    [Decidable condition]
    {cause : ε}
    {next : Operation σ ε β}
    {before after : σ}
    {value : β} :
    (if condition then fail cause else next).Gives before value after ↔
      ¬condition ∧ next.Gives before value after := by
  simp [gives_ite]

@[simp] theorem gives_guard_report
    {condition : Prop}
    [Decidable condition]
    {event : Event}
    {cause : ε}
    {next : Operation σ ε β}
    {before after : σ}
    {value : β} :
    (if condition then report event >>= fun _ => fail cause else next).Gives
        before value after ↔
      ¬condition ∧ next.Gives before value after := by
  simp [gives_ite]

/-- An attempt answers with the answer or with the error of what it tried. -/
theorem gives_attempt
    {operation : Operation σ ε α}
    {before after : σ}
    {ended : Except ε α} :
    (operation.attempt : Operation σ ε' (Except ε α)).Gives before ended after ↔
      (∃ value, ended = .ok value ∧ operation.Gives before value after) ∨
        ∃ cause, ended = .error cause ∧ operation.Raises before cause after := by
  simp only [attempt, Gives, Raises, Probe.Gives, Probe.attempt]
  rcases operation before with ⟨⟨(cause | _ | _) | value, notes⟩, between⟩
  · constructor
    · rintro ⟨⟨⟩, rfl⟩
      exact .inr ⟨cause, rfl, rfl, rfl⟩
    · rintro (⟨_, _, ⟨⟩, _⟩ | ⟨_, rfl, ⟨⟩, rfl⟩)
      exact ⟨rfl, rfl⟩
  · simp
  · simp
  · constructor
    · rintro ⟨⟨⟩, rfl⟩
      exact .inl ⟨value, rfl, rfl, rfl⟩
    · rintro (⟨_, rfl, ⟨⟩, rfl⟩ | ⟨_, _, ⟨⟩, _⟩)
      exact ⟨rfl, rfl⟩

/-- The operation ends with this abort. -/
def GivesUp
    (operation : Operation σ ε α)
    (before : σ)
    (cause : Abort) :
    Prop :=
  (operation before).1.GivesUp cause

section GivesUp

variable {before : σ} {cause : Abort}

/-- A chain of operations is given up in one of its links. -/
@[simp] theorem givesUp_bind
    {first : Operation σ ε α}
    {next : α → Operation σ ε β} :
    (first >>= next).GivesUp before cause ↔
      first.GivesUp before cause ∨
        ∃ value between, first.Gives before value between ∧
          (next value).GivesUp between cause := by
  change (first.andThen next).GivesUp before cause ↔ _
  simp only [GivesUp, Gives, Probe.GivesUp, Probe.Gives, andThen]
  rcases first before with ⟨⟨failure | middle, notes⟩, between⟩
  · simp
  · constructor
    · exact fun givesUp => .inr ⟨middle, between, ⟨rfl, rfl⟩, givesUp⟩
    · rintro (⟨⟨⟩⟩ | ⟨_, _, ⟨⟨⟩, rfl⟩, givesUp⟩)
      exact givesUp

@[simp] theorem givesUp_pure {value : α} :
    ¬(pure value : Operation σ ε α).GivesUp before cause :=
  nofun

@[simp] theorem givesUp_inspect {look : σ → Probe ε α} :
    (inspect look).GivesUp before cause ↔ (look before).GivesUp cause :=
  Iff.rfl

@[simp] theorem givesUp_lift {probe : Probe ε α} :
    (liftM probe : Operation σ ε α).GivesUp before cause ↔
      probe.GivesUp cause :=
  Iff.rfl

@[simp] theorem givesUp_update {change : σ → σ} :
    ¬(update change : Operation σ ε Unit).GivesUp before cause :=
  nofun

@[simp] theorem givesUp_fail {error : ε} :
    ¬(fail error : Operation σ ε α).GivesUp before cause :=
  nofun

@[simp] theorem givesUp_report {event : Event} :
    ¬(report event : Operation σ ε Unit).GivesUp before cause :=
  nofun

@[simp] theorem givesUp_check {checked : Except Abort α} :
    (check checked : Operation σ ε α).GivesUp before cause ↔
      checked = .error cause :=
  Probe.givesUp_check

@[simp] theorem givesUp_demand
    {demanded : Option α}
    {error : ε} :
    ¬(demand demanded error : Operation σ ε α).GivesUp before cause :=
  Probe.givesUp_demand

@[simp] theorem givesUp_mapError
    {restate : ε → ε'}
    {operation : Operation σ ε α} :
    (operation.mapError restate).GivesUp before cause ↔
      operation.GivesUp before cause := by
  simp only [GivesUp, Probe.GivesUp, Operation.mapError, Probe.mapError]
  rcases operation before with ⟨⟨(error | other | _) | value, notes⟩, after⟩
  · exact ⟨nofun, nofun⟩
  · change (Except.error (Failure.abort other) : Except (Failure ε') α) = _ ↔ _
    simp
  · exact ⟨nofun, nofun⟩
  · exact ⟨nofun, nofun⟩

@[simp] theorem givesUp_onPart
    {split : σ → ρ × (ρ → σ)}
    {operation : Operation ρ ε α} :
    (operation.onPart split).GivesUp before cause ↔
      operation.GivesUp (split before).1 cause :=
  Iff.rfl

/-- Aborts go through attempts. -/
@[simp] theorem givesUp_attempt {operation : Operation σ ε α} :
    (operation.attempt : Operation σ ε' (Except ε α)).GivesUp before cause ↔
      operation.GivesUp before cause := by
  simp only [GivesUp, Probe.GivesUp, attempt, Probe.attempt]
  rcases operation before with ⟨⟨(_ | _ | _) | value, notes⟩, after⟩ <;> simp

/-- A choice is given up where the chosen side is. -/
@[simp] theorem givesUp_ite
    {condition : Prop}
    [Decidable condition]
    {yes no : Operation σ ε α} :
    (if condition then yes else no).GivesUp before cause ↔
      condition ∧ yes.GivesUp before cause ∨
        ¬condition ∧ no.GivesUp before cause := by
  by_cases holds : condition <;> simp [holds]

end GivesUp

section Raises

variable {before after : σ} {cause : ε}

/-- A chain of operations ends with an error of one of its links. -/
@[simp] theorem raises_bind
    {first : Operation σ ε α}
    {next : α → Operation σ ε β} :
    (first >>= next).Raises before cause after ↔
      first.Raises before cause after ∨
        ∃ value between, first.Gives before value between ∧
          (next value).Raises between cause after := by
  change (first.andThen next).Raises before cause after ↔ _
  simp only [Raises, Gives, Probe.Gives, andThen]
  rcases first before with ⟨⟨failure | middle, notes⟩, between⟩
  · simp
  · constructor
    · exact fun raises => .inr ⟨middle, between, ⟨rfl, rfl⟩, raises⟩
    · rintro (⟨⟨⟩, -⟩ | ⟨_, _, ⟨⟨⟩, rfl⟩, raises⟩)
      exact raises

@[simp] theorem raises_pure {value : α} :
    ¬(pure value : Operation σ ε α).Raises before cause after :=
  nofun

@[simp] theorem raises_inspect {look : σ → Probe ε α} :
    (inspect look).Raises before cause after ↔
      (look before).Raises cause ∧ after = before := by
  simp [inspect, Raises, Probe.Raises, eq_comm]

@[simp] theorem raises_ofProbe {probe : Probe ε α} :
    (ofProbe probe : Operation σ ε α).Raises before cause after ↔
      probe.Raises cause ∧ after = before :=
  raises_inspect

@[simp] theorem raises_lift {probe : Probe ε α} :
    (liftM probe : Operation σ ε α).Raises before cause after ↔
      probe.Raises cause ∧ after = before :=
  raises_inspect

@[simp] theorem raises_state :
    ¬(state : Operation σ ε σ).Raises before cause after := by
  rintro ⟨⟨⟩, -⟩

@[simp] theorem raises_update {change : σ → σ} :
    ¬(update change : Operation σ ε Unit).Raises before cause after :=
  nofun

@[simp] theorem raises_fail {error : ε} :
    (fail error : Operation σ ε α).Raises before cause after ↔
      cause = error ∧ after = before := by
  simp [fail]

@[simp] theorem raises_report {event : Event} :
    ¬(report event : Operation σ ε Unit).Raises before cause after :=
  nofun

@[simp] theorem raises_check {checked : Except Abort α} :
    ¬(check checked : Operation σ ε α).Raises before cause after := by
  simp [check]

/-- An attempt has turned every error into an answer. -/
@[simp] theorem raises_attempt
    {operation : Operation σ ε' α}
    {cause : ε} :
    ¬(operation.attempt : Operation σ ε (Except ε' α)).Raises
      before cause after := by
  rintro ⟨ended, -⟩
  unfold attempt at ended
  rcases ran : operation before with ⟨⟨(_ | _ | _) | _, _⟩, _⟩ <;>
    simp [ran, Probe.attempt] at ended

/-- A run that answers does not end with an error. -/
theorem Gives.not_raises
    {operation : Operation σ ε α}
    {value : α}
    {between : σ}
    (gives : operation.Gives before value between) :
    ¬operation.Raises before cause after := by
  intro raises
  have same : (Except.ok value : Except (Failure ε) α) = .error (.error cause) :=
    gives.1.symm.trans raises.1
  cases same

/-- A choice ends with an error of the chosen side. -/
theorem raises_ite
    {condition : Prop}
    [Decidable condition]
    {yes no : Operation σ ε α} :
    (if condition then yes else no).Raises before cause after ↔
      condition ∧ yes.Raises before cause after ∨
        ¬condition ∧ no.Raises before cause after := by
  by_cases holds : condition <;> simp [holds]

end Raises

/-- The run comes to an answer or to an error; it is not given up. -/
def Concludes
    (operation : Operation σ ε α)
    (before : σ) :
    Prop :=
  (∃ value after, operation.Gives before value after) ∨
    ∃ cause after, operation.Raises before cause after

namespace Concludes

variable {before : σ}

/-- A chain concludes if the links that it comes to do. -/
theorem bind
    {first : Operation σ ε α}
    {next : α → Operation σ ε β}
    (concludes : first.Concludes before)
    (goesOn : ∀ value between, first.Gives before value between →
      (next value).Concludes between) :
    (first >>= next).Concludes before := by
  rcases concludes with ⟨value, between, gives⟩ | ⟨cause, between, raises⟩
  · rcases goesOn value between gives with ⟨last, after, answers⟩ | ⟨cause, after, fails⟩
    · exact .inl ⟨last, after, gives_bind.mpr ⟨value, between, gives, answers⟩⟩
    · exact .inr ⟨cause, after, raises_bind.mpr (.inr ⟨value, between, gives, fails⟩)⟩
  · exact .inr ⟨cause, between, raises_bind.mpr (.inl raises)⟩

theorem of_gives
    {operation : Operation σ ε α}
    {value : α}
    {after : σ}
    (gives : operation.Gives before value after) :
    operation.Concludes before :=
  .inl ⟨value, after, gives⟩

theorem pure {value : α} :
    (Pure.pure value : Operation σ ε α).Concludes before :=
  .of_gives (gives_pure.mpr ⟨rfl, rfl⟩)

theorem update {change : σ → σ} :
    (Operation.update change : Operation σ ε Unit).Concludes before :=
  .inl ⟨(), _, gives_update.mpr rfl⟩

theorem fail {cause : ε} :
    (Operation.fail cause : Operation σ ε α).Concludes before :=
  .inr ⟨cause, before, raises_fail.mpr ⟨rfl, rfl⟩⟩

theorem report {event : Event} :
    (Operation.report event : Operation σ ε Unit).Concludes before :=
  .inl ⟨(), _, gives_report.mpr rfl⟩

theorem check
    {checked : Except Abort α}
    {value : α}
    (known : checked = .ok value) :
    (Operation.check checked : Operation σ ε α).Concludes before :=
  .of_gives (gives_check.mpr ⟨known, rfl⟩)

theorem ite
    {condition : Prop}
    [Decidable condition]
    {yes no : Operation σ ε α}
    (whenYes : condition → yes.Concludes before)
    (whenNo : ¬condition → no.Concludes before) :
    (if condition then yes else no).Concludes before := by
  by_cases holds : condition
  · simpa only [holds, if_true] using whenYes holds
  · simpa only [holds, if_false] using whenNo holds

end Concludes

/-- A look concludes if what it looks at answers or fails. -/
theorem concludes_ofProbe
    {probe : Probe ε α}
    {before : σ}
    (concludes : probe.Concludes) :
    (ofProbe probe : Operation σ ε α).Concludes before := by
  rcases concludes with ⟨value, gives⟩ | ⟨cause, raises⟩
  · exact .inl ⟨value, before, gives_ofProbe.mpr ⟨gives, rfl⟩⟩
  · exact .inr ⟨cause, before, raises_ofProbe.mpr ⟨raises, rfl⟩⟩

/-- Whatever the end of the run, it leaves a state with a property. -/
def Leaves
    (operation : Operation σ ε α)
    (before : σ)
    (property : σ → Prop) :
    Prop :=
  property (operation before).2

section Leaves

variable {before : σ} {property : σ → Prop}

/-- A chain that stops early leaves what its first link leaves. -/
@[simp] theorem leaves_bind
    {first : Operation σ ε α}
    {next : α → Operation σ ε β} :
    (first >>= next).Leaves before property ↔
      (∀ value between, first.Gives before value between →
        (next value).Leaves between property) ∧
      ((∀ value between, ¬first.Gives before value between) →
        first.Leaves before property) := by
  change (first.andThen next).Leaves before property ↔ _
  simp only [Leaves, Gives, Probe.Gives, andThen]
  rcases first before with ⟨⟨outcome | middle, notes⟩, between⟩ <;> simp

/-- A run that answered left what every run leaves. -/
theorem Leaves.of_gives
    {operation : Operation σ ε α}
    {after : σ}
    {value : α}
    (leaves : operation.Leaves before property)
    (gives : operation.Gives before value after) :
    property after :=
  gives.2 ▸ leaves

@[simp] theorem leaves_pure {value : α} :
    (pure value : Operation σ ε α).Leaves before property ↔ property before :=
  Iff.rfl

@[simp] theorem leaves_check {checked : Except Abort α} :
    (check checked : Operation σ ε α).Leaves before property ↔
      property before :=
  Iff.rfl

@[simp] theorem leaves_mapError
    {restate : ε → ε'}
    {operation : Operation σ ε α} :
    (operation.mapError restate).Leaves before property ↔
      operation.Leaves before property :=
  Iff.rfl

@[simp] theorem leaves_onPart
    {split : σ → ρ × (ρ → σ)}
    {operation : Operation ρ ε α} :
    (operation.onPart split).Leaves before property ↔
      operation.Leaves (split before).1 fun part =>
        property ((split before).2 part) :=
  Iff.rfl

end Leaves

/-- What a run came to, and the state that it left. -/
def ending
    (operation : Operation σ ε α)
    (before : σ) :
    Except (Failure ε) α × σ :=
  ((operation before).1.outcome, (operation before).2)

section Ending

theorem ending_of_gives
    {operation : Operation σ ε α}
    {before after : σ}
    {value : α}
    (gives : operation.Gives before value after) :
    operation.ending before = (.ok value, after) := by
  obtain ⟨answered, left⟩ := gives
  rw [ending, answered, left]

theorem gives_of_ending
    {operation : Operation σ ε α}
    {before after : σ}
    {value : α}
    (ended : operation.ending before = (.ok value, after)) :
    operation.Gives before value after :=
  ⟨congrArg Prod.fst ended, congrArg Prod.snd ended⟩

/-- A chain ends as its second link does, or where the first one failed. -/
theorem ending_bind
    (first : Operation σ ε α)
    (next : α → Operation σ ε β)
    (before : σ) :
    (first >>= next).ending before =
      match first.ending before with
      | (.error failure, between) => (.error failure, between)
      | (.ok value, between) => (next value).ending between := by
  change (first.andThen next).ending before = _
  unfold ending andThen
  rcases first before with ⟨⟨failure | value, notes⟩, between⟩ <;> rfl

/-- What ends as another run does can take its place as the first link. -/
theorem ending_bind_congr
    {first twin : Operation σ ε α}
    {left right : σ}
    (same : first.ending left = twin.ending right)
    (next : α → Operation σ ε β) :
    (first >>= next).ending left = (twin >>= next).ending right := by
  rw [ending_bind, ending_bind, same]

/-- Past a link that answers, a chain ends as the rest of it. -/
theorem ending_bind_of_gives
    {first : Operation σ ε α}
    {next : α → Operation σ ε β}
    {before between : σ}
    {value : α}
    (gives : first.Gives before value between) :
    (first >>= next).ending before = (next value).ending between := by
  rw [ending_bind, ending_of_gives gives]

end Ending

/-- Every run of the operation leads to a related state. -/
def Respects
    (relation : σ → σ → Prop)
    (operation : Operation σ ε α) :
    Prop :=
  ∀ before, relation before (operation before).2

section Respects

variable {relation : σ → σ → Prop}

/-- A chain respects what both of its links respect. -/
theorem Respects.andThen
    {first : Operation σ ε α}
    {next : α → Operation σ ε β}
    (transitive : ∀ {a b c}, relation a b → relation b c → relation a c)
    (firstRespects : first.Respects relation)
    (nextRespects : ∀ value, (next value).Respects relation) :
    (first.andThen next).Respects relation := by
  intro before
  have reached := firstRespects before
  unfold Operation.andThen
  rcases ran : first before with ⟨⟨outcome | value, notes⟩, between⟩
  · simpa [ran] using reached
  · rw [ran] at reached
    exact transitive reached (nextRespects value between)

theorem Respects.attempt
    {operation : Operation σ ε α}
    (respects : operation.Respects relation) :
    (operation.attempt : Operation σ ε' (Except ε α)).Respects relation :=
  respects

/-- What a run leaves is related to where it began. -/
theorem Respects.of_gives
    {operation : Operation σ ε α}
    {before after : σ}
    {value : α}
    (respects : operation.Respects relation)
    (gives : operation.Gives before value after) :
    relation before after :=
  gives.2 ▸ respects before

/-- What a run that failed leaves is related to where it began. -/
theorem Respects.of_raises
    {operation : Operation σ ε α}
    {before after : σ}
    {cause : ε}
    (respects : operation.Respects relation)
    (raises : operation.Raises before cause after) :
    relation before after :=
  raises.2 ▸ respects before

end Respects

end Operation

end ManagedStack
