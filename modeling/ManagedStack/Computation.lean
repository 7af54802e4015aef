import ManagedStack.Event
import ManagedStack.Code.Blob
import ManagedStack.Stack

namespace ManagedStack

/-!
# Computations over stacks

Two kinds of computation occur.  A *probe* only looks: it answers or fails, and
leaves a trail of notes, which say what it touched outside a stack, which events
it reported, and which reference slots and blobs it visited.  An *operation* also
has a state; what it changed before it failed stays changed.  Both run their parts
in order and stop at the first failure.
-/

/-- One thing a computation did besides answering. -/
inductive Note where
  /-- An aligned access to a word that the stack does not have. -/
  | fault (address : Address)
  | event (event : Event)
  /-- A slot handed to the visitor of reference slots. -/
  | slot (address : Address)
  /-- A blob handed to the visitor of active code. -/
  | blob (blob : Blob)
  deriving Repr, DecidableEq

/-- The trail of a computation, in order. -/
abbrev Notes := List Note

namespace Notes

/-- How many accesses missed the stack. -/
def faultCount (notes : Notes) : Nat :=
  notes.countP fun
    | .fault _ => true
    | _ => false

/-- The events that were reported. -/
def events (notes : Notes) : List Event :=
  notes.filterMap fun
    | .event event => some event
    | _ => none

/-- The reference slots that were visited. -/
def slots (notes : Notes) : List Address :=
  notes.filterMap fun
    | .slot address => some address
    | _ => none

/-- The blobs that were visited. -/
def blobs (notes : Notes) : List Blob :=
  notes.filterMap fun
    | .blob blob => some blob
    | _ => none

end Notes

/-- What looking at a fixed state gives. -/
structure Probe (ε α : Type) where
  outcome : Except (Failure ε) α
  notes : Notes := []

namespace Probe

/-- Answer without noting anything. -/
def answer (value : α) : Probe ε α where
  outcome := .ok value

/-- Go on with the answer of a probe, if it has one. -/
def andThen
    (first : Probe ε α)
    (next : α → Probe ε β) :
    Probe ε β :=
  match first.outcome with
  | .error failure => ⟨.error failure, first.notes⟩
  | .ok value =>
      let second := next value
      ⟨second.outcome, first.notes ++ second.notes⟩

instance : Monad (Probe ε) where
  pure := answer
  bind := andThen

/-- End with an error. -/
def fail (cause : ε) : Probe ε α where
  outcome := .error (.error cause)

/-- Leave a note. -/
def note (item : Note) : Probe ε Unit where
  outcome := .ok ()
  notes := [item]

/-- Report an event. -/
def report (event : Event) : Probe ε Unit :=
  note (.event event)

/-- Hand a slot to the visitor of reference slots. -/
def visit (slot : Address) : Probe ε Unit :=
  note (.slot slot)

/-- Use a value whose computation may be given up. -/
def check : Except Abort α → Probe ε α
  | .ok value => ⟨.ok value, []⟩
  | .error cause => ⟨.error (.abort cause), []⟩

/-- Use an optional value; its absence is an error. -/
def demand
    (value : Option α)
    (cause : ε) :
    Probe ε α :=
  match value with
  | some present => answer present
  | none => fail cause

/-- Turn an error into an answer; aborts go through. -/
def attempt (probe : Probe ε α) : Probe ε' (Except ε α) :=
  match probe.outcome with
  | .ok value => ⟨.ok (.ok value), probe.notes⟩
  | .error (.error cause) => ⟨.ok (.error cause), probe.notes⟩
  | .error (.abort cause) => ⟨.error (.abort cause), probe.notes⟩
  | .error .outOfSteps => ⟨.error .outOfSteps, probe.notes⟩

/-- Restate the causes of errors. -/
def mapError
    (restate : ε → ε')
    (probe : Probe ε α) :
    Probe ε' α where
  outcome := probe.outcome.mapError (Failure.mapError restate)
  notes := probe.notes

/-- Going on after an answer that noted nothing is just going on. -/
@[simp] theorem answer_andThen
    (value : α)
    (next : α → Probe ε β) :
    (answer value).andThen next = next value := by
  simp [answer, andThen]

/-- Going on with an answer changes nothing. -/
@[simp] theorem andThen_answer (first : Probe ε α) :
    first.andThen answer = first := by
  obtain ⟨outcome, notes⟩ := first
  cases outcome <;> simp [answer, andThen]

/-- The grouping of a chain of probes does not matter. -/
theorem andThen_andThen
    (first : Probe ε α)
    (second : α → Probe ε β)
    (third : β → Probe ε γ) :
    (first.andThen second).andThen third =
      first.andThen fun value => (second value).andThen third := by
  obtain ⟨outcome, notes⟩ := first
  cases outcome with
  | error failure => simp [andThen]
  | ok value =>
      generalize rest : second value = middle
      obtain ⟨middleOutcome, middleNotes⟩ := middle
      cases middleOutcome <;> simp [andThen, rest]

instance : LawfulMonad (Probe ε) :=
  LawfulMonad.mk'
    _
    andThen_answer
    answer_andThen
    andThen_andThen

end Probe

/-- What a round of a loop comes to. -/
inductive Round (α β : Type) where
  /-- The loop goes on with this value. -/
  | again (value : α)
  | done (answer : β)

/-- A computation that may change a state of type `σ`. -/
def Operation (σ ε α : Type) : Type :=
  σ → Probe ε α × σ

namespace Operation

/-- Answer and leave the state alone. -/
def answer (value : α) : Operation σ ε α :=
  fun state => (.answer value, state)

/-- Go on with the answer of an operation, from the state it left. -/
def andThen
    (first : Operation σ ε α)
    (next : α → Operation σ ε β) :
    Operation σ ε β :=
  fun state =>
    match first state with
    | (⟨.error failure, notes⟩, after) => (⟨.error failure, notes⟩, after)
    | (⟨.ok value, notes⟩, after) =>
        let (second, final) := next value after
        (⟨second.outcome, notes ++ second.notes⟩, final)

instance : Monad (Operation σ ε) where
  pure := answer
  bind := andThen

/-- Look at the state. -/
def inspect (look : σ → Probe ε α) : Operation σ ε α :=
  fun state => (look state, state)

/-- Look at nothing but what the probe was given. -/
def ofProbe (probe : Probe ε α) : Operation σ ε α :=
  inspect fun _ => probe

instance : MonadLift (Probe ε) (Operation σ ε) where
  monadLift := ofProbe

/-- The current state. -/
def state : Operation σ ε σ :=
  inspect Probe.answer

/-- Change the state. -/
def update (change : σ → σ) : Operation σ ε Unit :=
  fun state => (.answer (), change state)

/-- End with an error. -/
def fail (cause : ε) : Operation σ ε α :=
  ofProbe (.fail cause)

/-- Report an event. -/
def report (event : Event) : Operation σ ε Unit :=
  ofProbe (.report event)

/-- Use a value whose computation may be given up. -/
def check (value : Except Abort α) : Operation σ ε α :=
  ofProbe (.check value)

/-- Use an optional value; its absence is an error. -/
def demand
    (value : Option α)
    (cause : ε) :
    Operation σ ε α :=
  ofProbe (.demand value cause)

/-- End because the step allowance is used up. -/
def outOfSteps : Operation σ ε α :=
  ofProbe ⟨.error .outOfSteps, []⟩

/-- Turn an error into an answer; aborts go through. -/
def attempt (operation : Operation σ ε α) : Operation σ ε' (Except ε α) :=
  fun state =>
    let (probe, after) := operation state
    (probe.attempt, after)

/-- Restate the causes of errors. -/
def mapError
    (restate : ε → ε')
    (operation : Operation σ ε α) :
    Operation σ ε' α :=
  fun state =>
    let (probe, after) := operation state
    (probe.mapError restate, after)

/--
The rounds of a loop, after the notes of the rounds before.

The notes are handed on so that a loop runs in place, however long it takes.
-/
def roundsFrom
    (round : α → Operation σ ε (Round α β)) :
    Nat → Notes → α → σ → Probe ε β × σ
  | 0, notes, _, state => (⟨.error .outOfSteps, notes⟩, state)
  | rounds + 1, notes, value, state =>
      match round value state with
      | (⟨.error failure, more⟩, after) =>
          (⟨.error failure, notes ++ more⟩, after)
      | (⟨.ok (.done answer), more⟩, after) =>
          (⟨.ok answer, notes ++ more⟩, after)
      | (⟨.ok (.again next), more⟩, after) =>
          roundsFrom round rounds (notes ++ more) next after

/-- Run rounds until one is the last, but no more than are allowed. -/
def loop
    (round : α → Operation σ ε (Round α β))
    (rounds : Nat)
    (value : α) :
    Operation σ ε β :=
  roundsFrom round rounds [] value

/--
Run an operation on one part of a larger state.

The state is taken apart into the part and a function that puts a part back in its
place, so that nothing else holds the part while the operation works on it.
-/
def onPart
    (split : σ → ρ × (ρ → σ))
    (operation : Operation ρ ε α) :
    Operation σ ε α :=
  fun state =>
    let (part, restore) := split state
    let (probe, after) := operation part
    (probe, restore after)

/-- Going on after an answer that changed nothing is just going on. -/
@[simp] theorem answer_andThen
    (value : α)
    (next : α → Operation σ ε β) :
    (answer value).andThen next = next value := by
  funext state
  simp [answer, andThen, Probe.answer]

/-- Going on with an answer changes nothing. -/
@[simp] theorem andThen_answer (first : Operation σ ε α) :
    first.andThen answer = first := by
  funext state
  unfold andThen
  split <;> rename_i ran <;> simp [ran, answer, Probe.answer]

/-- The grouping of a chain of operations does not matter. -/
theorem andThen_andThen
    (first : Operation σ ε α)
    (second : α → Operation σ ε β)
    (third : β → Operation σ ε γ) :
    (first.andThen second).andThen third =
      first.andThen fun value => (second value).andThen third := by
  funext state
  simp only [andThen]
  rcases first state with ⟨⟨outcome | value, notes⟩, after⟩
  · rfl
  · simp only
    rcases second value after with ⟨⟨outcome | value, notes⟩, after⟩
    · rfl
    · simp

instance : LawfulMonad (Operation σ ε) :=
  LawfulMonad.mk'
    _
    andThen_answer
    answer_andThen
    andThen_andThen

/-- The notes of the rounds before stand in front of those of the rounds to come. -/
theorem roundsFrom_eq
    (round : α → Operation σ ε (Round α β))
    (rounds : Nat)
    (notes : Notes)
    (value : α)
    (state : σ) :
    roundsFrom round rounds notes value state =
      (⟨(loop round rounds value state).1.outcome,
        notes ++ (loop round rounds value state).1.notes⟩,
        (loop round rounds value state).2) := by
  unfold loop
  induction rounds generalizing notes value state with
  | zero => simp [roundsFrom]
  | succ rounds inductionHypothesis =>
      simp only [roundsFrom]
      rcases round value state with ⟨⟨failure | next | answer, more⟩, after⟩
      · simp
      · simp only [List.nil_append]
        rw [inductionHypothesis (notes ++ more), inductionHypothesis more]
        simp
      · simp

/-- A loop is a round and, unless that is the last, the rounds after it. -/
theorem loop_succ
    (round : α → Operation σ ε (Round α β))
    (rounds : Nat)
    (value : α) :
    loop round (rounds + 1) value =
      (round value).andThen fun
        | .again next => loop round rounds next
        | .done answer => Operation.answer answer := by
  funext state
  rw [loop, roundsFrom]
  unfold andThen
  rcases round value state with ⟨⟨failure | next | answer, more⟩, after⟩
  · simp
  · simp only [List.nil_append]
    rw [roundsFrom_eq]
  · simp [Operation.answer, Probe.answer]

end Operation

end ManagedStack
