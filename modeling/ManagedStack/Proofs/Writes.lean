import ManagedStack.Proofs.Memory

namespace ManagedStack.Stack

/-!
# Runs of writes

An operation *writes* some places when it succeeds only if the stack covers them all
and keeps every other place.  The places that a chain of operations writes are those
that its links write.  A run of neighbouring places that are all covered does not
wrap around, so that a successful run of writes tells where it went.
-/

/-- The operation needs these addresses covered and keeps all others. -/
def Writes
    (written : Address → Prop)
    (operation : Operation Stack FrameError α) :
    Prop :=
  ∀ (before after : Stack) (value : α),
    operation.Gives before value after →
      (∀ address, written address → before.Covers address) ∧
        Keeps (fun place => ∀ address, written address → address.toNat ≠ place)
          before after

namespace Writes

variable {written others : Address → Prop}

theorem ofPure (value : α) :
    Writes (fun _ => False) (pure value : Operation Stack FrameError α) := by
  intro before after given gives
  obtain ⟨-, rfl⟩ := Operation.gives_pure.mp gives
  exact ⟨fun _ => False.elim, Keeps.refl _⟩

theorem ofWrite
    (address : Address)
    (word : Word) :
    Writes (fun place => place = address) (write address word) := by
  intro before after value gives
  obtain ⟨covers, rfl⟩ := gives_write.mp gives
  refine ⟨fun _ same => same ▸ covers, Keeps.put before word ?_⟩
  intro outside
  exact outside address rfl rfl

theorem andThen
    {first : Operation Stack FrameError α}
    {next : α → Operation Stack FrameError β}
    (firstWrites : Writes written first)
    (nextWrites : ∀ value, Writes others (next value)) :
    Writes (fun place => written place ∨ others place) (first >>= next) := by
  intro before after value gives
  obtain ⟨middle, between, firstGives, nextGives⟩ :=
    Operation.gives_bind.mp gives
  obtain ⟨firstCovers, firstKeeps⟩ := firstWrites _ _ _ firstGives
  obtain ⟨nextCovers, nextKeeps⟩ := nextWrites middle _ _ _ nextGives
  refine ⟨?_, ?_⟩
  · rintro address (inFirst | inNext)
    · exact firstCovers address inFirst
    · exact firstKeeps.covers_iff.mp (nextCovers address inNext)
  · refine (firstKeeps.mono ?_).trans (nextKeeps.mono ?_)
    · exact fun place outside address inFirst =>
        outside address (Or.inl inFirst)
    · exact fun place outside address inNext =>
        outside address (Or.inr inNext)

/-- The same places in other words. -/
theorem congr
    {operation : Operation Stack FrameError α}
    (writes : Writes written operation)
    (same : ∀ address, others address ↔ written address) :
    Writes others operation := by
  intro before after value gives
  have asWritten : others = written := funext fun address =>
    propext (same address)
  exact asWritten ▸ writes _ _ _ gives

end Writes

/-- Writing words one after the other writes the places they are given for. -/
theorem writes_writeEach (pairs : List (Address × Word)) :
    Writes (fun place => ∃ pair ∈ pairs, place = pair.1) (writeEach pairs) := by
  induction pairs with
  | nil => exact (Writes.ofPure ()).congr (by simp)
  | cons pair rest inductionHypothesis =>
      exact ((Writes.ofWrite pair.1 pair.2).andThen fun _ =>
        inductionHypothesis).congr (by simp)

/-- Words written to different places are all held afterwards. -/
theorem holds_of_gives_writeEach
    {pairs : List (Address × Word)}
    {before after : Stack}
    {value : Unit}
    (apart : pairs.Pairwise fun first second => first.1 ≠ second.1)
    (gives : (writeEach pairs).Gives before value after) :
    ∀ pair ∈ pairs, after.Holds pair.1 pair.2 := by
  induction pairs generalizing before with
  | nil => exact nofun
  | cons written rest inductionHypothesis =>
      obtain ⟨fromFirst, amongRest⟩ := List.pairwise_cons.mp apart
      obtain ⟨_, between, writes, restWrites⟩ := Operation.gives_bind.mp gives
      obtain ⟨covers, rfl⟩ := gives_write.mp writes
      intro pair inside
      rcases List.mem_cons.mp inside with rfl | inRest
      · obtain ⟨-, keeps⟩ := writes_writeEach rest _ _ _ restWrites
        refine keeps.holds (holds_put_same covers) ?_
        rintro address ⟨other, otherInside, rfl⟩ same
        exact fromFirst other otherInside (UInt64.toNat_inj.mp same).symm
      · exact inductionHypothesis amongRest restWrites pair inRest

/-- Writing words to ascending addresses writes as many places. -/
theorem writes_writeAll
    (start : Address)
    (words : List Word) :
    Writes (fun place => ∃ index < words.length, place = start.offset index)
      (writeAll start words) := by
  induction words generalizing start with
  | nil =>
      exact (Writes.ofPure ()).congr (by simp)
  | cons word rest inductionHypothesis =>
      refine ((Writes.ofWrite start word).andThen fun _ =>
        inductionHypothesis (start.offset 1)).congr fun address => ?_
      constructor
      · rintro ⟨index, inside, rfl⟩
        cases index with
        | zero => exact .inl (by simp)
        | succ index =>
            refine .inr ⟨index, by simpa using inside, ?_⟩
            simp [Int.add_comm]
      · rintro (rfl | ⟨index, inside, rfl⟩)
        · exact ⟨0, by simp, by simp⟩
        · exact ⟨index + 1, by simpa using inside, by simp [Int.add_comm]⟩

/-- Clearing ascending addresses writes as many places. -/
theorem writes_zeroWords
    (start : Address)
    (count : Nat) :
    Writes (fun place => ∃ index < count, place = start.offset index)
      (zeroWords start count) := by
  induction count generalizing start with
  | zero =>
      exact (Writes.ofPure ()).congr (by simp)
  | succ count inductionHypothesis =>
      refine ((Writes.ofWrite start 0).andThen fun _ =>
        inductionHypothesis (start.offset 1)).congr fun address => ?_
      constructor
      · rintro ⟨index, inside, rfl⟩
        cases index with
        | zero => exact .inl (by simp)
        | succ index =>
            refine .inr ⟨index, by omega, ?_⟩
            simp [Int.add_comm]
      · rintro (rfl | ⟨index, inside, rfl⟩)
        · exact ⟨0, by simp, by simp⟩
        · exact ⟨index + 1, by omega, by simp [Int.add_comm]⟩

/-- Reading a number of words answers with that many. -/
theorem length_of_gives_readAll
    {stack : Stack}
    {start : Address}
    {count : Nat}
    {words : List Word}
    (gives : (stack.readAll start count).Gives words) :
    words.length = count := by
  induction count generalizing start words with
  | zero =>
      simp only [readAll, Probe.gives_pure] at gives
      simp [gives]
  | succ count inductionHypothesis =>
      simp only [readAll, Probe.gives_bind, Probe.gives_pure] at gives
      obtain ⟨word, -, rest, restGives, rfl⟩ := gives
      simp [inductionHypothesis restGives]

/-- Copying words writes as many places at the target. -/
theorem writes_copyWords
    (source target : Address)
    (count : Nat) :
    Writes (fun place => ∃ index < count, place = target.offset index)
      (copyWords source target count) := by
  intro before after value gives
  simp only [copyWords, Operation.gives_bind, Operation.gives_inspect] at gives
  obtain ⟨words, _, ⟨read, rfl⟩, written⟩ := gives
  have length := length_of_gives_readAll read
  subst length
  exact writes_writeAll target words _ _ _ written

/-- In a run of covered neighbours every move is exact. -/
theorem toNat_offset_of_covers
    {stack : Stack}
    {address : Address}
    {low high words : Int}
    (covers : ∀ words, low ≤ words → words ≤ high →
      stack.Covers (address.offset words))
    (lowNonpositive : low ≤ 0)
    (highNonnegative : 0 ≤ high)
    (above : low ≤ words)
    (below : words ≤ high) :
    ((address.offset words).toNat : Int) = address.toNat + 8 * words := by
  have fromLow : ∀ steps : Nat, low + steps ≤ high →
      ((address.offset (low + steps)).toNat : Int) =
        (address.offset low).toNat + 8 * steps := by
    intro steps inside
    induction steps with
    | zero => simp
    | succ steps inductionHypothesis =>
        have lower := inductionHypothesis (by omega)
        have upperCovers := covers (low + (steps + 1 : Nat)) (by omega) inside
        have lowerCovers := covers (low + steps) (by omega) (by omega)
        have lowerPlace : (address.offset (low + (steps + 1 : Nat))).offset (-1) =
            address.offset (low + steps) := by
          rw [Word.offset_offset]
          congr 1
          omega
        rw [← lowerPlace] at lower lowerCovers
        have stepped := upperCovers.toNat_offset lowerCovers (by omega) (by omega)
        omega
  obtain ⟨toZero, zeroExact⟩ : ∃ steps : Nat, low + steps = 0 :=
    ⟨(-low).toNat, by omega⟩
  obtain ⟨toWords, wordsExact⟩ : ∃ steps : Nat, low + steps = words :=
    ⟨(words - low).toNat, by omega⟩
  have atZero := fromLow toZero (by omega)
  have atWords := fromLow toWords (by omega)
  rw [zeroExact, Word.offset_zero] at atZero
  rw [wordsExact] at atWords
  omega

/-- Words are written wherever the stack covers their places. -/
theorem exists_gives_writeAll
    {start : Address}
    {words : List Word}
    {stack : Stack}
    (covers : ∀ index < words.length, stack.Covers (start.offset index)) :
    ∃ after, (writeAll start words).Gives stack () after := by
  induction words generalizing start stack with
  | nil => exact ⟨stack, Operation.gives_pure.mpr ⟨rfl, rfl⟩⟩
  | cons word rest inductionHypothesis =>
      have first := covers 0 (by simp)
      rw [Int.natCast_zero, Word.offset_zero] at first
      have others : ∀ index < rest.length,
          (stack.put start word).Covers ((start.offset 1).offset index) := by
        intro index inside
        rw [covers_put, Word.offset_offset]
        have next := covers (index + 1) (by simpa using inside)
        rwa [Int.natCast_add, Int.natCast_one, Int.add_comm] at next
      obtain ⟨after, written⟩ := inductionHypothesis others
      exact ⟨after, Operation.gives_bind.mpr ⟨(), stack.put start word,
        gives_write.mpr ⟨first, rfl⟩, written⟩⟩

/--
Words that were written are held, the first one at the start.  All places of the run
are covered, so that none is the first one.
-/
theorem holds_of_gives_writeAll
    {start : Address}
    {words : List Word}
    {before after : Stack}
    {value : Unit}
    (gives : (writeAll start words).Gives before value after) :
    ∀ (index : Nat) word, words[index]? = some word →
      after.Holds (start.offset index) word := by
  induction words generalizing start before with
  | nil => simp
  | cons written rest inductionHypothesis =>
      obtain ⟨covers, -⟩ := writes_writeAll _ _ _ _ _ gives
      obtain ⟨_, between, writes, restWrites⟩ := Operation.gives_bind.mp gives
      obtain ⟨startCovers, rfl⟩ := gives_write.mp writes
      intro index word found
      cases index with
      | zero =>
          obtain rfl : written = word := by simpa using found
          obtain ⟨-, keeps⟩ := writes_writeAll _ _ _ _ _ restWrites
          rw [Int.natCast_zero, Word.offset_zero]
          refine keeps.holds (holds_put_same startCovers) ?_
          rintro _ ⟨later, inside, rfl⟩ same
          have run (words : Int) (above : 0 ≤ words)
              (below : words ≤ rest.length) : before.Covers (start.offset words) := by
            have covered := covers _ ⟨words.toNat, by simp; omega, rfl⟩
            rwa [Int.toNat_of_nonneg above] at covered
          have place := toNat_offset_of_covers run (Int.le_refl _)
            (by omega : (0 : Int) ≤ rest.length) (by omega : 0 ≤ 1 + (later : Int))
            (by omega)
          rw [Word.offset_offset] at same
          omega
      | succ index =>
          have held := inductionHypothesis restWrites index word (by simpa using found)
          rwa [Word.offset_offset, Int.add_comm, ← Int.natCast_one,
            ← Int.natCast_add] at held

/-- Reading words answers with the ones that are held from the start upward. -/
theorem gives_readAll
    {stack : Stack}
    {start : Address}
    {count : Nat}
    {words : List Word} :
    (stack.readAll start count).Gives words ↔
      words.length = count ∧ ∀ (index : Nat) word, words[index]? = some word →
        stack.Holds (start.offset index) word := by
  induction count generalizing start words with
  | zero =>
      rw [readAll, Probe.gives_pure]
      constructor
      · rintro rfl
        simp
      · rintro ⟨empty, -⟩
        exact List.eq_nil_of_length_eq_zero empty
  | succ count inductionHypothesis =>
      simp only [readAll, Probe.gives_bind, Probe.gives_pure, gives_read,
        inductionHypothesis, Word.offset_offset]
      constructor
      · rintro ⟨word, held, rest, ⟨length, holds⟩, rfl⟩
        refine ⟨by simp [length], fun index other found => ?_⟩
        cases index with
        | zero =>
            obtain rfl : word = other := by simpa using found
            simpa using held
        | succ index =>
            have next := holds index other (by simpa using found)
            rwa [Int.add_comm, ← Int.natCast_one, ← Int.natCast_add] at next
      · rintro ⟨length, holds⟩
        obtain ⟨word, rest, rfl⟩ := List.exists_cons_of_length_eq_add_one length
        refine ⟨word, by simpa using holds 0 word rfl, rest,
          ⟨by simpa using length, fun index other found => ?_⟩, rfl⟩
        have next := holds (index + 1) other (by simpa using found)
        rwa [Int.natCast_add, Int.natCast_one, Int.add_comm] at next

end ManagedStack.Stack
