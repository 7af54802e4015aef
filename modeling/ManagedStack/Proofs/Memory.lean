import ManagedStack.Frame.Error
import ManagedStack.Proofs.Endings
import ManagedStack.Proofs.Offsets

namespace ManagedStack.Stack

/-!
# Words of a stack

A stack *covers* the addresses at which it has a word, and it *holds* a word at such
an address.  A write that succeeds puts one word; reading it back gives that word,
and every other word is the one from before.  What a longer run of writes leaves
alone is said by the places that it *keeps*.
-/

/-- The stack has a word at this address. -/
def Covers
    (stack : Stack)
    (address : Address) :
    Prop :=
  address.toNat % 8 = 0 ∧ stack.limit.toNat ≤ address.toNat ∧
    address.toNat < stack.base.toNat

/-- The word at this address is this one. -/
def Holds
    (stack : Stack)
    (address : Address)
    (word : Word) :
    Prop :=
  stack.read? address = .ok word

/-- The stack with another word at an address, if it has a word there. -/
def put
    (stack : Stack)
    (address : Address)
    (word : Word) :
    Stack :=
  match stack.index? address with
  | .ok index => stack.set index word
  | .error _ => stack

/-- The base of the stacks that examples are about. -/
theorem aligned_8000 : (0x8000 : Address).toNat % 8 = 0 := by decide

/-- The base leaves room for no word above it that an address could name. -/
theorem base_le (stack : Stack) : stack.base.toNat ≤ 0x10000000000000000 - 8 := by
  have aligned := stack.base_aligned
  have small := stack.base.toNat_lt
  omega

theorem limit_aligned (stack : Stack) : stack.limit.toNat % 8 = 0 := by
  have aligned := stack.base_aligned
  have fits := stack.fits
  rw [stack.toNat_limit]
  omega

/-- The position of the word at a covered address. -/
theorem index?_of_covers
    {stack : Stack}
    {address : Address}
    (covers : stack.Covers address) :
    stack.index? address =
      .ok ((address.toNat - stack.limit.toNat) / 8) := by
  obtain ⟨aligned, above, below⟩ := covers
  have isAligned : address.isAligned = true := by
    simpa [Word.isAligned, Word.bytes] using aligned
  have notBelow : ¬address < stack.limit := by
    rw [UInt64.lt_iff_toNat_lt]
    omega
  have notAbove : ¬stack.base ≤ address := by
    rw [UInt64.le_iff_toNat_le]
    omega
  simp [index?, isAligned, notBelow, notAbove]

/-- An address with a position is covered. -/
theorem covers_of_index?
    {stack : Stack}
    {address : Address}
    {index : Nat}
    (found : stack.index? address = .ok index) :
    stack.Covers address := by
  unfold index? at found
  split at found
  · simp at found
  · rename_i aligned
    split at found
    · simp at found
    · rename_i inside
      simp only [Bool.or_eq_true, decide_eq_true_eq, not_or,
        UInt64.le_iff_toNat_le, UInt64.lt_iff_toNat_lt] at inside
      simp only [Word.isAligned, Word.bytes, Bool.not_eq_true',
        beq_eq_false_iff_ne, ne_eq, Decidable.not_not] at aligned
      exact ⟨aligned, by omega, by omega⟩

/-- Two covered addresses at one position are one address. -/
theorem eq_of_index?_eq
    {stack : Stack}
    {first second : Address}
    {index : Nat}
    (firstFound : stack.index? first = .ok index)
    (secondFound : stack.index? second = .ok index) :
    first = second := by
  have firstCovers := covers_of_index? firstFound
  have secondCovers := covers_of_index? secondFound
  rw [index?_of_covers firstCovers, Except.ok.injEq] at firstFound
  rw [index?_of_covers secondCovers, Except.ok.injEq] at secondFound
  have aligned := stack.limit_aligned
  obtain ⟨firstAligned, firstAbove, -⟩ := firstCovers
  obtain ⟨secondAligned, secondAbove, -⟩ := secondCovers
  apply UInt64.toNat_inj.mp
  omega

/-- A covered address holds some word. -/
theorem exists_holds
    {stack : Stack}
    {address : Address}
    (covers : stack.Covers address) :
    ∃ word, stack.Holds address word := by
  have found := index?_of_covers covers
  have inside := index?_lt found
  refine ⟨stack.words[(address.toNat - stack.limit.toNat) / 8], ?_⟩
  simp [Holds, read?, found, inside]

theorem Holds.covers
    {stack : Stack}
    {address : Address}
    {word : Word}
    (holds : stack.Holds address word) :
    stack.Covers address := by
  unfold Holds read? at holds
  split at holds
  · simp at holds
  · rename_i found
    exact covers_of_index? found

theorem Holds.unique
    {stack : Stack}
    {address : Address}
    {first second : Word}
    (one : stack.Holds address first)
    (other : stack.Holds address second) :
    first = second := by
  have same : (Except.ok first : Except AccessError Word) = .ok second :=
    one.symm.trans other
  exact Except.ok.inj same

/-- Reading answers with the word that is held. -/
@[simp] theorem gives_read
    {stack : Stack}
    {address : Address}
    {word : Word} :
    (stack.read address).Gives word ↔ stack.Holds address word := by
  unfold read Holds
  cases stack.read? address <;> simp [Probe.Gives, Probe.answer]

/-- Reading where a word is held answers with it and notes nothing. -/
theorem read_of_holds
    {stack : Stack}
    {address : Address}
    {word : Word}
    (holds : stack.Holds address word) :
    stack.read address = pure word := by
  unfold read
  rw [holds]
  rfl

/-- A write that succeeds puts the word at a covered address. -/
@[simp] theorem gives_write
    {address : Address}
    {word : Word}
    {before after : Stack}
    {value : Unit} :
    (write address word).Gives before value after ↔
      before.Covers address ∧ after = before.put address word := by
  unfold write put Operation.Gives
  constructor
  · intro ended
    rcases found : before.index? address with cause | index
    · simp [found, Probe.Gives] at ended
    · simp only [found] at ended ⊢
      exact ⟨covers_of_index? found, ended.2.symm⟩
  · rintro ⟨covers, rfl⟩
    simp [index?_of_covers covers]

/-! What a write changes and what it leaves alone. -/

@[simp] theorem base_put
    (stack : Stack)
    (address : Address)
    (word : Word) :
    (stack.put address word).base = stack.base := by
  unfold put
  split <;> rfl

@[simp] theorem size_put
    (stack : Stack)
    (address : Address)
    (word : Word) :
    (stack.put address word).words.size = stack.words.size := by
  unfold put
  split <;> simp [set]

/-- Reading at another address sees the word from before. -/
theorem read?_put_of_ne
    {stack : Stack}
    {written other : Address}
    {word : Word}
    (different : other ≠ written) :
    (stack.put written word).read? other = stack.read? other := by
  unfold put
  rcases found : stack.index? written with cause | index
  · rfl
  · have sameLimit : (stack.set index word).limit = stack.limit := by
      simp [limit, set]
    have sameIndex :
        (stack.set index word).index? other = stack.index? other := by
      simp only [index?, sameLimit]
      rfl
    simp only [read?, sameIndex]
    rcases otherFound : stack.index? other with cause | otherIndex
    · rfl
    · have apart : index ≠ otherIndex := by
        intro same
        subst same
        exact different (eq_of_index?_eq otherFound found)
      simp [set, Array.getElem?_setIfInBounds_ne apart]

/-- Places whose words a run of writes keeps. -/
structure Keeps
    (kept : Nat → Prop)
    (before after : Stack) :
    Prop where
  base : after.base = before.base
  size : after.words.size = before.words.size
  word : ∀ address : Address,
    kept address.toNat → after.read? address = before.read? address

namespace Keeps

variable {kept : Nat → Prop} {before between after : Stack}

theorem refl (stack : Stack) : Keeps kept stack stack :=
  ⟨rfl, rfl, fun _ _ => rfl⟩

theorem trans
    (first : Keeps kept before between)
    (second : Keeps kept between after) :
    Keeps kept before after where
  base := second.base.trans first.base
  size := second.size.trans first.size
  word := fun address inside =>
    (second.word address inside).trans (first.word address inside)

theorem symm (keeps : Keeps kept before after) : Keeps kept after before where
  base := keeps.base.symm
  size := keeps.size.symm
  word := fun address inside => (keeps.word address inside).symm

/-- Fewer places are kept all the more. -/
theorem mono
    {fewer : Nat → Prop}
    (keeps : Keeps kept before after)
    (included : ∀ place, fewer place → kept place) :
    Keeps fewer before after where
  base := keeps.base
  size := keeps.size
  word := fun address inside =>
    keeps.word address (included _ inside)

/-- A write keeps every place but its own. -/
theorem put
    {address : Address}
    (stack : Stack)
    (word : Word)
    (outside : ¬kept address.toNat) :
    Keeps kept stack (stack.put address word) where
  base := base_put ..
  size := size_put ..
  word := by
    intro other inside
    refine read?_put_of_ne ?_
    rintro rfl
    exact outside inside

theorem limit (keeps : Keeps kept before after) :
    after.limit = before.limit := by
  simp [Stack.limit, keeps.base, keeps.size]

/-- The same addresses are covered before and after. -/
theorem covers_iff
    (keeps : Keeps kept before after)
    {address : Address} :
    after.Covers address ↔ before.Covers address := by
  simp [Covers, keeps.base, keeps.limit]

theorem holds
    {address : Address}
    {word : Word}
    (keeps : Keeps kept before after)
    (holds : before.Holds address word)
    (inside : kept address.toNat) :
    after.Holds address word :=
  (keeps.word address inside).trans holds

end Keeps

@[simp] theorem covers_put
    {stack : Stack}
    {written other : Address}
    {word : Word} :
    (stack.put written word).Covers other ↔ stack.Covers other := by
  have keeps : Keeps (fun _ => False) stack (stack.put written word) :=
    .put stack word id
  exact keeps.covers_iff

@[simp] theorem limit_put
    {stack : Stack}
    {address : Address}
    {word : Word} :
    (stack.put address word).limit = stack.limit := by
  simp [limit]

/-- The word that was put is the word that is held. -/
theorem holds_put_same
    {stack : Stack}
    {address : Address}
    {word : Word}
    (covers : stack.Covers address) :
    (stack.put address word).Holds address word := by
  have found := index?_of_covers covers
  have inside := index?_lt found
  have coversAfter : (stack.put address word).Covers address :=
    covers_put.mpr covers
  have foundAfter := index?_of_covers coversAfter
  rw [limit_put] at foundAfter
  unfold Holds read?
  rw [foundAfter]
  simp [put, found, set, inside]

/-- Other addresses hold what they held. -/
theorem holds_put_of_ne
    {stack : Stack}
    {written other : Address}
    {word held : Word}
    (different : other ≠ written) :
    (stack.put written word).Holds other held ↔ stack.Holds other held := by
  unfold Holds
  rw [read?_put_of_ne different]

/-! Words that are both covered lie less than half of all addresses apart. -/

/-- The move from one covered address to another is exact. -/
theorem Covers.toNat_offset
    {stack : Stack}
    {address : Address}
    {words : Int}
    (covers : stack.Covers address)
    (other : stack.Covers (address.offset words))
    (below : -0x1000000000000000 ≤ words)
    (above : words ≤ 0x1000000000000000) :
    ((address.offset words).toNat : Int) = address.toNat + 8 * words := by
  have moved := Word.toNat_offset address words
  have room := stack.base_le
  have extent := stack.toNat_limit
  have allocated := stack.allocated
  obtain ⟨-, addressAbove, addressBelow⟩ := covers
  obtain ⟨-, otherAbove, otherBelow⟩ := other
  omega

end ManagedStack.Stack
