import ManagedStack.Word

namespace ManagedStack

/-!
# Arithmetic of word offsets

Moving an address by whole words wraps around, so the laws here speak of the natural
number that an address stands for.  Where the move is known to stay inside the range
of a word it is exact; where nothing is known it is exact up to a multiple of the
number of addresses.  The aborting operations answer exactly when they are exact.
-/

namespace Word

/-- Where a move leads, up to the number of addresses. -/
theorem toNat_offset
    (address : Word)
    (words : Int) :
    ((address.offset words).toNat : Int) =
      (address.toNat + 8 * words) % 0x10000000000000000 := by
  simp only [offset, UInt64.ofInt, UInt64.toNat_add, UInt64.toNat_ofNat']
  omega

/-- A move that stays inside the range of a word is exact. -/
theorem toNat_offset_of_fits
    {address : Word}
    {words : Int}
    {place : Nat}
    (exact : (address.toNat : Int) + 8 * words = place)
    (fits : place < 0x10000000000000000) :
    (address.offset words).toNat = place := by
  have moved := toNat_offset address words
  omega

/-- The address that lies some words away is the one that a move leads to. -/
theorem eq_offset
    {address target : Word}
    {words : Int}
    (exact : (target.toNat : Int) = address.toNat + 8 * words) :
    target = address.offset words := by
  apply UInt64.toNat_inj.mp
  have moved := toNat_offset address words
  have small := target.toNat_lt
  omega

/-- Moves add up. -/
@[simp] theorem offset_offset
    (address : Word)
    (first second : Int) :
    (address.offset first).offset second = address.offset (first + second) := by
  apply UInt64.toNat_inj.mp
  have moved := toNat_offset address first
  have movedOn := toNat_offset (address.offset first) second
  have together := toNat_offset address (first + second)
  omega

@[simp] theorem offset_zero (address : Word) : address.offset 0 = address := by
  apply UInt64.toNat_inj.mp
  have moved := toNat_offset address 0
  have small := address.toNat_lt
  omega

/-- Two moves of one address lead to one place when they differ by all addresses. -/
theorem offset_eq_offset_iff
    {address : Word}
    {first second : Int} :
    address.offset first = address.offset second ↔
      8 * first % 0x10000000000000000 = 8 * second % 0x10000000000000000 := by
  rw [← UInt64.toNat_inj]
  have one := toNat_offset address first
  have other := toNat_offset address second
  omega

/-- An address moved by less than all addresses is another one. -/
theorem offset_ne_offset
    {address : Word}
    {first second : Int}
    (different : first ≠ second)
    (near : first - second < 0x2000000000000000)
    (nearToo : second - first < 0x2000000000000000) :
    address.offset first ≠ address.offset second := by
  rw [ne_eq, offset_eq_offset_iff]
  omega

/-- The two's complement reading differs by all addresses at most. -/
theorem signed_eq (word : Word) :
    word.signed =
      if word.toNat < 0x8000000000000000 then
        (word.toNat : Int)
      else
        word.toNat - 0x10000000000000000 := by
  change word.toBitVec.toInt = _
  rw [BitVec.toInt_eq_toNat_cond]
  have reading : word.toBitVec.toNat = word.toNat := rfl
  rw [reading]
  split <;> split <;> omega

/-- Moving down by a word of words, wrapping around. -/
theorem below_eq_ok
    {address words lowered : Word}
    (moved : address.below words = .ok lowered) :
    lowered = address.offset (-words.toNat) := by
  unfold below negateSigned at moved
  split at moved
  · simp only [Except.map, Except.ok.injEq] at moved
    rw [← moved, offset_eq_offset_iff, signed_eq]
    split <;> omega
  · simp [Except.map] at moved

/-- Every word of words but the one in the middle of all words has a negative. -/
theorem below_of_ne
    {address words : Word}
    (negatable : words.toNat ≠ 0x8000000000000000) :
    address.below words = .ok (address.offset (-words.toNat)) := by
  have reading := signed_eq words
  have small := words.toNat_lt
  have fits : fitsSigned (-words.signed) = true := by
    simp only [fitsSigned, Bool.and_eq_true, decide_eq_true_eq]
    split at reading <;> omega
  have moved : address.below words = .ok (address.offset (-words.signed)) := by
    unfold below negateSigned
    rw [if_pos fits]
    rfl
  rw [moved, below_eq_ok moved]

/-- The one in the middle of all words has none. -/
theorem ne_of_below_eq_ok
    {address words lowered : Word}
    (moved : address.below words = .ok lowered) :
    words.toNat ≠ 0x8000000000000000 := by
  intro middle
  have reading := signed_eq words
  rw [middle, if_neg (by omega)] at reading
  unfold below negateSigned at moved
  rw [reading] at moved
  cases moved

/-- A word of words less than half of all words has a negative. -/
theorem below_of_small
    {address words : Word}
    (small : words.toNat < 0x8000000000000000) :
    address.below words = .ok (address.offset (-words.toNat)) :=
  below_of_ne (by omega)

theorem sub?_eq_some
    {left right difference : Word} :
    left.sub? right = some difference ↔
      right.toNat ≤ left.toNat ∧ difference = left - right := by
  unfold sub?
  rw [← UInt64.le_iff_toNat_le]
  by_cases ordered : right ≤ left <;> simp [ordered, eq_comm]

theorem minus_eq_ok
    {left right difference : Word} :
    left.minus right = .ok difference ↔
      right.toNat ≤ left.toNat ∧
        difference.toNat = left.toNat - right.toNat := by
  unfold minus sub?
  by_cases ordered : right ≤ left
  · have asNat := UInt64.le_iff_toNat_le.mp ordered
    simp only [ordered, ↓reduceIte, Except.ok.injEq, ← UInt64.toNat_inj,
      UInt64.toNat_sub_of_le _ _ ordered, asNat, true_and]
    exact eq_comm
  · have asNat : ¬right.toNat ≤ left.toNat := fun le =>
      ordered (UInt64.le_iff_toNat_le.mpr le)
    simp only [ordered, ↓reduceIte, reduceCtorEq, asNat, false_and]

theorem plus_eq_ok
    {left right sum : Word} :
    left.plus right = .ok sum ↔
      left.toNat + right.toNat < UInt64.size ∧
        sum.toNat = left.toNat + right.toNat := by
  unfold plus add?
  by_cases fits : left.toNat + right.toNat < UInt64.size
  · have added : (left + right).toNat = left.toNat + right.toNat := by
      rw [UInt64.toNat_add]
      exact Nat.mod_eq_of_lt fits
    simp only [fits, ↓reduceIte, Except.ok.injEq, ← UInt64.toNat_inj, added,
      true_and]
    exact eq_comm
  · simp only [fits, ↓reduceIte, reduceCtorEq, false_and]

/-- A sum that fits a word is not given up. -/
theorem plus_of_fits
    {left right : Word}
    (fits : left.toNat + right.toNat < UInt64.size) :
    left.plus right = .ok (left + right) := by
  refine plus_eq_ok.mpr ⟨fits, ?_⟩
  rw [UInt64.toNat_add]
  exact Nat.mod_eq_of_lt fits

end Word

/-- The number of words above a limit, as the moves that lead to it. -/
theorem subtractSigned_eq_ok
    {left right difference : Int}
    (subtracted : subtractSigned left right = .ok difference) :
    difference = left - right := by
  unfold subtractSigned at subtracted
  split at subtracted
  · exact (Except.ok.inj subtracted).symm
  · simp at subtracted

/-- One less than a signed word, turned around, unless that is too much. -/
theorem subtractSigned_one
    {words : Word}
    (negatable : words.toNat ≠ 0x8000000000000000)
    (countable : words.toNat ≠ 0x8000000000000001) :
    subtractSigned 1 words.signed = .ok (1 - words.signed) := by
  have reading := Word.signed_eq words
  have small := words.toNat_lt
  unfold subtractSigned
  rw [if_pos]
  simp only [fitsSigned, Bool.and_eq_true, decide_eq_true_eq]
  split at reading <;> omega

/-- It is too much for the two words next to the smallest signed one. -/
theorem ne_of_subtractSigned_one
    {words : Word}
    {difference : Int}
    (subtracted : subtractSigned 1 words.signed = .ok difference) :
    words.toNat ≠ 0x8000000000000001 := by
  intro second
  have reading := Word.signed_eq words
  rw [second, if_neg (by omega)] at reading
  unfold subtractSigned at subtracted
  rw [reading] at subtracted
  cases subtracted

end ManagedStack
