import Mathlib.Data.List.TakeWhile
import ManagedStack.Code.Cache

namespace ManagedStack

/-!
# Code caches that insertions build

Insertion keeps the blobs of a cache ascending and apart, and it lets in only blobs
that are well formed on their own.  A lookup therefore finds the one blob that
contains an address, and it finds the same blob for every address that the blob
names.
-/

/-- A blob that passes its check covers what it names, without ambiguity. -/
structure Blob.WellFormed (blob : Blob) : Prop where
  ordered : blob.start < blob.stop
  named : ∀ pc ∈ blob.namedPcs, blob.contains pc = true
  unambiguous : blob.compiled?.bind CompiledUnit.ambiguousPc? = none

/-- The check of a blob tells that it is well formed. -/
theorem Blob.wellFormed_of_check
    {blob : Blob}
    (checked : blob.check = .ok ()) :
    blob.WellFormed := by
  unfold Blob.check at checked
  by_cases empty : blob.stop ≤ blob.start
  · rw [if_pos empty] at checked
    cases checked
  rw [if_neg empty] at checked
  rcases outside : blob.namedPcs.find? (!blob.contains ·) with _ | pc
  · rcases ambiguous : blob.compiled?.bind CompiledUnit.ambiguousPc? with _ | pc
    · refine ⟨UInt64.not_le.mp empty, fun pc named => ?_, ambiguous⟩
      simpa using List.find?_eq_none.mp outside pc named
    · rw [outside, ambiguous] at checked
      cases checked
  · rw [outside] at checked
    cases checked

namespace CodeCache

/-- The blobs are well formed, ascending and apart. -/
structure Ordered (cache : CodeCache) : Prop where
  wellFormed : ∀ blob ∈ cache.blobs, blob.WellFormed
  apart : cache.blobs.Pairwise fun lower upper => lower.stop ≤ upper.start

/-- The caches that successful insertions build. -/
inductive Built : CodeCache → Prop where
  | empty : Built {}
  | insert
      {cache after : CodeCache}
      {blob : Blob}
      (built : Built cache)
      (inserted : cache.insert blob = .ok after) :
      Built after

/-- A condition that holds of a first part takes what it holds of. -/
theorem mem_takeWhile_iff
    {blobs : List Blob}
    {below : Blob → Bool}
    {blob : Blob}
    (closed : blobs.Pairwise fun lower upper =>
      below upper = true → below lower = true) :
    blob ∈ blobs.takeWhile below ↔ blob ∈ blobs ∧ below blob = true := by
  induction blobs with
  | nil => simp
  | cons first rest inductionHypothesis =>
      obtain ⟨fromFirst, amongRest⟩ := List.pairwise_cons.mp closed
      by_cases holds : below first = true
      · simp only [List.takeWhile_cons, holds, if_true, List.mem_cons,
          inductionHypothesis amongRest]
        constructor
        · rintro (rfl | ⟨inRest, isBelow⟩)
          · exact ⟨.inl rfl, holds⟩
          · exact ⟨.inr inRest, isBelow⟩
        · rintro ⟨rfl | inRest, isBelow⟩
          · exact .inl rfl
          · exact .inr ⟨inRest, isBelow⟩
      · simp only [List.takeWhile_cons, holds, Bool.false_eq_true, if_false,
          List.not_mem_nil, false_iff, List.mem_cons, not_and]
        rintro (rfl | inRest) isBelow
        · exact holds isBelow
        · exact holds (fromFirst blob inRest isBelow)

/--
It drops as much and leaves what it does not hold of.  The first element that stays
keeps all that follow it.
-/
theorem mem_dropWhile_iff
    {blobs : List Blob}
    {below : Blob → Bool}
    {blob : Blob}
    (closed : blobs.Pairwise fun lower upper =>
      below upper = true → below lower = true) :
    blob ∈ blobs.dropWhile below ↔ blob ∈ blobs ∧ below blob = false := by
  induction blobs with
  | nil => simp
  | cons first rest inductionHypothesis =>
      obtain ⟨fromFirst, amongRest⟩ := List.pairwise_cons.mp closed
      by_cases holds : below first = true
      · simp only [List.dropWhile_cons, holds, if_true, List.mem_cons,
          inductionHypothesis amongRest]
        constructor
        · exact fun ⟨inRest, isAbove⟩ => ⟨.inr inRest, isAbove⟩
        · rintro ⟨rfl | inRest, isAbove⟩
          · rw [holds] at isAbove
            cases isAbove
          · exact ⟨inRest, isAbove⟩
      · have isAbove : below first = false := by simpa using holds
        simp only [List.dropWhile_cons, isAbove, Bool.false_eq_true, if_false]
        refine ⟨fun inside => ⟨inside, ?_⟩, And.left⟩
        rcases List.mem_cons.mp inside with rfl | inRest
        · exact isAbove
        · rw [Bool.eq_false_iff]
          exact fun isBelow => holds (fromFirst blob inRest isBelow)

namespace Ordered

variable {cache after : CodeCache} {blob lower upper : Blob} {pc address : Address}

/-- Ascending blobs start in ascending order. -/
theorem starts (ordered : cache.Ordered) :
    cache.blobs.Pairwise fun lower upper => lower.start < upper.start := by
  refine ordered.apart.imp_of_mem fun {lower upper} inLower inUpper isApart => ?_
  exact UInt64.lt_of_lt_of_le (ordered.wellFormed lower inLower).ordered isApart

theorem mem_startingBelow_iff (ordered : cache.Ordered) :
    blob ∈ cache.startingBelow address ↔
      blob ∈ cache.blobs ∧ blob.start < address := by
  unfold startingBelow
  rw [mem_takeWhile_iff, decide_eq_true_eq]
  refine ordered.starts.imp fun {lower upper} starts isBelow => ?_
  rw [decide_eq_true_eq] at isBelow ⊢
  exact UInt64.lt_trans starts isBelow

theorem mem_startingAtOrBelow_iff (ordered : cache.Ordered) :
    blob ∈ cache.startingAtOrBelow address ↔
      blob ∈ cache.blobs ∧ blob.start ≤ address := by
  unfold startingAtOrBelow
  rw [mem_takeWhile_iff, decide_eq_true_eq]
  refine ordered.starts.imp fun {lower upper} starts isBelow => ?_
  rw [decide_eq_true_eq] at isBelow ⊢
  exact UInt64.le_trans (UInt64.le_of_lt starts) isBelow

theorem mem_startingAbove_iff (ordered : cache.Ordered) :
    blob ∈ cache.blobs.dropWhile (·.start < address) ↔
      blob ∈ cache.blobs ∧ address ≤ blob.start := by
  rw [mem_dropWhile_iff, decide_eq_false_iff_not, UInt64.not_lt]
  refine ordered.starts.imp fun {lower upper} starts isBelow => ?_
  rw [decide_eq_true_eq] at isBelow ⊢
  exact UInt64.lt_trans starts isBelow

/--
The blob that contains an address is the one that a lookup finds.  A later blob would
start at or below the address, and so end this one before it.
-/
theorem find?_of_contains
    (ordered : cache.Ordered)
    (inside : blob ∈ cache.blobs)
    (contains : blob.contains pc = true) :
    cache.find? pc = some blob := by
  obtain ⟨startLe, ltStop⟩ : blob.start ≤ pc ∧ pc < blob.stop := by
    simpa [Blob.contains] using contains
  have listed : blob ∈ cache.startingAtOrBelow pc :=
    ordered.mem_startingAtOrBelow_iff.mpr ⟨inside, startLe⟩
  have nonempty := List.ne_nil_of_mem listed
  have isLast : (cache.startingAtOrBelow pc).getLast nonempty = blob := by
    have sorted : (cache.startingAtOrBelow pc).Pairwise
        fun lower upper => lower.stop ≤ upper.start :=
      ordered.apart.sublist (List.takeWhile_sublist _)
    rw [← List.dropLast_concat_getLast nonempty] at sorted listed
    rcases List.mem_append.mp listed with earlier | isLast
    · have above := (List.pairwise_append.mp sorted).2.2 blob earlier _
        (List.mem_singleton_self _)
      have lastBelow := (ordered.mem_startingAtOrBelow_iff.mp
        (List.getLast_mem nonempty)).2
      exact (UInt64.lt_irrefl _
        (UInt64.lt_of_lt_of_le ltStop (UInt64.le_trans above lastBelow))).elim
    · exact (List.mem_singleton.mp isLast).symm
  unfold find?
  rw [List.getLast?_eq_some_getLast nonempty, isLast]
  simp [Option.filter, contains]

end Ordered

/-- A lookup finds a registered blob that contains the address. -/
theorem mem_of_find?
    {cache : CodeCache}
    {blob : Blob}
    {pc : Address}
    (found : cache.find? pc = some blob) :
    blob ∈ cache.blobs ∧ blob.contains pc = true := by
  obtain ⟨isLast, contains⟩ := Option.filter_eq_some_iff.mp found
  exact ⟨(List.takeWhile_sublist _).mem (List.mem_of_getLast? isLast), contains⟩

/-- The blob of an address is the blob of every other address that it contains. -/
theorem Ordered.find?_eq
    {cache : CodeCache}
    {blob : Blob}
    {pc other : Address}
    (ordered : cache.Ordered)
    (found : cache.find? pc = some blob)
    (contains : blob.contains other = true) :
    cache.find? other = some blob :=
  ordered.find?_of_contains (mem_of_find? found).1 contains

/--
Without an overlap, every blob ends below a new one or starts above it.  Only the last
blob that starts early enough is tried; all before it end where it starts.
-/
theorem Ordered.apart_of_overlapping?
    {cache : CodeCache}
    {blob other : Blob}
    (ordered : cache.Ordered)
    (free : cache.overlapping? blob = none)
    (inside : other ∈ cache.blobs) :
    other.stop ≤ blob.start ∨ blob.stop ≤ other.start := by
  by_cases above : blob.stop ≤ other.start
  · exact .inr above
  · have listed : other ∈ cache.startingBelow blob.stop :=
      ordered.mem_startingBelow_iff.mpr ⟨inside, UInt64.not_le.mp above⟩
    have nonempty := List.ne_nil_of_mem listed
    have sorted : (cache.startingBelow blob.stop).Pairwise
        fun lower upper => lower.stop ≤ upper.start :=
      ordered.apart.sublist (List.takeWhile_sublist _)
    unfold overlapping? at free
    rw [List.getLast?_eq_some_getLast nonempty] at free
    have lastApart : ((cache.startingBelow blob.stop).getLast nonempty).stop ≤
        blob.start := by
      simpa [Option.filter] using free
    rw [← List.dropLast_concat_getLast nonempty] at sorted listed
    rcases List.mem_append.mp listed with earlier | isLast
    · have below := (List.pairwise_append.mp sorted).2.2 other earlier _
        (List.mem_singleton_self _)
      have lastInside := (ordered.mem_startingBelow_iff.mp
        (List.getLast_mem nonempty)).1
      exact .inl (UInt64.le_trans below (UInt64.le_trans
        (UInt64.le_of_lt (ordered.wellFormed _ lastInside).ordered) lastApart))
    · exact .inl (List.mem_singleton.mp isLast ▸ lastApart)

/-- Insertion keeps the blobs well formed, ascending and apart. -/
theorem Ordered.insert
    {cache after : CodeCache}
    {blob : Blob}
    (ordered : cache.Ordered)
    (inserted : cache.insert blob = .ok after) :
    after.Ordered := by
  unfold CodeCache.insert at inserted
  rcases checked : blob.check with refusal | _
  · simp [checked, bind, Except.bind] at inserted
  rcases free : cache.overlapping? blob with _ | other
  · simp only [checked, free, bind, Except.bind, pure, Except.pure,
      Except.ok.injEq] at inserted
    have wellFormed := Blob.wellFormed_of_check checked
    subst inserted
    constructor
    · intro other inside
      simp only [List.mem_append, List.mem_cons, ordered.mem_startingBelow_iff,
        ordered.mem_startingAbove_iff] at inside
      rcases inside with ⟨inside, -⟩ | rfl | ⟨inside, -⟩
      · exact ordered.wellFormed other inside
      · exact wellFormed
      · exact ordered.wellFormed other inside
    · have belowBlob : ∀ lower ∈ cache.startingBelow blob.start,
          lower.stop ≤ blob.start := by
        intro lower listed
        obtain ⟨inside, starts⟩ := ordered.mem_startingBelow_iff.mp listed
        rcases ordered.apart_of_overlapping? free inside with below | above
        · exact below
        · exact (UInt64.lt_irrefl _ (UInt64.lt_trans starts
            (UInt64.lt_of_lt_of_le wellFormed.ordered above))).elim
      have aboveBlob : ∀ upper ∈ cache.blobs.dropWhile (·.start < blob.start),
          blob.stop ≤ upper.start := by
        intro upper listed
        obtain ⟨inside, starts⟩ := ordered.mem_startingAbove_iff.mp listed
        rcases ordered.apart_of_overlapping? free inside with below | above
        · exact (UInt64.lt_irrefl _ (UInt64.lt_of_lt_of_le
            (ordered.wellFormed upper inside).ordered
            (UInt64.le_trans below starts))).elim
        · exact above
      refine List.pairwise_append.mpr
        ⟨ordered.apart.sublist (List.takeWhile_sublist _),
          List.pairwise_cons.mpr
            ⟨aboveBlob, ordered.apart.sublist (List.dropWhile_sublist _)⟩, ?_⟩
      intro lower listed upper inUpper
      rcases List.mem_cons.mp inUpper with rfl | inUpper
      · exact belowBlob lower listed
      · exact UInt64.le_trans (belowBlob lower listed) (UInt64.le_trans
          (UInt64.le_of_lt wellFormed.ordered) (aboveBlob upper inUpper))
  · simp [checked, free, bind, Except.bind, throw, throwThe,
      MonadExceptOf.throw] at inserted

/-- What insertions build is well formed, ascending and apart. -/
theorem Built.ordered
    {cache : CodeCache}
    (built : cache.Built) :
    cache.Ordered := by
  induction built with
  | empty => exact ⟨nofun, .nil⟩
  | insert _ inserted inductionHypothesis =>
      exact inductionHypothesis.insert inserted

/-- A cache built by a list of insertions. -/
theorem built_of_foldlM
    {blobs : List Blob}
    {cache after : CodeCache}
    (built : cache.Built)
    (inserted : blobs.foldlM CodeCache.insert cache = .ok after) :
    after.Built := by
  induction blobs generalizing cache with
  | nil =>
      obtain rfl : cache = after := Except.ok.inj inserted
      exact built
  | cons blob rest inductionHypothesis =>
      rw [List.foldlM_cons] at inserted
      rcases first : cache.insert blob with refusal | between
      · simp [first, bind, Except.bind] at inserted
      · rw [first] at inserted
        exact inductionHypothesis (.insert built first) inserted

end CodeCache

end ManagedStack
