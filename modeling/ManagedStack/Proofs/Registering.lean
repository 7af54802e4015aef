import ManagedStack.Proofs.CodeSpace

namespace ManagedStack

/-!
# What a code cache accepts and finds

However often and in whatever order blobs are offered to a code cache, those that it
accepts cover disjoint ranges, so that looking up addresses is a partial function.  A
blob is refused for one of two reasons: it is not sound in itself, or it meets a blob
that was accepted before.
-/

/-- The addresses that a blob names. -/
inductive Blob.Names (blob : Blob) : Address → Prop where
  | stubReturn
      {pc : Address}
      (kind : blob.kind = .callStub pc) :
      Names blob pc
  | bounce
      {pc : Address}
      (kind : blob.kind = .ricochet pc) :
      Names blob pc
  | deoptHandler
      {compiledUnit : CompiledUnit}
      (kind : blob.kind = .compiled compiledUnit) :
      Names blob compiledUnit.deoptHandler
  | methodHandleDeoptHandler
      {compiledUnit : CompiledUnit}
      (kind : blob.kind = .compiled compiledUnit) :
      Names blob compiledUnit.methodHandleDeoptHandler
  | pollReturn
      {compiledUnit : CompiledUnit}
      {pc : Address}
      (kind : blob.kind = .compiled compiledUnit)
      (listed : pc ∈ compiledUnit.pollReturns) :
      Names blob pc
  | methodHandleReturn
      {compiledUnit : CompiledUnit}
      {pc : Address}
      (kind : blob.kind = .compiled compiledUnit)
      (listed : pc ∈ compiledUnit.methodHandleReturns) :
      Names blob pc

/-- The three kinds of return addresses of a unit have no address in common. -/
structure CompiledUnit.TellsReturnsApart (compiledUnit : CompiledUnit) : Prop where
  handlers :
    compiledUnit.deoptHandler ≠ compiledUnit.methodHandleDeoptHandler
  returns : ∀ pc ∈ compiledUnit.methodHandleReturns,
    pc ≠ compiledUnit.deoptHandler ∧ pc ≠ compiledUnit.methodHandleDeoptHandler

/-- A blob covers something, and what it names, and is in no doubt about returns. -/
structure Blob.Sound (blob : Blob) : Prop where
  nonempty : blob.start < blob.stop
  covers : ∀ pc, blob.Names pc → blob.contains pc = true
  returns : ∀ compiledUnit, blob.kind = .compiled compiledUnit →
    compiledUnit.TellsReturnsApart

/-- Two blobs meet when they have an address in common. -/
def Blob.Meets (blob other : Blob) : Prop :=
  ∃ pc, blob.contains pc = true ∧ other.contains pc = true

namespace Blob

variable {blob other : Blob}

/-- The names are listed. -/
theorem names_iff_mem_namedPcs {pc : Address} :
    blob.Names pc ↔ pc ∈ blob.namedPcs := by
  constructor
  · intro names
    cases names <;> simp_all [namedPcs, CompiledUnit.namedPcs]
  · intro listed
    unfold namedPcs at listed
    split at listed
    case h_1 kind => exact List.mem_singleton.mp listed ▸ .stubReturn kind
    case h_2 kind => exact List.mem_singleton.mp listed ▸ .bounce kind
    case h_3 kind =>
        simp only [CompiledUnit.namedPcs, List.cons_append, List.nil_append,
          List.mem_cons, List.mem_append] at listed
        rcases listed with rfl | rfl | polled | returned
        · exact .deoptHandler kind
        · exact .methodHandleDeoptHandler kind
        · exact .pollReturn kind polled
        · exact .methodHandleReturn kind returned
    case h_4 => cases listed

/--
Blobs meet unless one ends before the other starts.  The higher one of the two starts
would be a common address.
-/
theorem not_meets_iff
    (nonempty : blob.start < blob.stop)
    (otherNonempty : other.start < other.stop) :
    ¬blob.Meets other ↔
      other.stop ≤ blob.start ∨ blob.stop ≤ other.start := by
  simp only [Meets, contains, Bool.and_eq_true, decide_eq_true_eq, not_exists]
  constructor
  · intro apart
    by_contra overlap
    rw [not_or, UInt64.not_le, UInt64.not_le] at overlap
    obtain ⟨startsBelow, stopsAbove⟩ := overlap
    rcases UInt64.le_total blob.start other.start with le | le
    · exact apart other.start
        ⟨⟨le, stopsAbove⟩, UInt64.le_refl _, otherNonempty⟩
    · exact apart blob.start
        ⟨⟨UInt64.le_refl _, nonempty⟩, le, startsBelow⟩
  · rintro (below | above) pc ⟨⟨startLe, ltStop⟩, otherStartLe, ltOtherStop⟩
    · exact UInt64.lt_irrefl _
        (UInt64.lt_of_lt_of_le ltOtherStop (UInt64.le_trans below startLe))
    · exact UInt64.lt_irrefl _
        (UInt64.lt_of_lt_of_le ltStop (UInt64.le_trans above otherStartLe))

end Blob

namespace CompiledUnit

variable {compiledUnit : CompiledUnit}

/-- An address is ambiguous when it is of two of the three kinds. -/
theorem isAmbiguous_iff {pc : Address} :
    compiledUnit.isAmbiguous pc = true ↔
      pc = compiledUnit.deoptHandler ∧ pc = compiledUnit.methodHandleDeoptHandler ∨
        pc ∈ compiledUnit.methodHandleReturns ∧
          (pc = compiledUnit.deoptHandler ∨
            pc = compiledUnit.methodHandleDeoptHandler) := by
  unfold isAmbiguous isMethodHandleReturn
  rw [← List.contains_iff_mem, ← beq_iff_eq (b := compiledUnit.deoptHandler),
    ← beq_iff_eq (b := compiledUnit.methodHandleDeoptHandler)]
  cases pc == compiledUnit.deoptHandler <;>
    cases pc == compiledUnit.methodHandleDeoptHandler <;>
      cases compiledUnit.methodHandleReturns.contains pc <;>
        decide

/-- The search among the named addresses finds every ambiguous one. -/
theorem ambiguousPc?_eq_none_iff :
    compiledUnit.ambiguousPc? = none ↔ compiledUnit.TellsReturnsApart := by
  simp only [ambiguousPc?, List.find?_eq_none, isAmbiguous_iff]
  constructor
  · intro unambiguous
    refine ⟨fun same => ?_, fun pc listed => ?_⟩
    · exact unambiguous _ (by simp [namedPcs]) (.inl ⟨rfl, same⟩)
    · have clear := unambiguous pc (by simp [namedPcs, listed])
      exact not_or.mp fun handler => clear (.inr ⟨listed, handler⟩)
  · rintro apart pc - (⟨rfl, same⟩ | ⟨listed, handler⟩)
    · exact apart.handlers same
    · exact handler.elim (apart.returns pc listed).1 (apart.returns pc listed).2

end CompiledUnit

namespace Blob

variable {blob : Blob}

theorem wellFormed_iff_sound : blob.WellFormed ↔ blob.Sound := by
  have unambiguous_iff : blob.compiled?.bind CompiledUnit.ambiguousPc? = none ↔
      ∀ compiledUnit, blob.kind = .compiled compiledUnit →
        compiledUnit.TellsReturnsApart := by
    unfold compiled?
    cases blob.kind <;> simp [CompiledUnit.ambiguousPc?_eq_none_iff]
  constructor
  · rintro ⟨ordered, named, unambiguous⟩
    exact ⟨ordered, fun pc names => named pc (names_iff_mem_namedPcs.mp names),
      unambiguous_iff.mp unambiguous⟩
  · rintro ⟨nonempty, covers, returns⟩
    exact ⟨nonempty, fun pc listed => covers pc (names_iff_mem_namedPcs.mpr listed),
      unambiguous_iff.mpr returns⟩

/-- The check of a blob passes exactly the sound ones. -/
theorem check_eq_ok_iff : blob.check = .ok () ↔ blob.Sound := by
  rw [← wellFormed_iff_sound]
  refine ⟨wellFormed_of_check, fun wellFormed => ?_⟩
  have allInside : blob.namedPcs.find? (!blob.contains ·) = none := by
    simpa using wellFormed.named
  unfold check
  rw [if_neg (UInt64.not_le.mpr wellFormed.ordered), allInside, wellFormed.unambiguous]
  rfl

end Blob

namespace CodeCache

variable {cache after : CodeCache} {blob other : Blob}

/-- An insertion succeeds after a check of the blob and a look for an overlap. -/
theorem insert_eq_ok_iff :
    cache.insert blob = .ok after ↔
      blob.check = .ok () ∧ cache.overlapping? blob = none ∧
        ⟨cache.startingBelow blob.start ++
          blob :: cache.blobs.dropWhile (·.start < blob.start)⟩ = after := by
  unfold insert
  rcases blob.check with refusal | _
  · simp [bind, Except.bind]
  · rcases cache.overlapping? blob with _ | other
    · simp [bind, Except.bind, pure, Except.pure]
    · simp [bind, Except.bind, throw, throwThe, MonadExceptOf.throw]

/-- One neighbour tells whether a sound blob meets any blob of an ordered cache. -/
theorem Ordered.overlapping?_eq_none_iff
    (ordered : cache.Ordered)
    (sound : blob.Sound) :
    cache.overlapping? blob = none ↔ ∀ other ∈ cache.blobs, ¬blob.Meets other := by
  constructor
  · intro free other inside
    exact (Blob.not_meets_iff sound.nonempty (ordered.wellFormed other inside).ordered).mpr
      (ordered.apart_of_overlapping? free inside)
  · intro apart
    refine Option.filter_eq_none_iff.mpr fun last isLast overlaps => ?_
    have listed := List.mem_of_getLast? isLast
    obtain ⟨inside, startsBelow⟩ := ordered.mem_startingBelow_iff.mp listed
    rcases (Blob.not_meets_iff sound.nonempty
        (ordered.wellFormed last inside).ordered).mp (apart last inside) with below | above
    · exact UInt64.not_lt.mpr below (of_decide_eq_true overlaps)
    · exact UInt64.not_lt.mpr above startsBelow

/-- An insertion adds the blob and nothing else. -/
theorem perm_of_insert
    (inserted : cache.insert blob = .ok after) :
    after.blobs.Perm (blob :: cache.blobs) := by
  obtain ⟨-, -, rfl⟩ := insert_eq_ok_iff.mp inserted
  have whole : cache.startingBelow blob.start ++
      cache.blobs.dropWhile (·.start < blob.start) = cache.blobs :=
    List.takeWhile_append_dropWhile
  exact List.perm_middle.trans (.of_eq (congrArg (blob :: ·) whole))

/-- The cache after a blob was offered to it, whether or not it was accepted. -/
def offer
    (cache : CodeCache)
    (blob : Blob) :
    CodeCache :=
  match cache.insert blob with
  | .ok after => after
  | .error _ => cache

/-- The cache after blobs were offered to it one after the other. -/
def offerAll
    (cache : CodeCache)
    (offers : List Blob) :
    CodeCache :=
  offers.foldl offer cache

/-- Those of the offered blobs that were accepted, in order. -/
def accepted : CodeCache → List Blob → List Blob
  | _, [] => []
  | cache, blob :: rest =>
      match cache.insert blob with
      | .ok after => blob :: accepted after rest
      | .error _ => accepted cache rest

/-- An offer keeps a cache ordered. -/
theorem Ordered.offer
    (ordered : cache.Ordered)
    (blob : Blob) :
    (cache.offer blob).Ordered := by
  unfold CodeCache.offer
  split
  · rename_i inserted
    exact ordered.insert inserted
  · exact ordered

/-- Offers keep a cache ordered. -/
theorem Ordered.offerAll
    (ordered : cache.Ordered)
    (offers : List Blob) :
    (cache.offerAll offers).Ordered := by
  induction offers generalizing cache with
  | nil => exact ordered
  | cons blob rest inductionHypothesis => exact inductionHypothesis (ordered.offer blob)

/-- After offers, a cache holds what it held before and what it accepted. -/
theorem perm_offerAll
    (cache : CodeCache)
    (offers : List Blob) :
    (cache.offerAll offers).blobs.Perm (cache.accepted offers ++ cache.blobs) := by
  induction offers generalizing cache with
  | nil => exact .refl _
  | cons blob rest inductionHypothesis =>
      refine (inductionHypothesis (cache.offer blob)).trans ?_
      rcases offered : cache.insert blob with refusal | after
      · simp only [accepted, offer, offered]
        exact .refl _
      · simp only [accepted, offer, offered]
        exact ((perm_of_insert offered).append_left _).trans List.perm_middle

/--
A cache to which these blobs were offered one after the other maps addresses to the
accepted ones among them, and has a say in which further ones are accepted.
-/
structure MapsAddresses (offers : List Blob) : Prop where
  nonempty : ∀ blob ∈ accepted {} offers, blob.start < blob.stop
  disjoint : (accepted {} offers).Pairwise fun blob other => ¬blob.Meets other
  accepts : ∀ blob, (∃ after, (offerAll {} offers).insert blob = .ok after) ↔
    blob.Sound ∧ ∀ other ∈ accepted {} offers, ¬blob.Meets other
  refuses : ∀ blob cause, (offerAll {} offers).insert blob = .error cause →
    offerAll {} (offers ++ [blob]) = offerAll {} offers
  finds : ∀ pc blob, (offerAll {} offers).find? pc = some blob ↔
    blob ∈ accepted {} offers ∧ blob.contains pc = true
  unambiguous : ∀ pc blob compiledUnit,
    (offerAll {} offers).find? pc = some blob → blob.kind = .compiled compiledUnit →
      ∀ address, compiledUnit.isAmbiguous address = false

/--
Whatever is offered, looking up addresses is a partial function.  The cache holds what
was accepted, in another order, and looks up by address.
-/
theorem mapsAddresses (offers : List Blob) : MapsAddresses offers := by
  have ordered : (offerAll {} offers).Ordered := (Built.ordered .empty).offerAll offers
  have held : (offerAll {} offers).blobs.Perm (accepted {} offers) := by
    simpa using perm_offerAll {} offers
  have sound {blob : Blob} (inside : blob ∈ accepted {} offers) : blob.Sound :=
    Blob.wellFormed_iff_sound.mp (ordered.wellFormed blob (held.mem_iff.mpr inside))
  have finds (pc : Address) (blob : Blob) :
      (offerAll {} offers).find? pc = some blob ↔
        blob ∈ accepted {} offers ∧ blob.contains pc = true := by
    rw [← held.mem_iff]
    exact ⟨mem_of_find?, fun ⟨inside, contains⟩ => ordered.find?_of_contains inside contains⟩
  refine ⟨fun blob inside => (sound inside).nonempty, ?disjoint, fun blob => ?accepts,
    fun blob cause refused => ?refuses, finds, ?unambiguous⟩
  case disjoint =>
    have symmetric (blob other : Blob) (apart : ¬blob.Meets other) : ¬other.Meets blob :=
      fun ⟨pc, inOther, inBlob⟩ => apart ⟨pc, inBlob, inOther⟩
    refine (held.pairwise_iff fun {blob other} => symmetric blob other).mp ?_
    refine ordered.apart.imp_of_mem fun {lower upper} inLower inUpper apart => ?_
    exact (Blob.not_meets_iff (ordered.wellFormed lower inLower).ordered
      (ordered.wellFormed upper inUpper).ordered).mpr (.inr apart)
  case accepts =>
    have free_iff (isSound : blob.Sound) :
        (offerAll {} offers).overlapping? blob = none ↔
          ∀ other ∈ accepted {} offers, ¬blob.Meets other := by
      simp only [ordered.overlapping?_eq_none_iff isSound, held.mem_iff]
    simp only [insert_eq_ok_iff, Blob.check_eq_ok_iff, exists_and_left, exists_eq', and_true]
    exact and_congr_right free_iff
  case refuses =>
    simp only [offerAll, List.foldl_append, List.foldl_cons, List.foldl_nil]
    simp only [offerAll] at refused
    simp only [offer, refused]
  case unambiguous =>
    intro pc blob compiledUnit found kind address
    have apart := (sound ((finds pc blob).mp found).1).returns compiledUnit kind
    rw [Bool.eq_false_iff, ne_eq, CompiledUnit.isAmbiguous_iff]
    rintro (⟨rfl, same⟩ | ⟨listed, handler⟩)
    · exact apart.handlers same
    · exact handler.elim (apart.returns address listed).1 (apart.returns address listed).2

end CodeCache

end ManagedStack
