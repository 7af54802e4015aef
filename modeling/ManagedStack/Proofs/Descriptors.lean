import ManagedStack.Signature

namespace ManagedStack

/-!
# The grammar of descriptors

A descriptor spells field types between parentheses and behind them one more, or `V`
for no value.  Here its parts are data of their own and spelling is a function of them.
No two descriptors are spelled alike, and the reader accepts exactly what is spelled by
one.
-/

/-- The types that one letter spells. -/
inductive PrimitiveType where
  | boolean
  | char
  | float
  | double
  | byte
  | short
  | int
  | long
  deriving Repr, DecidableEq

namespace PrimitiveType

/-- The letter that spells a primitive type. -/
def letter : PrimitiveType → Char
  | .boolean => 'Z'
  | .char => 'C'
  | .float => 'F'
  | .double => 'D'
  | .byte => 'B'
  | .short => 'S'
  | .int => 'I'
  | .long => 'J'

/-- The type of the values of a primitive type. -/
def basicType : PrimitiveType → BasicType
  | .boolean => .boolean
  | .char => .char
  | .float => .float
  | .double => .double
  | .byte => .byte
  | .short => .short
  | .int => .int
  | .long => .long

/-- No letter spells two types. -/
theorem eq_of_letter_eq
    {type other : PrimitiveType}
    (same : type.letter = other.letter) :
    type = other := by
  cases type <;> cases other <;> simp_all [letter]

/-- Names and elements are spelled with other letters in front. -/
theorem letter_ne (type : PrimitiveType) : type.letter ≠ 'L' ∧ type.letter ≠ '[' := by
  cases type <;> decide

end PrimitiveType

/-- A field type with its names; the semicolon that ends a name is not in it. -/
inductive FieldType where
  | primitive (type : PrimitiveType)
  | object (name : String) (unbroken : ';' ∉ name.toList)
  | array (element : FieldType)

namespace FieldType

/-- The characters that spell a field type. -/
def spelling : FieldType → List Char
  | .primitive type => [type.letter]
  | .object name _ => 'L' :: (name.toList ++ [';'])
  | .array element => '[' :: element.spelling

/-- The type of the values of a field type; names and elements do not matter. -/
def basicType : FieldType → BasicType
  | .primitive type => type.basicType
  | .object _ _ => .object
  | .array _ => .array

/-- Between parentheses a name holds no closing one. -/
def Enclosable : FieldType → Prop
  | .primitive _ => True
  | .object name _ => ')' ∉ name.toList
  | .array element => element.Enclosable

end FieldType

/-- The parts of a descriptor. -/
structure Descriptor where
  parameters : List FieldType
  /-- The type of the returned value, if one is returned. -/
  result : Option FieldType
  enclosed : ∀ type ∈ parameters, type.Enclosable

namespace Descriptor

/-- The characters that spell the result, which are `V` for no value. -/
def resultSpelling : Option FieldType → List Char
  | none => ['V']
  | some type => type.spelling

/-- The type of the returned value. -/
def resultType : Option FieldType → BasicType
  | none => .void
  | some type => type.basicType

/-- The characters that spell a descriptor. -/
def characters (descriptor : Descriptor) : List Char :=
  '(' :: (descriptor.parameters.flatMap FieldType.spelling ++
    ')' :: resultSpelling descriptor.result)

/-- The text of a descriptor. -/
def spelling (descriptor : Descriptor) : String :=
  String.ofList descriptor.characters

/-- What a descriptor says about a method. -/
def signature (descriptor : Descriptor) : Signature where
  parameters := descriptor.parameters.map FieldType.basicType
  result := resultType descriptor.result

end Descriptor

namespace FieldType

theorem basicType_ne_void (type : FieldType) : type.basicType ≠ .void := by
  cases type with
  | primitive type => cases type <;> simp [basicType, PrimitiveType.basicType]
  | object name unbroken => simp [basicType]
  | array element => simp [basicType]

/-- Only names can hold a closing parenthesis. -/
theorem enclosable_iff {type : FieldType} : type.Enclosable ↔ ')' ∉ type.spelling := by
  induction type with
  | primitive type => cases type <;> simp [Enclosable, spelling, PrimitiveType.letter]
  | object name unbroken => simp [Enclosable, spelling]
  | array element inductionHypothesis =>
      simpa [Enclosable, spelling] using inductionHypothesis

end FieldType

/-- A text is cut at the first place where a mark stands. -/
structure CutsAt (mark : Char) (text before after : List Char) : Prop where
  unmarked : mark ∉ before
  whole : text = before ++ mark :: after

namespace CutsAt

variable {mark character : Char} {text rest before after : List Char}

/-- An empty text holds no mark. -/
theorem not_nil : ¬CutsAt mark [] before after :=
  fun cuts => by simpa using cuts.whole

/-- A text that starts with the mark is cut right there. -/
theorem mark_cons_iff :
    CutsAt mark (mark :: rest) before after ↔ before = [] ∧ rest = after := by
  constructor
  · rintro ⟨unmarked, whole⟩
    cases before with
    | nil => simpa using whole
    | cons first before => simp_all
  · rintro ⟨rfl, rfl⟩
    exact ⟨by simp, rfl⟩

/-- A text that starts with something else is cut where its rest is. -/
theorem cons_iff (other : character ≠ mark) :
    CutsAt mark (character :: rest) before after ↔
      ∃ shorter, CutsAt mark rest shorter after ∧ character :: shorter = before := by
  constructor
  · rintro ⟨unmarked, whole⟩
    cases before with
    | nil => simp_all
    | cons first shorter =>
        rw [List.cons_append, List.cons.injEq] at whole
        exact ⟨shorter, ⟨fun inside => unmarked (.tail _ inside), whole.2⟩, by rw [whole.1]⟩
  · rintro ⟨shorter, ⟨unmarked, rfl⟩, rfl⟩
    exact ⟨by simpa [other.symm] using unmarked, rfl⟩

/-- There is at most one such cut. -/
theorem unique
    {otherBefore otherAfter : List Char}
    (cuts : CutsAt mark text before after)
    (others : CutsAt mark text otherBefore otherAfter) :
    before = otherBefore ∧ after = otherAfter := by
  induction text generalizing before otherBefore with
  | nil => exact (not_nil cuts).elim
  | cons character rest inductionHypothesis =>
      by_cases same : character = mark
      · subst same
        obtain ⟨rfl, rfl⟩ := mark_cons_iff.mp cuts
        obtain ⟨rfl, rfl⟩ := mark_cons_iff.mp others
        exact ⟨rfl, rfl⟩
      · obtain ⟨shorter, shorterCuts, rfl⟩ := (cons_iff same).mp cuts
        obtain ⟨otherShorter, otherCuts, rfl⟩ := (cons_iff same).mp others
        obtain ⟨rfl, rfl⟩ := inductionHypothesis shorterCuts otherCuts
        exact ⟨rfl, rfl⟩

end CutsAt

namespace Signature

/-- What follows the first semicolon is what is behind the cut at it. -/
theorem afterSemicolon?_eq_some_iff {text tail : List Char} :
    afterSemicolon? text = some tail ↔ ∃ name, CutsAt ';' text name tail := by
  fun_induction afterSemicolon? text with
  | case1 => simp [CutsAt.not_nil]
  | case2 rest => simp [CutsAt.mark_cons_iff]
  | case3 character rest notSemicolon inductionHypothesis =>
      simp only [inductionHypothesis, CutsAt.cons_iff notSemicolon]
      constructor
      · rintro ⟨name, cuts⟩
        exact ⟨_, name, cuts, rfl⟩
      · rintro ⟨-, name, cuts, -⟩
        exact ⟨name, cuts⟩

/-- A text is cut at its first closing parenthesis. -/
theorem splitAtClosing?_eq_some_iff {text before after : List Char} :
    splitAtClosing? text = some (before, after) ↔ CutsAt ')' text before after := by
  fun_induction splitAtClosing? text generalizing before with
  | case1 => simp [CutsAt.not_nil]
  | case2 rest => simp [CutsAt.mark_cons_iff, eq_comm]
  | case3 character rest notClosing inductionHypothesis =>
      simp [CutsAt.cons_iff notClosing, ← inductionHypothesis]

/-- The reader of types stops where a field type ends. -/
theorem readType?_spelling
    (type : FieldType)
    (rest : List Char) :
    readType? (type.spelling ++ rest) = some (type.basicType, rest) := by
  induction type with
  | primitive type => cases type <;> rfl
  | object name unbroken =>
      have ends : afterSemicolon? (name.toList ++ ';' :: rest) = some rest :=
        afterSemicolon?_eq_some_iff.mpr ⟨name.toList, unbroken, rfl⟩
      simp [FieldType.spelling, FieldType.basicType, readType?, ends]
  | array element inductionHypothesis =>
      have notVoid := element.basicType_ne_void
      simp only [FieldType.spelling, List.cons_append, readType?, inductionHypothesis]
      rfl

/-- What a letter spells is a field type. -/
theorem exists_spelling_of_letter
    (primitive : PrimitiveType)
    {rest tail : List Char}
    {type : BasicType}
    (found : some (primitive.basicType, rest) = some (type, tail)) :
    ∃ field : FieldType, field.basicType = type ∧
      primitive.letter :: rest = field.spelling ++ tail := by
  cases found
  exact ⟨.primitive primitive, rfl, rfl⟩

/--
A type that was read is no value, or a field type that spells what was used up.  Void
is the one letter that no field type spells, and an array of void is refused.
-/
theorem spelled_of_readType?
    {text tail : List Char}
    {type : BasicType}
    (found : readType? text = some (type, tail)) :
    type = .void ∧ text = 'V' :: tail ∨
      ∃ field : FieldType, field.basicType = type ∧ text = field.spelling ++ tail := by
  fun_induction readType? text generalizing type tail with
  | case1 rest => exact .inr (exists_spelling_of_letter .boolean found)
  | case2 rest => exact .inr (exists_spelling_of_letter .char found)
  | case3 rest => exact .inr (exists_spelling_of_letter .float found)
  | case4 rest => exact .inr (exists_spelling_of_letter .double found)
  | case5 rest => exact .inr (exists_spelling_of_letter .byte found)
  | case6 rest => exact .inr (exists_spelling_of_letter .short found)
  | case7 rest => exact .inr (exists_spelling_of_letter .int found)
  | case8 rest => exact .inr (exists_spelling_of_letter .long found)
  | case9 rest =>
      cases found
      exact .inl ⟨rfl, rfl⟩
  | case10 rest =>
      simp only [Option.map_eq_some_iff, Prod.mk.injEq] at found
      obtain ⟨candidate, ends, rfl, rfl⟩ := found
      obtain ⟨name, unbroken, rfl⟩ := afterSemicolon?_eq_some_iff.mp ends
      refine .inr ⟨.object (String.ofList name) (by simpa using unbroken), rfl, ?_⟩
      simp [FieldType.spelling]
  | case12 rest element elementTail notVoid elementFound inductionHypothesis =>
      cases found
      rcases inductionHypothesis elementFound with ⟨rfl, -⟩ | ⟨field, -, rfl⟩
      · exact (notVoid rfl).elim
      · exact .inr ⟨.array field, rfl, rfl⟩
  | case11 => cases found
  | case13 => cases found
  | case14 => cases found

/-- The reader of parameters goes on behind a type that it could read. -/
theorem readParameters?_of_readType?
    {text tail : List Char}
    {type : BasicType}
    (found : readType? text = some (type, tail))
    (notVoid : type ≠ .void) :
    readParameters? text = (readParameters? tail).map (type :: ·) := by
  cases text with
  | nil => cases found
  | cons first rest =>
      rw [readParameters?]
      split
      · simp_all
      · simp_all

/-- The reader of parameters answers with the types of what is spelled. -/
theorem readParameters?_spelling (types : List FieldType) :
    readParameters? (types.flatMap FieldType.spelling) =
      some (types.map FieldType.basicType) := by
  induction types with
  | nil => rw [List.flatMap_nil, readParameters?, List.map_nil]
  | cons type rest inductionHypothesis =>
      rw [List.flatMap_cons, readParameters?_of_readType? (readType?_spelling type _)
        type.basicType_ne_void, inductionHypothesis, Option.map_some, List.map_cons]

/-- The reader of types reads results, too. -/
theorem readType?_resultSpelling (result : Option FieldType) :
    readType? (Descriptor.resultSpelling result) =
      some (Descriptor.resultType result, []) := by
  cases result with
  | none => rfl
  | some type =>
      rw [Descriptor.resultSpelling, ← List.append_nil type.spelling]
      exact readType?_spelling type []

/-- A result that was read is the one that the whole text spells. -/
theorem spelled_of_readType?_nil
    {text : List Char}
    {type : BasicType}
    (found : readType? text = some (type, [])) :
    ∃ result : Option FieldType, Descriptor.resultType result = type ∧
      text = Descriptor.resultSpelling result := by
  rcases spelled_of_readType? found with ⟨rfl, rfl⟩ | ⟨field, rfl, rfl⟩
  · exact ⟨none, rfl, rfl⟩
  · exact ⟨some field, rfl, by simp [Descriptor.resultSpelling]⟩

/-- Parameters that were read are those that the text spells. -/
theorem spelled_of_readParameters?
    {text : List Char}
    {types : List BasicType}
    (found : readParameters? text = some types) :
    ∃ fields : List FieldType, fields.map FieldType.basicType = types ∧
      text = fields.flatMap FieldType.spelling := by
  fun_induction readParameters? text generalizing types with
  | case1 =>
      cases found
      exact ⟨[], rfl, rfl⟩
  | case2 => cases found
  | case3 => cases found
  | case4 first rest type tail typeFound notVoid inductionHypothesis =>
      obtain ⟨others, othersFound, rfl⟩ := Option.map_eq_some_iff.mp found
      obtain ⟨fields, rfl, rfl⟩ := inductionHypothesis othersFound
      rcases spelled_of_readType? typeFound with ⟨isVoid, -⟩ | ⟨field, rfl, spelled⟩
      · exact (notVoid isVoid).elim
      · exact ⟨field :: fields, rfl, spelled⟩

end Signature

namespace FieldType

/--
Where a field type ends, and which it is, shows whatever follows.  The first letter
tells the three forms apart, and a name ends at the first semicolon.
-/
theorem eq_of_spelling_append
    {type other : FieldType}
    {rest others : List Char}
    (same : type.spelling ++ rest = other.spelling ++ others) :
    type = other ∧ rest = others := by
  induction type generalizing other with
  | primitive type =>
      have ⟨notName, notElement⟩ := type.letter_ne
      cases other with
      | primitive other =>
          obtain ⟨sameLetter, sameRest⟩ := List.cons.inj same
          exact ⟨congrArg primitive (PrimitiveType.eq_of_letter_eq sameLetter), sameRest⟩
      | object otherName _ => exact (notName (List.cons.inj same).1).elim
      | array otherElement => exact (notElement (List.cons.inj same).1).elim
  | object name unbroken =>
      cases other with
      | primitive other => exact (other.letter_ne.1 (List.cons.inj same).1.symm).elim
      | object otherName otherUnbroken =>
          simp only [spelling, List.cons_append, List.append_assoc, List.cons.injEq,
            List.nil_append, true_and] at same
          obtain ⟨sameName, sameRest⟩ :=
            CutsAt.unique ⟨unbroken, rfl⟩ ⟨otherUnbroken, same⟩
          obtain rfl := String.toList_inj.mp sameName
          exact ⟨rfl, sameRest⟩
      | array otherElement => simp [spelling] at same
  | array element inductionHypothesis =>
      cases other with
      | primitive other => exact (other.letter_ne.2 (List.cons.inj same).1.symm).elim
      | object otherName _ => simp [spelling] at same
      | array otherElement =>
          obtain ⟨rfl, sameRest⟩ := inductionHypothesis (List.cons.inj same).2
          exact ⟨rfl, sameRest⟩

/-- Something is written for every field type. -/
theorem spelling_ne_nil (type : FieldType) : type.spelling ≠ [] := by
  cases type <;> simp [spelling]

/-- Field types written one after the other can be told apart. -/
theorem eq_of_flatMap_spelling
    {types others : List FieldType}
    (same : types.flatMap spelling = others.flatMap spelling) :
    types = others := by
  induction types generalizing others with
  | nil =>
      cases others with
      | nil => rfl
      | cons other others =>
          exact (other.spelling_ne_nil (List.append_eq_nil_iff.mp same.symm).1).elim
  | cons type rest inductionHypothesis =>
      cases others with
      | nil => exact (type.spelling_ne_nil (List.append_eq_nil_iff.mp same).1).elim
      | cons other others =>
          obtain ⟨rfl, sameRest⟩ := eq_of_spelling_append same
          exact congrArg (type :: ·) (inductionHypothesis sameRest)

/-- No closing parenthesis is written for types that parentheses can enclose. -/
theorem enclosable_all_iff {types : List FieldType} :
    (∀ type ∈ types, type.Enclosable) ↔ ')' ∉ types.flatMap spelling := by
  simp only [enclosable_iff, List.mem_flatMap, not_exists, not_and]

end FieldType

namespace Descriptor

/-- Results that are written alike are the same. -/
theorem eq_of_resultSpelling
    {result other : Option FieldType}
    (same : resultSpelling result = resultSpelling other) :
    result = other := by
  have sameType : resultType result = resultType other := by
    have read := Signature.readType?_resultSpelling result
    rw [same, Signature.readType?_resultSpelling other] at read
    simpa using read.symm
  cases result with
  | none =>
      cases other with
      | none => rfl
      | some other => exact (other.basicType_ne_void sameType.symm).elim
  | some type =>
      cases other with
      | none => exact (type.basicType_ne_void sameType).elim
      | some other =>
          exact congrArg some (FieldType.eq_of_spelling_append (congrArg (· ++ []) same)).1

/-- A descriptor is cut at the parenthesis that closes its parameters. -/
theorem cutsAt (descriptor : Descriptor) :
    CutsAt ')'
      (descriptor.parameters.flatMap FieldType.spelling ++
        ')' :: resultSpelling descriptor.result)
      (descriptor.parameters.flatMap FieldType.spelling)
      (resultSpelling descriptor.result) :=
  ⟨FieldType.enclosable_all_iff.mp descriptor.enclosed, rfl⟩

/-- Descriptors that are written alike have the same parts. -/
theorem eq_of_characters
    {descriptor other : Descriptor}
    (same : descriptor.characters = other.characters) :
    descriptor = other := by
  have bodies := (List.cons.inj same).2
  have cuts := descriptor.cutsAt
  rw [bodies] at cuts
  obtain ⟨sameParameters, sameResult⟩ := cuts.unique other.cutsAt
  have parameters := FieldType.eq_of_flatMap_spelling sameParameters
  have result := eq_of_resultSpelling sameResult
  cases descriptor
  cases other
  cases parameters
  cases result
  rfl

end Descriptor

namespace Signature

/-- The reader of characters accepts those of descriptors. -/
theorem ofChars?_eq_some_iff {text : List Char} {signature : Signature} :
    ofChars? text = some signature ↔
      ∃ descriptor : Descriptor,
        descriptor.characters = text ∧ descriptor.signature = signature := by
  constructor
  · intro found
    unfold ofChars? at found
    split at found
    case h_2 => cases found
    case h_1 body =>
      simp only [Option.bind_eq_bind, Option.bind_eq_some_iff, Prod.exists] at found
      obtain ⟨before, after, split, types, parametersFound, result, tail, resultFound,
        whole⟩ := found
      split at whole
      case isFalse => cases whole
      case isTrue nothingLeft =>
        cases whole
        obtain rfl := List.isEmpty_iff.mp nothingLeft
        obtain ⟨fields, rfl, rfl⟩ := spelled_of_readParameters? parametersFound
        obtain ⟨result, rfl, rfl⟩ := spelled_of_readType?_nil resultFound
        obtain ⟨unclosed, rfl⟩ := splitAtClosing?_eq_some_iff.mp split
        exact ⟨⟨fields, result, FieldType.enclosable_all_iff.mpr unclosed⟩, rfl, rfl⟩
  · rintro ⟨descriptor, rfl, rfl⟩
    have split := splitAtClosing?_eq_some_iff.mpr descriptor.cutsAt
    simp [ofChars?, Descriptor.characters, split, readParameters?_spelling,
      readType?_resultSpelling, Descriptor.signature]

/--
The reader of descriptors accepts a text if and only if it spells a descriptor, which is
then the only one and says what the reader answers.
-/
structure ReadsGrammar (text : String) : Prop where
  accepts : ∀ signature, parse text = .ok signature ↔
    ∃ descriptor : Descriptor,
      descriptor.spelling = text ∧ descriptor.signature = signature
  unique : ∀ descriptor other : Descriptor,
    descriptor.spelling = text → other.spelling = text → descriptor = other
  refuses : (∀ descriptor : Descriptor, descriptor.spelling ≠ text) →
    parse text = .error (.malformed text)

/-- Every text is read according to the grammar of descriptors. -/
theorem readsGrammar (text : String) : ReadsGrammar text := by
  have spelled_iff (descriptor : Descriptor) :
      descriptor.spelling = text ↔ descriptor.characters = text.toList := by
    rw [← String.toList_inj, Descriptor.spelling, String.toList_ofList]
  refine ⟨fun signature => ?accepts, fun descriptor other => ?unique, fun unspelled => ?refuses⟩
  case accepts =>
    simp only [spelled_iff, ← ofChars?_eq_some_iff]
    unfold parse
    cases ofChars? text.toList <;> simp
  case unique =>
    rw [spelled_iff, spelled_iff]
    exact fun spelled otherSpelled =>
      Descriptor.eq_of_characters (spelled.trans otherSpelled.symm)
  case refuses =>
    have unread : ofChars? text.toList = none := by
      refine Option.eq_none_iff_forall_ne_some.mpr fun signature found => ?_
      obtain ⟨descriptor, spelled, -⟩ := ofChars?_eq_some_iff.mp found
      exact unspelled descriptor ((spelled_iff descriptor).mpr spelled)
    rw [parse, unread]

/-- Behind the parameters a name may hold a closing parenthesis. -/
example : parse "([[IL;)La)b;" = .ok ⟨[.array, .object], .object⟩ := by cbv

end Signature

end ManagedStack
