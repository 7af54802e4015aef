import ManagedStack.Word

namespace ManagedStack

/-!
# Method descriptors

A descriptor such as `(ILjava/lang/String;J)V` lists the parameter types of a
method between parentheses and then its return type.  This module holds the
value types, the parsed signature, and the reader of descriptors: an object type
is an `L`, any name without a semicolon, and a semicolon; an array type is a `[`
before another field type; `V` stands for no value and only as a return type.
-/

/-- The type of a value in managed code. -/
inductive BasicType where
  | boolean
  | char
  | float
  | double
  | byte
  | short
  | int
  | long
  | object
  | array
  | void
  deriving Repr, DecidableEq

namespace BasicType

/-- All value types, in the order in which they are tabulated. -/
def all : List BasicType :=
  [.boolean, .char, .float, .double, .byte, .short, .int, .long, .object,
    .array, .void]

/-- The name of a value type. -/
def name : BasicType → String
  | .boolean => "Boolean"
  | .char => "Char"
  | .float => "Float"
  | .double => "Double"
  | .byte => "Byte"
  | .short => "Short"
  | .int => "Int"
  | .long => "Long"
  | .object => "Object"
  | .array => "Array"
  | .void => "Void"

/-- Stack slots taken by a value of this type. -/
def slots : BasicType → Nat
  | .long => 2
  | .double => 2
  | .void => 0
  | _ => 1

/-- Whether values of this type are references. -/
def isReference : BasicType → Bool
  | .object => true
  | .array => true
  | _ => false

/-- Whether values of this type are passed in floating point registers. -/
def isFloating : BasicType → Bool
  | .float => true
  | .double => true
  | _ => false

end BasicType

/-- The parameter types of a method, in order, and its return type. -/
structure Signature where
  parameters : List BasicType
  result : BasicType
  deriving Repr, DecidableEq

/-- Why a text is not a descriptor. -/
inductive SignatureError where
  | malformed (descriptor : String)
  deriving Repr, DecidableEq

/-- The name of a descriptor error. -/
def SignatureError.name : SignatureError → String
  | .malformed _ => "Malformed"

/-- The message of a descriptor error. -/
def SignatureError.message : SignatureError → String
  | .malformed descriptor => "Malformed signature '" ++ descriptor ++ "'"

namespace Signature

/-- Argument slots taken by the parameters, without a receiver. -/
def slots (signature : Signature) : Nat :=
  signature.parameters.foldr (fun type total => type.slots + total) 0

/-- Argument slots taken by the parameters and by the receiver, if any. -/
def slotsWith
    (signature : Signature)
    (hasReceiver : Bool) :
    Nat :=
  signature.slots + hasReceiver.toNat

/-- The text of a signature, such as `[Int, Long] -> Void`. -/
def text (signature : Signature) : String :=
  "[" ++ String.intercalate ", " (signature.parameters.map BasicType.name) ++
    "] -> " ++ signature.result.name

/-- What follows the first semicolon. -/
def afterSemicolon? : List Char → Option (List Char)
  | [] => none
  | ';' :: rest => some rest
  | _ :: rest => afterSemicolon? rest

/-- Read one type from the front and return what follows it. -/
def readType? : List Char → Option (BasicType × List Char)
  | 'Z' :: rest => some (.boolean, rest)
  | 'C' :: rest => some (.char, rest)
  | 'F' :: rest => some (.float, rest)
  | 'D' :: rest => some (.double, rest)
  | 'B' :: rest => some (.byte, rest)
  | 'S' :: rest => some (.short, rest)
  | 'I' :: rest => some (.int, rest)
  | 'J' :: rest => some (.long, rest)
  | 'V' :: rest => some (.void, rest)
  | 'L' :: rest => (afterSemicolon? rest).map fun tail => (.object, tail)
  | '[' :: rest =>
      match readType? rest with
      | some (.void, _) => none
      | some (_, tail) => some (.array, tail)
      | none => none
  | _ => none

/-- What follows a semicolon is shorter than the text that held it. -/
theorem length_lt_of_afterSemicolon?
    {text tail : List Char}
    (found : afterSemicolon? text = some tail) :
    tail.length < text.length := by
  fun_induction afterSemicolon? text with
  | case1 => simp at found
  | case2 rest =>
      simp only [Option.some.injEq] at found
      subst found
      simp
  | case3 character rest notSemicolon inductionHypothesis =>
      have shorter := inductionHypothesis found
      simp only [List.length_cons]
      omega

/-- Reading a type uses up at least one character. -/
theorem length_lt_of_readType?
    {text tail : List Char}
    {type : BasicType}
    (found : readType? text = some (type, tail)) :
    tail.length < text.length := by
  fun_induction readType? text generalizing type tail with
  | case10 rest =>
      simp only [Option.map_eq_some_iff, Prod.mk.injEq] at found
      obtain ⟨candidate, candidateFound, -, rfl⟩ := found
      have shorter := length_lt_of_afterSemicolon? candidateFound
      simp only [List.length_cons]
      omega
  | case12 rest element elementTail _ elementFound inductionHypothesis =>
      simp only [Option.some.injEq, Prod.mk.injEq] at found
      obtain ⟨-, rfl⟩ := found
      have shorter := inductionHypothesis elementFound
      simp only [List.length_cons]
      omega
  | _ => simp_all

/-- Read parameter types until the text is used up. -/
def readParameters?
    (text : List Char) :
    Option (List BasicType) :=
  match text with
  | [] => some []
  | first :: rest =>
      match _found : readType? (first :: rest) with
      | none => none
      | some (type, tail) =>
          if type = .void then
            none
          else
            (readParameters? tail).map (type :: ·)
  termination_by text.length
  decreasing_by exact length_lt_of_readType? _found

/-- Cut a text at its first closing parenthesis. -/
def splitAtClosing? : List Char → Option (List Char × List Char)
  | [] => none
  | ')' :: rest => some ([], rest)
  | character :: rest =>
      (splitAtClosing? rest).map fun (before, after) =>
        (character :: before, after)

/-- Read a whole descriptor given as characters. -/
def ofChars? : List Char → Option Signature
  | '(' :: body => do
      let (parameterText, resultText) ← splitAtClosing? body
      let parameters ← readParameters? parameterText
      let (result, tail) ← readType? resultText
      if tail.isEmpty then some ⟨parameters, result⟩ else none
  | _ => none

/-- Read a descriptor; any other text is malformed. -/
def parse (descriptor : String) : Except SignatureError Signature :=
  match ofChars? descriptor.toList with
  | some signature => .ok signature
  | none => .error (.malformed descriptor)

end Signature

end ManagedStack
