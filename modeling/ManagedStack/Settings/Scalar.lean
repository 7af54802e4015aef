import ManagedStack.Settings.Value

namespace ManagedStack

namespace Settings

/-!
# Words of a settings text

Readers of what has no parts: layout between values, strings, numbers, and
moments in time.  A reader takes the characters that are left and returns what
it read with those that follow, or nothing when they do not start with what it
reads.
-/

/-- A reader of the front of a text. -/
abbrev Reader (α : Type) : Type :=
  List Char → Option (α × List Char)

/-- The blanks inside a line. -/
def isBlank (character : Char) : Bool :=
  character = ' ' || character = '\t'

/-- A character that may stand in a comment: a tab, or no control character. -/
def isPrintable (character : Char) : Bool :=
  character = '\t' ||
    (0x20 ≤ character.toNat && character.toNat ≤ 0x7e) ||
    0x80 ≤ character.toNat

/-- What follows the blanks at the front. -/
def skipBlanks (text : List Char) : List Char :=
  text.dropWhile isBlank

/-- What follows a line break at the front. -/
def afterLineBreak? : List Char → Option (List Char)
  | '\n' :: rest => some rest
  | '\r' :: '\n' :: rest => some rest
  | _ => none

/-- What follows a comment at the front, if there is one. -/
def skipComment : List Char → List Char
  | '#' :: rest => rest.dropWhile isPrintable
  | text => text

/-- What follows the end of a line: blanks, a comment, and a break or the end. -/
def afterLineEnd? (text : List Char) : Option (List Char) :=
  match skipComment (skipBlanks text) with
  | [] => some []
  | rest => afterLineBreak? rest

/--
What follows blanks, line breaks and comments.  The flag tells whether the front
lies inside a comment, which a line break has to close.
-/
def skipLayout : Bool → List Char → Option (List Char)
  | false, [] => some []
  | true, [] => none
  | _, '\n' :: rest => skipLayout false rest
  | _, '\r' :: '\n' :: rest => skipLayout false rest
  | true, character :: rest =>
      if isPrintable character then skipLayout true rest else none
  | false, '#' :: rest => skipLayout true rest
  | false, '\r' :: _ => none
  | false, character :: rest =>
      if isBlank character then
        skipLayout false rest
      else
        some (character :: rest)

/-- The value of a digit in a base of at most sixteen. -/
def digitValue?
    (base : Nat)
    (character : Char) :
    Option Nat :=
  let value? :=
    if '0' ≤ character && character ≤ '9' then
      some (character.toNat - '0'.toNat)
    else if 'a' ≤ character && character ≤ 'f' then
      some (character.toNat - 'a'.toNat + 10)
    else if 'A' ≤ character && character ≤ 'F' then
      some (character.toNat - 'A'.toNat + 10)
    else
      none
  value?.filter (· < base)

/-- Whether a character is a digit of a base. -/
def isDigitOf
    (base : Nat)
    (character : Char) :
    Bool :=
  (digitValue? base character).isSome

/-- The number that digits of a base denote; other characters count nothing. -/
def valueOf
    (base : Nat)
    (digits : List Char) :
    Nat :=
  (digits.filterMap (digitValue? base)).foldl (· * base + ·) 0

/-! ## Strings -/

/-- The character of a letter after a backslash. -/
def escaped? : Char → Option Char
  | 'b' => some '\x08'
  | 't' => some '\t'
  | 'n' => some '\n'
  | 'f' => some '\x0c'
  | 'r' => some '\r'
  | '"' => some '"'
  | '\\' => some '\\'
  | _ => none

/-- The character whose code point is written in hexadecimal digits. -/
def ofCodePoint? (digits : List Char) : Option Char :=
  if digits.all (isDigitOf 16) then
    let point := valueOf 16 digits
    if point.isValidChar then some (Char.ofNat point) else none
  else
    none

/-- Put a character before a string that was read. -/
def prepend
    (character : Char)
    (result : Option (List Char × List Char)) :
    Option (List Char × List Char) :=
  result.map fun (body, rest) => (character :: body, rest)

/-- Read the body of a string between double quotes, and the closing quote. -/
def readQuoted : Reader (List Char)
  | [] => none
  | '"' :: rest => some ([], rest)
  | '\\' :: 'u' :: a :: b :: c :: d :: rest =>
      (ofCodePoint? [a, b, c, d]).bind fun character =>
        prepend character (readQuoted rest)
  | '\\' :: 'U' :: a :: b :: c :: d :: e :: f :: g :: h :: rest =>
      (ofCodePoint? [a, b, c, d, e, f, g, h]).bind fun character =>
        prepend character (readQuoted rest)
  | '\\' :: letter :: rest =>
      (escaped? letter).bind fun character =>
        prepend character (readQuoted rest)
  | character :: rest =>
      if isPrintable character && character != '\\' then
        prepend character (readQuoted rest)
      else
        none

/-- Up to two quotes at the front, which belong to a string that they close. -/
def closingQuotes
    (quote : Char)
    (text : List Char) :
    List Char × List Char :=
  let quotes := (text.take 2).takeWhile (· = quote)
  (quotes, text.drop quotes.length)

/-- Whether only blanks stand before the end of the line. -/
def endsLine (text : List Char) : Bool :=
  (afterLineBreak? (skipBlanks text)).isSome

/--
Read the body of a string between tripled double quotes, and the closing
quotes.  The flag tells that blanks and line breaks are being dropped, as they
are after a backslash at the end of a line.
-/
def readQuotedLines : Bool → Reader (List Char)
  | _, [] => none
  | true, ' ' :: rest => readQuotedLines true rest
  | true, '\t' :: rest => readQuotedLines true rest
  | true, '\n' :: rest => readQuotedLines true rest
  | true, '\r' :: '\n' :: rest => readQuotedLines true rest
  | _, '\n' :: rest => prepend '\n' (readQuotedLines false rest)
  | _, '\r' :: '\n' :: rest => prepend '\n' (readQuotedLines false rest)
  | _, '"' :: '"' :: '"' :: rest => some (closingQuotes '"' rest)
  | _, '\\' :: 'u' :: a :: b :: c :: d :: rest =>
      (ofCodePoint? [a, b, c, d]).bind fun character =>
        prepend character (readQuotedLines false rest)
  | _, '\\' :: 'U' :: a :: b :: c :: d :: e :: f :: g :: h :: rest =>
      (ofCodePoint? [a, b, c, d, e, f, g, h]).bind fun character =>
        prepend character (readQuotedLines false rest)
  | _, '\\' :: letter :: rest =>
      if endsLine (letter :: rest) then
        readQuotedLines true (letter :: rest)
      else
        (escaped? letter).bind fun character =>
          prepend character (readQuotedLines false rest)
  | _, character :: rest =>
      if isPrintable character && character != '\\' then
        prepend character (readQuotedLines false rest)
      else
        none

/-- Read the body of a string between single quotes, and the closing quote. -/
def readLiteral : Reader (List Char)
  | [] => none
  | '\'' :: rest => some ([], rest)
  | character :: rest =>
      if isPrintable character then
        prepend character (readLiteral rest)
      else
        none

/-- Read the body of a string between tripled single quotes, and these. -/
def readLiteralLines : Reader (List Char)
  | [] => none
  | '\'' :: '\'' :: '\'' :: rest => some (closingQuotes '\'' rest)
  | '\n' :: rest => prepend '\n' (readLiteralLines rest)
  | '\r' :: '\n' :: rest => prepend '\n' (readLiteralLines rest)
  | character :: rest =>
      if isPrintable character then
        prepend character (readLiteralLines rest)
      else
        none

/-- A line break right after tripled quotes is not part of the string. -/
def dropFirstBreak (text : List Char) : List Char :=
  (afterLineBreak? text).getD text

/-- Read a string in one of its four forms. -/
def readString : Reader String
  | '"' :: '"' :: '"' :: rest =>
      (readQuotedLines false (dropFirstBreak rest)).map fun (body, after) =>
        (String.ofList body, after)
  | '"' :: rest =>
      (readQuoted rest).map fun (body, after) => (String.ofList body, after)
  | '\'' :: '\'' :: '\'' :: rest =>
      (readLiteralLines (dropFirstBreak rest)).map fun (body, after) =>
        (String.ofList body, after)
  | '\'' :: rest =>
      (readLiteral rest).map fun (body, after) => (String.ofList body, after)
  | _ => none

/-! ## Numbers -/

/-- Whether digits are given and each underscore stands between two of them. -/
def isGrouped : List Char → Bool
  | [] => false
  | '_' :: _ => false
  | _ :: '_' :: rest => isGrouped rest
  | [_] => true
  | _ :: rest => isGrouped rest

/-- Read digits of a base, which underscores may group. -/
def readDigits (base : Nat) : Reader (List Char) :=
  fun text =>
    let belongs := fun character => isDigitOf base character || character = '_'
    let digits := text.takeWhile belongs
    if isGrouped digits then
      some (digits.filter (· != '_'), text.dropWhile belongs)
    else
      none

/-- Read a sign if there is one; the flag tells that it was a minus. -/
def readSign : List Char → Bool × List Char
  | '-' :: rest => (true, rest)
  | '+' :: rest => (false, rest)
  | text => (false, text)

/-- Read the exponent of a real number, if there is one. -/
def readExponent? (text : List Char) : Option (Option Int × List Char) :=
  match text with
  | [] => some (none, [])
  | letter :: rest =>
      if letter = 'e' || letter = 'E' then
        let (isNegative, unsigned) := readSign rest
        (readDigits 10 unsigned).map fun (digits, after) =>
          let size : Int := valueOf 10 digits
          (some (if isNegative then -size else size), after)
      else
        some (none, text)

/--
Whether a positive decimal number rounds to a finite number of double precision:
it lies below the middle between the largest such number and the next power of
two.  The first two tests keep the powers small.
-/
def isFiniteReal
    (digits : List Char)
    (exponent : Int) :
    Bool :=
  let mantissa := valueOf 10 digits
  let size : Int := (digits.dropWhile (· = '0')).length
  if mantissa = 0 then
    true
  else if size + exponent < 300 then
    true
  else if 400 < size + exponent then
    false
  else
    let limit := (Nat.pow 2 54 - 1) * Nat.pow 2 970
    if 0 ≤ exponent then
      mantissa * Nat.pow 10 exponent.toNat < limit
    else
      mantissa < limit * Nat.pow 10 (-exponent).toNat

/-- An integer in the range of signed words. -/
def inRange? (value : Int) : Option Value :=
  if -0x8000000000000000 ≤ value ∧ value < 0x8000000000000000 then
    some (.integer value)
  else
    none

/-- Read the digits of an integer in a base other than ten. -/
def readBased (base : Nat) : Reader Value :=
  fun text => do
    let (digits, rest) ← readDigits base text
    let value ← inRange? (valueOf base digits)
    return (value, rest)

/-- The characters of a text before those that are left. -/
def consumed (text rest : List Char) : String :=
  String.ofList (text.take (text.length - rest.length))

/--
Read an integer or real number to base ten after its sign.  The whole part has
no superfluous zero in front.
-/
def readDecimal
    (isNegative : Bool) :
    Reader Value :=
  fun text => do
    let (whole, rest) ← readDigits 10 text
    if whole.head? = some '0' ∧ 1 < whole.length then
      none
    else
      let (fraction, afterFraction) ←
        match rest with
        | '.' :: body =>
            (readDigits 10 body).map fun (digits, after) =>
              (some digits, after)
        | _ => some (none, rest)
      let (exponent, after) ← readExponent? afterFraction
      if fraction.isNone ∧ exponent.isNone then
        let size : Int := valueOf 10 whole
        let value ← inRange? (if isNegative then -size else size)
        return (value, after)
      else
        let places := fraction.getD []
        if isNegative ||
            isFiniteReal (whole ++ places)
              (exponent.getD 0 - (places.length : Int)) then
          return (.real (consumed text after), after)
        else
          none

/-- Read a number in any of its forms. -/
def readNumber : Reader Value :=
  fun text =>
    match text with
    | '0' :: 'x' :: rest => readBased 16 rest
    | '0' :: 'o' :: rest => readBased 8 rest
    | '0' :: 'b' :: rest => readBased 2 rest
    | _ =>
        let (isNegative, unsigned) := readSign text
        match unsigned with
        | 'i' :: 'n' :: 'f' :: rest => some (.real (consumed text rest), rest)
        | 'n' :: 'a' :: 'n' :: rest => some (.real (consumed text rest), rest)
        | _ => readDecimal isNegative unsigned

/-! ## Moments -/

/-- Read a number of exactly the given count of digits, within bounds. -/
def readField
    (count low high : Nat) :
    Reader Nat :=
  fun text =>
    let digits := text.take count
    let value := valueOf 10 digits
    if digits.length = count ∧ digits.all (isDigitOf 10) ∧
        low ≤ value ∧ value ≤ high then
      some (value, text.drop count)
    else
      none

/-- What follows a given character at the front. -/
def after?
    (expected : Char) :
    List Char → Option (List Char)
  | [] => none
  | character :: rest => if character = expected then some rest else none

/-- The number of days of a month. -/
def daysIn
    (year month : Nat) :
    Nat :=
  if month = 2 then
    if year % 4 = 0 ∧ (year % 100 ≠ 0 ∨ year % 400 = 0) then 29 else 28
  else if month = 4 ∨ month = 6 ∨ month = 9 ∨ month = 11 then
    30
  else
    31

/-- What follows a calendar day. -/
def afterDate? (text : List Char) : Option (List Char) := do
  let (year, rest) ← readField 4 0 9999 text
  let rest ← after? '-' rest
  let (month, rest) ← readField 2 1 12 rest
  let rest ← after? '-' rest
  let (_, rest) ← readField 2 1 (daysIn year month) rest
  return rest

/-- What follows the fraction of a second, if there is one. -/
def skipFraction : List Char → List Char
  | '.' :: first :: rest =>
      if isDigitOf 10 first then
        rest.dropWhile (isDigitOf 10)
      else
        '.' :: first :: rest
  | text => text

/-- What follows a time of day; a minute may have a leap second. -/
def afterTime? (text : List Char) : Option (List Char) := do
  let (_, rest) ← readField 2 0 23 text
  let rest ← after? ':' rest
  let (_, rest) ← readField 2 0 59 rest
  let rest ← after? ':' rest
  let (_, rest) ← readField 2 0 60 rest
  return skipFraction rest

/-- What follows the distance from universal time. -/
def afterOffset? : List Char → Option (List Char)
  | [] => none
  | sign :: rest =>
      if sign = 'Z' || sign = 'z' then
        some rest
      else if sign = '+' || sign = '-' then do
        let (_, rest) ← readField 2 0 23 rest
        let rest ← after? ':' rest
        let (_, rest) ← readField 2 0 59 rest
        return rest
      else
        none

/-- What follows a day, a time of day, or a day with a time. -/
def afterMoment? (text : List Char) : Option (List Char) :=
  match afterDate? text with
  | none => afterTime? text
  | some [] => some []
  | some (separator :: rest) =>
      if separator = 'T' || separator = 't' || separator = ' ' then
        match afterTime? rest with
        | some afterTime => some ((afterOffset? afterTime).getD afterTime)
        | none => some (separator :: rest)
      else
        some (separator :: rest)

/-- Read a moment in time. -/
def readMoment : Reader Value :=
  fun text =>
    (afterMoment? text).map fun rest => (.moment (consumed text rest), rest)

/-- Read a truth value. -/
def readTruth : Reader Value
  | 't' :: 'r' :: 'u' :: 'e' :: rest => some (.boolean true, rest)
  | 'f' :: 'a' :: 'l' :: 's' :: 'e' :: rest => some (.boolean false, rest)
  | _ => none

/-- Read a value without parts. -/
def readScalar : Reader Value :=
  fun text =>
    ((readString text).map fun (value, rest) => (Value.text value, rest))
      <|> readTruth text
      <|> readMoment text
      <|> readNumber text

end Settings

end ManagedStack
