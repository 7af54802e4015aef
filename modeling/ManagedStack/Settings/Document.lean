import ManagedStack.Settings.Scalar

namespace ManagedStack

namespace Settings

/-!
# Settings texts

The text form of settings: lines of keys with values, under headers that name
tables.  A text is first read into its sections, each with the assignments that
stand under it, and the sections are then carried out in order on a table that
starts out empty.
-/

/-- The number of values that may be nested in one another, less one. -/
def nestingLimit : Nat := 79

/-- Read one or more parts between which a separator stands. -/
def readSeparated
    (part : Reader α)
    (separator : Char) :
    Nat → Reader (List α)
  | 0, _ => none
  | attempts + 1, text => do
      let (first, rest) ← part text
      match rest with
      | [] => return ([first], [])
      | next :: after =>
          if next = separator then
            let (others, tail) ← readSeparated part separator attempts after
            return (first :: others, tail)
          else
            return ([first], rest)

/-! ## Keys -/

/-- A character of a key without quotes. -/
def isBare (character : Char) : Bool :=
  ('a' ≤ character && character ≤ 'z') ||
    ('A' ≤ character && character ≤ 'Z') ||
    ('0' ≤ character && character ≤ '9') ||
    character = '-' || character = '_'

/-- Read one key, quoted on one line or bare. -/
def readKey : Reader String
  | '"' :: rest =>
      (readQuoted rest).map fun (body, after) => (String.ofList body, after)
  | '\'' :: rest =>
      (readLiteral rest).map fun (body, after) => (String.ofList body, after)
  | text =>
      let body := text.takeWhile isBare
      if body.isEmpty then
        none
      else
        some (String.ofList body, text.dropWhile isBare)

/-- Read one key with the blanks around it. -/
def readSpacedKey : Reader String :=
  fun text =>
    (readKey (skipBlanks text)).map fun (key, rest) => (key, skipBlanks rest)

/-- Read keys joined by points. -/
def readPath : Reader Path :=
  fun text => do
    let (keys, rest) ← readSeparated readSpacedKey '.' (text.length + 1) text
    let path ← Path.ofKeys? keys
    if keys.length ≤ nestingLimit then
      return (path, rest)
    else
      none

/-! ## Values -/

/-- Read a key with its value, up to the blanks behind it. -/
def readAssignment (value : Reader Value) : Reader Assignment :=
  fun text => do
    let (path, rest) ← readPath text
    let rest ← after? '=' rest
    let (given, rest) ← value (skipBlanks rest)
    return (⟨path, given⟩, skipBlanks rest)

/-- Read the items of a list and its closing bracket. -/
def readItems
    (value : Reader Value) :
    Nat → Reader (List Value)
  | 0, _ => none
  | attempts + 1, text => do
      match ← skipLayout false text with
      | ']' :: rest => return ([], rest)
      | start =>
          let (first, rest) ← value start
          match ← skipLayout false rest with
          | ']' :: after => return ([first], after)
          | ',' :: after =>
              let (others, tail) ← readItems value attempts after
              return (first :: others, tail)
          | _ => none

/-- Read the entries of a table between braces and its closing brace. -/
def readEntries (value : Reader Value) : Reader Value :=
  fun text => do
    let start := skipBlanks text
    let (assignments, rest) ←
      if start.head? = some '\x7d' then
        some ([], start)
      else
        readSeparated (readAssignment value) ',' (text.length + 1) start
    let rest ← after? '\x7d' rest
    let table ← Assignment.placeAll assignments .closed []
    return (table, rest)

/-- Read a value with at most the given number of values around its parts. -/
def readValue : Nat → Reader Value
  | 0, text => readScalar text
  | depth + 1, text =>
      match text with
      | '[' :: rest =>
          (readItems (readValue depth) (text.length + 1) rest).map
            fun (items, after) => (.list items, after)
      | '\x7b' :: rest => readEntries (readValue depth) rest
      | _ => readScalar text

/-! ## Lines -/

/-- A header: the table that the lines below it fill. -/
structure Header where
  path : Path
  /-- The header adds a table to those of the same name. -/
  addsRow : Bool

/-- A line that says something. -/
inductive Line where
  | assignment (assignment : Assignment)
  | header (header : Header)

/-- Read a header and the end of its line. -/
def readHeader : Reader Header
  | '[' :: '[' :: rest => do
      let (path, rest) ← readPath rest
      let rest ← after? ']' rest
      let rest ← after? ']' rest
      let rest ← afterLineEnd? rest
      return (⟨path, true⟩, rest)
  | '[' :: rest => do
      let (path, rest) ← readPath rest
      let rest ← after? ']' rest
      let rest ← afterLineEnd? rest
      return (⟨path, false⟩, rest)
  | _ => none

/-- Read the lines of a text. -/
def readLines : Nat → List Char → Option (List Line)
  | 0, _ => none
  | attempts + 1, text =>
      match skipBlanks text with
      | [] => some []
      | '#' :: rest =>
          (afterLineEnd? ('#' :: rest)).bind (readLines attempts)
      | '\n' :: rest => readLines attempts rest
      | '\r' :: '\n' :: rest => readLines attempts rest
      | '[' :: rest => do
          let (header, rest) ← readHeader ('[' :: rest)
          let lines ← readLines attempts rest
          return .header header :: lines
      | start => do
          let (assignment, rest) ←
            readAssignment (readValue nestingLimit) start
          let rest ← afterLineEnd? rest
          let lines ← readLines attempts rest
          return .assignment assignment :: lines

/-! ## Sections -/

/-- A header with the assignments under it. -/
structure Section where
  header : Header
  assignments : List Assignment

/-- The assignments before the first header, and the sections. -/
def sections : List Line → List Assignment × List Section
  | [] => ([], [])
  | .assignment assignment :: rest =>
      let (leading, others) := sections rest
      (assignment :: leading, others)
  | .header header :: rest =>
      let (leading, others) := sections rest
      ([], ⟨header, leading⟩ :: others)

/--
Carry out a section in the table of the whole text.  A header that adds no row
names a table that is new or was only implied by a longer header.
-/
def Section.place
    (given : Section)
    (standing : Standing)
    (entries : List (String × Value)) :
    Option Value :=
  amend .implied
    (fun reached present =>
      let key := given.header.path.key
      let filled? :=
        if given.header.addsRow then
          match present.lookup key with
          | none =>
              (Assignment.placeAll given.assignments .headed []).map
                fun row => Value.rows [row]
          | some (.rows tables) =>
              (Assignment.placeAll given.assignments .headed []).map
                fun row => Value.rows (tables ++ [row])
          | some _ => none
        else
          match present.lookup key with
          | none => Assignment.placeAll given.assignments .headed []
          | some (.table .implied inside) =>
              Assignment.placeAll given.assignments .headed inside
          | some _ => none
      filled?.map fun filled => .table reached (assign key filled present))
    given.header.path.parents standing entries

/-- Carry out sections one after another. -/
def placeSections : List Section → Value → Option Value
  | [], whole => some whole
  | first :: rest, .table standing entries =>
      (first.place standing entries).bind (placeSections rest)
  | _ :: _, _ => none

/-- The table that a text denotes; a byte order mark in front is dropped. -/
def parse? (text : String) : Option Value := do
  let characters :=
    match text.toList with
    | '\ufeff' :: rest => rest
    | characters => characters
  let lines ← readLines (characters.length + 1) characters
  let (leading, given) := sections lines
  let top ← Assignment.placeAll leading .headed []
  placeSections given top

end Settings

end ManagedStack
