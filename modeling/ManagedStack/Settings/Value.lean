namespace ManagedStack

namespace Settings

/-!
# Values of a settings text

A settings text denotes a tree of tables.  Each table remembers its standing:
how it came into being, which decides what may still add to it.  A table named
by a header or written between braces is given once; one that only a longer
header or a dotted key implied can be completed later.
-/

/-- How a table came into being. -/
inductive Standing where
  /-- Written between braces on one line. -/
  | closed
  /-- Named by a header of its own. -/
  | headed
  /-- Implied by the header of a table inside it. -/
  | implied
  /-- Implied by a dotted key. -/
  | dotted
  deriving Repr, DecidableEq

/--
A value.  A real number and a moment in time keep their text: nothing here
computes with them.
-/
inductive Value where
  | boolean (value : Bool)
  | text (value : String)
  | integer (value : Int)
  | real (literal : String)
  | moment (literal : String)
  | list (items : List Value)
  /-- Tables given one after another by headers in doubled brackets. -/
  | rows (tables : List Value)
  | table (standing : Standing) (entries : List (String × Value))

/-- A key with the keys of the tables on the way to it. -/
structure Path where
  parents : List String
  key : String
  deriving Repr, DecidableEq

/-- The path of a list of keys, of which there is at least one. -/
def Path.ofKeys? (keys : List String) : Option Path :=
  keys.getLast?.map fun key => ⟨keys.dropLast, key⟩

/-- Replace the value of a key, or add the key at the end. -/
def assign
    (key : String)
    (value : Value) :
    List (String × Value) → List (String × Value)
  | [] => [(key, value)]
  | (present, old) :: rest =>
      if present = key then
        (key, value) :: rest
      else
        (present, old) :: assign key value rest

/--
Whether a path of the given origin may lead through a table: no path leads
through a closed table, and a dotted key only through tables that are implied.
-/
def Standing.admits
    (standing origin : Standing) :
    Bool :=
  match standing with
  | .closed => false
  | .headed => origin = .implied
  | .implied => true
  | .dotted => true

/--
Follow keys from a table, creating tables of the given origin where there are
none, and apply a change to the table that is reached.  A key of several tables
leads to the last of them.
-/
def amend
    (origin : Standing)
    (change : Standing → List (String × Value) → Option Value) :
    List String → Standing → List (String × Value) → Option Value
  | [], standing, entries => change standing entries
  | key :: rest, standing, entries =>
      match (entries.lookup key).getD (.table origin []) with
      | .table inner innerEntries =>
          if inner.admits origin then
            (amend origin change rest inner innerEntries).map fun amended =>
              .table standing (assign key amended entries)
          else
            none
      | .rows tables =>
          match tables.getLast? with
          | some (.table inner innerEntries) =>
              (amend origin change rest inner innerEntries).map fun amended =>
                .table standing
                  (assign key (.rows (tables.dropLast ++ [amended])) entries)
          | _ => none
      | _ => none

/-- A key with its value. -/
structure Assignment where
  path : Path
  value : Value

/--
Carry out an assignment in a table.  The key must be new, and a table that
dotted keys built takes further dotted keys and nothing else.
-/
def Assignment.place
    (assignment : Assignment)
    (standing : Standing)
    (entries : List (String × Value)) :
    Option Value :=
  amend .dotted
    (fun reached present =>
      if decide (reached = .dotted) = assignment.path.parents.isEmpty then
        none
      else if (present.lookup assignment.path.key).isSome then
        none
      else
        some (.table reached
          (present ++ [(assignment.path.key, assignment.value)])))
    assignment.path.parents standing entries

/-- Carry out assignments one after another in a table. -/
def Assignment.placeAll :
    List Assignment → Standing → List (String × Value) → Option Value
  | [], standing, entries => some (.table standing entries)
  | first :: rest, standing, entries =>
      match first.place standing entries with
      | some (.table reached present) => placeAll rest reached present
      | _ => none

namespace Value

/-- Whether a value is a collection without members. -/
def isEmptyCollection : Value → Bool
  | .list items => items.isEmpty
  | .rows tables => tables.isEmpty
  | .table _ entries => entries.isEmpty
  | _ => false

/--
A field of a value that stands for a record.  A table holds fields by name and
a list by position, and a moment is a record of which no field is known; other
values are no records.
-/
def field?
    (value : Value)
    (position : Nat)
    (name : String) :
    Option (Option Value) :=
  match value with
  | .table _ entries => some (entries.lookup name)
  | .list items => some items[position]?
  | .rows tables => some tables[position]?
  | .moment _ => some none
  | _ => none

end Value

end Settings

end ManagedStack
