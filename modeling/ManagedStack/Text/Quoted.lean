import ManagedStack.Text.DefaultIgnorable
import ManagedStack.Text.GraphemeExtend
import ManagedStack.Text.Printable

namespace ManagedStack

/-!
# Text between quotes

A quoted text shows what it holds even where that could not be seen, and ends where
its closing quote stands.  A few characters have an escape of their own.  Any other
that is not printable, may be drawn as nothing, or would be drawn over the character
before it, is given by its code point.
-/

/-- The sign that stands for a character after a backslash, if it has one. -/
def escapeSign? : Char → Option Char
  | '"' => some '"'
  | '\\' => some '\\'
  | '\n' => some 'n'
  | '\r' => some 'r'
  | '\t' => some 't'
  | '\x00' => some '0'
  | _ => none

/-- A character given by its code point in hexadecimal. -/
def codePointEscape (character : Char) : List Char :=
  ['\\', 'u', '\x7b'] ++ Nat.toDigits 16 character.toNat ++ ['\x7d']

/-- Whether a character that stands for itself is seen in a place of its own. -/
def isSeenAlone (character : Char) : Bool :=
  isPrintable character && !isDefaultIgnorable character &&
    !isDrawnOver character

/-- A character as it stands between quotes. -/
def quotedCharacter (character : Char) : List Char :=
  match escapeSign? character with
  | some sign => ['\\', sign]
  | none =>
      if isSeenAlone character then
        [character]
      else
        codePointEscape character

/-- A text between quotes. -/
def quoted (text : String) : String :=
  String.ofList ('"' :: text.toList.flatMap quotedCharacter ++ ['"'])

end ManagedStack
