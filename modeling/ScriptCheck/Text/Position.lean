/-!
# Lines and columns

A byte offset is shown to people as a line and a column, both counted from one.
Columns count characters. An offset past the end means the end.
-/

namespace ScriptCheck.Text

/-- A place in a text as people count it. -/
structure Position where
  /-- Line number, from one. -/
  line : Nat
  /-- Number of the character in its line, from one. -/
  column : Nat
deriving DecidableEq

/-- Number of bytes of a character list in UTF-8. -/
def byteLength : List Char → Nat
  | [] => 0
  | char :: rest => char.utf8Size + byteLength rest

/-- The characters that fill the first `bytes` bytes. There is no answer when that
many bytes end inside a character. -/
def charsBefore? : Nat → List Char → Option (List Char)
  | 0, _ => some []
  | _, [] => some []
  | bytes, char :: chars =>
    if char.utf8Size ≤ bytes then
      (charsBefore? (bytes - char.utf8Size) chars).map (char :: ·)
    else none

/-- The position just after the given characters. -/
def positionAfter (before : List Char) : Position :=
  ⟨before.count '\n' + 1, (before.reverse.takeWhile (· ≠ '\n')).length + 1⟩

/-- The position of a byte offset, unless it lies inside a character. -/
def position? (text : String) (offset : Nat) : Option Position :=
  (charsBefore? offset text.toList).map positionAfter

end ScriptCheck.Text
