import ScriptCheck.Text.Position

/-!
# Rows of a text

A text is laid out in rows. Unlike lines, which only a line feed ends, a row ends at any
character that moves to a new row of a page. Each row keeps the characters that end it.
-/

namespace ScriptCheck.Text

/-- Whether a character ends a row. -/
def endsRow (char : Char) : Bool :=
  ['\n', '\r', '\x0b', '\x0c', '\u0085', '\u2028', '\u2029'].contains char

/-- Puts a character in front of the first row. -/
def extendRow (char : Char) : List (List Char) → List (List Char)
  | [] => [[char]]
  | row :: rows => (char :: row) :: rows

/-- The rows that characters fill. A carriage return and the line feed after it end one
row together. -/
def rowsOf : List Char → List (List Char)
  | [] => []
  | '\r' :: '\n' :: rest => ['\r', '\n'] :: rowsOf rest
  | char :: rest => if endsRow char then [char] :: rowsOf rest else extendRow char (rowsOf rest)

/-- The rows of a text. An empty text has one empty row. -/
def rows (text : String) : List (List Char) :=
  match rowsOf text.toList with
  | [] => [[]]
  | rows => rows

/-- A place in a row. -/
structure RowPlace where
  /-- How many rows come before. -/
  index : Nat
  /-- The characters of the row. -/
  row : List Char
  /-- How many bytes of the row come before. -/
  bytes : Nat
deriving DecidableEq

/-- The place of a byte offset in rows, of which the first has the given index. What lies
past the end is in the last row. -/
def placeFrom? (index : Nat) : List (List Char) → Nat → Option RowPlace
  | [], _ => none
  | [row], offset => some ⟨index, row, offset⟩
  | row :: next :: rows, offset =>
    if offset < byteLength row then some ⟨index, row, offset⟩
    else placeFrom? (index + 1) (next :: rows) (offset - byteLength row)

/-- The place of a byte offset in a text. -/
def place? (text : String) (offset : Nat) : Option RowPlace := placeFrom? 0 (rows text) offset

namespace RowPlace

/-- How many characters of the row come before a place. Past the end of the row these are
all its characters. -/
def column? (place : RowPlace) : Option Nat :=
  (charsBefore? place.bytes place.row).map List.length

/-- How many characters of the row come before the byte after a place. There is no answer
when that byte is not the end of a character of the row. -/
def columnAfter? (place : RowPlace) : Option Nat :=
  if place.bytes < byteLength place.row then
    (charsBefore? (place.bytes + 1) place.row).map List.length
  else none

end RowPlace

end ScriptCheck.Text
