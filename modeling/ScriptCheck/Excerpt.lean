import ScriptCheck.Span
import ScriptCheck.Text.Blank
import ScriptCheck.Text.Row
import ScriptCheck.Text.Width

/-!
# Excerpts

An excerpt shows the part of a text that a span covers, with a note. A span within one
row is underlined, and a mark in its middle leads to the note. A span over several rows
is bracketed from its first row to its last, and the rows between are left out.
-/

namespace ScriptCheck

/-- A part of a text to be shown. -/
structure Excerpt where
  /-- How many rows come before the first row. -/
  firstIndex : Nat
  /-- The row in which the part starts. -/
  firstRow : List Char
  /-- How many characters of the first row come before the part. -/
  start : Nat
  /-- How many rows come before the last row. -/
  lastIndex : Nat
  /-- The row in which the part stops. -/
  lastRow : List Char
  /-- How many characters of the last row come before the end of the part. -/
  stop : Nat

namespace Excerpt

/-- The part of a text that a span covers, at least one byte. There is no such part when
the span reaches past the end of the text or into a character. -/
def ofSpan? (text : String) (span : Span) : Option Excerpt := do
  let first ← Text.place? text span.start
  let last ← Text.place? text (span.visible.stop - 1)
  let start ← first.column?
  let stop ← last.columnAfter?
  return ⟨first.index, first.row, start, last.index, last.row, stop⟩

/-- A character so many times. -/
def times (count : Nat) (char : Char) : String := String.ofList (List.replicate count char)

/-- A row without the blanks at its end. -/
def trimEnd (row : List Char) : List Char := (row.reverse.dropWhile Text.isBlank).reverse

/-- How many columns of the display the character at an index takes. A tab reaches to the
next multiple of four, any other blank takes one column. -/
def width (char : Char) (index : Nat) : Nat :=
  if char = '\t' then (index / 4 + 1) * 4 - index
  else if Text.isBlank char then 1
  else Text.columns char

/-- A row as it is displayed, with spaces for blanks. -/
def shown (row : List Char) : String :=
  String.ofList ((trimEnd row).zipIdx.flatMap fun (char, index) =>
    if Text.isBlank char then List.replicate (width char index) ' ' else [char])

/-- The widths of the first characters of a row. What comes after the last character that
is displayed is one column wide. -/
def widths (row : List Char) (count : Nat) : List Nat :=
  let displayed := (trimEnd row).zipIdx.map fun (char, index) => width char index
  (displayed ++ List.replicate count 1).take count

/-- What is drawn below one character: the first column, and all its other columns. -/
structure Stroke where
  /-- Drawn in the first column. -/
  head : Char
  /-- Drawn in every other column. -/
  tail : Char

/-- A stroke of the given width. -/
def Stroke.draw (stroke : Stroke) : Nat → List Char
  | 0 => []
  | more + 1 => stroke.head :: List.replicate more stroke.tail

/-- The strokes below the first characters of a row, by index. -/
def below (row : List Char) (count : Nat) (stroke : Nat → Stroke) : String :=
  String.ofList ((widths row count).zipIdx.flatMap fun (width, index) =>
    (stroke index).draw width)

/-- Stroke that leaves its columns empty. -/
def gap : Stroke := ⟨' ', ' '⟩

/-- Stroke that goes through its columns. -/
def bar : Stroke := ⟨'─', '─'⟩

/-- Number of the first row, from one. -/
def firstNumber (excerpt : Excerpt) : Nat := excerpt.firstIndex + 1

/-- Number of the last row, from one. -/
def lastNumber (excerpt : Excerpt) : Nat := excerpt.lastIndex + 1

/-- How many digits row numbers are written with. -/
def digits (excerpt : Excerpt) : Nat := (toString excerpt.lastNumber).length

/-- The space left of the rows. -/
def margin (excerpt : Excerpt) : String := times (excerpt.digits + 2) ' '

/-- The space left of a row, with its number. -/
def numbered (excerpt : Excerpt) (number : Nat) : String :=
  let text := toString number
  " " ++ times (excerpt.digits - text.length) ' ' ++ text ++ " "

/-- A row with its underlined part and the note below. -/
def underlined (excerpt : Excerpt) (note : String) : List String :=
  let row := excerpt.firstRow
  let middle := (excerpt.start + excerpt.stop) / 2
  let count := excerpt.stop + 2
  let underline := below row count fun index =>
    if index = middle then ⟨'┬', '─'⟩
    else if excerpt.start ≤ index && index < excerpt.stop then bar
    else gap
  let lead := below row count fun index =>
    if index = middle then ⟨'╰', '─'⟩
    else if middle < index then bar
    else gap
  [excerpt.numbered excerpt.firstNumber ++ "│ " ++ shown row,
    excerpt.margin ++ "│ " ++ underline,
    excerpt.margin ++ "│ " ++ lead ++ " " ++ note]

/-- The first and the last row in a bracket, which leads to the note. -/
def bracketed (excerpt : Excerpt) (note : String) : List String :=
  let count := excerpt.lastRow.length + 2
  let omitted := if excerpt.firstNumber < excerpt.lastIndex then [excerpt.margin ++ "┆ ┆   "] else []
  [excerpt.numbered excerpt.firstNumber ++ "│ ╭─▶ " ++ shown excerpt.firstRow] ++ omitted ++
    [excerpt.numbered excerpt.lastNumber ++ "│ ├─▶ " ++ shown excerpt.lastRow,
      excerpt.margin ++ "│ │   " ++ below excerpt.lastRow count fun _ => gap,
      excerpt.margin ++ "│ ╰───" ++ (below excerpt.lastRow count fun _ => bar) ++ " " ++ note]

/-- The excerpt below a heading that says where it is from. -/
def render (excerpt : Excerpt) (source note : String) : List String :=
  let place := source ++ ":" ++ toString excerpt.firstNumber ++ ":" ++ toString (excerpt.start + 1)
  let rows :=
    if excerpt.firstIndex = excerpt.lastIndex then excerpt.underlined note
    else excerpt.bracketed note
  [excerpt.margin ++ "╭─[ " ++ place ++ " ]", excerpt.margin ++ "│"] ++ rows ++
    [times (excerpt.digits + 2) '─' ++ "╯"]

end Excerpt

end ScriptCheck
