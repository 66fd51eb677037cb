import ScriptCheck.Text.Blank
import ScriptCheck.Text.Letter
import ScriptCheck.Text.Numeral
import ScriptCheck.Text.Position
import ScriptCheck.Token.Basic

/-!
# Cutting text into tokens

Each reader looks at the front of a character list and returns what it found,
the characters it used and the characters left over. At every place the readers
are tried in a fixed order: host-language escape, number, string, word, mark.
-/

namespace ScriptCheck.Lexer

/-- Something read at the front of a character list. -/
structure Piece (α : Type) where
  /-- What was read. -/
  value : α
  /-- The characters it was read from. -/
  lexeme : List Char
  /-- The characters that follow them. -/
  rest : List Char

/-- The same piece with its value changed. -/
def Piece.map {α β : Type} (change : α → β) (piece : Piece α) : Piece β :=
  ⟨change piece.value, piece.lexeme, piece.rest⟩

/-- The reserved words. Other words with a meaning in some places, such as `from`,
are identifiers everywhere else. -/
def keywords : List String :=
  ["as", "autorun", "case", "const", "default", "else", "export", "extends", "false", "for",
    "func", "if", "import", "let", "nil", "nominal", "of", "private", "proc", "public",
    "readonly", "store", "switch", "test", "this", "true", "type", "visible", "while"]

/-- The marks, those of two characters before those of one. -/
def marks : List String :=
  ["|>", "??", "?.", "||", "&&", "==", "!=", "<=", ">=", "=>", "..", "+", "-", "*", "/", "<",
    ">", "=", "!", "(", ")", "\x7b", "\x7d", "[", "]", ",", ":", ".", "?", "|", ";"]

/-- Characters left after a given beginning, if the list begins that way. -/
def after? : List Char → List Char → Option (List Char)
  | [], chars => some chars
  | _ :: _, [] => none
  | wanted :: more, char :: chars => if wanted = char then after? more chars else none

/-- Everything up to the first occurrence of `stop`, with `stop` left out of the
value and counted as used. -/
def through? (stop : List Char) : List Char → Option (Piece (List Char))
  | [] => (after? stop []).map fun rest => ⟨[], stop, rest⟩
  | char :: chars =>
    match after? stop (char :: chars) with
    | some rest => some ⟨[], stop, rest⟩
    | none =>
      (through? stop chars).map fun piece =>
        ⟨char :: piece.value, char :: piece.lexeme, piece.rest⟩

/-- Text between two fixed beginnings and ends. -/
def between? (start stop : List Char) (chars : List Char) : Option (Piece (List Char)) :=
  match after? start chars with
  | none => none
  | some inside =>
    (through? stop inside).map fun piece => ⟨piece.value, start ++ piece.lexeme, piece.rest⟩

/-- Blanks or one comment at the front of the list. -/
def gapOnce? (chars : List Char) : Option (Piece Unit) :=
  let blanks := chars.takeWhile Text.isBlank
  if !blanks.isEmpty then some ⟨(), blanks, chars.dropWhile Text.isBlank⟩
  else
    match after? ['/', '/'] chars with
    | some comment =>
      some ⟨(), ['/', '/'] ++ comment.takeWhile (· ≠ '\n'), comment.dropWhile (· ≠ '\n')⟩
    | none => (between? ['/', '*'] ['*', '/'] chars).map (Piece.map fun _ => ())

/-- Blanks and comments at the front of the list, at most `limit` runs of them. -/
def gap : Nat → List Char → Piece Unit
  | 0, chars => ⟨(), [], chars⟩
  | limit + 1, chars =>
    match gapOnce? chars with
    | none => ⟨(), [], chars⟩
    | some first =>
      let more := gap limit first.rest
      ⟨(), first.lexeme ++ more.lexeme, more.rest⟩

/-- A host-language escape `js# … #js`. -/
def escape? (chars : List Char) : Option (Piece TokenKind) :=
  (between? ['j', 's', '#'] ['#', 'j', 's'] chars).map
    (Piece.map fun code => .escape (String.ofList code))

/-- The fraction of a number: a point followed by at least one digit. Without a
digit the point is not part of the number, so that `1..5` is a range. -/
def fraction (chars : List Char) : Piece (List Char) :=
  match chars with
  | '.' :: more =>
    let digits := more.takeWhile Char.isDigit
    if digits.isEmpty then ⟨[], [], chars⟩
    else ⟨digits, '.' :: digits, more.dropWhile Char.isDigit⟩
  | _ => ⟨[], [], chars⟩

/-- The exponent of a number: `e` or `E`, an optional sign and at least one digit. -/
def exponent (chars : List Char) : Piece Int :=
  match chars with
  | [] => ⟨0, [], chars⟩
  | letter :: more =>
    if letter = 'e' ∨ letter = 'E' then
      let sign := more.take 1 |>.filter fun char => char = '+' ∨ char = '-'
      let unsigned := more.drop sign.length
      let digits := unsigned.takeWhile Char.isDigit
      if digits.isEmpty then ⟨0, [], chars⟩
      else
        let value : Int := Number.digitsValue digits
        ⟨if sign = ['-'] then -value else value, letter :: sign ++ digits,
          unsigned.dropWhile Char.isDigit⟩
    else ⟨0, [], chars⟩

/-- A number literal. -/
def number? (chars : List Char) : Option (Piece TokenKind) :=
  let whole := chars.takeWhile Char.isDigit
  if whole.isEmpty then none
  else
    let places := fraction (chars.dropWhile Char.isDigit)
    let power := exponent places.rest
    some ⟨.number (Number.ofParts false whole places.value power.value),
      whole ++ places.lexeme ++ power.lexeme, power.rest⟩

/-- The character that an escaped character stands for. -/
def unescaped (char : Char) : Char :=
  if char = 'n' then '\n'
  else if char = 't' then '\t'
  else if char = 'r' then '\r'
  else if char = '0' then '\x00'
  else char

/-- Contents of a string up to its closing quote, which is counted as used. -/
def stringTail? (quote : Char) : List Char → Option (Piece (List Char))
  | [] => none
  | char :: chars =>
    if char = quote then some ⟨[], [char], chars⟩
    else if char = '\\' then
      match chars with
      | [] => none
      | next :: more =>
        (stringTail? quote more).map fun piece =>
          ⟨unescaped next :: piece.value, char :: next :: piece.lexeme, piece.rest⟩
    else
      (stringTail? quote chars).map fun piece =>
        ⟨char :: piece.value, char :: piece.lexeme, piece.rest⟩

/-- Whether the character opens and closes strings. -/
def isQuote (char : Char) : Bool := char == '\'' || char == '"'

/-- A string literal in single or double quotes; it may run over several lines. -/
def string? : List Char → Option (Piece TokenKind)
  | [] => none
  | quote :: chars =>
    if isQuote quote then
      (stringTail? quote chars).map fun piece =>
        ⟨.string (String.ofList piece.value), quote :: piece.lexeme, piece.rest⟩
    else none

/-- Whether the character may start a word. -/
def startsWord (char : Char) : Bool := Text.isLetter char || char == '_' || char == '$'

/-- Whether the character may continue a word. -/
def continuesWord (char : Char) : Bool := startsWord char || Text.isNumeral char

/-- A reserved word or an identifier. -/
def word? : List Char → Option (Piece TokenKind)
  | [] => none
  | first :: chars =>
    if startsWord first then
      let letters := first :: chars.takeWhile continuesWord
      let name := String.ofList letters
      some ⟨if keywords.contains name then .keyword name else .identifier name, letters,
        chars.dropWhile continuesWord⟩
    else none

/-- The first mark of the list that the characters begin with. -/
def mark? (chars : List Char) : Option (Piece TokenKind) :=
  marks.findSome? fun symbol =>
    (after? symbol.toList chars).map fun rest => ⟨.mark symbol, symbol.toList, rest⟩

/-- The token at the front of the list. -/
def token? (chars : List Char) : Option (Piece TokenKind) :=
  (escape? chars).or <| (number? chars).or <| (string? chars).or <| (word? chars).or (mark? chars)

/-- What is wrong with characters that begin with no token. -/
def fault (first : Char) (chars : List Char) : SyntaxFault :=
  if (after? ['/', '*'] (first :: chars)).isSome then .unterminatedComment
  else if (after? ['j', 's', '#'] (first :: chars)).isSome then .unterminatedEscape
  else if isQuote first then .unterminatedString
  else .unexpectedCharacter first

/-- Tokens of a character list that starts at byte `offset`, without the end
marker. Every round uses at least one character, so a limit beyond the number of
characters is never reached. -/
def tokensFrom : Nat → Nat → List Char → Except SyntaxError (List Token)
  | 0, offset, _ => .error ⟨.stalled, ⟨offset, offset⟩⟩
  | limit + 1, offset, chars =>
    let blank := gap chars.length chars
    let start := offset + Text.byteLength blank.lexeme
    match blank.rest with
    | [] => .ok []
    | first :: more =>
      match token? (first :: more) with
      | none => .error ⟨fault first more, ⟨start, start + 1⟩⟩
      | some piece =>
        let stop := start + Text.byteLength piece.lexeme
        (tokensFrom limit stop piece.rest).map (⟨piece.value, ⟨start, stop⟩⟩ :: ·)

/-- Tokens of a text, without the end marker. -/
def tokens (chars : List Char) : Except SyntaxError (List Token) :=
  tokensFrom (chars.length + 1) 0 chars

end ScriptCheck.Lexer

namespace ScriptCheck

/-- The tokens of a source text, ending with a single end marker. -/
def tokenize (source : String) : Except SyntaxError (List Token) :=
  let size := Text.byteLength source.toList
  (Lexer.tokens source.toList).map (· ++ [⟨.endOfFile, ⟨size, size⟩⟩])

end ScriptCheck
