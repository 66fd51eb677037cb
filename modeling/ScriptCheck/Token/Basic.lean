import ScriptCheck.Number.Shortest
import ScriptCheck.Span

/-!
# Tokens and syntax errors

A source text is cut into tokens, the last of which marks the end of the file.
A syntax error names what is wrong and where; there is at most one for a text,
because reading stops at the first.
-/

namespace ScriptCheck

/-- What a token is, without its place. -/
inductive TokenKind where
  /-- A name that is not reserved. -/
  | identifier (name : String)
  /-- A reserved word. -/
  | keyword (word : String)
  /-- A number literal. -/
  | number (value : Number)
  /-- A string literal, with its escapes resolved. -/
  | string (contents : String)
  /-- Code of the host language, taken as it is. -/
  | escape (code : String)
  /-- An operator or another mark. -/
  | mark (symbol : String)
  /-- The end of the source text. -/
  | endOfFile
deriving DecidableEq, Inhabited

/-- A token with the bytes it covers. -/
structure Token where
  /-- What the token is. -/
  kind : TokenKind
  /-- Where it stands. -/
  span : Span
deriving DecidableEq, Inhabited

/-- Puts a text between backquotes. -/
def quoted (text : String) : String := "`" ++ text ++ "`"

/-- How an error message speaks of a token. -/
def TokenKind.describe : TokenKind → String
  | identifier name => "identifier " ++ quoted name
  | keyword word => "keyword " ++ quoted word
  | number value => "number " ++ quoted value.text
  | string _ => "string literal"
  | escape _ => "escape block"
  | mark symbol => quoted symbol
  | endOfFile => "end of file"

/-- The name of a token's class. -/
def TokenKind.className : TokenKind → String
  | identifier _ => "ident"
  | keyword _ => "keyword"
  | number _ => "number"
  | string _ => "string"
  | escape _ => "escape"
  | mark _ => "punct"
  | endOfFile => "eof"

/-- What a token carries besides its class, as text. -/
def TokenKind.contents : TokenKind → String
  | identifier name => name
  | keyword word => word
  | number value => value.text
  | string contents => contents
  | escape code => code
  | mark symbol => symbol
  | endOfFile => ""

/-- Why a source text is not a module. -/
inductive SyntaxFault where
  /-- A block comment is not closed. -/
  | unterminatedComment
  /-- A host-language escape is not closed. -/
  | unterminatedEscape
  /-- A string literal is not closed. -/
  | unterminatedString
  /-- No token starts with this character. -/
  | unexpectedCharacter (char : Char)
  /-- The grammar wants one thing and the text has another. -/
  | expected (wanted : String) (found : TokenKind)
  /-- The text nests deeper than it is long, which no text does. -/
  | nestedTooDeeply
  /-- A token behind the end of the file is asked for, which no reading does. -/
  | outOfTokens
  /-- Something is repeated without a token being consumed, which no reading does. -/
  | stalled
deriving DecidableEq

/-- Whether the reading has lost its way, and nothing is said about the text. -/
def SyntaxFault.isAstray : SyntaxFault → Bool
  | nestedTooDeeply => true
  | outOfTokens => true
  | stalled => true
  | _ => false

/-- A syntax fault with its place. -/
structure SyntaxError where
  /-- What is wrong. -/
  fault : SyntaxFault
  /-- Where it is wrong. -/
  span : Span
deriving DecidableEq

/-- Wording of a syntax fault. -/
def SyntaxFault.message : SyntaxFault → String
  | unterminatedComment => "unterminated block comment"
  | unterminatedEscape => "unterminated escape block, expected " ++ quoted "#js"
  | unterminatedString => "unterminated string literal"
  | unexpectedCharacter char => "unexpected character " ++ quoted (String.singleton char)
  | expected wanted found => "expected " ++ wanted ++ ", found " ++ found.describe
  | nestedTooDeeply => "nested too deeply"
  | outOfTokens => "out of tokens"
  | stalled => "stalled"

/-- Wording of a syntax error. -/
def SyntaxError.message (error : SyntaxError) : String := error.fault.message

end ScriptCheck
