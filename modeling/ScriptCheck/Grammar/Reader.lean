import ScriptCheck.Token.Basic
import ScriptCheck.Tree.Script

/-!
# Reading tokens

A reader consumes tokens and grows nodes. It fails with the first syntax error.
Nodes are only ever added at the end of the table, and a reading that is tried
and fails leaves neither tokens consumed nor nodes behind. A reader that asks for a
token behind the end marker, repeats something without consuming a token or nests
without end has lost its way, which is a failure that no attempt hides.
-/

namespace ScriptCheck

/-- What a reader knows about the place it reads at. -/
structure Surroundings where
  /-- Whether `(x)` followed by a brace may open a proc literal. It may not in the
  head of a conditional, loop or switch, where the brace opens the body. -/
  procLiterals : Bool

/-- What has been read so far. -/
structure Progress where
  /-- Tokens not consumed yet, the end marker last. -/
  pending : List Token
  /-- Where the last consumed token ends. -/
  reached : Nat
  /-- Nodes completed so far. -/
  sprouts : Array Sprout

/-- A step of reading that yields a value. -/
def Reader (α : Type) : Type :=
  Surroundings → Progress → Except SyntaxError (α × Progress)

namespace Reader

/-- Reads nothing. -/
def done {α : Type} (value : α) : Reader α := fun _ progress => .ok (value, progress)

/-- Reads one thing after another. -/
def andThen {α β : Type} (first : Reader α) (next : α → Reader β) : Reader β :=
  fun surroundings progress =>
    match first surroundings progress with
    | .error error => .error error
    | .ok (value, later) => next value surroundings later

instance : Monad Reader where
  pure := done
  bind := andThen

/-- Fails with an error. -/
def fail {α : Type} (error : SyntaxError) : Reader α := fun _ _ => .error error

/-- Fails because the reading has lost its way. -/
def goAstray {α : Type} (fault : SyntaxFault) : Reader α := fail ⟨fault, ⟨0, 0⟩⟩

/-- The token at the front. -/
def front : Reader Token := fun surroundings progress =>
  match progress.pending with
  | [] => goAstray .outOfTokens surroundings progress
  | token :: _ => .ok (token, progress)

/-- What the token at the front is. -/
def peek : Reader TokenKind := do
  return (← front).kind

/-- What the token after the one at the front is. Nothing comes after the end marker, so it
stands for itself there. -/
def peekSecond : Reader TokenKind := fun surroundings progress =>
  match progress.pending with
  | [] => goAstray .outOfTokens surroundings progress
  | [last] => .ok (last.kind, progress)
  | _ :: second :: _ => .ok (second.kind, progress)

/-- Offset at which the token at the front starts. -/
def place : Reader Nat := do
  return (← front).span.start

/-- Consumes the token at the front; the end marker stays. -/
def advance : Reader Unit := fun surroundings progress =>
  match progress.pending with
  | [] => goAstray .outOfTokens surroundings progress
  | token :: rest =>
    if token.kind = .endOfFile then .ok ((), progress)
    else .ok ((), { progress with pending := rest, reached := token.span.stop })

/-- Fails at the token at the front. -/
def unexpected {α : Type} (wanted : String) : Reader α := do
  let found ← front
  fail ⟨.expected wanted found.kind, found.span⟩

/-- Whether the token at the front is of the given kind. -/
def isAt (kind : TokenKind) : Reader Bool := do
  return decide ((← peek) = kind)

/-- Consumes the token at the front if it is of the given kind. -/
def eatKind (kind : TokenKind) : Reader Bool := do
  if ← isAt kind then
    advance
    return true
  else
    return false

/-- Whether the given mark is at the front. -/
def isAtMark (symbol : String) : Reader Bool := isAt (.mark symbol)

/-- Consumes the given mark if it is at the front. -/
def eat (symbol : String) : Reader Bool := eatKind (.mark symbol)

/-- Consumes the given reserved word if it is at the front. -/
def eatKeyword (word : String) : Reader Bool := eatKind (.keyword word)

/-- Consumes a word that is an identifier everywhere else. -/
def eatWord (word : String) : Reader Bool := eatKind (.identifier word)

/-- Consumes the given mark or fails. -/
def expect (symbol : String) : Reader Unit := do
  if ← eat symbol then return () else unexpected (quoted symbol)

/-- Consumes the given reserved word or fails. -/
def expectKeyword (word : String) : Reader Unit := do
  if ← eatKeyword word then return () else unexpected (quoted word)

/-- Consumes a word that is an identifier everywhere else, or fails. -/
def expectWord (word : String) : Reader Unit := do
  if ← eatWord word then return () else unexpected (quoted word)

/-- Consumes an identifier. -/
def identifier : Reader String := do
  match ← peek with
  | .identifier name =>
    advance
    return name
  | _ => unexpected "an identifier"

/-- Consumes the name of a property, which may be a reserved word or a string. -/
def propertyName : Reader String := do
  match ← peek with
  | .identifier name =>
    advance
    return name
  | .string name =>
    advance
    return name
  | .keyword word =>
    advance
    return word
  | _ => unexpected "a property name"

/-- Consumes a string literal. -/
def stringLiteral : Reader String := do
  match ← peek with
  | .string contents =>
    advance
    return contents
  | _ => unexpected "a string literal"

/-- Completes a node that started at the given offset and ends with the last
consumed token. -/
def grow (form : Form) (start : Nat) : Reader NodeId := fun _ progress =>
  .ok (progress.sprouts.size,
    { progress with
      sprouts := progress.sprouts.push ⟨form, ⟨start, max progress.reached start⟩⟩ })

/-- Tries a reading; where it fails nothing has happened. -/
def attempt {α : Type} (reader : Reader α) : Reader (Option α) := fun surroundings progress =>
  match reader surroundings progress with
  | .ok (value, later) => .ok (some value, later)
  | .error error => if error.fault.isAstray then .error error else .ok (none, progress)

/-- Reads with proc literals allowed or not. -/
def withProcLiterals {α : Type} (allowed : Bool) (reader : Reader α) : Reader α :=
  fun surroundings progress => reader { surroundings with procLiterals := allowed } progress

/-- Whether a proc literal may start here. -/
def allowsProcLiterals : Reader Bool := fun surroundings progress =>
  .ok (surroundings.procLiterals, progress)

/-- How many tokens are left, the end marker included. -/
def remaining : Reader Nat := fun _ progress => .ok (progress.pending.length, progress)

/-- How one turn of a loop ends. -/
inductive Turn (σ β : Type) where
  /-- The loop goes on with this state. -/
  | again (state : σ)
  /-- The loop ends with this result. -/
  | finished (result : β)

/-- Goes on after a turn that has consumed a token, counted from the tokens that were
left before the turn. -/
def goOn {β : Type} (leftBefore : Nat) (next : Reader β) : Reader β := do
  if (← remaining) < leftBefore then next else goAstray .stalled

/-- Repeats a turn, at most `limit` times. -/
def loopWithin {σ β : Type} (turn : σ → Reader (Turn σ β)) : Nat → σ → Reader β
  | 0, _ => goAstray .stalled
  | limit + 1, state => do
    let left ← remaining
    match ← turn state with
    | .again next => goOn left (loopWithin turn limit next)
    | .finished result => return result

/-- Repeats a turn. Every turn that goes on must consume a token, so no loop takes more
turns than there are tokens left. -/
def loop {σ β : Type} (turn : σ → Reader (Turn σ β)) (start : σ) : Reader β := do
  loopWithin turn (← remaining) start

/-- Consumes the given mark as often as it comes. -/
def skipMarks (symbols : List String) : Reader Unit :=
  loop (fun _ => do
    match ← peek with
    | .mark symbol =>
      if symbols.contains symbol then
        advance
        return .again ()
      else return .finished ()
    | _ => return .finished ()) ()

/-- Items with commas between them up to the closing mark, which is consumed. A
comma may follow the last item. -/
def commaList {α : Type} (close : String) (item : Reader α) : Reader (List α) := do
  let items ← loop (fun items => do
    if ← isAtMark close then return .finished items
    else
      let next ← item
      if ← eat "," then return .again (next :: items) else return .finished (next :: items)) []
  expect close
  return items.reverse

/-- Items up to the closing mark, which is consumed, with any of the given marks
after each of them. -/
def itemsUntil {α : Type} (close : String) (separators : List String) (item : Reader α) :
    Reader (List α) := do
  let items ← loop (fun items => do
    if ← eat close then return .finished items
    else
      let next ← item
      skipMarks separators
      return .again (next :: items)) []
  return items.reverse

end Reader

/-- The readings that contain each other. Every reading gets the ones inside it
from such a record, so that nesting is bounded by the number of tokens. -/
structure Grammar where
  /-- Any expression. -/
  expression : Reader NodeId
  /-- An expression that binds tighter than every binary operator. -/
  unary : Reader NodeId
  /-- Any type expression. -/
  typeExpression : Reader NodeId
  /-- A member of a union type. -/
  typeMember : Reader NodeId
  /-- Statements in braces. -/
  block : Reader NodeId

/-- The grammar of texts that nest no deeper than allowed, with nothing allowed. -/
def Grammar.exhausted : Grammar where
  expression := Reader.goAstray .nestedTooDeeply
  unary := Reader.goAstray .nestedTooDeeply
  typeExpression := Reader.goAstray .nestedTooDeeply
  typeMember := Reader.goAstray .nestedTooDeeply
  block := Reader.goAstray .nestedTooDeeply

end ScriptCheck
