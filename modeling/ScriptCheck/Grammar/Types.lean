import ScriptCheck.Grammar.Reader

/-!
# Grammar of signatures and type expressions
-/

namespace ScriptCheck.Grammar

open Reader

/-- An optional written type after a colon. -/
def ascription (grammar : Grammar) : Reader (Option NodeId) := do
  if ← eat ":" then
    let written ← grammar.typeExpression
    return some written
  else return none

/-- A type parameter with an optional bound. -/
def typeParam (grammar : Grammar) : Reader NodeId := do
  let start ← place
  let name ← identifier
  if ← eatKeyword "extends" then
    let bound ← grammar.typeExpression
    grow (.typeParam name (some bound)) start
  else grow (.typeParam name none) start

/-- Optional type parameters between angle brackets. -/
def typeParams (grammar : Grammar) : Reader (List NodeId) := do
  if ← eat "<" then commaList ">" (typeParam grammar) else return []

/-- A parameter with an optional type. -/
def param (grammar : Grammar) : Reader NodeId := do
  let start ← place
  let name ← identifier
  let written ← ascription grammar
  grow (.param name written) start

/-- Parameters between parentheses. -/
def params (grammar : Grammar) : Reader (List NodeId) := do
  expect "("
  commaList ")" (param grammar)

/-- Type arguments between angle brackets. -/
def typeArgs (grammar : Grammar) : Reader (List NodeId) := do
  expect "<"
  commaList ">" grammar.typeExpression

/-- The rest of a function type after its parameters: an arrow and a result for a
func type, empty braces for a proc type. -/
def functionType (grammar : Grammar) (start : Nat) (typeParams params : List NodeId) :
    Reader NodeId := do
  if ← eat "=>" then
    let result ← grammar.typeExpression
    grow (.funcType typeParams params result) start
  else
    expect "\x7b"
    expect "\x7d"
    grow (.procType typeParams params) start

/-- The built-in type that a word other than `nil` names. -/
def primitiveOf? : String → Option Primitive
  | "string" => some .string
  | "number" => some .number
  | "boolean" => some .boolean
  | "unknown" => some .unknown
  | "any" => some .any
  | _ => none

/-- A type that starts with an identifier, which is already consumed. -/
def wordType (grammar : Grammar) (start : Nat) (name : String) : Reader NodeId := do
  match primitiveOf? name with
  | some primitive => grow (.primitiveType primitive) start
  | none =>
    if ← isAtMark "<" then
      if name = "Iterator" ∨ name = "Plan" then
        advance
        let inner ← grammar.typeExpression
        expect ">"
        grow (if name = "Iterator" then .iteratorType inner else .planType inner) start
      else
        let args ← typeArgs grammar
        grow (.namedType name args) start
    else grow (.namedType name []) start

/-- An entry of an object type. -/
def objectTypeEntry (grammar : Grammar) : Reader NodeId := do
  let start ← place
  let name ← propertyName
  let optional ← eat "?"
  expect ":"
  let value ← grammar.typeExpression
  grow (.objectTypeEntry name optional value) start

/-- An indexer type, at its opening brace. -/
def indexerType (grammar : Grammar) (start : Nat) : Reader NodeId := do
  advance
  advance
  let key ← grammar.typeExpression
  expect "]"
  expect ":"
  let value ← grammar.typeExpression
  let _ ← eat ","
  expect "\x7d"
  grow (.indexerType key value) start

/-- A type that starts with a parenthesis: a function type if one can be read,
else a type in parentheses. -/
def parenthesizedType (grammar : Grammar) (start : Nat) : Reader NodeId := do
  let head ← attempt do
    let params ← params grammar
    if (← isAtMark "=>") || (← isAtMark "\x7b") then return params else unexpected (quoted "=>")
  match head with
  | some params => functionType grammar start [] params
  | none =>
    advance
    let inner ← grammar.typeExpression
    expect ")"
    grow (.parenthesizedType inner) start

/-- A literal type with a minus sign, which is already consumed. -/
def negativeType (start : Nat) : Reader NodeId := do
  match ← peek with
  | .number value =>
    advance
    grow (.literalType (.number value.negate)) start
  | _ => unexpected "a number"

/-- A type expression without union, array or readonly parts around it. -/
def typeAtom (grammar : Grammar) : Reader NodeId := do
  let start ← place
  match ← peek with
  | .identifier name =>
    advance
    wordType grammar start name
  | .keyword "nil" =>
    advance
    grow (.primitiveType .nil) start
  | .keyword "true" =>
    advance
    grow (.literalType (.boolean true)) start
  | .keyword "false" =>
    advance
    grow (.literalType (.boolean false)) start
  | .number value =>
    advance
    grow (.literalType (.number value)) start
  | .mark "-" =>
    advance
    negativeType start
  | .string contents =>
    advance
    grow (.literalType (.string contents)) start
  | .mark "[" =>
    advance
    let elements ← commaList "]" grammar.typeExpression
    grow (.tupleType elements) start
  | .mark "\x7b" =>
    if (← peekSecond) = .mark "[" then indexerType grammar start
    else
      advance
      let entries ← commaList "\x7d" (objectTypeEntry grammar)
      grow (.objectType entries) start
  | .mark "<" =>
    let typeParams ← typeParams grammar
    let params ← params grammar
    functionType grammar start typeParams params
  | .mark "(" => parenthesizedType grammar start
  | _ => unexpected "a type"

/-- A member of a union: a readonly type, or an atom with array suffixes. -/
def readTypeMember (grammar : Grammar) : Reader NodeId := do
  let start ← place
  if ← eatKeyword "readonly" then
    let inner ← grammar.typeMember
    grow (.readonlyType inner) start
  else
    let atom ← typeAtom grammar
    loop (fun element => do
      if (← isAtMark "[") && decide ((← peekSecond) = .mark "]") then
        advance
        advance
        let array ← grow (.arrayType element) start
        return .again array
      else return .finished element) atom

/-- A type expression; a union may start with a bar. -/
def readTypeExpression (grammar : Grammar) : Reader NodeId := do
  let start ← place
  let _ ← eat "|"
  let first ← readTypeMember grammar
  if ← isAtMark "|" then
    let members ← loop (fun members => do
      if ← eat "|" then
        let next ← readTypeMember grammar
        return .again (next :: members)
      else return .finished members) [first]
    grow (.unionType members.reverse) start
  else return first

end ScriptCheck.Grammar
