import ScriptCheck.Grammar.Types

/-!
# Grammar of expressions

From loosest to tightest: pipes, the binary operators level by level with ranges
between comparisons and sums, unary operators, casts, and last the calls,
property accesses and indexing that follow a primary expression.
-/

namespace ScriptCheck.Grammar

open Reader

/-- A level of binary operators. -/
inductive Level where
  /-- Operators that associate to the left. -/
  | operators (choices : List (String × BinaryOperator))
  /-- The range mark, which does not associate. -/
  | range

/-- The levels of binary operators, loosest first. -/
def levels : List Level :=
  [.operators [("??", .orElse)],
    .operators [("||", .either)],
    .operators [("&&", .both)],
    .operators [("==", .equal), ("!=", .notEqual)],
    .operators [("<=", .lessOrEqual), (">=", .greaterOrEqual), ("<", .less), (">", .greater)],
    .range,
    .operators [("+", .add), ("-", .subtract)],
    .operators [("*", .multiply), ("/", .divide)]]

/-- The binary operator at the front, if it is one of the choices. -/
def operatorAt (choices : List (String × BinaryOperator)) : Reader (Option BinaryOperator) := do
  match ← peek with
  | .mark symbol => return choices.lookup symbol
  | _ => return none

/-- A name, an optional type and a value: the rest of a declaration. -/
structure Definition where
  /-- The declared name. -/
  name : String
  /-- The written type. -/
  ascription : Option NodeId
  /-- The expression that gives the value. -/
  value : NodeId

/-- Reads the rest of a declaration. -/
def definition (grammar : Grammar) : Reader Definition := do
  let name ← identifier
  let written ← ascription grammar
  expect "="
  let value ← grammar.expression
  return ⟨name, written, value⟩

/-- Arguments between parentheses. -/
def args (grammar : Grammar) : Reader (List NodeId) := do
  expect "("
  withProcLiterals true (commaList ")" grammar.expression)

/-- An expression in front of braces. -/
def condition (grammar : Grammar) : Reader NodeId := withProcLiterals false grammar.expression

/-- An expression in braces, the branch of a conditional expression. -/
def bracedExpression (grammar : Grammar) : Reader NodeId := do
  expect "\x7b"
  let inner ← withProcLiterals true grammar.expression
  expect "\x7d"
  return inner

/-- The arms of a conditional and what holds otherwise. -/
structure Branches where
  /-- Arms with a condition, in order. -/
  cases : List NodeId
  /-- The last branch, without a condition. -/
  otherwise : Option NodeId

/-- One arm of a conditional after its word. -/
def branch (grammar : Grammar) (outcome : Reader NodeId) : Reader NodeId := do
  let start ← place
  let condition ← condition grammar
  let result ← outcome
  grow (.ifCase condition result) start

/-- The rest of a conditional after its first word. -/
def branches (grammar : Grammar) (outcome : Reader NodeId) : Reader Branches :=
  loop (fun cases => do
    let arm ← branch grammar outcome
    let cases := arm :: cases
    if ← eatKeyword "else" then
      if ← eatKeyword "if" then return .again cases
      else
        let last ← outcome
        return .finished ⟨cases.reverse, some last⟩
    else return .finished ⟨cases.reverse, none⟩) []

/-- The rest of a function literal after its parameters and result type. -/
def functionBody (grammar : Grammar) (start : Nat) (typeParams params : List NodeId)
    (result : Option NodeId) : Reader NodeId := do
  if ← eat "=>" then
    let body ← grammar.expression
    grow (.func typeParams params result body) start
  else if result.isNone && (← isAtMark "\x7b") then
    let body ← grammar.block
    grow (.proc typeParams params body) start
  else unexpected (quoted "=>")

/-- Parameters and result type of a function literal without type parameters, up to
the arrow or brace that shows it to be one. -/
def lambdaHead (grammar : Grammar) : Reader (List NodeId × Option NodeId) := do
  let params ← params grammar
  let result ← ascription grammar
  let opensProc := result.isNone && (← isAtMark "\x7b") && (← allowsProcLiterals)
  if (← isAtMark "=>") || opensProc then return (params, result) else unexpected (quoted "=>")

/-- An expression that starts with a parenthesis: a function literal if one can be
read, else an expression in parentheses. -/
def parenthesized (grammar : Grammar) (start : Nat) : Reader NodeId := do
  match ← attempt (lambdaHead grammar) with
  | some (params, result) => functionBody grammar start [] params result
  | none =>
    advance
    let inner ← withProcLiterals true grammar.expression
    expect ")"
    grow (.parenthesized inner) start

/-- An entry of an object literal. A name alone stands for itself and the variable
of that name. -/
def objectEntry (grammar : Grammar) : Reader NodeId := do
  let start ← place
  let key ← propertyName
  if ← eat ":" then
    let value ← grammar.expression
    grow (.objectEntry key value) start
  else
    let value ← grow (.identifier key) start
    grow (.objectEntry key value) start

/-- The arms of a switch read so far. -/
structure Arms where
  /-- Arms with a test, last one first. -/
  cases : List NodeId
  /-- The latest default. -/
  otherwise : Option NodeId

/-- An arm of a switch with a test. -/
def switchCase (grammar : Grammar) : Reader NodeId := do
  let start ← place
  expectKeyword "case"
  let test ← grammar.expression
  expect ":"
  let outcome ← grammar.expression
  grow (.switchCase test outcome) start

/-- One arm of a switch. -/
def switchArm (grammar : Grammar) (arms : Arms) : Reader Arms := do
  if ← eatKeyword "default" then
    expect ":"
    let outcome ← grammar.expression
    return { arms with otherwise := some outcome }
  else
    let arm ← switchCase grammar
    return { arms with cases := arm :: arms.cases }

/-- A switch after its first word. -/
def switch (grammar : Grammar) (start : Nat) : Reader NodeId := do
  let value ← condition grammar
  expect "\x7b"
  let arms ← withProcLiterals true (loop (fun arms => do
    if ← eat "\x7d" then return .finished arms
    else
      let next ← switchArm grammar arms
      skipMarks [","]
      return .again next) ⟨[], none⟩)
  grow (.switch value arms.cases.reverse arms.otherwise) start

/-- An expression that starts with an identifier: a function of one parameter if an
arrow follows, else the identifier. -/
def named (grammar : Grammar) (start : Nat) (name : String) : Reader NodeId := do
  let next ← peekSecond
  advance
  if next = .mark "=>" then
    let param ← grow (.param name none) start
    advance
    let body ← grammar.expression
    grow (.func [] [param] none body) start
  else grow (.identifier name) start

/-- An expression that no operator, call or access surrounds. -/
def primary (grammar : Grammar) : Reader NodeId := do
  let start ← place
  match ← peek with
  | .number value =>
    advance
    grow (.number value) start
  | .string contents =>
    advance
    grow (.string contents) start
  | .escape code =>
    advance
    grow (.escape code) start
  | .keyword "true" =>
    advance
    grow (.boolean true) start
  | .keyword "false" =>
    advance
    grow (.boolean false) start
  | .keyword "nil" =>
    advance
    grow .nil start
  | .keyword "this" =>
    advance
    grow .this start
  | .identifier name => named grammar start name
  | .mark "<" =>
    let typeParams ← typeParams grammar
    let params ← params grammar
    let result ← ascription grammar
    functionBody grammar start typeParams params result
  | .mark "(" => parenthesized grammar start
  | .mark "[" =>
    advance
    let entries ← withProcLiterals true (commaList "]" grammar.expression)
    grow (.array entries) start
  | .mark "\x7b" =>
    advance
    let entries ← withProcLiterals true (commaList "\x7d" (objectEntry grammar))
    grow (.object entries) start
  | .keyword "if" =>
    advance
    let arms ← branches grammar (bracedExpression grammar)
    grow (.ifExpression arms.cases arms.otherwise) start
  | .keyword "switch" =>
    advance
    switch grammar start
  | .keyword "const" =>
    advance
    let defined ← definition grammar
    expect ","
    let body ← grammar.expression
    grow (.inlineConst defined.name defined.ascription defined.value body) start
  | _ => unexpected "an expression"

/-- An index in brackets, whose opening one is already consumed. -/
def bracketed (grammar : Grammar) : Reader NodeId := do
  let key ← withProcLiterals true grammar.expression
  expect "]"
  return key

/-- Explicit type arguments, if a call follows them. -/
def callTypeArgs (grammar : Grammar) : Reader (Option (List NodeId)) :=
  attempt do
    let typeArgs ← typeArgs grammar
    if ← isAtMark "(" then return typeArgs else unexpected (quoted "(")

/-- What may follow an expression directly: a call, an access or an index. -/
def postfixForm (grammar : Grammar) (subject : NodeId) : Reader (Option Form) := do
  match ← peek with
  | .mark "(" =>
    let args ← args grammar
    return some (.invocation subject [] args)
  | .mark "<" =>
    match ← callTypeArgs grammar with
    | none => return none
    | some typeArgs =>
      let args ← args grammar
      return some (.invocation subject typeArgs args)
  | .mark "." =>
    advance
    let name ← propertyName
    return some (.property subject name false)
  | .mark "?." =>
    advance
    if ← eat "[" then
      let key ← bracketed grammar
      return some (.index subject key true)
    else
      let name ← propertyName
      return some (.property subject name true)
  | .mark "[" =>
    advance
    let key ← bracketed grammar
    return some (.index subject key false)
  | _ => return none

/-- A primary expression with all calls, accesses and indexes that follow it. -/
def chain (grammar : Grammar) : Reader NodeId := do
  let start ← place
  let first ← primary grammar
  loop (fun subject => do
    match ← postfixForm grammar subject with
    | none => return .finished subject
    | some form =>
      let next ← grow form start
      return .again next) first

/-- An expression with the types it is cast to, one after another. -/
def cast (grammar : Grammar) : Reader NodeId := do
  let start ← place
  let first ← chain grammar
  loop (fun inner => do
    if ← eatKeyword "as" then
      let target ← grammar.typeExpression
      let next ← grow (.cast inner target) start
      return .again next
    else return .finished inner) first

/-- The unary operator at the front. -/
def unaryOperatorAt : Reader (Option UnaryOperator) := do
  match ← peek with
  | .mark "!" => return some .not
  | .mark "-" => return some .negate
  | _ => return none

/-- An expression after its unary operators. -/
def readUnary (grammar : Grammar) : Reader NodeId := do
  let start ← place
  match ← unaryOperatorAt with
  | some operator =>
    advance
    let operand ← grammar.unary
    grow (.unary operator operand) start
  | none => cast grammar

/-- An expression made of binary operators of the given levels. -/
def operation (grammar : Grammar) : List Level → Reader NodeId
  | [] => readUnary grammar
  | .operators choices :: tighter => do
    let start ← place
    let first ← operation grammar tighter
    loop (fun left => do
      match ← operatorAt choices with
      | none => return .finished left
      | some operator =>
        advance
        let right ← operation grammar tighter
        let next ← grow (.binary left operator right) start
        return .again next) first
  | .range :: tighter => do
    let start ← place
    let first ← operation grammar tighter
    if ← eat ".." then
      let last ← operation grammar tighter
      grow (.range first last) start
    else return first

/-- Any expression. -/
def readExpression (grammar : Grammar) : Reader NodeId := do
  let start ← place
  let first ← operation grammar levels
  loop (fun value => do
    if ← eat "|>" then
      let function ← operation grammar levels
      let next ← grow (.pipe value function) start
      return .again next
    else return .finished value) first

end ScriptCheck.Grammar
