import ScriptCheck.Grammar.Expressions
import ScriptCheck.Token.Lexer

/-!
# Grammar of statements, declarations and whole files
-/

namespace ScriptCheck.Grammar

open Reader

/-- A constant or variable of a block, after its first word. -/
def localDeclaration (grammar : Grammar) (start : Nat) (constant : Bool) : Reader NodeId := do
  let defined ← definition grammar
  grow (.localDeclaration defined.name defined.ascription defined.value constant) start

/-- A statement. -/
def statement (grammar : Grammar) : Reader NodeId := do
  let start ← place
  match ← peek with
  | .keyword "const" =>
    advance
    localDeclaration grammar start true
  | .keyword "let" =>
    advance
    localDeclaration grammar start false
  | .keyword "if" =>
    advance
    let arms ← branches grammar grammar.block
    grow (.ifStatement arms.cases arms.otherwise) start
  | .keyword "for" =>
    advance
    let item ← identifier
    expectKeyword "of"
    let iterator ← condition grammar
    let body ← grammar.block
    grow (.forLoop item iterator body) start
  | .keyword "while" =>
    advance
    let condition ← condition grammar
    let body ← grammar.block
    grow (.whileLoop condition body) start
  | _ =>
    let target ← grammar.expression
    if ← eat "=" then
      let value ← grammar.expression
      grow (.assignment target value) start
    else grow (.expressionStatement target) start

/-- Statements in braces. -/
def readBlock (grammar : Grammar) : Reader NodeId := do
  let start ← place
  expect "\x7b"
  let statements ← withProcLiterals true (itemsUntil "\x7d" [";"] (statement grammar))
  grow (.block statements) start

/-- The grammar of texts that nest at most `depth` readings in each other. -/
def nested : Nat → Grammar
  | 0 => Grammar.exhausted
  | depth + 1 =>
    let inner := nested depth
    { expression := readExpression inner
      unary := readUnary inner
      typeExpression := readTypeExpression inner
      typeMember := readTypeMember inner
      block := readBlock inner }

/-- A func after its name. -/
def namedFunc (grammar : Grammar) : Reader NodeId := do
  let start ← place
  let typeParams ← typeParams grammar
  let params ← params grammar
  let result ← ascription grammar
  expect "=>"
  let body ← grammar.expression
  grow (.func typeParams params result body) start

/-- A proc after its name. -/
def namedProc (grammar : Grammar) : Reader NodeId := do
  let start ← place
  let typeParams ← typeParams grammar
  let params ← params grammar
  let body ← grammar.block
  grow (.proc typeParams params body) start

/-- One imported name. -/
def importItem : Reader NodeId := do
  let start ← place
  let name ← identifier
  if ← eatKeyword "as" then
    let localName ← identifier
    grow (.importItem name (some localName)) start
  else grow (.importItem name none) start

/-- An import after its first word. -/
def importDeclaration (start : Nat) : Reader NodeId := do
  if ← eat "\x7b" then
    let items ← commaList "\x7d" importItem
    expectWord "from"
    let path ← stringLiteral
    grow (.importNames path items) start
  else
    let path ← stringLiteral
    expectKeyword "as"
    let localName ← identifier
    grow (.importAll path localName) start

/-- A test after its first word. -/
def testDeclaration (grammar : Grammar) (start : Nat) : Reader NodeId := do
  if ← eatWord "expr" then
    let name ← stringLiteral
    expect "=>"
    let body ← grammar.expression
    grow (.testExpression name body) start
  else if ← eatWord "block" then
    let name ← stringLiteral
    let body ← grammar.block
    grow (.testBlock name body) start
  else unexpected (quoted "expr" ++ " or " ++ quoted "block")

/-- The word that grants access to a store member. -/
def accessWord : Reader Access := do
  if ← eatKeyword "public" then return .everywhere
  else if ← eatKeyword "visible" then return .readable
  else if ← eatKeyword "private" then return .inside
  else
    unexpected (quoted "public" ++ ", " ++ quoted "visible" ++ " or " ++ quoted "private")

/-- A member of a store. -/
def storeMember (grammar : Grammar) : Reader NodeId := do
  let start ← place
  let access ← accessWord
  if ← eatKeyword "func" then
    let name ← identifier
    let value ← namedFunc grammar
    grow (.storeMember access name none value) start
  else if ← eatKeyword "proc" then
    let name ← identifier
    let value ← namedProc grammar
    grow (.storeMember access name none value) start
  else
    let defined ← definition grammar
    grow (.storeMember access defined.name defined.ascription defined.value) start

/-- A constant or variable of the module, after its first word. -/
def valueDeclaration (grammar : Grammar) (start : Nat) (constant exported : Bool) :
    Reader NodeId := do
  let defined ← definition grammar
  grow (.valueDeclaration defined.name defined.ascription defined.value constant exported) start

/-- A declaration that may be exported. -/
def exportable (grammar : Grammar) (start : Nat) : Reader NodeId := do
  let exported ← eatKeyword "export"
  match ← peek with
  | .keyword "type" =>
    advance
    let name ← identifier
    let typeParams ← typeParams grammar
    expect "="
    let value ← grammar.typeExpression
    grow (.typeDeclaration name typeParams value false exported) start
  | .keyword "nominal" =>
    advance
    expectKeyword "type"
    let name ← identifier
    expect "("
    let value ← grammar.typeExpression
    expect ")"
    grow (.typeDeclaration name [] value true exported) start
  | .keyword "func" =>
    advance
    let name ← identifier
    let body ← namedFunc grammar
    grow (.funcDeclaration name body exported) start
  | .keyword "proc" =>
    advance
    let name ← identifier
    let body ← namedProc grammar
    grow (.procDeclaration name body exported) start
  | .keyword "const" =>
    advance
    valueDeclaration grammar start true exported
  | .keyword "let" =>
    advance
    valueDeclaration grammar start false exported
  | .keyword "store" =>
    advance
    let name ← identifier
    expect "\x7b"
    let members ← itemsUntil "\x7d" [",", ";"] (storeMember grammar)
    grow (.storeDeclaration name members exported) start
  | _ => unexpected "a declaration"

/-- A top-level declaration. -/
def declaration (grammar : Grammar) : Reader NodeId := do
  let start ← place
  if ← eatKeyword "import" then importDeclaration start
  else if ← eatKeyword "autorun" then
    let body ← grammar.block
    let forever ← eatWord "forever"
    grow (.autorun body forever) start
  else if ← eatKeyword "test" then testDeclaration grammar start
  else exportable grammar start

/-- All declarations of a file. -/
def declarations (grammar : Grammar) : Reader (List NodeId) := do
  let found ← loop (fun found => do
    if ← isAt .endOfFile then return .finished found
    else
      let next ← declaration grammar
      skipMarks [";"]
      return .again (next :: found)) []
  return found.reverse

/-- A whole file; its node covers the text from the first byte to the last. -/
def wholeFile (grammar : Grammar) (sourceEnd : Nat) : Reader NodeId := do
  let found ← declarations grammar
  fun _ progress =>
    .ok (progress.sprouts.size,
      { progress with sprouts := progress.sprouts.push ⟨.module found, ⟨0, sourceEnd⟩⟩ })

/-- The script made of the given tokens, the last of which is the end marker. -/
def scriptOf (path : FilePath) (sourceEnd : Nat) (tokens : List Token) :
    Except SyntaxError Script :=
  match wholeFile (nested tokens.length) sourceEnd ⟨true⟩ ⟨tokens, 0, #[]⟩ with
  | .error error => .error error
  | .ok (root, progress) => .ok (Script.ofSprouts path progress.sprouts root)

end ScriptCheck.Grammar

namespace ScriptCheck

/-- Reads a source text as a script. -/
def parse (path : FilePath) (source : String) : Except SyntaxError Script :=
  match tokenize source with
  | .error error => .error error
  | .ok tokens => Grammar.scriptOf path (Text.byteLength source.toList) tokens

end ScriptCheck
