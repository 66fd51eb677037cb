import ScriptCheck.Number.Shortest

/-!
# Forms of tree nodes

A form says what a node of a module's tree is and names its children by their
ids. The forms fall into five families: declarations, the parts of signatures,
expressions, statements and type expressions.
-/

namespace ScriptCheck

/-- Position of a node in its module's node table. -/
abbrev NodeId := Nat

/-- Who may reach a member of a store. -/
inductive Access where
  /-- Read and written everywhere. -/
  | everywhere
  /-- Read everywhere, written only inside the store. -/
  | readable
  /-- Reached only inside the store. -/
  | inside
deriving DecidableEq

/-- The reserved word that grants the access. -/
def Access.word : Access → String
  | everywhere => "public"
  | readable => "visible"
  | inside => "private"

/-- The built-in types that are written as a single word. -/
inductive Primitive where
  | string
  | number
  | boolean
  | nil
  | unknown
  | any
deriving DecidableEq

/-- The word a built-in type is written with. -/
def Primitive.word : Primitive → String
  | string => "string"
  | number => "number"
  | boolean => "boolean"
  | nil => "nil"
  | unknown => "unknown"
  | any => "any"

/-- A value that is its own type. -/
inductive Literal where
  | number (value : Number)
  | string (value : String)
  | boolean (value : Bool)
deriving DecidableEq

/-- Written form of a literal. A string stands between single quotes as it is. -/
def Literal.text : Literal → String
  | number value => value.text
  | string value => "'" ++ value ++ "'"
  | boolean value => if value then "true" else "false"

/-- Equality of literal values; numbers are compared as values. -/
def Literal.equals : Literal → Literal → Bool
  | number left, number right => left.equals right
  | string left, string right => left == right
  | boolean left, boolean right => left == right
  | _, _ => false

instance : BEq Literal := ⟨Literal.equals⟩

/-- Operators between two operands. -/
inductive BinaryOperator where
  | add
  | subtract
  | multiply
  | divide
  | less
  | greater
  | lessOrEqual
  | greaterOrEqual
  | equal
  | notEqual
  | both
  | either
  /-- The left operand unless it is `nil`, else the right one. -/
  | orElse
deriving DecidableEq

/-- How a binary operator is written. -/
def BinaryOperator.symbol : BinaryOperator → String
  | add => "+"
  | subtract => "-"
  | multiply => "*"
  | divide => "/"
  | less => "<"
  | greater => ">"
  | lessOrEqual => "<="
  | greaterOrEqual => ">="
  | equal => "=="
  | notEqual => "!="
  | both => "&&"
  | either => "||"
  | orElse => "??"

/-- Operators before one operand. -/
inductive UnaryOperator where
  | not
  | negate
deriving DecidableEq

/-- How a unary operator is written. -/
def UnaryOperator.symbol : UnaryOperator → String
  | not => "!"
  | negate => "-"

/-- What a node is. `ascription` is a written type, where one may be left out. -/
inductive Form where
  /-- A whole source file. -/
  | module (declarations : List NodeId)
  /-- Names taken from another module. -/
  | importNames (path : String) (items : List NodeId)
  /-- One imported name, with the name it goes by here. -/
  | importItem (name : String) (localName : Option String)
  /-- Another module as a whole. -/
  | importAll (path : String) (localName : String)
  /-- A name for a type, or a nominal type wrapped around one. -/
  | typeDeclaration (name : String) (typeParams : List NodeId) (value : NodeId)
      (nominal exported : Bool)
  | funcDeclaration (name : String) (func : NodeId) (exported : Bool)
  | procDeclaration (name : String) (proc : NodeId) (exported : Bool)
  /-- A constant or variable of the module. -/
  | valueDeclaration (name : String) (ascription : Option NodeId) (value : NodeId)
      (constant exported : Bool)
  | storeDeclaration (name : String) (members : List NodeId) (exported : Bool)
  | storeMember (access : Access) (name : String) (ascription : Option NodeId) (value : NodeId)
  | autorun (body : NodeId) (forever : Bool)
  | testExpression (name : String) (body : NodeId)
  | testBlock (name : String) (body : NodeId)
  /-- A type parameter with its bound. -/
  | typeParam (name : String) (bound : Option NodeId)
  | param (name : String) (ascription : Option NodeId)
  | number (value : Number)
  | string (value : String)
  | boolean (value : Bool)
  | nil
  /-- Code of the host language. -/
  | escape (code : String)
  | identifier (name : String)
  /-- The store around the expression. -/
  | this
  | binary (left : NodeId) (operator : BinaryOperator) (right : NodeId)
  | unary (operator : UnaryOperator) (operand : NodeId)
  | invocation (subject : NodeId) (typeArgs args : List NodeId)
  /-- A function applied to the value written before it. -/
  | pipe (value function : NodeId)
  | property (subject : NodeId) (name : String) (optional : Bool)
  | index (subject key : NodeId) (optional : Bool)
  | func (typeParams params : List NodeId) (result : Option NodeId) (body : NodeId)
  | proc (typeParams params : List NodeId) (body : NodeId)
  | ifExpression (cases : List NodeId) (otherwise : Option NodeId)
  /-- One arm of a conditional expression or statement. -/
  | ifCase (condition outcome : NodeId)
  | switch (value : NodeId) (cases : List NodeId) (otherwise : Option NodeId)
  | switchCase (test outcome : NodeId)
  | array (entries : List NodeId)
  | object (entries : List NodeId)
  | objectEntry (key : String) (value : NodeId)
  | parenthesized (inner : NodeId)
  /-- A constant that is visible in one expression. -/
  | inlineConst (name : String) (ascription : Option NodeId) (value body : NodeId)
  | range (first last : NodeId)
  | cast (inner target : NodeId)
  | block (statements : List NodeId)
  /-- A constant or variable of a block. -/
  | localDeclaration (name : String) (ascription : Option NodeId) (value : NodeId)
      (constant : Bool)
  | assignment (target value : NodeId)
  | expressionStatement (expression : NodeId)
  | ifStatement (cases : List NodeId) (otherwise : Option NodeId)
  | forLoop (item : String) (iterator body : NodeId)
  | whileLoop (condition body : NodeId)
  | primitiveType (primitive : Primitive)
  | literalType (literal : Literal)
  | namedType (name : String) (args : List NodeId)
  | unionType (members : List NodeId)
  | arrayType (element : NodeId)
  | tupleType (elements : List NodeId)
  | objectType (entries : List NodeId)
  | objectTypeEntry (name : String) (optional : Bool) (value : NodeId)
  | indexerType (key value : NodeId)
  | funcType (typeParams params : List NodeId) (result : NodeId)
  | procType (typeParams params : List NodeId)
  | iteratorType (inner : NodeId)
  | planType (inner : NodeId)
  | readonlyType (inner : NodeId)
  | parenthesizedType (inner : NodeId)
deriving DecidableEq

instance : Inhabited Form := ⟨.module []⟩

namespace Form

/-- Equality of forms. The values of literal types are compared as values; a number that
is written in an expression has no sign, so there is only one way to write it. -/
def equals : Form → Form → Bool
  | literalType left, literalType right => left.equals right
  | left, right => left == right

/-- Direct children in source order. -/
def children : Form → List NodeId
  | module declarations => declarations
  | importNames _ items => items
  | importItem _ _ => []
  | importAll _ _ => []
  | typeDeclaration _ typeParams value _ _ => typeParams ++ [value]
  | funcDeclaration _ body _ => [body]
  | procDeclaration _ body _ => [body]
  | valueDeclaration _ ascription value _ _ => ascription.toList ++ [value]
  | storeDeclaration _ members _ => members
  | storeMember _ _ ascription value => ascription.toList ++ [value]
  | autorun body _ => [body]
  | testExpression _ body => [body]
  | testBlock _ body => [body]
  | typeParam _ bound => bound.toList
  | param _ ascription => ascription.toList
  | number _ => []
  | string _ => []
  | boolean _ => []
  | nil => []
  | escape _ => []
  | identifier _ => []
  | this => []
  | binary left _ right => [left, right]
  | unary _ operand => [operand]
  | invocation subject typeArgs args => subject :: typeArgs ++ args
  | pipe value function => [value, function]
  | property subject _ _ => [subject]
  | index subject key _ => [subject, key]
  | func typeParams params result body => typeParams ++ params ++ result.toList ++ [body]
  | proc typeParams params body => typeParams ++ params ++ [body]
  | ifExpression cases otherwise => cases ++ otherwise.toList
  | ifCase condition outcome => [condition, outcome]
  | switch value cases otherwise => value :: cases ++ otherwise.toList
  | switchCase test outcome => [test, outcome]
  | array entries => entries
  | object entries => entries
  | objectEntry _ value => [value]
  | parenthesized inner => [inner]
  | inlineConst _ ascription value body => ascription.toList ++ [value, body]
  | range first last => [first, last]
  | cast inner target => [inner, target]
  | block statements => statements
  | localDeclaration _ ascription value _ => ascription.toList ++ [value]
  | assignment target value => [target, value]
  | expressionStatement expression => [expression]
  | ifStatement cases otherwise => cases ++ otherwise.toList
  | forLoop _ iterator body => [iterator, body]
  | whileLoop condition body => [condition, body]
  | primitiveType _ => []
  | literalType _ => []
  | namedType _ args => args
  | unionType members => members
  | arrayType element => [element]
  | tupleType elements => elements
  | objectType entries => entries
  | objectTypeEntry _ _ value => [value]
  | indexerType key value => [key, value]
  | funcType typeParams params result => typeParams ++ params ++ [result]
  | procType typeParams params => typeParams ++ params
  | iteratorType inner => [inner]
  | planType inner => [inner]
  | readonlyType inner => [inner]
  | parenthesizedType inner => [inner]

/-- Whether the form is a complete type expression. -/
def isTypeExpression : Form → Bool
  | primitiveType _ | literalType _ | namedType _ _ | unionType _ | arrayType _ | tupleType _
  | objectType _ | indexerType _ _ | funcType _ _ _ | procType _ _ | iteratorType _ | planType _
  | readonlyType _ | parenthesizedType _ => true
  | _ => false

/-- Short stable name of the form. -/
def label : Form → String
  | module _ => "module"
  | importNames _ _ => "import-declaration"
  | importItem _ _ => "import-item"
  | importAll _ _ => "import-all-declaration"
  | typeDeclaration _ _ _ _ _ => "type-declaration"
  | funcDeclaration _ _ _ => "func-declaration"
  | procDeclaration _ _ _ => "proc-declaration"
  | valueDeclaration _ _ _ _ _ => "value-declaration"
  | storeDeclaration _ _ _ => "store-declaration"
  | storeMember _ _ _ _ => "store-member"
  | autorun _ _ => "autorun-declaration"
  | testExpression _ _ => "test-expr-declaration"
  | testBlock _ _ => "test-block-declaration"
  | typeParam _ _ => "generic-param"
  | param _ _ => "param"
  | number _ => "number-literal"
  | string _ => "string-literal"
  | boolean _ => "boolean-literal"
  | nil => "nil-literal"
  | escape _ => "javascript-escape"
  | identifier _ => "local-identifier"
  | this => "this"
  | binary _ _ _ => "binary-operation"
  | unary _ _ => "unary-operation"
  | invocation _ _ _ => "invocation"
  | pipe _ _ => "pipe"
  | property _ _ _ => "property-accessor"
  | index _ _ _ => "indexer"
  | func _ _ _ _ => "func"
  | proc _ _ _ => "proc"
  | ifExpression _ _ => "if-else-expression"
  | ifCase _ _ => "if-else-case"
  | switch _ _ _ => "switch-expression"
  | switchCase _ _ => "switch-case"
  | array _ => "array-literal"
  | object _ => "object-literal"
  | objectEntry _ _ => "object-entry"
  | parenthesized _ => "parenthesized-expression"
  | inlineConst _ _ _ _ => "inline-const"
  | range _ _ => "range"
  | cast _ _ => "as-cast"
  | block _ => "block"
  | localDeclaration _ _ _ _ => "declaration-statement"
  | assignment _ _ => "assignment"
  | expressionStatement _ => "expression-statement"
  | ifStatement _ _ => "if-else-statement"
  | forLoop _ _ _ => "for-loop"
  | whileLoop _ _ => "while-loop"
  | primitiveType _ => "primitive-type"
  | literalType _ => "literal-type"
  | namedType _ _ => "named-type"
  | unionType _ => "union-type"
  | arrayType _ => "array-type"
  | tupleType _ => "tuple-type"
  | objectType _ => "object-type"
  | objectTypeEntry _ _ _ => "object-type-entry"
  | indexerType _ _ => "indexer-type"
  | funcType _ _ _ => "func-type"
  | procType _ _ => "proc-type"
  | iteratorType _ => "iterator-type"
  | planType _ => "plan-type"
  | readonlyType _ => "readonly-type"
  | parenthesizedType _ => "parenthesized-type"

end Form

end ScriptCheck
