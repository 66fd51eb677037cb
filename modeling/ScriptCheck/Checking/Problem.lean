import ScriptCheck.Ty.Text

/-!
# Problems found by checking

A problem is a rule that a node breaks. The wording of all rules is in one place, and
rules fall into a few kinds that are named in reports.
-/

namespace ScriptCheck

/-- The classes of problems that reports tell apart. -/
inductive ProblemKind where
  /-- The text is not a script. -/
  | malformed
  /-- A value does not fit where it stands. -/
  | unassignable
  /-- A name is not declared. -/
  | unknownName
  /-- A name is declared twice. -/
  | alreadyDeclared
  /-- Any other broken rule. -/
  | misc
  /-- An imported module does not exist. -/
  | unknownModule
  /-- An imported name is not exported. -/
  | unknownExport
deriving DecidableEq

/-- How a kind of problem is written in reports. -/
def ProblemKind.code : ProblemKind → String
  | malformed => "syntax"
  | unassignable => "assignable-to"
  | unknownName => "cannot-find-name"
  | alreadyDeclared => "already-declared"
  | misc => "misc"
  | unknownModule => "cannot-find-module"
  | unknownExport => "cannot-find-export"

/-- The rules of a script that checking finds broken. -/
inductive Fault where
  /-- A value of one type stands where another type is required. -/
  | unassignable (destination value : Ty)
  /-- No scope declares the name. -/
  | unknownName (name : String)
  /-- The scope declares the name twice. -/
  | alreadyDeclared (name : String)
  /-- There is no such module. -/
  | unknownModule (path : String)
  /-- The module exports no such name. -/
  | unknownExport (path name : String)
  /-- The name is declared further down. -/
  | usedTooEarly (name : String)
  /-- The name is used in the value it is declared with. -/
  | usedInOwnValue (name : String)
  /-- A condition is not a boolean. -/
  | nonBooleanCondition (type : Ty)
  /-- A loop runs over something that is not an iterator. -/
  | notIterable (type : Ty)
  /-- The type has no such property. -/
  | missingProperty (name : String) (type : Ty)
  /-- The type cannot be indexed like this. -/
  | invalidIndex (base key : Ty)
  /-- The target of an assignment cannot change. -/
  | notMutable (name : String)
  /-- The target of an assignment is no place at all. -/
  | invalidTarget
  /-- What is called is neither a func nor a proc. -/
  | notCallable (type : Ty)
  /-- A call has the wrong number of arguments. -/
  | argumentCount (expected found : Nat)
  /-- A type or call has the wrong number of type arguments. -/
  | typeArgumentCount (expected found : Nat)
  /-- A binary operator does not accept its operands. -/
  | operands (operator : BinaryOperator) (left right : Ty)
  /-- A unary operator does not accept its operand. -/
  | operand (operator : UnaryOperator) (type : Ty)
  /-- A private member is used outside its store. -/
  | privateMember (name : String)
  /-- A proc is called for a value. -/
  | procInExpression
  /-- The value of a func call is not used. -/
  | funcAsStatement
  /-- There is no store around `this`. -/
  | thisOutsideStore

namespace Fault

/-- The kind that a broken rule is reported as. -/
def kind : Fault → ProblemKind
  | unassignable _ _ => .unassignable
  | unknownName _ => .unknownName
  | alreadyDeclared _ => .alreadyDeclared
  | unknownModule _ => .unknownModule
  | unknownExport _ _ => .unknownExport
  | _ => .misc

/-- Text between single quotes. -/
def quote (text : String) : String := "'" ++ text ++ "'"

/-- What is said about a broken rule. -/
def message : Fault → String
  | unassignable destination value =>
    "Type " ++ quote value.text ++ " is not assignable to type " ++ quote destination.text
  | unknownName name => "Couldn't find name " ++ quote name
  | alreadyDeclared name => quote name ++ " is already declared in this scope"
  | unknownModule path => "Couldn't find module " ++ quote path
  | unknownExport path name =>
    "Module " ++ quote path ++ " has no exported member named " ++ quote name
  | usedTooEarly name => quote name ++ " is used before it is initialized"
  | usedInOwnValue name => quote name ++ " is referenced in its own initializer"
  | nonBooleanCondition type => "Condition must be a boolean, but has type " ++ quote type.text
  | notIterable type => "Expected an iterator, but found type " ++ quote type.text
  | missingProperty name type =>
    "Property " ++ quote name ++ " does not exist on type " ++ quote type.text
  | invalidIndex base key =>
    "Type " ++ quote base.text ++ " can't be indexed with type " ++ quote key.text
  | notMutable name => "Cannot assign to " ++ quote name ++ " because it is not mutable"
  | invalidTarget => "Invalid assignment target"
  | notCallable type => "Type " ++ quote type.text ++ " is not callable"
  | argumentCount expected found =>
    "Expected " ++ toString expected ++ " arguments, but got " ++ toString found
  | typeArgumentCount expected found =>
    "Expected " ++ toString expected ++ " type arguments, but got " ++ toString found
  | operands operator left right =>
    "Operator " ++ quote operator.symbol ++ " cannot be applied to types " ++ quote left.text ++
      " and " ++ quote right.text
  | operand operator type =>
    "Operator " ++ quote operator.symbol ++ " cannot be applied to type " ++ quote type.text
  | privateMember name => "Property " ++ quote name ++ " is private to its store"
  | procInExpression => "Procs can't be called in an expression context"
  | funcAsStatement => "Func results must be used; a func call can't be a statement"
  | thisOutsideStore => "'this' can only be used inside a store"

end Fault

/-- A rule broken at a node. -/
structure Problem where
  /-- The node that breaks the rule. -/
  node : Node
  /-- The rule. -/
  fault : Fault

end ScriptCheck
