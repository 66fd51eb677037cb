import ScriptCheck.Checking.Duplicates
import ScriptCheck.Inference.Expressions

/-!
# The rules of a script

Each rule looks at one node and gives the problems it finds there. A rule is told
whether something below the node is faulty already. Then an `unknown` type comes from
that fault, and rules about it are left out.
-/

namespace ScriptCheck

/-- What rules have at hand. -/
structure Inspection (m : Type → Type := Inference) where
  /-- The answers of inference. -/
  answers : Deeper m

namespace Inspection

/-- A module may not declare a name twice. -/
def moduleNames (declarations : List Node) : Inquiry (List Problem) := do
  let binders ← declarations.mapM Node.moduleBinders
  return Binder.duplicates binders.flatten

/-- Names may be imported only from a module that exists and exports them. -/
def importedNames (node : Node) (path : String)
    (items : List NodeId) : Inference (List Problem) := do
  match ← node.load path with
  | none => return [⟨node, .unknownModule path⟩]
  | some target =>
    return (items.map node.sibling).filterMap fun item =>
      match item.form with
      | .importItem name _ =>
        if (Node.exportedSpaces (some target) name).isEmpty then
          some ⟨item, .unknownExport path name⟩
        else none
      | _ => none

end Inspection

/-- How the names that a module declares and imports are looked through. -/
class Inspector (m : Type → Type) extends Inquirer m where
  /-- A module may not declare a name twice. -/
  moduleNames : List Node → m (List Problem)
  /-- Names may be imported only from a module that exists and exports them. -/
  importedNames : Node → String → List NodeId → m (List Problem)

@[default_instance]
instance : Inspector Inference where
  moduleNames declarations := liftM (Inspection.moduleNames declarations)
  importedNames := Inspection.importedNames

namespace Inspection

section Rules

open Inquirer

variable {m : Type → Type}

/-- The type of a node with its type parameters kept. -/
def typeOf (inspection : Inspection m) (node : Node) : m Ty :=
  inspection.answers.typeOf .idle node

variable [Inspector m]

/-- The type of a node with the type parameters of a func or proc replaced by their
bounds. -/
def valueType (inspection : Inspection m) (node : Node) : m Ty := do
  return (← inspection.typeOf node).eraseGenerics

/-- The type of a node with its name seen through. -/
def expandedType (inspection : Inspection m) (node : Node) : m Ty := do
  expand (← inspection.typeOf node)

/-- A value must fit the type required of it. -/
def assignable (faulty : Bool) (place : Node) (destination value : Ty) :
    m (List Problem) := do
  if faulty && (destination.isUnknown || value.isUnknown) then return []
  else if ← subsumes destination value false then return []
  else return [⟨place, .unassignable destination value⟩]

/-- A value must fit the type written for it. -/
def ascribed (inspection : Inspection m) (faulty : Bool) (ascription value : Node) :
    m (List Problem) :=
  lowering ascription fun written => do
    assignable faulty value written (← inspection.valueType value)

/-- A value must fit the type written for it, if one is written. -/
def ascribedIfWritten (inspection : Inspection m) (faulty : Bool) (node : Node)
    (ascription : Option NodeId) (value : NodeId) : m (List Problem) :=
  match ascription with
  | some id => inspection.ascribed faulty (node.sibling id) (node.sibling value)
  | none => return []

/-- A condition must be a boolean. -/
def boolean (inspection : Inspection m) (faulty : Bool) (condition : Node) :
    m (List Problem) := do
  let type ← inspection.valueType condition
  if faulty && type.isUnknown then return []
  else if ← subsumes .boolean type true then return []
  else return [⟨condition, .nonBooleanCondition type⟩]

/-- A module imported as a whole must exist. -/
def importedModule (node : Node) (path : String) :
    m (List Problem) := do
  match ← load node path with
  | none => return [⟨node, .unknownModule path⟩]
  | some _ => return []

/-- A name must be declared, before its use and not around it. Names that a module does
not provide are reported where they are imported. -/
def identifier (node : Node) (name : String) :
    m (List Problem) := do
  match ← resolve name node with
  | .error .unknownName => return [⟨node, .unknownName name⟩]
  | .error (.usedTooEarly _) => return [⟨node, .usedTooEarly name⟩]
  | .error (.usedInOwnValue _) => return [⟨node, .usedInOwnValue name⟩]
  | .error (.unknownModule _ _) => return []
  | .error (.unknownExport _ _ _) => return []
  | .ok _ => return []

/-- A type's name must be declared and take as many arguments as it has parameters. -/
def namedType (node : Node) (name : String) (args : List NodeId) :
    m (List Problem) := do
  match ← resolveIn name node .type with
  | .error .unknownName => return [⟨node, .unknownName name⟩]
  | .ok (.type _ params) =>
    return if params.length = args.length then []
      else [⟨node, .typeArgumentCount params.length args.length⟩]
  | _ => return []

/-- Type arguments must fit the bounds of their parameters. -/
def typeArguments (call : Call) (typeParams : List (Slot Ty)) :
    m (List Problem) := do
  let found ← (typeParams.zip call.typeArgs).mapM fun (param, arg) => do
    match param.type with
    | none => pure []
    | some bound => lowering arg (assignable false arg bound)
  return found.flatten

/-- Arguments must fit their parameters. -/
def arguments (inspection : Inspection m) (faulty : Bool) (call : Call)
    (typeParams params : List (Slot Ty)) : m (List Problem) := do
  let bindings ←
    inspection.answers.bindTypeParams .idle call typeParams params true
  let found ← (params.zip call.args).zipIdx.mapM fun ((param, arg), index) => do
    match param.type with
    | none => pure []
    | some type =>
      let actual ← inspection.answers.argumentType .idle call index
      assignable faulty arg (type.substitute bindings) actual.eraseGenerics
  return found.flatten

/-- A call must have the numbers of type arguments and arguments that are called for,
and all of them must fit. -/
def signature (inspection : Inspection m) (faulty : Bool) (node : Node) (call : Call)
    (typeParams params : List (Slot Ty)) : m (List Problem) := do
  if !call.typeArgs.isEmpty && call.typeArgs.length ≠ typeParams.length then
    return [⟨node, .typeArgumentCount typeParams.length call.typeArgs.length⟩]
  else
    let typeProblems ← typeArguments call typeParams
    if call.args.length ≠ params.length then
      return typeProblems ++ [⟨node, .argumentCount params.length call.args.length⟩]
    else return typeProblems ++ (← inspection.arguments faulty call typeParams params)

/-- Whether a node stands as a statement of its own. -/
def isStatement (node : Node) : Bool :=
  node.parent.any fun parent =>
    match parent.form with
    | .expressionStatement _ => true
    | _ => false

/-- What is called must be callable, a proc only as a statement, and its signature must
be kept. -/
def calling (inspection : Inspection m) (faulty : Bool) (node : Node) (call : Call) :
    m (List Problem) := do
  match call.subject with
  | .any => return []
  | .escape => return []
  | .proc typeParams params =>
    let misplaced : List Problem := if isStatement node then [] else [⟨node, .procInExpression⟩]
    return misplaced ++ (← inspection.signature faulty node call typeParams params)
  | .func typeParams params _ => inspection.signature faulty node call typeParams params
  | other =>
    if faulty && other.isUnknown then return []
    else return [⟨call.callee, .notCallable other⟩]

/-- An invocation or pipe must be a valid call. -/
def invocation (inspection : Inspection m) (faulty : Bool) (node : Node) :
    m (List Problem) := do
  match ← inspection.answers.call? .idle node with
  | some call => inspection.calling faulty node call
  | none => return []

/-- A func may not be called for nothing. -/
def statement (inspection : Inspection m) (inner : Node) : m (List Problem) := do
  match ← inspection.answers.call? .idle inner with
  | some ⟨_, .func _ _ _, _, _, _⟩ => return [⟨inner, .funcAsStatement⟩]
  | _ => return []

/-- The operand type that a unary operator requires. -/
def requiredOperand : UnaryOperator → Ty
  | .not => .boolean
  | .negate => .number

/-- A unary operator must accept its operand. -/
def unary (inspection : Inspection m) (faulty : Bool) (node : Node) (operator : UnaryOperator)
    (operand : Node) : m (List Problem) := do
  let type ← inspection.typeOf operand
  if faulty && type.isUnknown then return []
  else if ← subsumes (requiredOperand operator) type true then return []
  else return [⟨node, .operand operator type⟩]

/-- A binary operator must accept its operands. The operator `??` accepts any. -/
def binary (inspection : Inspection m) (faulty : Bool) (node left : Node)
    (operator : BinaryOperator) (right : Node) : m (List Problem) := do
  if operator = .orElse then return []
  else
    let left ← inspection.typeOf left
    let right ← inspection.typeOf right
    if faulty && (left.isUnknown || right.isUnknown) then return []
    else if (← operationType? operator left right).isSome then return []
    else return [⟨node, .operands operator left right⟩]

/-- Whether a property access is the function of a method-style call. -/
def isMethod (inspection : Inspection m) (node : Node) : m Bool := do
  match node.parent with
  | none => return false
  | some parent =>
    match parent.form with
    | .invocation subject _ _ =>
      if subject = node.id then
        return (← inspection.answers.methodCall? .idle parent).isSome
      else return false
    | _ => return false

/-- The base of an access, without `nil` if the access is optional. -/
def accessedBase (base : Ty) (optional : Bool) : m Ty :=
  if optional then subtract base .nil else return base

/-- A private member of a store may be used only inside the store. -/
def privacy (node : Node) (base : Ty) (name : String) : List Problem :=
  match base with
  | .store _ declaration =>
    let isPrivate := (declaration.storeMember? name).any fun member =>
      member.access? == some .inside
    if isPrivate && !node.isDescendantOf declaration then [⟨node, .privateMember name⟩] else []
  | _ => []

/-- A property must exist and be reachable. -/
def property (inspection : Inspection m) (faulty : Bool) (node subject : Node) (name : String)
    (optional : Bool) : m (List Problem) := do
  if ← inspection.isMethod node then return []
  else
    let whole ← inspection.expandedType subject
    if faulty && whole.isUnknown then return []
    else
      let base ← accessedBase whole optional
      if (← inspection.answers.propertyType .idle base name).isSome then
        return privacy node base name
      else return [⟨node, .missingProperty name base⟩]

/-- A value must have something under the key it is indexed with. -/
def index (inspection : Inspection m) (faulty : Bool) (node subject key : Node)
    (optional : Bool) : m (List Problem) := do
  let whole ← inspection.expandedType subject
  let key ← inspection.typeOf key
  if faulty && (whole.isUnknown || key.isUnknown) then return []
  else
    let base ← accessedBase whole optional
    if (← inspection.answers.indexType .idle base key).isSome then return []
    else return [⟨node, .invalidIndex base key⟩]

/-- Whether a declaration makes a variable. -/
def isVariable (declaration : Node) : Bool :=
  match declaration.form with
  | .valueDeclaration _ _ _ constant _ => !constant
  | .localDeclaration _ _ _ constant => !constant
  | _ => false

/-- Only variables, properties and indexes can be assigned to, and not inside what is
read-only. Members of a store can be assigned from outside only if they are public. -/
def assignmentTarget (inspection : Inspection m) (target : Node) : m (List Problem) := do
  match target.form with
  | .identifier name =>
    match ← resolve name target with
    | .ok (.declared declaration) =>
      return if isVariable declaration then [] else [⟨target, .notMutable name⟩]
    | .ok _ => return [⟨target, .notMutable name⟩]
    | .error _ => return []
  | .property subject name false =>
    match ← inspection.expandedType (target.sibling subject) with
    | .readonly _ => return [⟨target, .notMutable name⟩]
    | .store _ declaration =>
      let isPublic := (declaration.storeMember? name).any fun member =>
        member.access? == some .everywhere
      return if isPublic || target.isDescendantOf declaration then []
        else [⟨target, .notMutable name⟩]
    | _ => return []
  | .index subject _ false =>
    match ← inspection.expandedType (target.sibling subject) with
    | .readonly inner => return [⟨target, .notMutable (Ty.readonly inner).text⟩]
    | _ => return []
  | _ => return [⟨target, .invalidTarget⟩]

/-- An assignment needs a valid target and a value that fits it. -/
def assignment (inspection : Inspection m) (faulty : Bool) (target value : Node) :
    m (List Problem) := do
  let targetProblems ← inspection.assignmentTarget target
  if !targetProblems.isEmpty then return targetProblems
  else
    let expected ← inspection.typeOf target
    let actual ← inspection.valueType value
    assignable faulty value expected actual

/-- A loop runs over an iterator. -/
def loop (inspection : Inspection m) (faulty : Bool) (iterator : Node) :
    m (List Problem) := do
  match ← inspection.expandedType iterator with
  | .iterator _ => return []
  | .any => return []
  | .escape => return []
  | type =>
    if faulty && type.isUnknown then return [] else return [⟨iterator, .notIterable type⟩]

/-- What a switch compares with must fit its value. -/
def switchTests (inspection : Inspection m) (faulty : Bool) (value : Node) (arms : List Node) :
    m (List Problem) := do
  let subject ← inspection.typeOf value
  let found ← arms.mapM fun arm => do
    match arm.form with
    | .switchCase test _ =>
      let actual ← inspection.valueType (arm.sibling test)
      assignable faulty (arm.sibling test) subject actual
    | _ => pure []
  return found.flatten

/-- The problems of a node itself. -/
def rules (inspection : Inspection m) (faulty : Bool) (node : Node) :
    m (List Problem) := do
  let inside : NodeId → Node := node.sibling
  match node.form with
  | .module declarations => Inspector.moduleNames (declarations.map inside)
  | .importNames path items => Inspector.importedNames node path items
  | .importAll path _ => importedModule node path
  | .typeDeclaration _ typeParams _ _ _ =>
    return Binder.duplicates (node.typeParamBinders typeParams)
  | .funcType typeParams _ _ => return Binder.duplicates (node.typeParamBinders typeParams)
  | .procType typeParams _ => return Binder.duplicates (node.typeParamBinders typeParams)
  | .storeDeclaration _ members _ => return Binder.duplicates (node.valueBinders members)
  | .storeMember _ _ ascription value =>
    inspection.ascribedIfWritten faulty node ascription value
  | .valueDeclaration _ ascription value _ _ =>
    inspection.ascribedIfWritten faulty node ascription value
  | .localDeclaration _ ascription value _ =>
    inspection.ascribedIfWritten faulty node ascription value
  | .inlineConst _ ascription value _ =>
    inspection.ascribedIfWritten faulty node ascription value
  | .func typeParams params result body =>
    let repeated :=
      Binder.duplicates (node.typeParamBinders typeParams ++ node.valueBinders params)
    return repeated ++ (← inspection.ascribedIfWritten faulty node result body)
  | .proc typeParams params _ =>
    return Binder.duplicates (node.typeParamBinders typeParams ++ node.valueBinders params)
  | .block statements => return Binder.duplicates (node.valueBinders statements)
  | .identifier name => identifier node name
  | .namedType name args => namedType node name args
  | .invocation _ _ _ => inspection.invocation faulty node
  | .pipe _ _ => inspection.invocation faulty node
  | .expressionStatement inner => inspection.statement (inside inner)
  | .ifCase condition _ => inspection.boolean faulty (inside condition)
  | .whileLoop condition _ => inspection.boolean faulty (inside condition)
  | .testExpression _ body => inspection.boolean faulty (inside body)
  | .unary operator operand => inspection.unary faulty node operator (inside operand)
  | .binary left operator right =>
    inspection.binary faulty node (inside left) operator (inside right)
  | .property subject name optional =>
    inspection.property faulty node (inside subject) name optional
  | .index subject key optional =>
    inspection.index faulty node (inside subject) (inside key) optional
  | .assignment target value => inspection.assignment faulty (inside target) (inside value)
  | .forLoop _ iterator _ => inspection.loop faulty (inside iterator)
  | .switch value arms _ => inspection.switchTests faulty (inside value) (arms.map inside)
  | .cast inner target => inspection.ascribed faulty (inside target) (inside inner)
  | .this =>
    return if node.enclosingStore?.isSome then [] else [⟨node, .thisOutsideStore⟩]
  | _ => return []

/-- The problems of a node and of at most `limit` levels below it. What is below is
inspected first, and listed after the problems of the node itself. -/
def problemsWithin (inspection : Inspection m) : Nat → Node → m (List Problem)
  | 0, _ => return []
  | limit + 1, node => do
    let below ← node.children.mapM (inspection.problemsWithin limit)
    let own ← inspection.rules (!below.flatten.isEmpty) node
    return own ++ below.flatten

end Rules

end Inspection

/-- The problems of a script, with inference going to at most the given depth. -/
def Script.problems? (depth : Nat) (script : Script) : Inference (List Problem) :=
  (Inspection.mk (.within depth)).problemsWithin script.size script.rootNode

end ScriptCheck
