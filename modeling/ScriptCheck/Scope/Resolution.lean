import ScriptCheck.Scope.Binding
import ScriptCheck.Scope.Inquiry
import ScriptCheck.Scope.Lowering
import ScriptCheck.Ty.Substitution

/-!
# Looking up names

A lookup starts at the node that uses a name and asks each enclosing node in
turn whether it declares the name. The first that does wins. At the top level and
in blocks the place of the declaration is compared with the place of the use.
-/

namespace ScriptCheck

/-- Longest chain of names that is followed to see what a named type is. -/
def expansionLimit : Nat := 64

namespace Node

/-- Whether a top-level declaration is exported. -/
def isExported (declaration : Node) : Bool :=
  match declaration.form with
  | .typeDeclaration _ _ _ _ exported => exported
  | .funcDeclaration _ _ exported => exported
  | .procDeclaration _ _ exported => exported
  | .valueDeclaration _ _ _ _ exported => exported
  | .storeDeclaration _ _ exported => exported
  | _ => false

/-- The name a top-level declaration gives to a value. -/
def valueName? (declaration : Node) : Option String :=
  match declaration.form with
  | .funcDeclaration name _ _ => some name
  | .procDeclaration name _ _ => some name
  | .valueDeclaration name _ _ _ _ => some name
  | .storeDeclaration name _ _ => some name
  | .typeDeclaration name _ _ nominal _ => if nominal then some name else none
  | _ => none

/-- The name a top-level declaration gives to a type. -/
def typeName? (declaration : Node) : Option String :=
  match declaration.form with
  | .typeDeclaration name _ _ _ _ => some name
  | .storeDeclaration name _ _ => some name
  | _ => none

/-- The type that a top-level declaration names. -/
def namedTypeBinding (declaration : Node) : Binding :=
  match declaration.form with
  | .typeDeclaration name typeParams value nominal _ =>
    let inner := (declaration.sibling value).lower
    .type (if nominal then .nominal name inner else inner) (declaration.typeParamSlots typeParams)
  | .storeDeclaration name _ _ => .type (.store name declaration) []
  | _ => .type .unknown []

/-- What a top-level declaration makes of a name. Imports, and the order of
declarations, play no part. -/
def declares? (declaration : Node) (name : String) : Namespace → Option Binding
  | .value => if declaration.valueName? = some name then some (.declared declaration) else none
  | .type => if declaration.typeName? = some name then some declaration.namedTypeBinding else none

/-- A binding declared as child number `declaredAt`, used inside `child`: it must
be declared before the child that uses it. -/
def inOrder (binding : Binding) (declaredAt : Nat) (child : Node) : Lookup :=
  match child.siblingIndex with
  | some usedAt =>
    if usedAt < declaredAt then .error (.usedTooEarly binding)
    else if usedAt = declaredAt then .error (.usedInOwnValue binding)
    else .ok binding
  | none => .ok binding

/-- The first of the given nodes that declares a type parameter with the given name. -/
def typeParamNamed? (scope : Node) (typeParams : List NodeId) (name : String) : Option Node :=
  typeParams.findSome? fun id =>
    match (scope.sibling id).form with
    | .typeParam declared _ => if declared = name then some (scope.sibling id) else none
    | _ => none

/-- The type parameter with the given name among the given nodes, as a type. -/
def typeParamBinding? (scope : Node) (typeParams : List NodeId) (name : String) : Option Lookup :=
  (scope.typeParamNamed? typeParams name).map fun param => .ok (.type param.asTypeParameter [])

/-- The parameter with the given name among the given nodes. -/
def paramBinding? (scope : Node) (params : List NodeId) (name : String) : Option Lookup :=
  (params.findIdx? fun id =>
    match (scope.sibling id).form with
    | .param declared _ => declared == name
    | _ => false).map fun index => .ok (.parameter scope index)

/-- The constant or variable with the given name in a block, for a use inside
`child`. -/
def localBinding? (scope : Node) (statements : List NodeId) (child : Node) (name : String) :
    Option Lookup :=
  (statements.zipIdx.find? fun row =>
    match (scope.sibling row.1).form with
    | .localDeclaration declared _ _ _ => declared == name
    | _ => false).map fun row => inOrder (.declared (scope.sibling row.1)) row.2 child

end Node

/-- The exported declaration of a script with the given name. -/
def Script.export? (script : Script) (name : String) (space : Namespace) : Option Binding :=
  (script.declarations.filter Node.isExported).findSome? (·.declares? name space)

/-- The first answer that one of the questions has. -/
def Inquiry.firstAnswer {α β : Type} (ask : α → Inquiry (Option β)) :
    List α → Inquiry (Option β)
  | [] => return none
  | question :: rest => do
    match ← ask question with
    | some found => return some found
    | none => firstAnswer ask rest

namespace Node

/-- What an imported name is. There is no answer when the other module exports the
name only as the other kind, so that the search goes on. -/
def imported? (importing : Node) (path name : String) (space : Namespace) :
    Inquiry (Option Lookup) := do
  match ← importing.load path with
  | none => return some (.error (.unknownModule importing path))
  | some target =>
    match target.export? name space with
    | some binding => return some (.ok binding)
    | none =>
      if (target.export? name space.other).isSome then return none
      else return some (.error (.unknownExport importing path name))

/-- What child number `index` of a module makes of a name used inside `child`. -/
def topLevel? (declaration : Node) (index : Nat) (child : Node)
    (name : String) (space : Namespace) : Inquiry (Option Lookup) :=
  match declaration.form with
  | .importNames path items =>
    Inquiry.firstAnswer (fun id =>
      match (declaration.sibling id).form with
      | .importItem importedName localName =>
        if localName.getD importedName = name then
          declaration.imported? path importedName space
        else return none
      | _ => return none) items
  | .importAll _ localName =>
    if space = .value ∧ localName = name then return some (.ok (.importedModule declaration))
    else return none
  | .valueDeclaration _ _ _ _ _ =>
    return (declaration.declares? name space).map fun binding =>
      inOrder binding index child
  | _ => return (declaration.declares? name space).map .ok

/-- What an enclosing node makes of a name used inside its child. -/
def scopeLookup? (scope child : Node) (name : String) (space : Namespace) :
    Inquiry (Option Lookup) :=
  match scope.form, space with
  | .module declarations, _ =>
    Inquiry.firstAnswer (fun row => (scope.sibling row.1).topLevel? row.2 child name space)
      declarations.zipIdx
  | .block statements, .value => return scope.localBinding? statements child name
  | .func typeParams _ _ _, .type => return scope.typeParamBinding? typeParams name
  | .func _ params _ _, .value => return scope.paramBinding? params name
  | .proc typeParams _ _, .type => return scope.typeParamBinding? typeParams name
  | .proc _ params _, .value => return scope.paramBinding? params name
  | .typeDeclaration _ typeParams _ _ _, .type => return scope.typeParamBinding? typeParams name
  | .funcType typeParams _ _, .type => return scope.typeParamBinding? typeParams name
  | .procType typeParams _, .type => return scope.typeParamBinding? typeParams name
  | .forLoop item _ body, .value =>
    return if item = name ∧ child.id = body then some (.ok (.loopItem scope)) else none
  | .inlineConst declared _ value body, .value =>
    return if declared ≠ name then none
      else if child.id = value then some (.error (.usedInOwnValue (.declared scope)))
      else if child.id = body then some (.ok (.declared scope))
      else none
  | _, _ => return none

/-- What a name of the given kind, used at a node, refers to. -/
def resolveIn (name : String) (node : Node) (space : Namespace) : Inquiry Lookup := do
  let found ← Inquiry.firstAnswer (fun link => link.2.scopeLookup? link.1 name space)
    node.enclosing
  return found.getD (.error .unknownName)

/-- What a name used at a node refers to. Named types refer to types, and everything
else to values. -/
def resolve (name : String) (node : Node) : Inquiry Lookup :=
  match node.form with
  | .namedType _ _ => node.resolveIn name .type
  | _ => node.resolveIn name .value

end Node

namespace Ty

/-- Every type parameter of a named type with its argument; missing arguments are
replaced by the bound. -/
def argumentBindings : List (Slot Ty) → List Ty → Bindings
  | [], _ => []
  | param :: params, [] => (param.name, param.typeOrUnknown) :: argumentBindings params []
  | param :: params, arg :: args => (param.name, arg) :: argumentBindings params args

/-- Replaces a named type by what its name stands for, at most `limit` times. A name
that stands for nothing is `unknown`, and so is one that is still a name then. -/
def expandWithin : Nat → Ty → Inquiry Ty
  | 0, _ => return .unknown
  | limit + 1, .named name args origin => do
    match ← origin.resolveIn name .type with
    | .ok (.type type params) =>
      expandWithin limit (type.substitute (argumentBindings params args))
    | _ => return .unknown
  | _ + 1, type => return type

/-- The type that a type is after seeing through names. -/
def expand (type : Ty) : Inquiry Ty := type.expandWithin expansionLimit

end Ty

end ScriptCheck
