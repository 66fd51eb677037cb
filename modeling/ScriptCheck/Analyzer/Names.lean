import ScriptCheck.Analyzer.Guards

/-!
# An analyzer reads type expressions and looks up names

The bound of a type parameter is read under a guard, so everything that reads type expressions
is work of the analyzer: looking up a name, which may be that of a type, and seeing through the
names of types.
-/

namespace ScriptCheck.Analyzer

section Lowering

variable (lower : Node → Asking Ty)

/-- The entry that a node of an object type describes. -/
def objectField? (entry : Node) : Asking (Option (Field Ty)) := do
  match entry.form with
  | .objectTypeEntry name optional value =>
    return some ⟨name, ← lower (entry.sibling value), optional⟩
  | _ => return none

/-- The parameter that a node declares. -/
def declaredParam? (param : Node) : Asking (Option (Slot Ty)) := do
  match param.form with
  | .param name none => return some ⟨name, none⟩
  | .param name (some id) => return some ⟨name, some (← lower (param.sibling id))⟩
  | _ => return none

/-- The type a type parameter stands for inside its scope. While its bound is being read it
stands for itself without a bound. -/
def parameterType (param : Node) : Asking Ty :=
  match param.form with
  | .typeParam name bound =>
    guarded (.reading param) (.generic name none) do
      match bound with
      | some id => return .generic name (some (← lower (param.sibling id)))
      | none => return .generic name none
  | _ => return .unknown

/-- The type parameter that a node declares. -/
def declaredTypeParam? (param : Node) : Asking (Option (Slot Ty)) := do
  match ← parameterType lower param with
  | .generic name bound => return some ⟨name, bound⟩
  | _ => return none

/-- The type of a type expression, given how the type expressions in it are read. -/
def lowerStep (node : Node) : Asking Ty := do
  let inside (id : NodeId) : Asking Ty := lower (node.sibling id)
  let typeParams (ids : List NodeId) : Asking (List (Slot Ty)) :=
    (ids.map node.sibling).filterMapM (declaredTypeParam? lower)
  let params (ids : List NodeId) : Asking (List (Slot Ty)) :=
    (ids.map node.sibling).filterMapM (declaredParam? lower)
  match node.form with
  | .primitiveType primitive => return .ofPrimitive primitive
  | .literalType literal => return .literal literal
  | .namedType name args =>
    match node.typeParamInScope? name with
    | some param => parameterType lower param
    | none => return .named name (← args.mapM inside) node
  | .unionType members => return .unionOf (← members.mapM inside)
  | .arrayType element => return .array (← inside element)
  | .tupleType elements => return .tuple (← elements.mapM inside)
  | .objectType entries =>
    return .object (← (entries.map node.sibling).filterMapM (objectField? lower))
  | .indexerType key value => return .indexer (← inside key) (← inside value)
  | .funcType typeParamIds paramIds result =>
    return .func (← typeParams typeParamIds) (← params paramIds) (← inside result)
  | .procType typeParamIds paramIds =>
    return .proc (← typeParams typeParamIds) (← params paramIds)
  | .iteratorType inner => return .iterator (← inside inner)
  | .planType inner => return .plan (← inside inner)
  | .readonlyType inner => return .readonly (← inside inner)
  | .parenthesizedType inner => inside inner
  | _ => return .unknown

end Lowering

/-- Lowering with at most `limit` type expressions read inside each other. -/
def lowerWithin : Nat → Node → Asking Ty
  | 0, _ => return .unknown
  | limit + 1, node => lowerStep (lowerWithin limit) node

/-- The type of a type expression. -/
def lower (node : Node) : Asking Ty := lowerWithin node.loweringLimit node

/-- The type a type parameter stands for inside its scope. -/
def asTypeParameter (param : Node) : Asking Ty :=
  parameterType (lowerWithin param.loweringLimit) param

/-- The type parameters among the given nodes. -/
def typeParamSlots (holder : Node) (ids : List NodeId) : Asking (List (Slot Ty)) :=
  (ids.map holder.sibling).filterMapM fun param =>
    declaredTypeParam? (lowerWithin param.loweringLimit) param

/-- The parameters among the given nodes, with the types written for them. -/
def paramSlots (holder : Node) (ids : List NodeId) : Asking (List (Slot Ty)) :=
  (ids.map holder.sibling).filterMapM (declaredParam? lower)

/-- The type that a top-level declaration names. -/
def namedTypeBinding (declaration : Node) : Asking Binding := do
  match declaration.form with
  | .typeDeclaration name typeParams value nominal _ =>
    let inner ← lower (declaration.sibling value)
    return .type (if nominal then .nominal name inner else inner)
      (← typeParamSlots declaration typeParams)
  | .storeDeclaration name _ _ => return .type (.store name declaration) []
  | _ => return .type .unknown []

/-- What a top-level declaration makes of a name. -/
def declares? (declaration : Node) (name : String) : Namespace → Asking (Option Binding)
  | .value =>
    return if declaration.valueName? = some name then some (.declared declaration) else none
  | .type => do
    if declaration.typeName? = some name then return some (← namedTypeBinding declaration)
    else return none

/-- The type parameter with the given name among the given nodes, as a type. -/
def typeParamBinding? (scope : Node) (typeParams : List NodeId) (name : String) :
    Asking (Option Lookup) := do
  match scope.typeParamNamed? typeParams name with
  | some param => return some (.ok (.type (← asTypeParameter param) []))
  | none => return none

/-- The first answer that one of the questions has. -/
def firstAnswer {α β : Type} (ask : α → Asking (Option β)) : List α → Asking (Option β)
  | [] => return none
  | question :: rest => do
    match ← ask question with
    | some found => return some found
    | none => firstAnswer ask rest

/-- The exported declaration of a script with the given name. -/
def export? (script : Script) (name : String) (space : Namespace) : Asking (Option Binding) :=
  firstAnswer (declares? · name space) (script.declarations.filter Node.isExported)

/-- The script that a specifier, written in the same script as the node, names. -/
def load (importer : Node) (specifier : String) : Asking (Option Script) :=
  (importer.load specifier : Inquiry _)

/-- What an imported name is. -/
def imported? (importing : Node) (path name : String) (space : Namespace) :
    Asking (Option Lookup) := do
  match ← load importing path with
  | none => return some (.error (.unknownModule importing path))
  | some target =>
    match ← export? target name space with
    | some binding => return some (.ok binding)
    | none =>
      if (← export? target name space.other).isSome then return none
      else return some (.error (.unknownExport importing path name))

/-- What child number `index` of a module makes of a name used inside `child`. -/
def topLevel? (declaration : Node) (index : Nat) (child : Node) (name : String)
    (space : Namespace) : Asking (Option Lookup) :=
  match declaration.form with
  | .importNames path items =>
    firstAnswer (fun id =>
      match (declaration.sibling id).form with
      | .importItem importedName localName =>
        if localName.getD importedName = name then imported? declaration path importedName space
        else return none
      | _ => return none) items
  | .importAll _ localName =>
    if space = .value ∧ localName = name then return some (.ok (.importedModule declaration))
    else return none
  | .valueDeclaration _ _ _ _ _ => do
    return (← declares? declaration name space).map fun binding => Node.inOrder binding index child
  | _ => do return (← declares? declaration name space).map .ok

/-- What an enclosing node makes of a name used inside its child. -/
def scopeLookup? (scope child : Node) (name : String) (space : Namespace) :
    Asking (Option Lookup) :=
  match scope.form, space with
  | .module declarations, _ =>
    firstAnswer (fun row => topLevel? (scope.sibling row.1) row.2 child name space)
      declarations.zipIdx
  | .func typeParams _ _ _, .type => typeParamBinding? scope typeParams name
  | .proc typeParams _ _, .type => typeParamBinding? scope typeParams name
  | .typeDeclaration _ typeParams _ _ _, .type => typeParamBinding? scope typeParams name
  | .funcType typeParams _ _, .type => typeParamBinding? scope typeParams name
  | .procType typeParams _, .type => typeParamBinding? scope typeParams name
  | _, .type => return none
  | _, .value => (scope.scopeLookup? child name .value : Inquiry _)

/-- What a name of the given kind, used at a node, refers to. -/
def resolveIn (name : String) (node : Node) (space : Namespace) : Asking Lookup := do
  let found ← firstAnswer (fun link => scopeLookup? link.2 link.1 name space) node.enclosing
  return found.getD (.error .unknownName)

/-- What a name used at a node refers to. -/
def resolve (name : String) (node : Node) : Asking Lookup :=
  match node.form with
  | .namedType _ _ => resolveIn name node .type
  | _ => resolveIn name node .value

/-- Replaces a named type by what its name stands for, at most `limit` times. -/
def expandWithin : Nat → Ty → Asking Ty
  | 0, _ => return .unknown
  | limit + 1, .named name args origin => do
    match ← resolveIn name origin .type with
    | .ok (.type type params) =>
      expandWithin limit (type.substitute (Ty.argumentBindings params args))
    | _ => return .unknown
  | _ + 1, type => return type

/-- The type that a type is after seeing through names. -/
def expand (type : Ty) : Asking Ty := expandWithin expansionLimit type

end ScriptCheck.Analyzer
