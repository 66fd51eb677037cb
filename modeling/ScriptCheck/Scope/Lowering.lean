import ScriptCheck.Ty.Union

/-!
# Types of type expressions

Lowering looks at the written type only: a name becomes a reference that is
looked up when somebody needs to see through it. Type parameters are the one
exception, because they have to be recognised wherever they occur.
-/

namespace ScriptCheck

/-- The type parameters that a form declares for what is inside it. -/
def Form.typeParams : Form → List NodeId
  | .func typeParams _ _ _ => typeParams
  | .proc typeParams _ _ => typeParams
  | .typeDeclaration _ typeParams _ _ _ => typeParams
  | .funcType typeParams _ _ => typeParams
  | .procType typeParams _ => typeParams
  | _ => []

namespace Node

/-- Whether the node declares the type parameter with the given name. -/
def isTypeParam (node : Node) (name : String) : Bool :=
  match node.form with
  | .typeParam declared _ => declared == name
  | _ => false

/-- The type parameter with the given name that the node declares for what is
inside it. -/
def ownTypeParam? (node : Node) (name : String) : Option Node :=
  (node.form.typeParams.map node.sibling).find? (·.isTypeParam name)

/-- The innermost type parameter with the given name around a node. -/
def typeParamInScope? (node : Node) (name : String) : Option Node :=
  node.ancestors.findSome? (·.ownTypeParam? name)

end Node

/-- The type a built-in type word stands for. -/
def Ty.ofPrimitive : Primitive → Ty
  | .string => .string
  | .number => .number
  | .boolean => .boolean
  | .nil => .nil
  | .unknown => .unknown
  | .any => .any

namespace Node

/-- The entry that a node of an object type describes, given how types are read. -/
def objectField? (lower : Node → Ty) (entry : Node) : Option (Field Ty) :=
  match entry.form with
  | .objectTypeEntry name optional value => some ⟨name, lower (entry.sibling value), optional⟩
  | _ => none

/-- The parameter that a node declares, given how types are read. -/
def declaredParam? (lower : Node → Ty) (param : Node) : Option (Slot Ty) :=
  match param.form with
  | .param name ascription => some ⟨name, ascription.map fun id => lower (param.sibling id)⟩
  | _ => none

/-- The type parameter that a node declares, given how it is read as a type. -/
def declaredTypeParam? (parameter : Node → Ty) (param : Node) : Option (Slot Ty) :=
  match parameter param with
  | .generic name bound => some ⟨name, bound⟩
  | _ => none

/-- The type a type parameter stands for inside its scope, given how its bound is
read. While its bound is being read it stands for itself without a bound. -/
def parameterType (lower : List Node → Node → Ty) (busy : List Node) (param : Node) : Ty :=
  match param.form with
  | .typeParam name bound =>
    if busy.contains param then .generic name none
    else .generic name (bound.map fun id => lower (param :: busy) (param.sibling id))
  | _ => .unknown

/-- The type of a type expression, given how the type expressions in it are read. -/
def lowerStep (lower : List Node → Node → Ty) (busy : List Node) (node : Node) : Ty :=
  let inside (id : NodeId) : Ty := lower busy (node.sibling id)
  let typeParams (ids : List NodeId) : List (Slot Ty) :=
    (ids.map node.sibling).filterMap (declaredTypeParam? (parameterType lower busy))
  let params (ids : List NodeId) : List (Slot Ty) :=
    (ids.map node.sibling).filterMap (declaredParam? (lower busy))
  match node.form with
  | .primitiveType primitive => .ofPrimitive primitive
  | .literalType literal => .literal literal
  | .namedType name args =>
    match node.typeParamInScope? name with
    | some param => parameterType lower busy param
    | none => .named name (args.map inside) node
  | .unionType members => .unionOf (members.map inside)
  | .arrayType element => .array (inside element)
  | .tupleType elements => .tuple (elements.map inside)
  | .objectType entries =>
    .object ((entries.map node.sibling).filterMap (objectField? (lower busy)))
  | .indexerType key value => .indexer (inside key) (inside value)
  | .funcType typeParamIds paramIds result =>
    .func (typeParams typeParamIds) (params paramIds) (inside result)
  | .procType typeParamIds paramIds => .proc (typeParams typeParamIds) (params paramIds)
  | .iteratorType inner => .iterator (inside inner)
  | .planType inner => .plan (inside inner)
  | .readonlyType inner => .readonly (inside inner)
  | .parenthesizedType inner => inside inner
  | _ => .unknown

/-- Lowering with at most `limit` type expressions read inside each other. `busy`
holds the type parameters whose bounds are being read. -/
def lowerWithin : Nat → List Node → Node → Ty
  | 0, _, _ => .unknown
  | limit + 1, busy, node => lowerStep (lowerWithin limit) busy node

/-- A limit beyond every chain of type expressions in a script: a chain descends in
the tree, and jumps to the bound of each type parameter at most once. -/
def loweringLimit (node : Node) : Nat := (node.script.size + 1) * (node.script.size + 1)

/-- The type of a type expression. -/
def lower (node : Node) : Ty := lowerWithin node.loweringLimit [] node

/-- The type a type parameter stands for inside its scope. -/
def asTypeParameter (param : Node) : Ty :=
  parameterType (lowerWithin param.loweringLimit) [] param

/-- The type parameters among the given nodes. -/
def typeParamSlots (holder : Node) (ids : List NodeId) : List (Slot Ty) :=
  (ids.map holder.sibling).filterMap (declaredTypeParam? asTypeParameter)

/-- The parameters among the given nodes, with the types written for them. -/
def paramSlots (holder : Node) (ids : List NodeId) : List (Slot Ty) :=
  (ids.map holder.sibling).filterMap (declaredParam? lower)

end Node

end ScriptCheck
