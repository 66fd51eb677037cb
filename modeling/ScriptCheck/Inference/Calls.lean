import ScriptCheck.Inference.Declarations

/-!
# Bindings, calls and what a context expects

A func or proc literal without parameter types takes them from the place it stands
in, most often from the call it is an argument of. A call, in turn, finds its type
arguments from its arguments, and looks at such literals last.
-/

namespace ScriptCheck

/-- A call, however it was written: what is called and with which arguments. -/
structure Call where
  /-- The node whose value is called. -/
  callee : Node
  /-- The expanded type of what is called. -/
  subject : Ty
  /-- The type arguments written out. -/
  typeArgs : List Node
  /-- The arguments in parameter order. In a method-style call the receiver is first. -/
  args : List Node
  /-- The type of the receiver of a method-style call. -/
  receiver : Option Ty

/-- A call written as a property of its first argument. -/
structure MethodCall where
  /-- The first argument. -/
  receiver : Node
  /-- The type of the first argument. -/
  receiverType : Ty
  /-- The function called. -/
  function : Binding

namespace Node

/-- The parameters of a func or proc literal. -/
def literalParams? (holder : Node) : Option (List NodeId) :=
  match holder.form with
  | .func _ params _ _ => some params
  | .proc _ params _ => some params
  | _ => none

/-- Whether a node is a parameter with no type written for it. -/
def isBareParam (param : Node) : Bool :=
  match param.form with
  | .param _ none => true
  | _ => false

/-- Whether an argument, seen through at most `limit` parentheses, is a func or proc
literal with a parameter that has no type of its own. -/
def needsContextWithin : Nat → Node → Bool
  | 0, _ => false
  | limit + 1, arg =>
    match arg.form with
    | .func _ params _ _ => params.any fun id => (arg.sibling id).isBareParam
    | .proc _ params _ => params.any fun id => (arg.sibling id).isBareParam
    | .parenthesized inner => needsContextWithin limit (arg.sibling inner)
    | _ => false

/-- Whether the type of an argument depends on the call it belongs to. -/
def needsContext (arg : Node) : Bool := arg.needsContextWithin (arg.script.size + 1)

end Node

namespace Deeper

open Inquirer

variable {m : Type → Type} [Inquirer m]

/-- The parameters that the context of a func or proc literal gives it, when it
expects a func for a func or a proc for a proc. -/
def contextParams? (deeper : Deeper m) (situation : Situation)
    (literal : Node) : m (Option (List (Slot Ty))) := do
  match ← deeper.expected? situation literal with
  | none => return none
  | some type =>
    match literal.form, ← expand type with
    | .func _ _ _ _, .func _ params _ => return some params
    | .proc _ _ _, .proc _ params => return some params
    | _, _ => return none

/-- The type of a parameter of a func or proc literal: the one written for it, else
the one its context gives it. -/
def paramType (deeper : Deeper m) (situation : Situation) (holder : Node)
    (index : Nat) : m Ty := do
  match holder.literalParams?.bind (·[index]?) with
  | none => return .unknown
  | some id =>
    match (holder.sibling id).form with
    | .param _ (some ascription) => lowering (holder.sibling ascription) pure
    | _ =>
      let params ← deeper.contextParams? situation holder
      return ((params.bind (·[index]?)).map Slot.typeOrUnknown).getD .unknown

/-- Fills in the types of parameters that have none from other parameters. -/
def fillTypes : List (Slot Ty) → List (Slot Ty) → List (Slot Ty)
  | param :: params, given :: rest =>
    (if param.type.isSome then param else { param with type := given.type }) ::
      fillTypes params rest
  | params, _ => params

/-- The parameters of a func or proc literal with the types known for them. -/
def literalParams (deeper : Deeper m) (situation : Situation)
    (holder : Node) (ids : List NodeId) : m (List (Slot Ty)) :=
  paramSlots holder ids fun declared => do
    if declared.any (·.type.isNone) then
      return match ← deeper.contextParams? situation holder with
        | some given => fillTypes declared given
        | none => declared
    else return declared

/-- A whole module seen as an object of the values it exports. -/
def moduleObject (deeper : Deeper m) (situation : Situation)
    (importing : Node) : m Ty := do
  match importing.form with
  | .importAll path _ =>
    match ← load importing path with
    | none => return .unknown
    | some target =>
      let exported := target.declarations.filter Node.isExported
      let fields ← exported.filterMapM fun declaration => do
        match declaration.valueName? with
        | none => return none
        | some name =>
          return some (⟨name, ← deeper.declarationType situation declaration, false⟩ : Field Ty)
      return .object fields
  | _ => return .unknown

/-- The type of what a name was found to be. -/
def bindingType (deeper : Deeper m) (situation : Situation) :
    Binding → m Ty
  | .declared declaration => deeper.declarationType situation declaration
  | .parameter holder index => deeper.paramType situation holder index
  | .type _ _ => return .unknown
  | .importedModule importing => deeper.moduleObject situation importing
  | .loopItem forLoop => do
    match forLoop.form with
    | .forLoop _ iterator _ =>
      match ← expand (← deeper.typeOf situation (forLoop.sibling iterator)) with
      | .iterator item => return item
      | .any => return .any
      | _ => return .unknown
    | _ => return .unknown

/-- Reads an invocation `a.f(x)` as the call of a function `f` in scope, when `a` has
no property `f`. -/
def methodCall? (deeper : Deeper m) (situation : Situation)
    (invocation : Node) : m (Option MethodCall) := do
  match invocation.form with
  | .invocation subject _ _ =>
    let accessor := invocation.sibling subject
    match accessor.form with
    | .property receiverId name false =>
      let receiver := accessor.sibling receiverId
      let receiverType ← deeper.typeOf situation receiver
      let base ← expand receiverType
      if (← deeper.propertyType situation base name).isSome then return none
      else
        match ← resolveIn name accessor .value with
        | .ok binding => return some ⟨receiver, receiverType, binding⟩
        | .error _ => return none
    | _ => return none
  | _ => return none

/-- The call that an invocation or pipe makes. -/
def call? (deeper : Deeper m) (situation : Situation) (node : Node) :
    m (Option Call) := do
  match node.form with
  | .invocation subject typeArgIds argIds =>
    let callee := node.sibling subject
    let typeArgs := typeArgIds.map node.sibling
    let args := argIds.map node.sibling
    match ← deeper.methodCall? situation node with
    | some method =>
      let function ← expand (← deeper.bindingType situation method.function)
      return some ⟨callee, function, typeArgs, method.receiver :: args, some method.receiverType⟩
    | none =>
      let function ← expand (← deeper.typeOf situation callee)
      return some ⟨callee, function, typeArgs, args, none⟩
  | .pipe value function =>
    let callee := node.sibling function
    let subject ← expand (← deeper.typeOf situation callee)
    return some ⟨callee, subject, [], [node.sibling value], none⟩
  | _ => return none

/-- The type of an argument of a call, by position. -/
def argumentType (deeper : Deeper m) (situation : Situation) (call : Call) (index : Nat) :
    m Ty :=
  match call.receiver, index with
  | some receiver, 0 => return receiver
  | _, _ =>
    match call.args[index]? with
    | some arg => deeper.typeOf situation arg
    | none => return .unknown

/-- An argument of a call whose parameter mentions a type parameter. -/
structure GenericArgument where
  /-- The position of the argument. -/
  index : Nat
  /-- The type of its parameter. -/
  paramType : Ty
  /-- The argument itself. -/
  arg : Node

/-- The arguments of a call whose parameters mention type parameters. -/
def genericArguments (names : List String) (params : List (Slot Ty)) (args : List Node) :
    List GenericArgument :=
  (params.zip args).zipIdx.filterMap fun ((param, arg), index) =>
    param.type.bind fun type => if type.mentions names then some ⟨index, type, arg⟩ else none

/-- What the type parameters of a call stand for: the type arguments written out, else
what the arguments say. Literals that take their type from the call are looked at
only if `withLiterals` is set, after all other arguments, each expecting its
parameter type under the bindings found before. -/
def bindTypeParams (deeper : Deeper m) (situation : Situation) (call : Call)
    (typeParams params : List (Slot Ty)) (withLiterals : Bool) : m Bindings := do
  if typeParams.isEmpty then return []
  else if !call.typeArgs.isEmpty then
    writtenBindings typeParams call.typeArgs
  else
    let names := typeParams.map (·.name)
    let generic := genericArguments names params call.args
    let settledArgs := generic.filter fun argument => !argument.arg.needsContext
    let bound ← settledArgs.foldlM (fun bound argument => do
      let argType ← deeper.argumentType situation call argument.index
      matchGenerics names argument.paramType argType.widen bound) []
    if withLiterals then
      let settled := Ty.completeBindings typeParams bound
      let literals := generic.filter fun argument => argument.arg.needsContext
      let bound ← literals.foldlM (fun bound argument => do
        let expected := argument.paramType.substitute settled
        let argType ← expecting situation argument.arg expected fun situation =>
          deeper.typeOf situation argument.arg
        matchGenerics names argument.paramType argType bound) bound
      return Ty.completeBindings typeParams bound
    else return Ty.completeBindings typeParams bound

/-- The type of what a call gives. -/
def resultType (deeper : Deeper m) (situation : Situation) (call : Call) :
    m Ty := do
  match call.subject with
  | .func typeParams params result =>
    return result.substitute
      (← deeper.bindTypeParams situation call typeParams params true)
  | .any => return .any
  | .escape => return .escape
  | _ => return .unknown

/-- The type that a call requires of one of its arguments. -/
def expectedArgument? (deeper : Deeper m) (situation : Situation)
    (invocation arg : Node) : m (Option Ty) := do
  match ← deeper.call? situation invocation with
  | none => return none
  | some call =>
    match call.args.findIdx? (· == arg), call.subject.signature? with
    | some position, some (typeParams, params) =>
      let bindings ← deeper.bindTypeParams situation call typeParams params false
      return params[position]?.map fun param => param.typeOrUnknown.substitute bindings
    | _, _ => return none

/-- The type that the construct around a node requires of it, if any. -/
def expectedType? (deeper : Deeper m) (situation : Situation) (node : Node) :
    m (Option Ty) :=
  recalling situation node fun recorded => do
    match recorded, node.parent with
    | some type, _ => return some type
    | none, none => return none
    | none, some parent =>
      match parent.form with
      | .parenthesized _ => deeper.expected? situation parent
      | .invocation _ _ _ => deeper.expectedArgument? situation parent node
      | .pipe value function =>
        if function = node.id then
          return some (.callback (← deeper.typeOf situation (parent.sibling value)).widen)
        else return none
      | _ => ascribedType? node parent

end Deeper

end ScriptCheck
