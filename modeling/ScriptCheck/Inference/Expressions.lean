import ScriptCheck.Inference.Calls

/-!
# Types of expressions

A node whose type is being inferred is marked as busy. If its type is asked for again
on the way, the answer is `unknown`, so that a func that calls itself has a type.
-/

namespace ScriptCheck

/-- What an arm of a conditional or switch gives. -/
def Node.outcome? (arm : Node) : Option Node :=
  match arm.form with
  | .ifCase _ outcome => some (arm.sibling outcome)
  | .switchCase _ outcome => some (arm.sibling outcome)
  | _ => none

/-- The position of a parameter in the literal it belongs to. -/
def Node.paramPosition? (param holder : Node) : Option Nat :=
  holder.literalParams?.bind fun params => params.findIdx? (· == param.id)

namespace Deeper

section Forms

open Inquirer

variable {m : Type → Type} [Inquirer m]

/-- The type of a conditional or switch, from what its arms give. Without a last arm
it may also be `nil`. -/
def armsType (deeper : Deeper m) (situation : Situation) (node : Node)
    (arms : List NodeId) (otherwise : Option NodeId) : m Ty := do
  let outcomes := arms.filterMap fun id => (node.sibling id).outcome?
  let types ← outcomes.mapM (deeper.typeOf situation)
  let last ← match otherwise with
    | some id => deeper.typeOf situation (node.sibling id)
    | none => pure Ty.nil
  distillUnion (types ++ [last])

/-- The type of a binary operation. -/
def operationType (deeper : Deeper m) (situation : Situation)
    (left : Node) (operator : BinaryOperator) (right : Node) : m Ty := do
  let left ← deeper.typeOf situation left
  let right ← deeper.typeOf situation right
  match operator with
  | .orElse =>
    let present ← subtract left .nil
    distillUnion [present, right]
  | _ => return (← operationType? operator left right).getD .unknown

/-- The type of an access to the part of a value. An optional access leaves out `nil`
before and allows it after. -/
def accessType (base : Ty) (optional : Bool)
    (part : Ty → m (Option Ty)) : m Ty := do
  if optional then
    let found ← part (← subtract base .nil)
    return (found.map Ty.orNil).getD .unknown
  else return (← part base).getD .unknown

/-- The types of the entries of an object literal. -/
def entryFields (deeper : Deeper m) (situation : Situation) (entries : List Node) :
    m (List (Field Ty)) :=
  entries.filterMapM fun entry => do
    match entry.form with
    | .objectEntry key value =>
      return some ⟨key, ← deeper.typeOf situation (entry.sibling value), false⟩
    | _ => return none

/-- The type of a node, from the types one level further down. -/
def formType (deeper : Deeper m) (situation : Situation) (node : Node) :
    m Ty := do
  let inside (id : NodeId) : m Ty := deeper.typeOf situation (node.sibling id)
  match node.form with
  | .number value => return .numberLiteral value
  | .string value => return .stringLiteral value
  | .boolean value => return .literal (.boolean value)
  | .nil => return .nil
  | .escape _ => return .escape
  | .identifier name =>
    match ← resolve name node with
    | .ok binding => deeper.bindingType situation binding
    | .error _ => return .unknown
  | .this => return (node.enclosingStore?.map Node.storeType).getD .unknown
  | .binary left operator right =>
    deeper.operationType situation (node.sibling left) operator (node.sibling right)
  | .unary .not _ => return .boolean
  | .unary .negate _ => return .number
  | .invocation _ _ _ | .pipe _ _ =>
    match ← deeper.call? situation node with
    | some call => deeper.resultType situation call
    | none => return .unknown
  | .property subject name optional =>
    let base ← expand (← inside subject)
    accessType base optional fun base => deeper.propertyType situation base name
  | .index subject keyId optional =>
    let base ← expand (← inside subject)
    let key ← inside keyId
    accessType base optional fun base => deeper.indexType situation base key
  | .func typeParams params result body =>
    typeParamSlots node typeParams fun slots => do
      let args ← deeper.literalParams situation node params
      let gives ← match result with
        | some id => lowering (node.sibling id) pure
        | none => inside body
      return .func slots args gives
  | .proc typeParams params _ =>
    typeParamSlots node typeParams fun slots =>
      return .proc slots (← deeper.literalParams situation node params)
  | .ifExpression cases otherwise => deeper.armsType situation node cases otherwise
  | .switch _ cases otherwise => deeper.armsType situation node cases otherwise
  | .array entries =>
    if entries.isEmpty then return .tuple []
    else return .array (.unionOf (← entries.mapM inside))
  | .object entries => return .object (← deeper.entryFields situation (entries.map node.sibling))
  | .parenthesized inner => inside inner
  | .inlineConst _ _ _ body => inside body
  | .range _ _ => return .iterator .number
  | .cast _ target => lowering (node.sibling target) pure
  | .param _ _ =>
    match node.parent with
    | none => return .unknown
    | some holder =>
      match node.paramPosition? holder with
      | some position => deeper.paramType situation holder position
      | none => return .unknown
  | form =>
    if form.isTypeExpression then lowering node pure
    else deeper.declarationType situation node

end Forms

/-- The type of a node, or `unknown` if it is being inferred already. -/
def nodeType (deeper : Deeper) (situation : Situation) (node : Node) :
    Inference Ty :=
  if situation.busy.contains node then return .unknown
  else deeper.formType { situation with busy := node :: situation.busy } node

/-- The questions answered with at most `depth` questions inside each other. -/
def within : Nat → Deeper
  | 0 => .silent
  | depth + 1 =>
    { typeOf := fun situation node => (within depth).nodeType situation node
      expected? := fun situation node => (within depth).expectedType? situation node
      property? := fun situation type name => (within depth).propertyType situation type name
      indexed? := fun situation base key => (within depth).indexType situation base key }

end Deeper

namespace Node

/-- The type of a node within a depth. Unless `keepGenerics` is set, the type
parameters of a func or proc type are replaced by their bounds. -/
def infer? (depth : Nat) (node : Node) (keepGenerics : Bool) : Inference Ty := do
  let type ← (Deeper.within depth).typeOf .idle node
  return if keepGenerics then type else type.eraseGenerics

/-- What a method-style call calls, within a depth. -/
def methodTarget? (depth : Nat) (invocation : Node) : Inference (Option Binding) := do
  let method ← (Deeper.within depth).methodCall? .idle invocation
  return method.map (·.function)

end Node

end ScriptCheck
