import ScriptCheck.Scope.Subsumption

/-!
# Binary operators

Each operator has a list of operand types it accepts. The first pair that accepts
both operands gives the type of the result.
-/

namespace ScriptCheck

/-- One way to apply a binary operator. -/
structure Overload where
  /-- What the left operand must be. -/
  left : Ty
  /-- What the right operand must be. -/
  right : Ty
  /-- What the operation then gives. -/
  result : Ty

/-- The ways to apply an operator, in the order they are tried. The operator `??` is
typed by its own rule. -/
def BinaryOperator.overloads : BinaryOperator → List Overload
  | .add =>
    [⟨.number, .number, .number⟩, ⟨.string, .string, .string⟩, ⟨.string, .number, .string⟩,
      ⟨.number, .string, .string⟩]
  | .subtract => [⟨.number, .number, .number⟩]
  | .multiply => [⟨.number, .number, .number⟩]
  | .divide => [⟨.number, .number, .number⟩]
  | .less => [⟨.number, .number, .boolean⟩, ⟨.string, .string, .boolean⟩]
  | .greater => [⟨.number, .number, .boolean⟩, ⟨.string, .string, .boolean⟩]
  | .lessOrEqual => [⟨.number, .number, .boolean⟩, ⟨.string, .string, .boolean⟩]
  | .greaterOrEqual => [⟨.number, .number, .boolean⟩, ⟨.string, .string, .boolean⟩]
  | .equal => [⟨.unknown, .unknown, .boolean⟩]
  | .notEqual => [⟨.unknown, .unknown, .boolean⟩]
  | .both => [⟨.boolean, .boolean, .boolean⟩]
  | .either => [⟨.boolean, .boolean, .boolean⟩]
  | .orElse => []

/-- Whether an overload accepts two operands. -/
def Overload.accepts (overload : Overload) (left right : Ty) : Inquiry Bool := do
  if ← overload.left.subsumes left true then overload.right.subsumes right true
  else return false

/-- The type of an operation, if the operator can be applied to the operands. -/
def BinaryOperator.operationType? (operator : BinaryOperator) (left right : Ty) :
    Inquiry (Option Ty) :=
  Inquiry.firstAnswer (fun overload => do
    if ← overload.accepts left right then return some overload.result
    else return none) operator.overloads

end ScriptCheck
