import ScriptCheck.Inference.Basic
import ScriptCheck.Inference.Matching
import ScriptCheck.Inference.Operators

/-!
# Who infers

Inference goes the same way for everyone who asks its questions. One may be told at each
question what is going on, or keep a record of it oneself, and read type expressions and compare
types accordingly.
-/

namespace ScriptCheck

/-- The type written where a declaration holds the node as its value. -/
def Node.ascribedType? (node parent : Node) : Option Ty :=
  let given (ascription : Option NodeId) (value : NodeId) : Option Ty :=
    if value = node.id then ascription.map fun id => (parent.sibling id).lower else none
  match parent.form with
  | .valueDeclaration _ ascription value _ _ => given ascription value
  | .localDeclaration _ ascription value _ => given ascription value
  | .storeMember _ _ ascription value => given ascription value
  | .inlineConst _ ascription value _ => given ascription value
  | _ => none

/-- How names and types are read, looked up and compared in the course of inference. -/
class Inquirer (m : Type → Type) extends Monad m where
  /-- Goes on with the type of a type expression. -/
  lowering {α : Type} : Node → (Ty → m α) → m α
  /-- Goes on with the type parameters among the given nodes. -/
  typeParamSlots {α : Type} : Node → List NodeId → (List (Slot Ty) → m α) → m α
  /-- Goes on with the parameters among the given nodes. -/
  paramSlots {α : Type} : Node → List NodeId → (List (Slot Ty) → m α) → m α
  /-- The type written where a declaration holds the node as its value. -/
  ascribedType? : Node → Node → m (Option Ty)
  /-- What type parameters stand for according to the type arguments written out. -/
  writtenBindings : List (Slot Ty) → List Node → m Bindings
  /-- The script that a specifier names. -/
  load : Node → String → m (Option Script)
  /-- What a name used at a node refers to. -/
  resolve : String → Node → m Lookup
  /-- What a name of a kind, used at a node, refers to. -/
  resolveIn : String → Node → Namespace → m Lookup
  /-- The type that a type is after seeing through names. -/
  expand : Ty → m Ty
  /-- Whether a value of the one type may be used where the other is expected. -/
  subsumes : Ty → Ty → Bool → m Bool
  /-- The members of a type that another type does not cover. -/
  subtract : Ty → Ty → m Ty
  /-- The union of types without the members that others cover. -/
  distillUnion : List Ty → m Ty
  /-- The type of an operation, if the operator can be applied to the operands. -/
  operationType? : BinaryOperator → Ty → Ty → m (Option Ty)
  /-- Adds to the bindings what the argument says about the type parameters named. -/
  matchGenerics : List String → Ty → Ty → Bindings → m Bindings
  /-- Goes on with the latest type recorded as expected of a node. -/
  recalling {α : Type} : Situation → Node → (Option Ty → m α) → m α
  /-- Goes on while a type is expected of a node. -/
  expecting {α : Type} : Situation → Node → Ty → (Situation → m α) → m α

/-- One is told what is going on. -/
instance : Inquirer Inference where
  toMonad := Inference.instMonad
  lowering node next := next node.lower
  typeParamSlots holder ids next := next (holder.typeParamSlots ids)
  paramSlots holder ids next := next (holder.paramSlots ids)
  ascribedType? node parent := pure (node.ascribedType? parent)
  writtenBindings typeParams typeArgs := pure <| typeParams.zipIdx.map fun (param, index) =>
    (param.name, (typeArgs[index]?.map Node.lower).getD param.typeOrUnknown)
  load importer specifier := liftM (importer.load specifier)
  resolve name node := liftM (node.resolve name)
  resolveIn name node space := liftM (node.resolveIn name space)
  expand type := liftM type.expand
  subsumes destination value throughGenerics := liftM (destination.subsumes value throughGenerics)
  subtract type removed := liftM (type.subtract removed)
  distillUnion types := liftM (Ty.distillUnion types)
  operationType? operator left right := liftM (operator.operationType? left right)
  matchGenerics names param arg bound := liftM (Ty.matchGenerics names param arg bound)
  recalling situation node next := next (situation.recorded? node)
  expecting situation node type next := next (situation.expecting node type)

end ScriptCheck
