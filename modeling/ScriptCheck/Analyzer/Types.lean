import ScriptCheck.Analyzer.Comparisons
import ScriptCheck.Inference.Expressions

/-!
# An analyzer infers types

An analyzer keeps a record of what is going on: a node is entered as in progress while its type is
inferred, and an argument is entered with the type its call expects while the type parameters of
the call are found. So it makes nothing of the situation that questions come with.
-/

namespace ScriptCheck

namespace Analyzer

/-- The type written for the value of a declaration, if the node is that value. -/
def writtenFor? (node parent : Node) (ascription : Option NodeId) (value : NodeId) :
    Asking (Option Ty) :=
  match ascription with
  | some id => do
    if value = node.id then return some (← lower (parent.sibling id)) else return none
  | none => return none

/-- The type written where a declaration holds the node as its value. -/
def ascribedType? (node parent : Node) : Asking (Option Ty) :=
  match parent.form with
  | .valueDeclaration _ ascription value _ _ => writtenFor? node parent ascription value
  | .localDeclaration _ ascription value _ => writtenFor? node parent ascription value
  | .storeMember _ _ ascription value => writtenFor? node parent ascription value
  | .inlineConst _ ascription value _ => writtenFor? node parent ascription value
  | _ => return none

/-- What type parameters stand for according to the type arguments written out. -/
def writtenBindings (typeParams : List (Slot Ty)) (typeArgs : List Node) : Asking Bindings :=
  typeParams.zipIdx.mapM fun (param, index) => do
    match typeArgs[index]? with
    | some arg => return (param.name, ← lower arg)
    | none => return (param.name, param.typeOrUnknown)

end Analyzer

/-- One keeps a record of what is going on. -/
instance : Inquirer Analysis where
  toMonad := StateT.instMonad
  lowering node next := do next (← Analyzer.lower node)
  typeParamSlots holder ids next := do next (← Analyzer.typeParamSlots holder ids)
  paramSlots holder ids next := do next (← Analyzer.paramSlots holder ids)
  ascribedType? node parent := liftM (Analyzer.ascribedType? node parent)
  writtenBindings typeParams typeArgs := liftM (Analyzer.writtenBindings typeParams typeArgs)
  load importer specifier := liftM (Analyzer.load importer specifier)
  resolve name node := liftM (Analyzer.resolve name node)
  resolveIn name node space := liftM (Analyzer.resolveIn name node space)
  expand type := liftM (Analyzer.expand type)
  subsumes destination value throughGenerics :=
    liftM (Analyzer.subsumes destination value throughGenerics)
  subtract type removed := liftM (Analyzer.subtract type removed)
  distillUnion types := liftM (Analyzer.distillUnion types)
  operationType? operator left right := liftM (Analyzer.operationType? operator left right)
  matchGenerics names param arg bound := liftM (Analyzer.matchGenerics names param arg bound)
  recalling _ node next := do next (← Analyzer.recorded? node)
  expecting situation node type next := Analyzer.expecting node type (next situation)

/-- The questions that lead to each other, as an analyzer answers them one level further
down. -/
abbrev Analyst := Deeper Analysis

namespace Analyst

/-- No question is answered. -/
def silent : Analyst where
  typeOf := fun _ _ => (Inference.exhausted : Inference _)
  expected? := fun _ _ => (Inference.exhausted : Inference _)
  property? := fun _ _ _ => (Inference.exhausted : Inference _)
  indexed? := fun _ _ _ => (Inference.exhausted : Inference _)

/-- The type of a node, or `unknown` if it is being inferred already. -/
def nodeType (analyst : Analyst) (situation : Situation) (node : Node) : Analysis Ty :=
  Analyzer.guarded (.inferring node) .unknown (analyst.formType situation node)

/-- The questions answered with at most `depth` questions inside each other. -/
def within : Nat → Analyst
  | 0 => silent
  | depth + 1 =>
    { typeOf := nodeType (within depth)
      expected? := (within depth).expectedType?
      property? := (within depth).propertyType
      indexed? := (within depth).indexType }

end Analyst

end ScriptCheck
