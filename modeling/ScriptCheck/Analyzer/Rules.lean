import ScriptCheck.Analyzer.Types
import ScriptCheck.Checking.Rules

/-!
# An analyzer checks scripts and answers questions

The rules of a script as an analyzer goes through them, and the questions that can be put to an
analyzer from outside. One analyzer may be asked any number of questions, one after another.
-/

namespace ScriptCheck

namespace Analyzer

/-- The kinds of names that a module exports under a name. -/
def exportedSpaces (target : Option Script) (name : String) : Asking (List Namespace) :=
  [Namespace.value, Namespace.type].filterM fun space => do
    match target with
    | some script => return (← export? script name space).isSome
    | none => return false

/-- What an imported item declares. -/
def importBinders (target : Option Script) (item : Node) : Asking (List Binder) := do
  match item.form with
  | .importItem name localName =>
    let spaces ← exportedSpaces target name
    let declared := if spaces.isEmpty then [.value] else spaces
    return declared.map fun space => ⟨localName.getD name, space, item⟩
  | _ => return []

/-- What a declaration of a module declares. -/
def moduleBinders (declaration : Node) : Asking (List Binder) := do
  match declaration.form with
  | .importNames path items =>
    let target ← load declaration path
    let binders ← (items.map declaration.sibling).mapM (importBinders target)
    return binders.flatten
  | _ => (declaration.moduleBinders : Inquiry _)

/-- A module may not declare a name twice. -/
def moduleNames (declarations : List Node) : Asking (List Problem) := do
  let binders ← declarations.mapM moduleBinders
  return Binder.duplicates binders.flatten

/-- Names may be imported only from a module that exists and exports them. -/
def importedNames (node : Node) (path : String) (items : List NodeId) :
    Analysis (List Problem) := do
  match ← load node path with
  | none => return [⟨node, .unknownModule path⟩]
  | some target =>
    (items.map node.sibling).filterMapM fun item => do
      match item.form with
      | .importItem name _ =>
        if (← exportedSpaces (some target) name).isEmpty then
          return some ⟨item, .unknownExport path name⟩
        else return none
      | _ => return none

end Analyzer

instance : Inspector Analysis where
  moduleNames declarations := liftM (Analyzer.moduleNames declarations)
  importedNames := Analyzer.importedNames

namespace Analyst

variable (analyst : Analyst)

/-- The type of a node, with or without the type parameters of a func or proc. -/
def infer (node : Node) (keepGenerics : Bool) : Analysis Ty := do
  let type ← analyst.typeOf .idle node
  return if keepGenerics then type else type.eraseGenerics

/-- What a method-style call calls. -/
def methodTarget (invocation : Node) : Analysis (Option Binding) := do
  let method ← analyst.methodCall? .idle invocation
  return method.map (·.function)

/-- The problems of a script. -/
def typecheck (script : Script) : Analysis (List Problem) :=
  Inspection.problemsWithin ⟨analyst⟩ script.size script.rootNode

end Analyst

/-- What an analyzer can be asked. -/
inductive Question where
  /-- What a name, written at a node, refers to. -/
  | resolve (name : String) (node : Node)
  /-- The type of a node, with or without the type parameters of a func or proc. -/
  | infer (node : Node) (keepGenerics : Bool)
  /-- Whether a value of the one type may be used where the other is expected. -/
  | subsumes (destination value : Ty) (throughGenerics : Bool)
  /-- What is left of a type without the members another type covers. -/
  | subtract (type removed : Ty)
  /-- What an invocation calls, if it is the method-style call of a function in scope. -/
  | methodTarget (invocation : Node)
  /-- The problems of a script. -/
  | typecheck (script : Script)

/-- What an analyzer answers. -/
inductive Answer where
  /-- What a name refers to. -/
  | lookup (found : Lookup)
  /-- A type. -/
  | type (type : Ty)
  /-- A yes or no. -/
  | verdict (holds : Bool)
  /-- What is called, if anything. -/
  | target (binding : Option Binding)
  /-- The problems found. -/
  | problems (problems : List Problem)

/-- An analyzer answers a question, with at most `depth` questions of inference inside each
other. -/
def Question.ask (depth : Nat) : Question → Analysis Answer
  | .resolve name node => do return .lookup (← Analyzer.resolve name node)
  | .infer node keepGenerics => do
    return .type (← (Analyst.within depth).infer node keepGenerics)
  | .subsumes destination value throughGenerics => do
    return .verdict (← Analyzer.subsumes destination value throughGenerics)
  | .subtract type removed => do return .type (← Analyzer.subtract type removed)
  | .methodTarget invocation => do
    return .target (← (Analyst.within depth).methodTarget invocation)
  | .typecheck script => do return .problems (← (Analyst.within depth).typecheck script)

/-- What a question has as its answer where no analyzer remembers anything. -/
def Question.answer (depth : Nat) : Question → Inference Answer
  | .resolve name node => do return .lookup (← node.resolve name)
  | .infer node keepGenerics => do return .type (← node.infer? depth keepGenerics)
  | .subsumes destination value throughGenerics => do
    return .verdict (← destination.subsumes value throughGenerics)
  | .subtract type removed => do return .type (← type.subtract removed)
  | .methodTarget invocation => do return .target (← invocation.methodTarget? depth)
  | .typecheck script => do return .problems (← script.problems? depth)

/-- One analyzer answers questions one after another. Each of them is allowed a depth of its
own. -/
def Analyzer.session (questions : List (Nat × Question)) : Analysis (List Answer) :=
  questions.mapM fun row => row.2.ask row.1

end ScriptCheck
