import ScriptCheck.Checking.Rules

/-!
# Programs

A program is a set of scripts that can import each other. All questions about a
script are asked of the program it belongs to.
-/

namespace ScriptCheck

/-- Scripts that can import each other. -/
structure Program where
  /-- The script at a path. -/
  find : FilePath → Option Script
  /-- How many questions of inference may be asked inside each other. -/
  depth : Nat

namespace Program

/-- A depth that inference over the given number of nodes stays within, unless it meets a
type that is made of itself without end or is nested more than 200000 times. -/
def depthFor (nodes : Nat) : Nat := 8 * nodes + 200000

/-- How many nodes scripts have together. -/
def nodeCount (scripts : List Script) : Nat :=
  scripts.foldl (fun count script => count + script.size) 0

/-- The program of the given scripts. Of scripts with the same path the first counts. -/
def ofScripts (scripts : List Script) : Program where
  find := fun path => scripts.find? fun script => script.path == path
  depth := depthFor (nodeCount scripts)

/-- How the scripts of a program import each other. -/
def imports (program : Program) : Imports := fun importer specifier =>
  program.find (importer.path.importing specifier)

/-- What a name, written at a node, refers to. -/
def resolve (program : Program) (name : String) (node : Node) : Lookup :=
  (node.resolve name).answer program.imports

/-- The type of a node. There is none if inference does not come to an end. Unless
`keepGenerics` is set, the type parameters of a func or proc type are replaced by
their bounds. -/
def typeOf? (program : Program) (node : Node) (keepGenerics : Bool) : Option Ty :=
  (node.infer? program.depth keepGenerics).answer? program.imports

/-- What an invocation calls, if it is the method-style call of a function in scope. -/
def methodTarget? (program : Program) (invocation : Node) : Option (Option Binding) :=
  (invocation.methodTarget? program.depth).answer? program.imports

/-- The problems of a script in the order of its text. -/
def problems? (program : Program) (script : Script) : Option (List Problem) :=
  (script.problems? program.depth).answer? program.imports

/-- Whether every value of one type is a value of another. -/
def subsumes (program : Program) (destination value : Ty) (throughGenerics : Bool) : Bool :=
  (destination.subsumes value throughGenerics).answer program.imports

/-- The members of a type that another type does not cover. -/
def subtract (program : Program) (type removed : Ty) : Ty :=
  (type.subtract removed).answer program.imports

end Program

end ScriptCheck
