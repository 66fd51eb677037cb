import ScriptCheck.Checking.Problem
import ScriptCheck.Token.Basic

/-!
# Diagnostics

A diagnostic is what a user is told about one problem of a file: where it is, which
kind it is and what is wrong.
-/

namespace ScriptCheck

/-- The two passes that report problems. -/
inductive Phase where
  /-- Reading the text of a script. -/
  | parsing
  /-- Checking the rules of a script. -/
  | checking
deriving DecidableEq

/-- One problem of a file. -/
structure Diagnostic where
  /-- The file the span points into. -/
  path : FilePath
  /-- What is wrong. -/
  message : String
  /-- Where it is. -/
  span : Span
  /-- The kind of the problem. -/
  kind : ProblemKind

namespace Diagnostic

/-- The pass that reports diagnostics of this kind. -/
def phase (diagnostic : Diagnostic) : Phase :=
  if diagnostic.kind = .malformed then .parsing else .checking

/-- Whether two diagnostics say the same about the same place. -/
def sameAs (left right : Diagnostic) : Bool :=
  left.path == right.path && left.message == right.message && left.span == right.span &&
    left.kind == right.kind

instance : BEq Diagnostic := ⟨sameAs⟩

/-- The diagnostic of a broken rule. -/
def ofProblem (path : FilePath) (problem : Problem) : Diagnostic :=
  ⟨path, problem.fault.message, problem.node.span, problem.fault.kind⟩

/-- The diagnostic of a text that is not a script. -/
def ofSyntaxError (path : FilePath) (error : SyntaxError) : Diagnostic :=
  ⟨path, error.message, error.span, .malformed⟩

end Diagnostic

end ScriptCheck
