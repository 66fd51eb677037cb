import ScriptCheck.Ty.Basic

/-!
# What names refer to
-/

namespace ScriptCheck

/-- The two kinds of names. Stores and nominal types have one name of each kind. -/
inductive Namespace where
  | value
  | type
deriving DecidableEq

/-- The kind of names that is not the given one. -/
def Namespace.other : Namespace → Namespace
  | value => type
  | type => value

/-- What a name was found to be. -/
inductive Binding where
  /-- A func, proc, constant, variable or store, or a nominal type as the function
  that makes its values. -/
  | declared (declaration : Node)
  /-- A parameter of a func or proc, by position. -/
  | parameter (holder : Node) (index : Nat)
  /-- A type, with the type parameters that its name is applied to. -/
  | type (type : Ty) (params : List (Slot Ty))
  /-- Another module as a whole. -/
  | importedModule (importing : Node)
  /-- The item of a loop. -/
  | loopItem (forLoop : Node)

/-- Why a name was not found, or not found to be usable. -/
inductive LookupError where
  /-- No scope declares the name. -/
  | unknownName
  /-- The name is imported from a module that does not exist. -/
  | unknownModule (importing : Node) (path : String)
  /-- The name is imported from a module that does not export it. -/
  | unknownExport (importing : Node) (path name : String)
  /-- The name is declared further down. -/
  | usedTooEarly (found : Binding)
  /-- The name is used in the value it is declared with. -/
  | usedInOwnValue (found : Binding)

/-- The result of looking up a name. -/
abbrev Lookup := Except LookupError Binding

end ScriptCheck
