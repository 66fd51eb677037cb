import ScriptCheck.Checking.Problem
import ScriptCheck.Scope.Resolution

/-!
# Names declared twice

A scope may not declare a name twice in the same namespace. The later declarations
are reported, each once.
-/

namespace ScriptCheck

/-- A name that a node declares. -/
structure Binder where
  /-- The name declared. -/
  name : String
  /-- The kind of name it is. -/
  space : Namespace
  /-- The node that declares it. -/
  node : Node

namespace Binder

/-- Whether two binders declare the same name of the same kind. -/
def clashes (left right : Binder) : Bool :=
  left.name == right.name && left.space == right.space

/-- The binders that clash with an earlier one. -/
def repeated (binders : List Binder) : List Binder :=
  binders.zipIdx.filterMap fun (binder, index) =>
    if (binders.take index).any binder.clashes then some binder else none

/-- Keeps the first binder of each node. -/
def oncePerNode (binders : List Binder) : List Binder :=
  binders.foldl (fun kept binder =>
    if kept.any (·.node == binder.node) then kept else kept ++ [binder]) []

/-- A problem at each node that declares a name again. -/
def duplicates (binders : List Binder) : List Problem :=
  (oncePerNode (repeated binders)).map fun binder =>
    ⟨binder.node, .alreadyDeclared binder.name⟩

end Binder

namespace Node

/-- The type parameters that are declared by the given nodes. -/
def typeParamBinders (holder : Node) (ids : List NodeId) : List Binder :=
  ids.filterMap fun id =>
    match (holder.sibling id).form with
    | .typeParam name _ => some ⟨name, .type, holder.sibling id⟩
    | _ => none

/-- The values declared by the given parameters, store members or statements. -/
def valueBinders (holder : Node) (ids : List NodeId) : List Binder :=
  ids.filterMap fun id =>
    match (holder.sibling id).form with
    | .param name _ => some ⟨name, .value, holder.sibling id⟩
    | .storeMember _ name _ _ => some ⟨name, .value, holder.sibling id⟩
    | .localDeclaration name _ _ _ => some ⟨name, .value, holder.sibling id⟩
    | _ => none

/-- The kinds of names that a module exports under a name. -/
def exportedSpaces (target : Option Script) (name : String) : List Namespace :=
  [Namespace.value, Namespace.type].filter fun space =>
    target.any fun script => (script.export? name space).isSome

/-- What an imported item declares: the kinds of names its module exports, or a value if
there is none. -/
def importBinders (target : Option Script) (item : Node) : List Binder :=
  match item.form with
  | .importItem name localName =>
    let spaces := exportedSpaces target name
    let declared := if spaces.isEmpty then [.value] else spaces
    declared.map fun space => ⟨localName.getD name, space, item⟩
  | _ => []

/-- What a declaration of a module declares. -/
def moduleBinders (declaration : Node) : Inquiry (List Binder) := do
  match declaration.form with
  | .importNames path items =>
    let target ← declaration.load path
    return (items.map declaration.sibling).flatMap (importBinders target)
  | .importAll _ localName => return [⟨localName, .value, declaration⟩]
  | .typeDeclaration name _ _ nominal _ =>
    return if nominal then [⟨name, .value, declaration⟩, ⟨name, .type, declaration⟩]
      else [⟨name, .type, declaration⟩]
  | .storeDeclaration name _ _ =>
    return [⟨name, .value, declaration⟩, ⟨name, .type, declaration⟩]
  | .funcDeclaration name _ _ => return [⟨name, .value, declaration⟩]
  | .procDeclaration name _ _ => return [⟨name, .value, declaration⟩]
  | .valueDeclaration name _ _ _ _ => return [⟨name, .value, declaration⟩]
  | _ => return []

end Node

end ScriptCheck
