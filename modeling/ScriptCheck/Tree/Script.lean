import ScriptCheck.FilePath
import ScriptCheck.Span
import ScriptCheck.Tree.Form

/-!
# Scripts and their nodes

A script is one parsed source file: a table of nodes in the order in which they
were completed, so that children come before their parents. A node is a position
in such a table together with the script that owns it.
-/

namespace ScriptCheck

/-- A node under construction, before it has a parent. -/
structure Sprout where
  /-- What the node is. -/
  form : Form
  /-- The bytes it covers. -/
  span : Span
deriving DecidableEq, Inhabited

/-- A row of a script's node table. -/
structure Entry where
  /-- What the node is. -/
  form : Form
  /-- The bytes it covers. -/
  span : Span
  /-- The node it is a child of. -/
  parent : Option NodeId
deriving DecidableEq, Inhabited

/-- One parsed source file. -/
structure Script where
  /-- The file it was read from. -/
  path : FilePath
  /-- All nodes by id. -/
  entries : Array Entry
  /-- The node of the whole file. -/
  root : NodeId
deriving Inhabited

/-- A node of a script. -/
structure Node where
  /-- The script that owns the node. -/
  script : Script
  /-- Its position in the node table. -/
  id : NodeId
deriving Inhabited

/-- Records, for every child of a form, the id of the node with that form. -/
def adopt (parents : Array (Option NodeId)) (parent : NodeId) (children : List NodeId) :
    Array (Option NodeId) :=
  children.foldl (fun known child => known.setIfInBounds child (some parent)) parents

/-- The parent of every node of a table. -/
def parentsOf (sprouts : Array Sprout) : Array (Option NodeId) :=
  sprouts.toList.zipIdx.foldl (fun known row => adopt known row.2 row.1.form.children)
    (Array.replicate sprouts.size none)

namespace Script

/-- The script with the given nodes, each linked to its parent. -/
def ofSprouts (path : FilePath) (sprouts : Array Sprout) (root : NodeId) : Script :=
  let parents := parentsOf sprouts
  { path
    entries := sprouts.mapIdx fun id sprout =>
      ⟨sprout.form, sprout.span, (parents[id]?).join⟩
    root }

/-- A script without declarations, which stands in for a file that does not parse. -/
def empty (path : FilePath) : Script := ofSprouts path #[⟨.module [], ⟨0, 0⟩⟩] 0

/-- Number of nodes. -/
def size (script : Script) : Nat := script.entries.size

/-- Whether the id names a node of the script. -/
def contains (script : Script) (id : NodeId) : Bool := decide (id < script.size)

/-- The node with the given id. -/
def node (script : Script) (id : NodeId) : Node := ⟨script, id⟩

/-- The node of the whole file. -/
def rootNode (script : Script) : Node := script.node script.root

/-- Whether two scripts have the same path and, node by node, the same form, span
and parent. Numbers are compared as values. -/
def sameAs (left right : Script) : Bool :=
  left.path == right.path && left.root == right.root &&
    left.entries.size == right.entries.size &&
    (left.entries.toList.zip right.entries.toList).all fun rows =>
      rows.1.form.equals rows.2.form && rows.1.span == rows.2.span && rows.1.parent == rows.2.parent

end Script

namespace Node

/-- Row of the node in its script's table. -/
def entry (node : Node) : Entry := (node.script.entries[node.id]?).getD default

/-- What the node is. -/
def form (node : Node) : Form := node.entry.form

/-- The bytes the node covers. -/
def span (node : Node) : Span := node.entry.span

/-- Another node of the same script. -/
def sibling (node : Node) (id : NodeId) : Node := ⟨node.script, id⟩

/-- The node this one is a child of. -/
def parent (node : Node) : Option Node := node.entry.parent.map node.sibling

/-- Direct children in source order. -/
def children (node : Node) : List Node := node.form.children.map node.sibling

/-- Whether two nodes have the same id in scripts with the same path. -/
def sameAs (left right : Node) : Bool :=
  left.id == right.id && left.script.path == right.script.path

instance : BEq Node := ⟨sameAs⟩

/-- At most `limit` proper ancestors, innermost first. -/
def ancestorsWithin : Nat → Node → List Node
  | 0, _ => []
  | limit + 1, node =>
    match node.parent with
    | none => []
    | some parent => parent :: ancestorsWithin limit parent

/-- Proper ancestors, innermost first. A script has no more of them than nodes. -/
def ancestors (node : Node) : List Node := node.ancestorsWithin node.script.size

/-- The enclosing nodes, innermost first, each with the child that leads to it. -/
def enclosing (node : Node) : List (Node × Node) := (node :: node.ancestors).zip node.ancestors

/-- Position of the node among its parent's children. -/
def siblingIndex (node : Node) : Option Nat :=
  node.parent.bind fun parent => parent.form.children.findIdx? (· == node.id)

/-- The node itself or its ancestor that is a direct child of `ancestor`. -/
def childOf (node ancestor : Node) : Option Node :=
  (node.enclosing.find? fun link => link.2 == ancestor).map Prod.fst

/-- Whether `ancestor` is a proper ancestor. -/
def isDescendantOf (node ancestor : Node) : Bool := node.ancestors.any (· == ancestor)

/-- Descends at most `limit` times to the first child that covers the offset. -/
def descend (offset : Nat) : Nat → Node → Node
  | 0, node => node
  | limit + 1, node =>
    match node.children.find? fun child => child.span.contains offset with
    | none => node
    | some child => descend offset limit child

/-- How a node is referred to in answers. -/
def reference (node : Node) : String :=
  node.script.path.text ++ "#" ++ toString node.id ++ "(" ++ node.form.label ++ ")"

end Node

namespace Script

/-- Top-level declarations in source order. -/
def declarations (script : Script) : List Node := script.rootNode.children

/-- The innermost node found by descending from the root to the first child that
covers the offset. -/
def nodeAt (script : Script) (offset : Nat) : Node :=
  script.rootNode.descend offset script.size

end Script

end ScriptCheck
