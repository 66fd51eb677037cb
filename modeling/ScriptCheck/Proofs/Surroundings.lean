import ScriptCheck.Proofs.TypeCourses

/-!
# Scripts with the same surroundings

Scripts are replaced by others in which every node has its place and is the same, or declares
nothing in both. Nodes that declare nothing may be put around others, or taken away there. Then
type expressions are read and names are looked up as before.
-/

namespace ScriptCheck

open Movable (move)
open Inquiry (Transfers)
open List Node

/-- Whether nothing is found in a node of the form. -/
def Form.isPlain (form : Form) : Bool := form.isBare && !form.isRow

theorem Form.isPlain_of_isOperand {form : Form} (operand : form.isOperand = true) :
    form.isPlain = true := by
  cases form with
  | identifier | invocation | pipe | escape => rfl
  | _ => cases operand

namespace Transplant

variable (graft : Transplant)

/-- Nodes, each with the node around it, are the same before and after the change, apart from those
in which nothing is found. -/
inductive Surrounds : List (Node × Node) → List (Node × Node) → Prop
  | nil : Surrounds [] []
  | same {child scope : Node} {links links' : List (Node × Node)} :
      (move graft scope).form = scope.form →
      (move graft child).siblingIndex = child.siblingIndex → Surrounds links links' →
      Surrounds ((child, scope) :: links) ((move graft child, move graft scope) :: links')
  | before {link : Node × Node} {links links' : List (Node × Node)} :
      link.2.form.isPlain = true → Surrounds links links' → Surrounds (link :: links) links'
  | after {link : Node × Node} {links links' : List (Node × Node)} :
      link.2.form.isPlain = true → Surrounds links links' → Surrounds links (link :: links')

/-- A change in which all nodes have the same around them. -/
structure Remodels : Prop where
  visited (node : Node) : graft.visited node
  allowed : graft.allowed = Reference.IsDeclared
  node (node : Node) : move graft node = (move graft node.script).node node.id
  form (node : Node) : (move graft node).form = node.form ∨
    node.form.isBare = true ∧ (move graft node).form.isBare = true
  size (script : Script) : (move graft script).size = script.size
  declarations (script : Script) :
    (move graft script).declarations = script.declarations.map (move graft)
  imports (importer : Script) (path : String) : graft.after (move graft importer) path =
    (graft.before importer path).map (move graft)
  surrounds (node : Node) : graft.Surrounds node.enclosing (move graft node).enclosing

variable {graft}

/-- What is found first around nodes is the same if it is in a node that is. -/
theorem Surrounds.findSome? [Movable α] (around : graft.Surrounds links links')
    {find find' : Node × Node → Option α}
    (same : ∀ {child scope}, (move graft scope).form = scope.form →
      (move graft child).siblingIndex = child.siblingIndex →
      find' (move graft child, move graft scope) = (find (child, scope)).map (move graft))
    (none : ∀ link, link.2.form.isPlain = true → find link = .none)
    (none' : ∀ link, link.2.form.isPlain = true → find' link = .none) :
    links'.findSome? find' = (links.findSome? find).map (move graft) := by
  induction around with
  | nil => rfl
  | @same child scope _ _ form index _ ih =>
    rw [findSome?_cons, findSome?_cons, same form index]
    cases find (child, scope) with
    | none => exact ih
    | some found => rfl
  | before plain _ ih => rw [findSome?_cons, none _ plain, ih]
  | after plain _ ih => rw [findSome?_cons, none' _ plain, ih]

/-- Nodes that are the same, or in which nothing is found, are so one after another. -/
theorem Surrounds.map (same : ∀ link ∈ links, (move graft link.2).form = link.2.form ∧
        (move graft link.1).siblingIndex = link.1.siblingIndex ∨
      link.2.form.isPlain = true ∧ (move graft link.2).form.isPlain = true) :
    graft.Surrounds links (links.map (move graft)) := by
  induction links with
  | nil => exact .nil
  | cons link rest ih =>
    obtain ⟨own, others⟩ := forall_mem_cons.mp same
    rcases own with ⟨form, index⟩ | ⟨plain, plain'⟩
    · exact .same form index (ih others)
    · exact .before plain (.after plain' (ih others))

/-- What is on record is the same where the expectations are. -/
theorem recorded {situation situation' : Situation}
    (same : situation'.expectations = situation.expectations.map (move graft))
    (written : ∀ row ∈ situation.expectations, graft.Writes row.2) (node : Node) :
    situation'.recorded? (move graft node) = (situation.recorded? node).map (move graft) ∧
      ∀ type ∈ situation.recorded? node, graft.Writes type := by
  refine ⟨?_, fun type ht => ?_⟩
  · rw [Situation.recorded?, Situation.recorded?, same, find?_map, Option.map_map, Option.map_map]
    exact congrArg (fun test => (situation.expectations.find? test).map _)
      (funext fun row => graft.sameAs row.1 node)
  · obtain ⟨row, hr, rfl⟩ := Option.map_eq_some_iff.mp ht
    exact written row (mem_of_find?_eq_some hr)

end Transplant

theorem Node.findSome?_ancestors (node : Node) (find : Node → Option α) :
    node.ancestors.findSome? find = node.enclosing.findSome? fun link => find link.2 := by
  have above : node.enclosing.map Prod.snd = node.ancestors := map_snd_zip (by simp)
  rw [← above, findSome?_map]
  rfl

namespace Transplant.Remodels

variable {graft : Transplant} (remodels : graft.Remodels)
include remodels

theorem keepsForms : graft.KeepsForms where
  form _ := remodels.form _
  sibling {node} id _ _ := by
    rw [remodels.node node, remodels.node (node.sibling id)]
    rfl
  child _ _ := remodels.visited _

theorem script_move (node : Node) : (move graft node).script = move graft node.script := by
  rw [remodels.node node]
  rfl

/-- What is found first in the nodes around a node is the same if nothing is found in nodes that
declare nothing. -/
theorem findSome?_ancestors [Movable α] {find : Node → Option α} (node : Node)
    (same : ∀ node, find (move graft node) = (find node).map (move graft))
    (none : ∀ node, node.form.isBare = true → find node = .none) :
    (move graft node).ancestors.findSome? find =
      (node.ancestors.findSome? find).map (move graft) := by
  have plain (link : Node × Node) (plain : link.2.form.isPlain = true) : find link.2 = .none :=
    none link.2 (Bool.and_eq_true_iff.mp plain).1
  rw [Node.findSome?_ancestors, Node.findSome?_ancestors]
  exact (remodels.surrounds node).findSome? (fun _ _ => same _) plain plain

theorem rereads : graft.Rereads where
  toKeepsForms := remodels.keepsForms
  typeParam {node} name _ := by
    refine ⟨remodels.findSome?_ancestors node
      (fun node => remodels.keepsForms.ownTypeParam? (remodels.visited node) name)
      fun node bare => ?_, fun param _ => remodels.visited param⟩
    rw [Node.ownTypeParam?, typeParams_of_bare bare]
    rfl

theorem isExported (node : Node) : (move graft node).isExported = node.isExported := by
  rcases remodels.form node with same | ⟨bare, bare'⟩
  · rw [Node.isExported, Node.isExported, same]
  · rw [isExported_of_bare bare, isExported_of_bare bare']

theorem size_move (node : Node) : (move graft node).script.size = node.script.size := by
  rw [remodels.script_move]
  exact remodels.size _

theorem imports_move (node : Node) (path : String) : graft.after (move graft node).script path =
    (graft.before node.script path).map (move graft) := by
  rw [remodels.script_move]
  exact remodels.imports _ path

theorem renames : graft.Renames where
  toRereads := remodels.rereads
  lower hv := remodels.rereads.lower hv (remodels.size_move _)
  asTypeParameter hv := remodels.rereads.asTypeParameter hv (remodels.size_move _)
  imports path _ := by
    refine ⟨remodels.imports_move _ path, fun target _ => ⟨?_, fun _ _ => remodels.visited _⟩⟩
    rw [remodels.declarations, filter_map]
    exact congrArg (List.map _) (filter_congr fun declaration _ => remodels.isExported declaration)

/-- Names stand for the same. -/
theorem resolveIn (node : Node) (name : String) (space : Namespace) :
    Transfers graft (node.resolveIn name space) ((move graft node).resolveIn name space)
      fun _ => True := by
  have plain (imports : Imports) (link : Node × Node) (plain : link.2.form.isPlain = true) :
      (link.2.scopeLookup? link.1 name space).answer imports = none := by
    obtain ⟨bare, single⟩ := Bool.and_eq_true_iff.mp plain
    rw [scopeLookup?_of_bare bare (by simpa using single)]
    rfl
  have found : (Inquiry.firstAnswer (fun link => link.2.scopeLookup? link.1 name space)
      (move graft node).enclosing).answer graft.after =
        move graft ((Inquiry.firstAnswer (fun link => link.2.scopeLookup? link.1 name space)
          node.enclosing).answer graft.before) := by
    rw [Inquiry.answer_firstAnswer, Inquiry.answer_firstAnswer]
    refine (remodels.surrounds node).findSome? (fun {child scope} form index => ?_)
      (plain _) (plain _)
    have id : (move graft child).id = child.id := by rw [remodels.node child]; rfl
    exact (remodels.renames.scopeLookup? (remodels.visited scope) name space form index id).moved
  refine .bind (@Transfers.mk _ _ graft _ _ (fun _ => True) trivial found) fun found _ => ?_
  cases found <;> exact .pure trivial rfl

/-- The store around a node is the same. -/
theorem enclosingStore? (node : Node) :
    (move graft node).enclosingStore? = node.enclosingStore?.map (move graft) ∧
      ∀ store ∈ node.enclosingStore?, graft.allowed (.store store) := by
  have found (node : Node) : node.enclosingStore? =
      node.ancestors.findSome? (Option.guard fun above => above.form.isStore) := by
    rw [findSome?_guard]
    rfl
  refine ⟨?_, fun store hs => ?_⟩
  · rw [found, found]
    refine remodels.findSome?_ancestors node (fun node => ?_) fun node bare => ?_
    · have same : (move graft node).form.isStore = node.form.isStore := by
        rcases remodels.form node with same | ⟨bare, bare'⟩
        · rw [same]
        · rw [Form.isStore_of_bare bare, Form.isStore_of_bare bare']
      simp only [Option.guard, same]
      split <;> rfl
    · simp [Option.guard, Form.isStore_of_bare bare]
  · have found := find?_some hs
    rw [remodels.allowed]
    exact found

theorem lower (node : Node) :
    (move graft node).lower = move graft node.lower ∧ graft.Writes node.lower := by
  refine ⟨remodels.renames.lower (remodels.visited node), ?_⟩
  rw [Transplant.Writes, remodels.allowed]
  exact reads_isDeclared.lower trivial

theorem asTypeParameter (node : Node) :
    (move graft node).asTypeParameter = move graft node.asTypeParameter ∧
      graft.Writes node.asTypeParameter := by
  refine ⟨remodels.renames.asTypeParameter (remodels.visited node), ?_⟩
  rw [Transplant.Writes, remodels.allowed]
  exact reads_isDeclared.asTypeParameter trivial

theorem typeNames : graft.KeepsTypeNames := by
  refine fun name origin _ => ⟨fun _ _ found => ?_, (remodels.resolveIn origin name .type).moved⟩
  unfold Transplant.Writes
  rw [remodels.allowed]
  exact formed_of_resolveIn found

/-- What a node around a name makes of it may be asked about if what is inside the node may. -/
theorem opensBinding (offers : scope.Offers graft.before binding)
    (own : scope.form.isBare = false → graft.asked situation scope)
    (awaits : graft.asked situation scope → scope.needsContext = true →
      graft.awaited situation scope)
    (row : scope.form.isRow = true → ∀ declaration ∈ scope.children,
      graft.asked situation declaration)
    (exported : ∀ target : Script, ∀ declaration ∈ target.declarations,
      graft.asked situation declaration)
    (opens : ∀ {node}, graft.asked situation node → node.form.isBare = false →
      graft.Opens situation node) : graft.OpensBinding situation binding := by
  have named (declaration : Node) : graft.OpensBinding situation declaration.namedTypeBinding := by
    obtain ⟨type, params, he⟩ := declaration.namedTypeBinding_eq
    rw [he]
    trivial
  cases offers with
  | declared inside member declares =>
    have asked := row inside _ member
    exact ⟨asked, opens asked declares⟩
  | constant hf =>
    have other : scope.form.isBare = false := by rw [hf]; rfl
    exact ⟨own other, opens (own other) other⟩
  | parameter literal params =>
    have other : scope.form.isBare = false := by
      rw [Node.literalParams?] at literal
      cases hf : scope.form with
      | module | identifier | property | invocation | pipe | escape => simp [hf] at literal
      | _ => rfl
    have whole := opens (own other) other
    refine Transplant.opensParam whole (awaits (own other)) fun id hi => ?_
    obtain ⟨ids, hp, hm⟩ := Option.bind_eq_some_iff.mp hi
    obtain ⟨name, ascription, hf⟩ := params id hi
    have asked := whole.asks id (literalParams?_subset hp (mem_of_getElem? hm))
    exact ⟨opens asked (by rw [hf]; rfl), name, ascription, hf⟩
  | typeParam => trivial
  | named => exact named _
  | importedModule inside member hf =>
    exact ⟨remodels.visited _, opens (row inside _ member) (by rw [hf]; rfl)⟩
  | loopItem hf =>
    have other : scope.form.isBare = false := by rw [hf]; rfl
    exact opens (own other) other
  | exported inside loaded found declares =>
    have asked := exported _ _ (mem_of_mem_filter found)
    obtain ⟨other, rfl | rfl⟩ := cases_of_declares? declares
    · exact ⟨asked, opens asked other⟩
    · exact named _

end Transplant.Remodels

end ScriptCheck
