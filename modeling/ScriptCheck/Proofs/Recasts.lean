import ScriptCheck.Proofs.Surroundings
import ScriptCheck.Proofs.TransferredTypes

/-!
# Scripts with other operands

Scripts are replaced by others with the same nodes in the same places. Names, calls and escapes
may be others of them, and spans may be any. Then type expressions are read and names are looked
up as before, since operands declare nothing. Types are inferred as before if those of the other
operands are, and if no literal takes its type from one of them.
-/

namespace ScriptCheck

open Movable (move)
open List

theorem Node.sameAs_self (node : Node) : node.sameAs node = true := by
  show (node.id == node.id && node.script.path.steps == node.script.path.steps) = true
  simp

/-! ### Levels of inference -/

namespace Deeper

/-- A level of inference above another, given how it finds the types of nodes. -/
def above (deeper : Deeper) (typeOf : Situation → Node → Inference Ty) : Deeper where
  typeOf := typeOf
  expected? := deeper.expectedType?
  property? := deeper.propertyType
  indexed? := deeper.indexType

theorem within_succ (depth : Nat) : within (depth + 1) = (within depth).above (within depth).nodeType :=
  rfl

open Inference (Transfers)

variable {graft : Transplant} {deeper deeper' : Deeper}

theorem silent_transfers (silent_ : graft.exact → deeper' = .silent) :
    silent.TransfersTo graft deeper' where
  typeOf _ _ := .exhausted fun exact_ => by rw [silent_ exact_]; rfl
  expected? _ _ := .exhausted fun exact_ => by rw [silent_ exact_]; rfl
  property? _ _ _ := .exhausted fun exact_ => by rw [silent_ exact_]; rfl
  indexed? _ _ _ := .exhausted fun exact_ => by rw [silent_ exact_]; rfl

/-- A level of inference transfers its answers if the level below does and it finds the types of
nodes alike. -/
theorem above_transfers (faithful : graft.Faithful) (transfers : deeper.TransfersTo graft deeper')
    {typeOf typeOf' : Situation → Node → Inference Ty}
    (typed : ∀ {situation situation' node}, graft.together situation situation' →
      graft.asked situation node → Transfers graft (typeOf situation node)
        (typeOf' situation' (move graft node)) graft.Writes) :
    (deeper.above typeOf).TransfersTo graft (deeper'.above typeOf') where
  typeOf hs asked := typed hs asked
  expected? hs awaited := (transfers.course faithful hs).expectedType? faithful hs awaited
  property? name hs written := (transfers.course faithful hs).propertyType written name
  indexed? hs hb hk := (transfers.course faithful hs).indexType hb hk

end Deeper

/-! ### Changes of operands -/

/-- Other scripts in the place of scripts, which differ from them in spans and operands, and how
both import each other. -/
structure Recast where
  /-- What a script is replaced by. -/
  script : Script → Script
  path : ∀ old, (script old).path = old.path
  root : ∀ old, (script old).root = old.root
  whole : ∀ old, (script old).rootNode.form = old.rootNode.form
  size : ∀ old, (script old).size = old.size
  parents : ∀ old id, ((script old).node id).entry.parent = (old.node id).entry.parent
  /-- Only names, calls and escapes are others. -/
  forms : ∀ old id, ((script old).node id).form = (old.node id).form ∨
    (old.node id).form.isOperand = true ∧ ((script old).node id).form.isOperand = true
  /-- How scripts import each other before the change. -/
  before : Imports
  /-- How scripts import each other after the change. -/
  after : Imports
  /-- A script that was imported before is imported as it is after the change. -/
  imports : ∀ importer specifier,
    after (script importer) specifier = (before importer specifier).map script
  /-- Whether what has no answer before the change must have none after it. -/
  exact : Prop
  /-- What is being inferred at the same moment, before and after the change. -/
  busy : List Node → List Node → Prop
  idle : busy [] []
  /-- Nodes of which it is asked what is expected of them. -/
  awaited : Node → Prop
  awaits : ∀ node, node.needsContext = true → awaited node
  /-- What expects something of a literal is no other operand. -/
  around : ∀ {node parent}, awaited node → node.parent = some parent →
    ((script parent.script).node parent.id).form = parent.form ∧
      ∀ inner, parent.form = .parenthesized inner → awaited parent

namespace Recast

/-- A node keeps its id. -/
def moving (recast : Recast) : Moving where
  script := recast.script
  node := fun node => ⟨recast.script node.script, node.id⟩
  sameAs := fun left right => by
    simp only [Node.sameAs, recast.path]

instance : Coe Recast Moving := ⟨moving⟩

/-- Situations of the same moment. -/
structure Together (recast : Recast) (situation situation' : Situation) : Prop where
  expectations : situation'.expectations = situation.expectations.map (move recast)
  busy : recast.busy situation.busy situation'.busy
  written : ∀ row ∈ situation.expectations, row.2.Formed Reference.IsDeclared True

/-- A recast as a change of scripts in which anything may be asked. -/
abbrev graft (recast : Recast) : Transplant where
  toMoving := recast.moving
  before := recast.before
  after := recast.after
  exact := recast.exact
  visited _ := True
  allowed := Reference.IsDeclared
  strict := True
  asked _ _ := True
  awaited _ := recast.awaited
  together := recast.Together

/-- An operand that is another one after the change. -/
def Changes (recast : Recast) (node : Node) : Prop := (move recast node).form ≠ node.form

/-- The nodes in the place of those that are being inferred are being inferred, and no others. -/
def Steady (recast : Recast) : Prop :=
  recast.busy = fun busy busy' => busy' = busy.map (move recast)

end Recast

section Tree

variable (recast : Recast)

namespace Node

variable (node : Node)

theorem parent_recast : (move recast node).parent = node.parent.map (move recast) := by
  have same : (move recast node).entry.parent = node.entry.parent :=
    recast.parents node.script node.id
  rw [parent, parent, same, Option.map_map]
  rfl

theorem ancestors_recast : (move recast node).ancestors = node.ancestors.map (move recast) := by
  have within (limit : Nat) : ∀ node : Node, (move recast node).ancestorsWithin limit =
      (node.ancestorsWithin limit).map (move recast) := by
    induction limit with
    | zero => exact fun _ => rfl
    | succ limit ih =>
      intro node
      rw [ancestorsWithin, ancestorsWithin, parent_recast]
      cases node.parent with
      | none => rfl
      | some parent => simp only [Option.map_some, map_cons, ih]
  have size : (move recast node).script.size = node.script.size := recast.size node.script
  rw [ancestors, ancestors, size]
  exact within _ node

theorem enclosing_recast : (move recast node).enclosing = node.enclosing.map (move recast) := by
  rw [enclosing, enclosing, ancestors_recast, ← map_cons, zip_map]
  rfl

/-- Each node around another one is paired with the node below it. -/
theorem parent_of_mem_enclosing : ∀ link ∈ node.enclosing, link.1.parent = some link.2 := by
  have within (limit : Nat) : ∀ node : Node, ∀ link ∈ (node :: node.ancestorsWithin limit).zip
      (node.ancestorsWithin limit), link.1.parent = some link.2 := by
    induction limit with
    | zero => simp [ancestorsWithin]
    | succ limit ih =>
      intro node
      rw [ancestorsWithin]
      cases hp : node.parent with
      | none => simp
      | some parent =>
        rw [zip_cons_cons, forall_mem_cons]
        exact ⟨hp, ih parent⟩
  exact within _ node

theorem isDescendantOf_recast (ancestor : Node) :
    (move recast node).isDescendantOf (move recast ancestor) = node.isDescendantOf ancestor := by
  rw [isDescendantOf, isDescendantOf, ancestors_recast, any_map]
  exact congrArg node.ancestors.any (funext fun other => recast.moving.sameAs other ancestor)

end Node

theorem Script.rootNode_recast (script : Script) :
    (move recast script).rootNode = move recast script.rootNode :=
  congrArg (Script.node _) (recast.root script)

theorem Script.declarations_recast (script : Script) : (move recast script).declarations =
    script.declarations.map (move recast) := by
  have whole : (move recast script).rootNode.form = script.rootNode.form := recast.whole script
  rw [declarations, declarations, Node.children, Node.children, whole, map_map]
  rfl

end Tree

namespace Recast

variable (recast : Recast) {node : Node}

/-! ### Names -/

theorem form_or_operand (node : Node) : (move recast node).form = node.form ∨
    node.form.isOperand = true ∧ (move recast node).form.isOperand = true :=
  recast.forms node.script node.id

theorem form_of_not_operand (other : node.form.isOperand = false) :
    (move recast node).form = node.form := by
  refine (recast.form_or_operand node).resolve_right fun changed => ?_
  rw [other] at changed
  cases changed.1

theorem form_or_bare (node : Node) : (move recast node).form = node.form ∨
    node.form.isBare = true ∧ (move recast node).form.isBare = true :=
  (recast.form_or_operand node).imp_right (.imp Form.isBare_of_isOperand Form.isBare_of_isOperand)

theorem remodels : recast.graft.Remodels where
  visited _ := trivial
  allowed := rfl
  node _ := rfl
  form := recast.form_or_bare
  size := recast.size
  declarations := Script.declarations_recast recast
  imports := recast.imports
  surrounds node := by
    rw [Node.enclosing_recast]
    refine .map fun link hl => ?_
    have hp := node.parent_of_mem_enclosing link hl
    refine (recast.form_or_operand link.2).imp (fun same => ⟨same, ?_⟩)
      (.imp Form.isPlain_of_isOperand Form.isPlain_of_isOperand)
    have hp' : (move recast link.1).parent = some (move recast link.2) := by
      rw [Node.parent_recast, hp, Option.map_some]
    rw [Node.siblingIndex, Node.siblingIndex, hp, hp', Option.bind_some, Option.bind_some, same]
    rfl

/-! ### What may be asked -/

theorem opens (same : (move recast node).form = node.form) (situation : Situation) :
    recast.graft.Opens situation node where
  form := same
  sibling _ _ := rfl
  asks _ _ := trivial

theorem opens_of_bare (other : node.form.isBare = false) (situation : Situation) :
    recast.graft.Opens situation node := by
  refine recast.opens (recast.form_of_not_operand ?_) situation
  by_contra operand
  rw [Form.isBare_of_isOperand (Bool.of_not_eq_false operand)] at other
  cases other

theorem literalParams?_of_operand (operand : node.form.isOperand = true) :
    node.literalParams? = none := by
  rw [Node.literalParams?]
  cases hf : node.form with
  | identifier | invocation | pipe | escape => rfl
  | _ => simp [hf, Form.isOperand] at operand

theorem faithful : recast.graft.Faithful where
  lower _ := recast.remodels.lower _
  asTypeParameter _ := recast.remodels.asTypeParameter _
  id _ := rfl
  typeNames := recast.remodels.typeNames
  valueNames {situation node name} _ _ := by
    refine ⟨fun binding found => ?_, (recast.remodels.resolveIn node name .value).moved⟩
    obtain ⟨scope, -, offers⟩ := Node.exists_offers_of_resolveIn found
    exact recast.remodels.opensBinding offers (fun _ => trivial) (fun _ => recast.awaits scope)
      (fun _ _ _ => trivial) (fun _ _ _ => trivial) fun _ other => recast.opens_of_bare other _
  opens {situation node} _ :=
    (recast.form_or_operand node).imp_left fun same => recast.opens same situation
  visited_of_asked _ := trivial
  asked_expecting _ _ _ := trivial
  needsContext {_ node} _ :=
    recast.remodels.keepsForms.needsContext trivial (recast.size node.script)
  awaits {_ node} _ context := recast.awaits node context
  visited_of_awaited _ := trivial
  parent {_ node} _ _ := Node.parent_recast recast node
  around {situation _ _} awaited _ hp := by
    obtain ⟨same, above⟩ := recast.around awaited hp
    exact .inl ⟨recast.opens same situation, above⟩
  param {situation node _ _} _ _ := by
    rw [Node.parent_recast recast node]
    cases node.parent with
    | none => exact .inr ⟨by simp, by simp⟩
    | some holder =>
      rcases recast.form_or_operand holder with same | ⟨operand, operand'⟩
      · exact .inl ⟨holder, rfl, rfl, trivial, recast.opens same situation⟩
      · exact .inr ⟨by simpa using literalParams?_of_operand operand,
          by simpa using literalParams?_of_operand operand'⟩
  this _ _ := recast.remodels.enclosingStore? _
  stores {declaration} situation store := by
    refine recast.opens (recast.form_of_not_operand ?_) situation
    have store : declaration.form.isStore = true := store
    cases hf : declaration.form with
    | storeDeclaration => rfl
    | _ => simp [hf, Form.isStore] at store
  declaredStores {_ declaration _ _ _} _ hf := by
    show declaration.form.isStore = true
    rw [hf]
    rfl
  recorded node together := Transplant.recorded together.expectations together.written node
  expecting {situation situation'} node type together written := by
    refine ⟨?_, together.busy, forall_mem_cons.mpr ⟨written, together.written⟩⟩
    rw [Situation.expecting, Situation.expecting, together.expectations]
    rfl
  imports {node} path _ := ⟨recast.imports node.script path, fun target _ =>
    ⟨Script.declarations_recast recast target, fun _ _ _ => trivial⟩⟩

/-! ### Types -/

open Inference (Transfers)

theorem together_idle : recast.Together .idle .idle := ⟨rfl, recast.idle, by simp [Situation.idle]⟩

variable {recast}

theorem answer?_eq (exact_ : recast.exact) [Movable α] {asked again : Inference α}
    {holds : α → Prop} (transfers : Transfers recast.graft asked again holds) :
    again.answer? recast.after = (asked.answer? recast.before).map (move recast) := by
  cases ha : asked.answer? recast.before with
  | none => exact transfers.missed exact_ ha
  | some answer => exact (transfers.reached answer ha).2

/-- The type of a node is found alike if that of another operand is. -/
theorem nodeType_transfers (steady : recast.Steady) {deeper deeper' : Deeper}
    (transfers : deeper.TransfersTo recast.graft deeper')
    (together : recast.Together situation situation') (typed : recast.Changes node →
      ∀ {situation situation'}, recast.Together situation situation' →
        Transfers recast.graft (deeper.formType situation node)
          (deeper'.formType situation' (move recast node)) recast.graft.Writes) :
    Transfers recast.graft (deeper.nodeType situation node)
      (deeper'.nodeType situation' (move recast node)) recast.graft.Writes := by
  have busy : situation'.busy = situation.busy.map (move recast) :=
    cast (congrFun (congrFun steady _) _) together.busy
  have again : recast.Together { situation with busy := node :: situation.busy }
      { situation' with busy := move recast node :: situation'.busy } := by
    refine ⟨together.expectations, ?_, together.written⟩
    rw [steady, busy]
    rfl
  refine .ite ?_ (fun _ => .pure (by simp) rfl) fun _ => ?_
  · rw [busy]
    exact iff_of_eq (congrArg (· = true) (recast.moving.contains_move situation.busy node))
  · by_cases changes : recast.Changes node
    · exact typed changes again
    · exact (transfers.course recast.faithful again).formType (recast.faithful.looks _) trivial
        (recast.opens (not_not.mp changes) _)

/-- Every level of inference answers with the moved answers if the types of other operands are
found alike. -/
theorem within_transfers (steady : recast.Steady) (hd : depth ≤ depth')
    (same : recast.exact → depth' = depth)
    (typed : ∀ {deeper deeper' : Deeper}, deeper.TransfersTo recast.graft deeper' →
      ∀ {node}, recast.Changes node →
        ∀ {situation situation'}, recast.Together situation situation' →
          Transfers recast.graft (deeper.formType situation node)
            (deeper'.formType situation' (move recast node)) recast.graft.Writes) :
    (Deeper.within depth).TransfersTo recast.graft (Deeper.within depth') := by
  induction depth generalizing depth' with
  | zero => exact Deeper.silent_transfers fun exact_ => by rw [same exact_]; rfl
  | succ depth ih =>
    obtain ⟨below, rfl⟩ : ∃ below, depth' = below + 1 := ⟨depth' - 1, by omega⟩
    have transfers := ih (Nat.le_of_succ_le_succ hd) fun exact_ => Nat.succ.inj (same exact_)
    exact Deeper.above_transfers recast.faithful transfers fun together _ =>
      nodeType_transfers steady transfers together (typed transfers)

end Recast

/-! ### One script in the place of another -/

/-- A script that differs from another one in spans and operands only. -/
structure Script.RecastAs (script other : Script) : Prop where
  path : other.path = script.path
  root : other.root = script.root
  whole : other.rootNode.form = script.rootNode.form
  size : other.size = script.size
  parents : ∀ id, (other.node id).entry.parent = (script.node id).entry.parent
  forms : ∀ id, (other.node id).form = (script.node id).form ∨
    (script.node id).form.isOperand = true ∧ (other.node id).form.isOperand = true

open Classical in
/-- One script is replaced by another, and all others stay as they are. -/
noncomputable def Script.swap (script other old : Script) : Script :=
  if old = script then other else old

/-- The nodes of the one script stand for those of the other. -/
noncomputable def Moving.swapping (script other : Script) (path : other.path = script.path) :
    Moving where
  script := script.swap other
  node := fun node => ⟨script.swap other node.script, node.id⟩
  sameAs := fun left right => by
    have paths (old : Script) : (script.swap other old).path = old.path := by
      unfold Script.swap
      split
      · next same => rw [same, path]
      · rfl
    simp only [Node.sameAs, paths]

/-- The scripts that were imported before the change are imported after it, with the other script
in the place of the one. -/
def Script.LoadsAlike (script other : Script) (before after : Imports) : Prop :=
  ∀ importer path,
    after (script.swap other importer) path = (before importer path).map (script.swap other)

namespace Script

variable {script other : Script}

theorem swap_self : script.swap other script = other := if_pos rfl

theorem swap_of_ne (differs : old ≠ script) : script.swap other old = old := if_neg differs

/-- Every script differs in spans and operands only from what it is replaced by. -/
theorem RecastAs.swap (like : script.RecastAs other) (old : Script) :
    old.RecastAs (script.swap other old) := by
  by_cases same : old = script
  · rw [same, swap_self]
    exact like
  · rw [swap_of_ne same]
    exact ⟨rfl, rfl, rfl, rfl, fun _ => rfl, fun _ => .inl rfl⟩

end Script

/-- One script is replaced by another that differs in spans and operands only. -/
noncomputable def Recast.replacing {script other : Script} (like : script.RecastAs other)
    {before after : Imports} (loads : script.LoadsAlike other before after)
    (awaited : Node → Prop) (elsewhere : ∀ node, node.script ≠ script → awaited node)
    (awaits : ∀ node, node.needsContext = true → awaited node)
    (around : ∀ {node parent}, node.script = script → awaited node → node.parent = some parent →
      (other.node parent.id).form = parent.form ∧
        ∀ inner, parent.form = .parenthesized inner → awaited parent) : Recast where
  script := script.swap other
  path old := (like.swap old).path
  root old := (like.swap old).root
  whole old := (like.swap old).whole
  size old := (like.swap old).size
  parents old := (like.swap old).parents
  forms old := (like.swap old).forms
  before := before
  after := after
  imports := loads
  exact := True
  busy busy busy' := busy' = busy.map fun node => ⟨script.swap other node.script, node.id⟩
  idle := rfl
  awaited := awaited
  awaits := awaits
  around {node parent} literal hp := by
    have inside : parent.script = node.script := Node.script_of_parent hp
    by_cases same : node.script = script
    · rw [inside, same, Script.swap_self]
      exact around same literal hp
    · rw [inside, Script.swap_of_ne same]
      refine ⟨?_, fun _ _ => elsewhere parent (inside ▸ same)⟩
      rw [← inside]
      rfl

/-- The same change, of which it matters only what has an answer before it. -/
def Recast.loosened (recast : Recast) : Recast := { recast with exact := False }

end ScriptCheck
