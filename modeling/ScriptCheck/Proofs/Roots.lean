import ScriptCheck.Proofs.Growth
import ScriptCheck.Proofs.Lookups

/-!
# The root of a script

The node of a whole file is read last, so it is inside no other node, and no other node is
a whole file. From every node that the root encloses, the enclosing nodes lead back to it.
-/

namespace ScriptCheck

open List

/-- A script whose nodes form a tree with the whole file as its root. -/
structure Script.Rooted (script : Script) : Prop extends script.Linked where
  /-- No node is a child in two places. -/
  nodup_children : ∀ {node : Node}, node.script = script → node.form.children.Nodup
  /-- The root is inside no other node. -/
  parent_root : script.rootNode.parent = none
  /-- The root is a whole file. -/
  isModule_root : script.rootNode.form.isModule = true
  /-- No other node is a whole file. -/
  eq_root : ∀ {node : Node}, node.script = script → node.id < script.size →
    node.form.isModule = true → node.id = script.root

section Rooted

variable {tokens : List Token} {sprouts : Array Sprout} {path : FilePath} {root id : NodeId}
  {found : List NodeId} {loose : List NodeId} {sprout : Sprout}

/-- The form of a node is that of its row. -/
theorem form_ofSprouts : (Node.mk (Script.ofSprouts path sprouts root) id).form =
    (sprouts[id]?.map Sprout.form).getD (.module []) := by
  rw [Node.form, Node.entry, getElem?_ofSprouts]
  cases sprouts[id]? with
  | none => rfl
  | some sprout => rfl

/-- The children of a row are not named twice. -/
theorem Grove.nodup_children (grove : Grove sprouts loose) (hs : sprouts[id]? = some sprout) :
    sprout.form.children.Nodup := by
  have hd : (taken sprouts).Nodup := (nodup_append.mp grove.distinct).1
  obtain ⟨hl, rfl⟩ := Array.getElem?_eq_some_iff.mp hs
  exact (nodup_flatMap.mp hd).1 _ (by simp)

/-- A loose node has no parent. -/
theorem Grove.parentsOf_loose (grove : Grove sprouts loose) (hl : id ∈ loose) :
    ((parentsOf sprouts)[id]?).join = none := by
  by_contra some
  obtain ⟨parent, hp⟩ := Option.ne_none_iff_exists'.mp some
  obtain ⟨sprout, hs, hc⟩ := Grove.mem_of_parentsOf (Option.join_eq_some_iff.mp hp)
  obtain ⟨hk, rfl⟩ := Array.getElem?_eq_some_iff.mp hs
  have taken : id ∈ taken sprouts := mem_flatMap.mpr ⟨_, by simp, hc⟩
  exact (nodup_append.mp grove.distinct).2.2 id taken id hl rfl

/-- The node of the whole file takes all loose nodes. -/
theorem Undergrowth.close (grove : Undergrowth tokens sprouts found) (span : Span) :
    Grove (sprouts.push ⟨.module found, span⟩) [sprouts.size] :=
  @Grove.push sprouts [] (.module found) span grove.toGrove

theorem lt_size_of_ne_root (inner : id ≠ sprouts.size)
    (known : id < (Script.ofSprouts path (sprouts.push sprout) sprouts.size).size) :
    id < sprouts.size := by
  simp only [Script.size, Script.ofSprouts, Array.size_mapIdx, Array.size_push] at known
  exact Nat.lt_of_le_of_ne (Nat.le_of_lt_succ known) inner

/-- The last row of a table is the root of the tree, if it is the first whole file. -/
theorem Undergrowth.rooted (grove : Undergrowth tokens sprouts found) (path : FilePath) (span : Span) :
    (Script.ofSprouts path (sprouts.push ⟨.module found, span⟩) sprouts.size).Rooted where
  toLinked := (grove.close span).linked path _
  nodup_children := by
    rintro ⟨_, id⟩ rfl
    rw [form_ofSprouts]
    cases hs : (sprouts.push ⟨.module found, span⟩)[id]? with
    | none => exact nodup_nil
    | some sprout => exact (grove.close span).nodup_children hs
  parent_root := by
    rw [Script.rootNode, Script.node, parent_ofSprouts]
    simp [Script.ofSprouts, (grove.close span).parentsOf_loose mem_cons_self]
  isModule_root := by
    rw [Script.rootNode, Script.node, form_ofSprouts]
    simp [Script.ofSprouts, Form.isModule]
  eq_root := by
    rintro ⟨_, id⟩ rfl known whole
    rw [form_ofSprouts, Array.getElem?_push] at whole
    split at whole
    · next he => exact he
    · next hne =>
      have hl := lt_size_of_ne_root hne known
      rw [Array.getElem?_eq_getElem hl] at whole
      have inner := grove.inner id _ (Array.getElem?_eq_getElem hl)
      simp [inner] at whole

end Rooted

/-- Every script that is read from a text is a tree with the whole file as its root. -/
theorem rooted_of_parse (read : parse path source = .ok script) : script.Rooted := by
  obtain ⟨tokens, root, progress, cut, run, rfl⟩ := run_of_parse read
  obtain ⟨sprouts, found, ⟨_, grove, -⟩, rfl, hs⟩ :=
    Grammar.undergrowth_wholeFile (orderly_of_tokenize cut) run
  rw [hs]
  exact grove.rooted path _

namespace Node

variable {node parent child : Node}

/-- A node that is not in the table of its script has no parent. -/
theorem parent_of_size_le (hn : node.script.size ≤ node.id) : node.parent = none := by
  unfold Node.parent entry
  rw [Array.getElem?_eq_none hn]
  rfl

theorem id_lt_size_of_parent (hp : node.parent = some parent) : node.id < node.script.size := by
  by_contra hn
  rw [parent_of_size_le (Nat.le_of_not_lt hn)] at hp
  cases hp

/-- A node that becomes busy leaves fewer that are not. -/
theorem length_idle_lt {nodes busy : List Node} (hn : node ∈ nodes)
    (hb : busy.contains node = false) :
    (nodes.filter fun other => !(node :: busy).contains other).length <
      (nodes.filter fun other => !busy.contains other).length := by
  have hself : (node == node) = true := by
    show (node.id == node.id && node.script.path == node.script.path) = true
    rw [BEq.refl, BEq.refl]
    rfl
  have hf : (nodes.filter fun other => !(node :: busy).contains other) =
      (nodes.filter fun other => !busy.contains other).filter fun other => !(other == node) := by
    rw [filter_filter]
    simp only [contains_cons, Bool.not_or]
  rw [hf, length_filter_lt_length_iff_exists]
  exact ⟨node, mem_filter.mpr ⟨hn, by simp [hb]⟩, by simp [hself]⟩

/-- Enough steps up reach all ancestors. -/
theorem ancestorsWithin_succ (linked : node.script.Linked)
    (enough : node.script.size ≤ node.id + limit) :
    node.ancestorsWithin (limit + 1) = node.ancestorsWithin limit := by
  induction limit generalizing node with
  | zero => simp only [ancestorsWithin, parent_of_size_le enough]
  | succ limit ih =>
    rw [ancestorsWithin, ancestorsWithin]
    cases hp : node.parent with
    | none => rfl
    | some parent =>
      have hs := script_of_parent hp
      have hlt : Nat.succ node.id ≤ parent.id := linked.id_lt_parent rfl hp
      have left : parent.script.size ≤ parent.id + limit := by
        rw [hs]
        calc node.script.size ≤ node.id + (limit + 1) := enough
          _ = Nat.succ node.id + limit := (Nat.succ_add_eq_add_succ _ _).symm
          _ ≤ parent.id + limit := Nat.add_le_add_right hlt limit
      exact congrArg (parent :: ·) (ih (hs ▸ linked) left)

/-- The ancestors of a node are its parent and the ancestors of that. -/
theorem ancestors_of_parent (linked : node.script.Linked) (hp : node.parent = some parent) :
    node.ancestors = parent :: parent.ancestors := by
  have hs := script_of_parent hp
  rw [ancestors, ← ancestorsWithin_succ linked (Nat.le_add_left _ _), ancestorsWithin, hp, ancestors, hs]

/-- The type parameters in scope at a node are those of its parent and those in scope there. -/
theorem typeParamInScope?_of_parent (linked : node.script.Linked) (hp : node.parent = some parent) :
    node.typeParamInScope? name = (parent.ownTypeParam? name).or (parent.typeParamInScope? name) := by
  rw [typeParamInScope?, ancestors_of_parent linked hp, findSome?_cons]
  cases parent.ownTypeParam? name <;> rfl

/-- A node is enclosed by its parent and by what encloses that. -/
theorem enclosing_of_parent (linked : node.script.Linked) (hp : node.parent = some parent) :
    node.enclosing = (node, parent) :: parent.enclosing := by
  rw [enclosing, ancestors_of_parent linked hp]
  rfl

theorem ancestors_of_no_parent (hp : node.parent = none) : node.ancestors = [] := by
  unfold ancestors
  cases node.script.size with
  | zero => rfl
  | succ limit => rw [ancestorsWithin, hp]

/-- What holds of a node if it holds of its parent holds of all nodes. -/
@[elab_as_elim]
theorem climb {script : Script} {motive : Node → Prop} (linked : script.Linked)
    (step : ∀ node : Node, node.script = script →
      (∀ parent, node.parent = some parent → motive parent) → motive node)
    (node : Node) (hs : node.script = script) : motive node := by
  refine step node hs fun parent hp => ?_
  have before := linked.id_lt_parent hs hp
  have known : node.id < script.size := hs ▸ id_lt_size_of_parent hp
  exact climb linked step parent ((script_of_parent hp).trans hs)
termination_by script.size - node.id
decreasing_by exact Nat.sub_lt_sub_left known before

/-- What holds of a node if it holds of its ancestors holds of all nodes. -/
@[elab_as_elim]
theorem outward {script : Script} {motive : Node → Prop} (linked : script.Linked)
    (step : ∀ node : Node, node.script = script →
      (∀ holder ∈ node.ancestors, motive holder) → motive node)
    (node : Node) (hs : node.script = script) : motive node := by
  suffices around : ∀ holder ∈ node :: node.ancestors, motive holder from around node mem_cons_self
  refine climb linked (fun node hs outside => ?_) node hs
  have above : ∀ holder ∈ node.ancestors, motive holder := by
    cases hp : node.parent with
    | none => simp [ancestors_of_no_parent hp]
    | some parent => exact ancestors_of_parent (hs ▸ linked) hp ▸ outside parent hp
  exact forall_mem_cons.mpr ⟨step node hs above, above⟩

/-- The whole file is inside nothing. -/
theorem parent_of_isModule {script : Script} (rooted : script.Rooted) (hs : node.script = script)
    (whole : node.form.isModule = true) : node.parent = none := by
  by_cases known : node.id < script.size
  · have root := rooted.parent_root
    rw [Script.rootNode, ← rooted.eq_root hs known whole, Script.node, ← hs] at root
    exact root
  · exact parent_of_size_le (hs ▸ Nat.le_of_not_lt known)

/-- A node without a parent is enclosed by nothing. -/
theorem enclosing_of_no_parent (hp : node.parent = none) : node.enclosing = [] := by
  rw [enclosing, ancestors_of_no_parent hp, zip_nil_right]

theorem resolveIn_of_parent (linked : node.script.Linked) (hp : node.parent = some parent) :
    (node.resolveIn name space).answer imports =
      ((parent.scopeLookup? node name space).answer imports).getD
        ((parent.resolveIn name space).answer imports) := by
  rw [resolveIn, resolveIn, Inquiry.answer_bind, Inquiry.answer_bind, Inquiry.answer_firstAnswer,
    Inquiry.answer_firstAnswer, enclosing_of_parent linked hp, findSome?_cons]
  cases (parent.scopeLookup? node name space).answer imports with
  | none => rfl
  | some found => rfl

/-- A name is unknown at a node that is enclosed by nothing. -/
theorem resolveIn_of_no_parent (hp : node.parent = none) :
    (node.resolveIn name space).answer imports = .error .unknownName := by
  rw [resolveIn, enclosing_of_no_parent hp]
  rfl

/-- What a root encloses belongs to its script. -/
theorem Encloses.script_eq {root : Node} (inside : root.Encloses node) :
    node.script = root.script := by
  induction inside with
  | itself => rfl
  | child _ hc ih => exact (script_of_mem_children hc).trans ih

end Node

namespace Script.Rooted

variable {script : Script} {scope child : Node}
  (rooted : script.Rooted) (hs : scope.script = script) (hc : child ∈ scope.children)
include rooted hs hc

theorem linked_of_mem : child.script.Linked := by
  rw [Node.script_of_mem_children hc, hs]
  exact rooted.toLinked

/-- The ancestors of a child are its parent and the ancestors of that. -/
theorem ancestors_of_mem : child.ancestors = scope :: scope.ancestors :=
  Node.ancestors_of_parent (rooted.linked_of_mem hs hc) (rooted.parent_of_mem hs hc)

/-- A name is what the parent of a node makes of it, or else what it is at the parent. -/
theorem resolveIn_of_mem :
    (child.resolveIn name space).answer imports =
      ((scope.scopeLookup? child name space).answer imports).getD
        ((scope.resolveIn name space).answer imports) :=
  Node.resolveIn_of_parent (rooted.linked_of_mem hs hc) (rooted.parent_of_mem hs hc)

end Script.Rooted

end ScriptCheck
