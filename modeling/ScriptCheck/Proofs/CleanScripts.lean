import ScriptCheck.Checking.Rules
import ScriptCheck.Proofs.Answers
import Mathlib.Data.List.Perm.Subperm

/-!
# Scripts without problems

Checking goes down from the root by as many levels as the script has nodes. A way down
that passes no node twice is not longer than that, so every node below the root is
inspected, and in a script without problems no rule is broken at any of them.
-/

namespace ScriptCheck

open List

namespace Node

/-- The nodes reached from a node by going from nodes to their children. -/
inductive Encloses (root : Node) : Node → Prop
  | itself : Encloses root root
  | child {node child : Node} : Encloses root node → child ∈ node.children → Encloses root child

/-- A way down from a node, with the ids that it passes, the last one first. -/
inductive Route (root : Node) : List NodeId → Node → Prop
  | start : Route root [root.id] root
  | down {ids : List NodeId} {node child : Node} :
      Route root ids node → child ∈ node.children → Route root (child.id :: ids) child

/-- A child belongs to the script of its parent. -/
theorem script_of_mem_children {node child : Node} (hc : child ∈ node.children) :
    child.script = node.script := by
  obtain ⟨id, -, rfl⟩ := mem_map.mp hc
  rfl

/-- A node that is not in the table of its script stands for an empty module. -/
theorem form_of_size_le {node : Node} (hn : node.script.size ≤ node.id) :
    node.form = .module [] := by
  unfold form entry
  rw [Array.getElem?_eq_none hn]
  rfl

/-- A node with a child is in the table of its script. -/
theorem id_lt_of_mem_children {node child : Node} (hc : child ∈ node.children) :
    node.id < node.script.size := by
  by_contra hn
  rw [children, form_of_size_le (Nat.le_of_not_lt hn)] at hc
  simp [Form.children] at hc

namespace Route

variable {root node : Node} {ids : List NodeId}

/-- A way down stays in one script. -/
theorem script_eq (route : Route root ids node) : node.script = root.script := by
  induction route with
  | start => rfl
  | down _ hc ih => exact (script_of_mem_children hc).trans ih

/-- A way down can be cut off at any node that it passes. -/
theorem shorten (route : Route root ids node) {id : NodeId} (hi : id ∈ ids) :
    ∃ rest, rest <:+ ids ∧ Route root rest (root.sibling id) := by
  induction route with
  | start =>
    rw [mem_singleton] at hi
    subst hi
    exact ⟨_, suffix_refl _, .start⟩
  | @down ids node child before hc ih =>
    rcases mem_cons.mp hi with rfl | hi
    · have hs : child.script = root.script := (script_of_mem_children hc).trans before.script_eq
      have he : root.sibling child.id = child := by
        unfold sibling
        rw [← hs]
      rw [he]
      exact ⟨_, suffix_refl _, .down before hc⟩
    · obtain ⟨rest, hr, cut⟩ := ih hi
      exact ⟨rest, hr.trans (suffix_cons _ _), cut⟩

/-- All nodes passed on the way to a node of the table are in the table. -/
theorem id_lt_size (route : Route root ids node) (hn : node.id < root.script.size) :
    ∀ id ∈ ids, id < root.script.size := by
  induction route with
  | start =>
    intro id hi
    rw [mem_singleton] at hi
    exact hi ▸ hn
  | @down ids node child before hc ih =>
    have hp : node.id < root.script.size := by
      rw [← before.script_eq]
      exact id_lt_of_mem_children hc
    intro id hi
    rcases mem_cons.mp hi with rfl | hi
    · exact hn
    · exact ih hp id hi

end Route

/-- Every enclosed node is reached without passing a node twice. -/
theorem Encloses.route {root node : Node} (inside : root.Encloses node) :
    ∃ ids, ids.Nodup ∧ Route root ids node := by
  induction inside with
  | itself => exact ⟨[root.id], by simp, .start⟩
  | @child node child _ hc ih =>
    obtain ⟨ids, hd, route⟩ := ih
    by_cases hm : child.id ∈ ids
    · have hs : child.script = root.script := (script_of_mem_children hc).trans route.script_eq
      have he : root.sibling child.id = child := by
        unfold sibling
        rw [← hs]
      obtain ⟨rest, hr, cut⟩ := route.shorten hm
      exact ⟨rest, hd.sublist hr.sublist, he ▸ cut⟩
    · exact ⟨_, nodup_cons.mpr ⟨hm, hd⟩, .down route hc⟩

end Node

/-- Whether one goes from a node to another by way of the given nodes, each a child of the
one before. -/
def Script.leads (script : Script) : NodeId → List NodeId → NodeId → Bool
  | upper, [], lower => (script.node upper).form.children.contains lower
  | upper, next :: rest, lower =>
    (script.node upper).form.children.contains next && script.leads next rest lower

variable {script : Script}

/-- A node that the root leads to is enclosed by the root. -/
theorem Script.encloses_of_leads {id : NodeId} (leads : script.leads script.root passed id = true) :
    script.rootNode.Encloses (script.node id) := by
  have step : ∀ {upper lower}, script.rootNode.Encloses (script.node upper) →
      (script.node upper).form.children.contains lower = true →
      script.rootNode.Encloses (script.node lower) := by
    intro upper lower inside hc
    exact .child inside (mem_map_of_mem (contains_iff_mem.mp hc))
  have walk : ∀ upper, script.rootNode.Encloses (script.node upper) →
      script.leads upper passed id = true → script.rootNode.Encloses (script.node id) := by
    clear leads
    induction passed with
    | nil => exact fun upper inside hc => step inside hc
    | cons next rest ih =>
      intro upper inside hl
      obtain ⟨hn, hr⟩ := Bool.and_eq_true_iff.mp hl
      exact ih next (step inside hn) hr
  exact walk script.root .itself leads

namespace Inspection

variable {imports : Imports} {inspection : Inspection} {limit : Nat} {node child : Node}

/-- A node with nothing reported at or below it keeps all rules, and so does each of its
children one level further down. -/
theorem problemsWithin_clean
    (clean : (inspection.problemsWithin (limit + 1) node).answer? imports = some []) :
    (inspection.rules false node).answer? imports = some [] ∧
      ∀ child ∈ node.children,
        (inspection.problemsWithin limit child).answer? imports = some [] := by
  simp only [problemsWithin, Inference.answer?_bind, Inference.answer?_mapM, Inference.answer?_pure,
    Option.bind_eq_some_iff, Option.some.injEq, append_eq_nil_iff] at clean
  obtain ⟨below, hb, own, ho, rfl, hf⟩ := clean
  refine ⟨by simpa [hf] using ho, ?_⟩
  intro child hc
  obtain ⟨found, hm, ha⟩ := Inference.mem_of_mapM_eq_some hb hc
  rw [ha, flatten_eq_nil_iff.mp hf found hm]

/-- A node that is passed after fewer levels than are inspected keeps all rules. -/
theorem problemsWithin_clean_route (route : root.Route ids node)
    (clean : (inspection.problemsWithin limit root).answer? imports = some []) :
    ids.length ≤ limit →
      (inspection.problemsWithin (limit + 1 - ids.length) node).answer? imports = some [] := by
  induction route with
  | start =>
    intro _
    simpa using clean
  | @down ids node child before hc ih =>
    intro hl
    rw [length_cons] at hl ⊢
    have hs : limit + 1 - ids.length = (limit + 1 - (ids.length + 1)) + 1 := by omega
    have hp := ih (by omega)
    rw [hs] at hp
    exact (problemsWithin_clean hp).2 child hc

end Inspection

/-- No script can be imported. -/
def Imports.isolated : Imports := fun _ _ => none

/-- A script is found to be without problems when the list of them is found to be empty. -/
theorem Script.clean_of_isEmpty
    (he : ((script.problems? depth).answer? imports).map List.isEmpty = some true) :
    (script.problems? depth).answer? imports = some [] := by
  obtain ⟨problems, hp, hn⟩ := Option.map_eq_some_iff.mp he
  rw [hp, isEmpty_iff.mp hn]

/-- A node that the root encloses is in the table, if it is not an empty module. -/
theorem Script.contains_of_form {node : Node} (inside : script.rootNode.Encloses node)
    (hf : node.form ≠ .module []) : script.contains node.id = true := by
  obtain ⟨ids, -, route⟩ := inside.route
  have hs : node.script = script := route.script_eq
  by_contra hn
  exact hf (Node.form_of_size_le (by simpa [Script.contains, hs] using hn))

/-- In a script without problems every rule is kept at every node below the root. -/
theorem Script.rules_clean {node : Node}
    (clean : (script.problems? depth).answer? imports = some [])
    (inside : script.rootNode.Encloses node) (known : script.contains node.id = true) :
    (Inspection.rules ⟨.within depth⟩ false node).answer? imports = some [] := by
  obtain ⟨ids, hd, route⟩ := inside.route
  have hr : ∀ id ∈ ids, id < script.size := route.id_lt_size (of_decide_eq_true known)
  have hl : ids.length ≤ script.size := by
    have hs : ids ⊆ List.range script.size := fun id hi => mem_range.mpr (hr id hi)
    simpa using (subperm_of_subset hd hs).length_le
  have hc := Inspection.problemsWithin_clean_route route clean hl
  have hs : script.size + 1 - ids.length = (script.size - ids.length) + 1 := by omega
  rw [hs] at hc
  exact (Inspection.problemsWithin_clean hc).1

end ScriptCheck
