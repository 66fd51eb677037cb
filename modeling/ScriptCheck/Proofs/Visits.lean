import ScriptCheck.Proofs.Roots

/-!
# The nodes that checking comes to

Checking goes down from the root, and the problems of a node are listed before those of its
children. So the problems of a script are those of single nodes one after another, in the order
in which checking comes to the nodes, and it comes exactly once to each node that the root
encloses.
-/

namespace ScriptCheck

open List

/-- Of items of which at most one has something to give, all together give what this one does. -/
theorem flatMap_lone {items : List α} {give : α → List β} {lone : α} (once : items.Nodup)
    (others : ∀ item ∈ items, item ≠ lone → give item = []) :
    (lone ∈ items → items.flatMap give = give lone) ∧ (lone ∉ items → items.flatMap give = []) := by
  induction items with
  | nil => exact ⟨nofun, fun _ => rfl⟩
  | cons first rest ih =>
    rw [forall_mem_cons] at others
    rw [nodup_cons] at once
    obtain ⟨found, missed⟩ := ih once.2 others.2
    rw [flatMap_cons]
    by_cases here : first = lone
    · subst here
      rw [missed once.1, append_nil]
      exact ⟨fun _ => rfl, fun away => absurd mem_cons_self away⟩
    · rw [others.1 here, nil_append]
      exact ⟨fun listed => found ((mem_cons.mp listed).resolve_left (Ne.symm here)),
        fun away => missed fun listed => away (mem_cons_of_mem _ listed)⟩

namespace Node

/-! ### The way down to a node -/

namespace Encloses

variable {script : Script} {upper lower parent child child' : Node}

theorem of_child (hc : child ∈ upper.children) (inside : child.Encloses lower) :
    upper.Encloses lower := by
  induction inside with
  | itself => exact .child .itself hc
  | child _ hc ih => exact .child ih hc

/-- The way down starts with one of the children. -/
theorem first_step (inside : upper.Encloses lower) :
    lower = upper ∨ ∃ child ∈ upper.children, child.Encloses lower := by
  induction inside with
  | itself => exact .inl rfl
  | child _ hc ih =>
    rcases ih with rfl | ⟨first, hf, below⟩
    · exact .inr ⟨_, hc, .itself⟩
    · exact .inr ⟨first, hf, .child below hc⟩

theorem id_le (linked : script.Linked) (hs : upper.script = script) (inside : upper.Encloses lower) :
    lower.id ≤ upper.id := by
  induction inside with
  | itself => exact Nat.le_refl _
  | child above hc ih =>
    have hn := above.script_eq.trans hs
    have parent := linked.parent_of_mem hn hc
    have before := linked.id_lt_parent ((script_of_mem_children hc).trans hn) parent
    exact Nat.le_trans (Nat.le_of_lt before) ih

/-- No child of a node encloses the node. -/
theorem not_parent (linked : script.Linked) (hs : parent.script = script)
    (hc : child ∈ parent.children) : ¬child.Encloses parent := by
  intro inside
  have same := (script_of_mem_children hc).trans hs
  exact absurd (inside.id_le linked same)
    (Nat.not_le.mpr (linked.id_lt_parent same (linked.parent_of_mem hs hc)))

/-- Only one child of a node leads to another node. -/
theorem unique (linked : script.Linked) (hs : parent.script = script)
    (hc : child ∈ parent.children) (hc' : child' ∈ parent.children)
    (inside : child.Encloses lower) (inside' : child'.Encloses lower) : child' = child := by
  have same := (script_of_mem_children hc).trans hs
  have same' := (script_of_mem_children hc').trans hs
  have above {node holder : Node} (hn : node ∈ parent.children) (hh : holder.script = script)
      (hm : node ∈ holder.children) : holder = parent :=
    Option.some.inj ((linked.parent_of_mem hh hm).symm.trans (linked.parent_of_mem hs hn))
  induction inside with
  | itself =>
    cases inside' with
    | itself => rfl
    | child inside' hm =>
      exact absurd (above hc (inside'.script_eq.trans same') hm ▸ inside') (not_parent linked hs hc')
  | child inside hm ih =>
    cases inside' with
    | itself =>
      exact absurd (above hc' (inside.script_eq.trans same) hm ▸ inside) (not_parent linked hs hc)
    | child inside' hm' =>
      have one := (linked.parent_of_mem (inside.script_eq.trans same) hm).symm.trans
        (linked.parent_of_mem (inside'.script_eq.trans same') hm')
      exact ih (Option.some.inj one ▸ inside')

end Encloses

/-- A node and what is inside it, down to at most `limit` levels, each node before its
children. -/
def preorder : Nat → Node → List Node
  | 0, _ => []
  | limit + 1, node => node :: node.children.flatMap (preorder limit)

variable {script : Script} {node other : Node} {limit : Nat}

theorem encloses_of_mem_preorder (listed : other ∈ node.preorder limit) : node.Encloses other := by
  induction limit generalizing node with
  | zero => cases listed
  | succ limit ih =>
    rcases mem_cons.mp listed with rfl | below
    · exact .itself
    · obtain ⟨child, hc, below⟩ := mem_flatMap.mp below
      exact .of_child hc (ih below)

/-- With as many levels as there are nodes before it, all that a node encloses is listed. -/
theorem mem_preorder_iff (linked : script.Linked) (hs : node.script = script)
    (enough : node.id < limit) : other ∈ node.preorder limit ↔ node.Encloses other := by
  refine ⟨encloses_of_mem_preorder, fun inside => ?_⟩
  induction limit generalizing node with
  | zero => cases enough
  | succ limit ih =>
    rcases inside.first_step with rfl | ⟨child, hc, below⟩
    · exact mem_cons_self
    · have same := (script_of_mem_children hc).trans hs
      have before := linked.id_lt_parent same (linked.parent_of_mem hs hc)
      exact mem_cons_of_mem _ (mem_flatMap.mpr
        ⟨child, hc, ih same (Nat.lt_of_lt_of_le before (Nat.le_of_lt_succ enough)) below⟩)

/-- No node is listed twice. -/
theorem nodup_preorder (rooted : script.Rooted) (hs : node.script = script) (limit : Nat) :
    (node.preorder limit).Nodup := by
  induction limit generalizing node with
  | zero => exact nodup_nil
  | succ limit ih =>
    refine nodup_cons.mpr ⟨fun below => ?_, nodup_flatMap.mpr ⟨fun child hc => ?_, ?_⟩⟩
    · obtain ⟨child, hc, below⟩ := mem_flatMap.mp below
      exact Encloses.not_parent rooted.toLinked hs hc (encloses_of_mem_preorder below)
    · exact ih ((script_of_mem_children hc).trans hs)
    · have distinct : node.children.Nodup :=
        (rooted.nodup_children hs).map fun _ _ same => congrArg Node.id same
      refine distinct.pairwise_of_forall_ne fun first hf second hc differ lower below below' => ?_
      exact differ (Encloses.unique rooted.toLinked hs hc hf (encloses_of_mem_preorder below')
        (encloses_of_mem_preorder below))

end Node

section

variable {script : Script} (read : parse path source = .ok script)
include read

/-- The root is the last node of a script that is read from a text. -/
theorem size_of_parse : script.size = script.root + 1 := by
  obtain ⟨tokens, root, progress, cut, run, rfl⟩ := run_of_parse read
  obtain ⟨sprouts, found, -, rfl, hs⟩ := Grammar.undergrowth_wholeFile (orderly_of_tokenize cut) run
  simp [Script.size, Script.ofSprouts, hs]

/-- Checking comes to the nodes that the root encloses, and to no other ones. -/
theorem mem_preorder_root :
    node ∈ script.rootNode.preorder script.size ↔ script.rootNode.Encloses node :=
  Node.mem_preorder_iff (linked_of_parse read) rfl
    (Nat.lt_of_lt_of_eq (Nat.lt_succ_self _) (size_of_parse read).symm)

end

/-- The problems of a node and of what is inside it are those of the single nodes. -/
theorem Inspection.problemsWithin_preorder {inspection : Inspection}
    (checked : (inspection.problemsWithin limit node).answer? imports = some problems) :
    ∃ found, Forall₂ (fun visited own =>
        ∃ faulty, (inspection.rules faulty visited).answer? imports = some own)
      (node.preorder limit) found ∧ problems = found.flatten := by
  induction limit generalizing node problems with
  | zero =>
    cases checked
    exact ⟨[], .nil, rfl⟩
  | succ limit ih =>
    simp only [problemsWithin, Inference.answer?_bind, Inference.answer?_pure,
      Option.bind_eq_some_iff, Option.some.injEq] at checked
    obtain ⟨below, hb, own, ho, rfl⟩ := checked
    suffices ∃ found, Forall₂ (fun visited own =>
        ∃ faulty, (inspection.rules faulty visited).answer? imports = some own)
        (node.children.flatMap (Node.preorder limit)) found ∧ below.flatten = found.flatten by
      obtain ⟨found, each, same⟩ := this
      exact ⟨own :: found, .cons ⟨_, ho⟩ each, by rw [flatten_cons, same]⟩
    clear ho
    generalize node.children = children at hb
    induction children generalizing below with
    | nil =>
      cases hb
      exact ⟨[], .nil, rfl⟩
    | cons child rest inner =>
      simp only [mapM_cons, Inference.answer?_bind, Inference.answer?_pure,
        Option.bind_eq_some_iff, Option.some.injEq] at hb
      obtain ⟨first, hf, others, hr, rfl⟩ := hb
      obtain ⟨found, each, rfl⟩ := ih hf
      obtain ⟨more, eachOther, same⟩ := inner others hr
      exact ⟨found ++ more, rel_append each eachOther, by rw [flatten_cons, same, flatten_append]⟩

end ScriptCheck
