import Mathlib.Data.List.Pairwise
import ScriptCheck.Proofs.Forest
import ScriptCheck.Proofs.Readings
import ScriptCheck.Proofs.Visits

/-!
# Nodes stand in the text as in the tree

The children of a node stand inside it and apart from each other. So the innermost node at an
offset is found by going down from the root. They are also listed in the order of the text, unless
a switch has a case behind its default.
-/

namespace ScriptCheck

open List

namespace Node

/-- The first node ends before the second one starts. -/
def Before (first second : Node) : Prop := first.span.stop ≤ second.span.start

instance (first second : Node) : Decidable (first.Before second) :=
  inferInstanceAs (Decidable (_ ≤ _))

/-- The node stands inside another one and is not empty. -/
structure Inside (inner outer : Node) : Prop where
  start : outer.span.start ≤ inner.span.start
  filled : inner.span.start < inner.span.stop
  stop : inner.span.stop ≤ outer.span.stop

/-- How the children of a node stand in the text. -/
structure Arranged (node : Node) : Prop where
  inside : ∀ child ∈ node.children, child.Inside node
  apart : ∀ child ∈ node.children, ∀ other ∈ node.children, child ≠ other →
    child.Before other ∨ other.Before child
  inOrder : ∀ sequence ∈ node.form.sequences, (sequence.map node.sibling).Pairwise Before

end Node

section Tables

variable {sprouts : Array Sprout} {path : FilePath} {root id : NodeId} {sprout : Sprout}

theorem span_ofSprouts : (Node.mk (Script.ofSprouts path sprouts root) id).span =
    spanAt sprouts id := by
  rw [Node.span, Node.entry, getElem?_ofSprouts, spanAt]
  cases sprouts[id]? <;> rfl

/-- The nodes of a script stand as the rows of its table. -/
theorem Laid.arranged (laid : Laid sprouts sprout) (row : sprouts[id]? = some sprout) :
    (Node.mk (Script.ofSprouts path sprouts root) id).Arranged := by
  obtain ⟨order, strip, children, sequences⟩ := laid
  have form : (Node.mk (Script.ofSprouts path sprouts root) id).form = sprout.form := by
    rw [form_ofSprouts, row]
    rfl
  have span : spanAt sprouts id = sprout.span := by rw [spanAt, row]; rfl
  have listed {child : Node}
      (hc : child ∈ (Node.mk (Script.ofSprouts path sprouts root) id).children) :
      ∃ inner ∈ order, child = ⟨Script.ofSprouts path sprouts root, inner⟩ := by
    obtain ⟨inner, hi, rfl⟩ := mem_map.mp hc
    rw [form] at hi
    exact ⟨inner, children hi, rfl⟩
  refine ⟨fun child hc => ?_, fun child hc other ho differ => ?_, fun sequence hs => ?_⟩
  · obtain ⟨inner, hi, rfl⟩ := listed hc
    obtain ⟨start, filled, stop⟩ := strip.inside inner hi
    constructor <;> simpa only [span_ofSprouts, span]
  · obtain ⟨inner, hi, rfl⟩ := listed hc
    obtain ⟨inner', hi', rfl⟩ := listed ho
    have both : Std.Symm fun first second => (spanAt sprouts first).stop ≤ (spanAt sprouts second).start ∨
        (spanAt sprouts second).stop ≤ (spanAt sprouts first).start := ⟨fun _ _ => Or.symm⟩
    have apart : order.Pairwise fun first second =>
        (spanAt sprouts first).stop ≤ (spanAt sprouts second).start ∨
        (spanAt sprouts second).stop ≤ (spanAt sprouts first).start := strip.inOrder.imp .inl
    simp only [Node.Before, span_ofSprouts]
    exact apart.forall hi hi' fun same => differ (congrArg (Node.mk _) same)
  · rw [form] at hs
    rw [pairwise_map]
    refine (strip.inOrder.sublist (sequences sequence hs)).imp fun before => ?_
    simpa only [Node.Before, Node.sibling, span_ofSprouts]

end Tables

section Parsed

variable {path : FilePath} {source : String} {script : Script} (read : parse path source = .ok script)
include read

theorem span_root : script.rootNode.span = ⟨0, Text.byteLength source.toList⟩ := by
  obtain ⟨tokens, root, progress, cut, run, rfl⟩ := run_of_parse read
  obtain ⟨sprouts, found, -, rfl, hs⟩ := Grammar.undergrowth_wholeFile (orderly_of_tokenize cut) run
  rw [Script.rootNode, Script.node, hs]
  exact span_ofSprouts.trans (spanAt_size _ _)

/-- No node but the root is empty. -/
theorem filled_of_parse {id : NodeId} (known : id < script.size) (inner : id ≠ script.root) :
    (script.node id).span.start < (script.node id).span.stop := by
  obtain ⟨tokens, root, progress, cut, run, rfl⟩ := run_of_parse read
  obtain ⟨sprouts, found, ⟨_, grove, -⟩, rfl, hs⟩ :=
    Grammar.undergrowth_wholeFile (orderly_of_tokenize cut) run
  rw [hs] at known ⊢
  have before := lt_size_of_ne_root inner known
  have row := Array.getElem?_eq_getElem before
  have filled := (grove.laid id _ row).1
  rw [Script.node, span_ofSprouts, (Keeps.push sprouts _).spans id before, spanAt, row]
  exact filled

/-- The children of every node stand inside it, apart from each other and in order. -/
theorem arranged_of_parse {node : Node} (same : node.script = script) : node.Arranged := by
  have bounded (id : NodeId) : (Node.mk script id).span.stop ≤ Text.byteLength source.toList := by
    rw [Node.span, Node.entry]
    cases he : script.entries[id]? with
    | none => exact Nat.zero_le _
    | some entry => exact (sits_of_parse read he).bounded
  obtain ⟨tokens, root, progress, cut, run, rfl⟩ := run_of_parse read
  obtain ⟨sprouts, found, ⟨_, grove, strip⟩, rfl, hs⟩ :=
    Grammar.undergrowth_wholeFile (orderly_of_tokenize cut) run
  obtain ⟨_, id⟩ := node
  obtain rfl := same
  rw [hs] at bounded ⊢
  simp only [span_ofSprouts] at bounded
  have keeps := Keeps.push sprouts ⟨.module found, ⟨0, Text.byteLength source.toList⟩⟩
  cases row : (sprouts.push ⟨.module found, ⟨0, Text.byteLength source.toList⟩⟩)[id]? with
  | none =>
    have form : (Node.mk (Script.ofSprouts path (sprouts.push ⟨.module found,
        ⟨0, Text.byteLength source.toList⟩⟩) sprouts.size) id).form = .module [] := by
      rw [form_ofSprouts, row]
      rfl
    constructor
    · rw [Node.children, form]
      exact forall_mem_nil _
    · rw [Node.children, form]
      exact forall_mem_nil _
    · rw [form]
      exact forall_mem_singleton.mpr .nil
  | some sprout =>
    refine Laid.arranged ?_ row
    rw [Array.getElem?_push] at row
    split at row
    · cases row
      have kept := strip.keep keeps
      exact ⟨found, ⟨fun id hi => ⟨Nat.zero_le _, (kept.inside id hi).2.1, bounded id⟩, kept.inOrder⟩,
        List.Subset.refl _, forall_mem_singleton.mpr (.refl _)⟩
    · exact (grove.laid id sprout row).2.keep keeps

end Parsed

namespace Node.Encloses

variable {script : Script} {upper lower : Node}

/-- What is inside a child stands inside the child. -/
theorem inside_child {parent child : Node} (arranged : ∀ {node : Node}, node.script = script → node.Arranged)
    (hs : parent.script = script) (hc : child ∈ parent.children) (inside : child.Encloses lower) :
    lower.Inside child := by
  induction inside with
  | itself => exact ⟨Nat.le_refl _, ((arranged hs).inside _ hc).filled, Nat.le_refl _⟩
  | child above hl ih =>
    have same := above.script_eq.trans ((script_of_mem_children hc).trans hs)
    have step := (arranged same).inside _ hl
    exact ⟨Nat.le_trans ih.start step.start, step.filled, Nat.le_trans step.stop ih.stop⟩

/-- A node that encloses another one is the node or an ancestor of it. -/
theorem eq_or_mem_ancestors (rooted : script.Rooted) (hs : upper.script = script)
    (inside : upper.Encloses lower) : upper = lower ∨ upper ∈ lower.ancestors := by
  induction inside with
  | itself => exact .inl rfl
  | child above hc ih =>
    rw [rooted.ancestors_of_mem (above.script_eq.trans hs) hc]
    exact .inr (ih.elim (· ▸ mem_cons_self) (mem_cons_of_mem _))

end Node.Encloses

section Order

variable {script : Script} (arranged : ∀ {node : Node}, node.script = script → node.Arranged)

include arranged

/-- Going down from a node that covers an offset leads to the innermost node that does. -/
theorem Node.descend_innermost (linked : script.Linked) {node : Node}
    (same : node.script = script) (enough : node.id < limit)
    (covers : node.span.contains offset = true) :
    (node.descend offset limit).span.contains offset = true ∧
      node.Encloses (node.descend offset limit) ∧
      ∀ other, node.Encloses other → other.span.contains offset = true →
        other.Encloses (node.descend offset limit) := by
  induction limit generalizing node with
  | zero => cases enough
  | succ limit ih =>
    have around {child other : Node} (hc : child ∈ node.children) (below : child.Encloses other)
        (covered : other.span.contains offset = true) : child.span.contains offset = true := by
      have inside := below.inside_child arranged same hc
      have := inside.start
      have := inside.stop
      simp only [Span.contains, Bool.and_eq_true, decide_eq_true_eq] at covered ⊢
      omega
    rw [descend]
    cases found : node.children.find? fun child => child.span.contains offset with
    | none =>
      refine ⟨covers, .itself, fun other inside covered => ?_⟩
      rcases inside.first_step with rfl | ⟨child, hc, below⟩
      · exact .itself
      · exact absurd (around hc below covered) (find?_eq_none.mp found child hc)
    | some child =>
      have hc := mem_of_find?_eq_some found
      have hit : child.span.contains offset = true := by simpa using find?_some found
      have hn := (script_of_mem_children hc).trans same
      have before := linked.id_lt_parent hn (linked.parent_of_mem same hc)
      obtain ⟨covers, inside, innermost⟩ :=
        ih hn (Nat.lt_of_lt_of_le before (Nat.le_of_lt_succ enough)) hit
      refine ⟨covers, .of_child hc inside, fun other above covered => ?_⟩
      rcases above.first_step with rfl | ⟨child', hc', below⟩
      · exact .of_child hc inside
      · -- two children that cover the same offset are the same
        have hit' := around hc' below covered
        have one : child' = child := by
          by_contra differ
          have := (arranged same).apart child' hc' child hc differ
          simp only [Before, Span.contains, Bool.and_eq_true, decide_eq_true_eq] at this hit hit'
          omega
        subst one
        exact innermost other below covered

/-- Where all children are listed in the order of the text, checking comes to the nodes in the
order in which they start. -/
theorem Node.preorder_inOrder {node : Node} (limit : Nat) (same : node.script = script)
    (inOrder : ∀ {inner : Node}, node.Encloses inner → inner.children.Pairwise Before) :
    (node.preorder limit).Pairwise fun first second => first.span.start ≤ second.span.start := by
  induction limit generalizing node with
  | zero => exact .nil
  | succ limit ih =>
    have below {child other : Node} (hc : child ∈ node.children)
        (listed : other ∈ child.preorder limit) : other.Inside child :=
      (encloses_of_mem_preorder listed).inside_child arranged same hc
    refine .cons (fun other listed => ?_) (pairwise_flatMap.mpr ⟨fun child hc => ?_, ?_⟩)
    · obtain ⟨child, hc, listed⟩ := mem_flatMap.mp listed
      exact Nat.le_trans ((arranged same).inside child hc).start (below hc listed).start
    · exact ih ((script_of_mem_children hc).trans same) fun inside => inOrder (.of_child hc inside)
    · refine (inOrder .itself).imp_of_mem fun hf hs before first hfirst second hsecond => ?_
      have earlier := below hf hfirst
      have later := below hs hsecond
      exact Nat.le_trans (Nat.le_of_lt earlier.filled)
        (Nat.le_trans earlier.stop (Nat.le_trans before later.start))

end Order

namespace Script

variable {path : FilePath} {source : String} {script : Script} {offset : Nat}

/-- The node that is found at an offset is the innermost of the nodes that cover it, because
children stand inside their parents and apart from each other, and no node is empty. -/
theorem nodeAt_innermost (read : parse path source = .ok script)
    (within : offset < Text.byteLength source.toList) :
    (script.nodeAt offset).span.contains offset = true ∧
      (∀ node, script.rootNode.Encloses node → node.span.contains offset = true →
        node = script.nodeAt offset ∨ node ∈ (script.nodeAt offset).ancestors) ∧
      (∀ node : Node, node.script = script → (∀ child ∈ node.children, child.Inside node) ∧
        ∀ child ∈ node.children, ∀ other ∈ node.children, child ≠ other →
          child.Before other ∨ other.Before child) ∧
      ∀ id < script.size, id ≠ script.root →
        (script.node id).span.start < (script.node id).span.stop := by
  have rooted := rooted_of_parse read
  have covers : script.rootNode.span.contains offset = true := by
    simpa [span_root read, Span.contains] using within
  obtain ⟨hit, -, innermost⟩ := Node.descend_innermost (arranged_of_parse read) rooted.toLinked rfl
    (Nat.lt_of_lt_of_eq (Nat.lt_succ_self _) (size_of_parse read).symm) covers
  exact ⟨hit, fun node inside covered =>
    (innermost node inside covered).eq_or_mem_ancestors rooted inside.script_eq, fun node same =>
    ⟨(arranged_of_parse read same).inside, (arranged_of_parse read same).apart⟩, fun id known inner =>
    filled_of_parse read known inner⟩

/-- A function literal inside of a call. -/
def literalInCall : Reading := .first ⟨"/main.bgl"⟩ "const x = f((a) => a + 1)"

theorem literalInCall_nodeAt :
    (literalInCall.script.nodeAt 19).form = .identifier "a" ∧
      (literalInCall.script.nodeAt 19).span.contains 19 = true ∧
      ∀ node, literalInCall.script.rootNode.Encloses node → node.span.contains 19 = true →
        node = literalInCall.script.nodeAt 19 ∨ node ∈ (literalInCall.script.nodeAt 19).ancestors := by
  obtain ⟨faultless, found, within⟩ : literalInCall.fault.isNone = true ∧
      (literalInCall.script.nodeAt 19).form = .identifier "a" ∧
      19 < Text.byteLength "const x = f((a) => a + 1)".toList := by decide +kernel
  have read : parse _ _ = .ok literalInCall.script := Reading.parse_of_faultless faultless
  generalize literalInCall.script = script at *
  obtain ⟨covers, innermost, -⟩ := nodeAt_innermost read within
  exact ⟨found, covers, innermost⟩

/-- The children of a node are listed in the order of the text unless it is a switch with a case
behind its default. Where none is, checking comes to the nodes in the order in which they start. -/
theorem children_inOrder (read : parse path source = .ok script) :
    (∀ node : Node, node.script = script → (node.children.Pairwise Node.Before ↔
      ∀ value cases last, node.form = .switch value cases (some last) → ∀ arm ∈ cases,
        (node.sibling arm).Before (node.sibling last))) ∧
    ((∀ node, script.rootNode.Encloses node → node.children.Pairwise Node.Before) →
      (script.rootNode.preorder script.size).Pairwise fun first second =>
        first.span.start ≤ second.span.start) := by
  refine ⟨fun node same => ?_, fun inOrder => Node.preorder_inOrder (arranged_of_parse read) _ rfl
    fun inside => inOrder _ inside⟩
  have sequences := (arranged_of_parse read same).inOrder
  unfold Form.sequences at sequences
  split at sequences
  · next value cases otherwise switch =>
    simp only [forall_mem_cons, map_cons, pairwise_cons] at sequences
    obtain ⟨arms, last, -⟩ := sequences
    have children : node.children =
        (value :: cases).map node.sibling ++ otherwise.toList.map node.sibling := by
      rw [Node.children, switch, ← map_append]
      rfl
    rw [children, pairwise_append]
    constructor
    · rintro ⟨-, -, across⟩ _ _ last same arm ha
      cases switch.symm.trans same
      exact across _ (mem_map_of_mem (mem_cons_of_mem _ ha)) _ (by simp)
    · intro behind
      refine ⟨pairwise_cons.mpr arms, last.2, fun first hf second hs => ?_⟩
      obtain ⟨id, hi, rfl⟩ := mem_map.mp hs
      rcases mem_cons.mp hf with rfl | hf
      · exact last.1 _ hs
      · obtain ⟨arm, ha, rfl⟩ := mem_map.mp hf
        obtain rfl := Option.mem_toList.mp hi
        exact behind value cases id switch arm ha
  · next plain =>
    have all := forall_mem_singleton.mp sequences
    exact ⟨fun _ value cases last same => absurd same (plain value cases (some last)), fun _ => all⟩

/-- A switch with its default behind its case. -/
def defaultLast : Reading := .first ⟨"/main.bgl"⟩ "const x = switch (1) \x7b case 1: foo, default: bar \x7d"

theorem defaultLast_inOrder :
    (defaultLast.script.rootNode.preorder defaultLast.script.size).Pairwise fun first second =>
      first.span.start ≤ second.span.start := by
  obtain ⟨faultless, root, inOrder⟩ : defaultLast.fault.isNone = true ∧
      defaultLast.script.root = 8 ∧
      ∀ id < 9, (defaultLast.script.node id).children.Pairwise Node.Before := by
    decide +kernel
  have read : parse _ _ = .ok defaultLast.script := Reading.parse_of_faultless faultless
  generalize defaultLast.script = script at *
  refine (children_inOrder read).2 fun node inside => ?_
  have bounded : node.id ≤ script.root := inside.id_le (linked_of_parse read) rfl
  obtain ⟨owner, id⟩ := node
  obtain rfl : owner = script := inside.script_eq
  exact inOrder id (Nat.lt_succ_of_le (root ▸ bounded))

/-- A switch with a case behind its default. -/
def defaultFirst : Reading :=
  .first ⟨"/main.bgl"⟩ "const x = switch (1) \x7b default: foo, case 1: bar \x7d"

/-- Checking comes to the case before the default, which stands before it. -/
theorem defaultFirst_outOfOrder : defaultFirst.fault.isNone = true ∧
    ¬(defaultFirst.script.node 6).children.Pairwise Node.Before ∧
    (defaultFirst.script.rootNode.preorder defaultFirst.script.size).map Node.id =
      [8, 7, 6, 1, 0, 5, 3, 4, 2] ∧
    ((defaultFirst.script.problems? 30).answer? .isolated).map (·.map (·.node.id)) =
      some [4, 2] := by
  decide +kernel

end Script

end ScriptCheck
