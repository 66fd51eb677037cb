import ScriptCheck.Proofs.TextOrder

/-!
# No node is lost

Every node that is read is taken by the node around it, except for a default of a switch that is
followed by another one. So checking comes to every node of a script in which no switch has two
defaults.
-/

namespace ScriptCheck

open List

/-- The default words that stand in a node and in none of its children. -/
def Node.ownDefaults (tokens : List Token) (node : Node) : List Token :=
  tokens.filter fun token => decide (token.kind = .keyword "default") &&
    node.span.contains token.span.start &&
    node.children.all fun child => !child.span.contains token.span.start

variable {sprouts : Array Sprout}

/-- A switch that was read with two defaults has two default words of its own. -/
theorem Doubled.two_le_length {id : NodeId} (doubled : Doubled tokens sprouts sprout)
    (row : sprouts[id]? = some sprout) (path : FilePath) (root : NodeId) :
    2 ≤ ((Node.mk (Script.ofSprouts path sprouts root) id).ownDefaults tokens).length := by
  obtain ⟨-, first, hf, second, hs, differ, own, own'⟩ := doubled
  have listed {word : Token} (hw : word ∈ tokens) (own : OwnDefault sprouts sprout word) :
      word ∈ (Node.mk (Script.ofSprouts path sprouts root) id).ownDefaults tokens := by
    have span : (Node.mk (Script.ofSprouts path sprouts root) id).span = sprout.span := by
      rw [span_ofSprouts, spanAt, row]
      rfl
    have outside : ∀ child ∈ (Node.mk (Script.ofSprouts path sprouts root) id).children,
        child.span.contains word.span.start = false := by
      intro child hc
      obtain ⟨_, hr, hm⟩ := row_of_mem_children hc
      cases row.symm.trans hr
      obtain ⟨inner, hi, rfl⟩ := mem_map.mp hc
      rw [Node.sibling, span_ofSprouts]
      exact own.outside inner hm
    refine mem_filter.mpr ⟨hw, ?_⟩
    simpa [span, own.isDefault, own.inside] using outside
  have two : [first, second].Nodup := by
    simpa using fun same => differ (congrArg (·.span.start) same)
  exact (subperm_of_subset two (by simp [listed hf own, listed hs own'])).length_le

/-- A child that a row names is a child of the node. -/
theorem exists_row_of_mem_taken {root id : NodeId} (listed : id ∈ taken sprouts) :
    ∃ parent < (Script.ofSprouts path sprouts root).size,
      Node.mk (Script.ofSprouts path sprouts root) id ∈
        (Node.mk (Script.ofSprouts path sprouts root) parent).children := by
  obtain ⟨sprout, hs, hc⟩ := mem_flatMap.mp listed
  obtain ⟨parent, hp, rfl⟩ := getElem_of_mem hs
  rw [Array.length_toList] at hp
  refine ⟨parent, by simpa [Script.size, Script.ofSprouts] using hp, mem_map.mpr ⟨id, ?_, rfl⟩⟩
  rw [form_ofSprouts, Array.getElem?_eq_getElem hp]
  simpa using hc

namespace Script

variable {path : FilePath} {source : String} {script : Script} {tokens : List Token}
  (cut : tokenize source = .ok tokens) (read : parse path source = .ok script)
  (once : ∀ node : Node, node.script = script → node.form.isSwitch = true →
    (node.ownDefaults tokens).length ≤ 1)

include cut read once

/-- Every node but the root is the child of another one. -/
theorem exists_parent {id : NodeId} (known : id < script.size) (inner : id ≠ script.root) :
    ∃ parent < script.size, script.node id ∈ (script.node parent).children := by
  obtain ⟨tokens', root, progress, cut', run, rfl⟩ := run_of_parse read
  cases cut.symm.trans cut'
  obtain ⟨sprouts, found, ⟨_, grove, -⟩, rfl, hs⟩ :=
    Grammar.undergrowth_wholeFile (orderly_of_tokenize cut) run
  rw [hs] at known once ⊢
  have before := lt_size_of_ne_root inner known
  rcases grove.kept with whole | ⟨row, sprout, hr, doubled⟩
  · exact exists_row_of_mem_taken (by simpa [taken, Form.children] using whole id before)
  · have known : ∀ child ∈ sprout.form.children, child < sprouts.size := fun child hc =>
      Nat.lt_trans (grove.below row sprout hr child hc) (Array.getElem?_eq_some_iff.mp hr).1
    have inTable : (sprouts.push ⟨.module found, ⟨0, Text.byteLength source.toList⟩⟩)[row]? =
        some sprout := by
      obtain ⟨hl, rfl⟩ := Array.getElem?_eq_some_iff.mp hr
      exact Array.getElem?_push_lt hl
    have two := (doubled.keep (Keeps.push sprouts _) known).two_le_length inTable path sprouts.size
    refine absurd (once _ rfl ?_) (Nat.not_le.mpr two)
    rw [form_ofSprouts, inTable]
    exact doubled.1

/-- The root encloses every node. -/
theorem encloses_all {id : NodeId} (known : id < script.size) :
    script.rootNode.Encloses (script.node id) := by
  by_cases root : id = script.root
  · subst root
    exact .itself
  · obtain ⟨parent, hp, inside⟩ := exists_parent cut read once known root
    have linked := linked_of_parse read
    have before : id < parent := linked.id_lt_parent rfl (linked.parent_of_mem rfl inside)
    exact .child (encloses_all hp) inside
termination_by script.size - id
decreasing_by exact Nat.sub_lt_sub_left known before

/-- Where no switch has two defaults, the root is the only node without a parent, it encloses all
nodes, and checking applies the rules to all of them. -/
theorem no_node_lost : (∀ id < script.size, (script.node id).parent = none ↔ id = script.root) ∧
    (∀ id < script.size, script.rootNode.Encloses (script.node id)) ∧
    ∀ (imports : Imports) (depth : Nat) (problems : List Problem),
      (script.problems? depth).answer? imports = some problems →
      ∀ id < script.size, ∃ faulty own,
        ((Inspection.mk (.within depth)).rules faulty (script.node id)).answer? imports = some own ∧
          own ⊆ problems := by
  have rooted := rooted_of_parse read
  refine ⟨fun id known => ⟨fun orphan => ?_, ?_⟩, fun id => encloses_all cut read once,
    fun imports depth problems checked id known => ?_⟩
  · by_contra inner
    obtain ⟨parent, -, inside⟩ := exists_parent cut read once known inner
    cases orphan.symm.trans (rooted.parent_of_mem rfl inside)
  · rintro rfl
    exact rooted.parent_root
  · obtain ⟨found, each, rfl⟩ := Inspection.problemsWithin_preorder checked
    have listed := (mem_preorder_root read).mpr (encloses_all cut read once known)
    obtain ⟨place, hp, visited⟩ := getElem_of_mem listed
    have hf : place < found.length := each.length_eq ▸ hp
    obtain ⟨faulty, answer⟩ := each.get hp hf
    rw [get_eq_getElem, visited] at answer
    exact ⟨faulty, _, answer, fun _ ho => mem_flatten_of_mem (get_mem found ⟨place, hf⟩) ho⟩

omit cut read once

/-- A switch with one default. -/
def oneDefault : Reading :=
  .first ⟨"/main.bgl"⟩ "const x = switch (1) \x7b case 1: 2, default: foo \x7d"

theorem oneDefault_kept : oneDefault.fault.isNone = true ∧
    ∀ id < oneDefault.script.size, oneDefault.script.rootNode.Encloses (oneDefault.script.node id) := by
  obtain ⟨faultless, once⟩ : oneDefault.fault.isNone = true ∧
      ∀ id < oneDefault.script.size, (oneDefault.script.node id).form.isSwitch = true →
        ((oneDefault.script.node id).ownDefaults ((tokenize
          "const x = switch (1) \x7b case 1: 2, default: foo \x7d").toOption.getD [])).length ≤ 1 := by
    decide +kernel
  have read : parse _ _ = .ok oneDefault.script := Reading.parse_of_faultless faultless
  refine ⟨faultless, ?_⟩
  generalize oneDefault.script = script at *
  obtain ⟨tokens, -, -, cut, -⟩ := run_of_parse read
  rw [cut] at once
  refine (no_node_lost cut read ?_).2.1
  rintro ⟨_, id⟩ rfl switch
  refine once id ?_ switch
  by_contra missing
  rw [Node.form_of_size_le (Nat.le_of_not_lt missing)] at switch
  cases switch

/-- A switch with two defaults. -/
def twoDefaults : Reading :=
  .first ⟨"/main.bgl"⟩ "const x = switch (1) \x7b default: foo, default: 2 \x7d"

/-- The first default has no parent, and its unknown name is not reported. -/
theorem twoDefaults_lost : twoDefaults.fault.isNone = true ∧
    (twoDefaults.script.node 2).form = .identifier "foo" ∧
    (twoDefaults.script.node 2).parent.isNone = true ∧ twoDefaults.script.root ≠ 2 ∧
    2 ∉ (twoDefaults.script.rootNode.preorder twoDefaults.script.size).map Node.id ∧
    ((twoDefaults.script.problems? 30).answer? .isolated).map List.length = some 0 := by
  decide +kernel

end Script

end ScriptCheck
