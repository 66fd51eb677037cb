import ScriptCheck.Proofs.Exchanges
import ScriptCheck.Proofs.FollowUps
import ScriptCheck.Proofs.HushedRules
import ScriptCheck.Proofs.Visits

/-!
# One fault, one problem

A name that means nothing is of an unknown type. If a script would have no problem with an escape
in the place of the name, then the name is the only problem of the script, provided that its type
goes no further than to the rules around it, and that these look at nothing but the unknown type
itself.
-/

namespace ScriptCheck

open Movable (move)
open List Inference

theorem Inference.answer?_mapM_eq {ask : α → Inference β} {give : α → β} {items : List α}
    (gives : ∀ item ∈ items, (ask item).answer? imports = some (give item)) :
    (items.mapM ask).answer? imports = some (items.map give) := by
  induction items with
  | nil => rfl
  | cons item rest ih =>
    rw [forall_mem_cons] at gives
    simp only [mapM_cons, answer?_bind, answer?_pure, gives.1, ih gives.2, Option.bind_some,
      map_cons]

namespace Inspection

variable {imports : Imports} {inspection : Inspection} {script : Script} {lone : Node}
  {problem : Problem}

open Classical in
/-- The one problem of a script, as it is found on the way down. -/
noncomputable def passing (lone : Node) (problem : Problem) (node : Node) : List Problem :=
  if node.Encloses lone then [problem] else []

/-- One child passes on the problem. -/
theorem flatten_passing (rooted : script.Rooted) (hs : node.script = script)
    (differs : node ≠ lone) :
    (node.children.map (passing lone problem)).flatten = passing lone problem node := by
  have none {child : Node} (away : ¬child.Encloses lone) : passing lone problem child = [] :=
    if_neg away
  by_cases inside : node.Encloses lone
  · obtain rfl | ⟨child, hc, below⟩ := inside.first_step
    · exact absurd rfl differs
    · have distinct : node.children.Nodup :=
        (rooted.nodup_children hs).map fun _ _ same => congrArg Node.id same
      have others : ∀ other ∈ node.children, other ≠ child → passing lone problem other = [] :=
        fun other ho differ => none fun below' =>
          differ (Node.Encloses.unique rooted.toLinked hs hc ho below below')
      have own : passing lone problem child = [problem] := if_pos below
      have whole : passing lone problem node = [problem] := if_pos inside
      rw [← flatMap_def, (flatMap_lone distinct others).1 hc, own, whole]
  · rw [none inside, flatten_eq_nil_iff, forall_mem_map]
    exact fun child hc => none fun below => inside (.of_child hc below)

/-- If a rule is broken at one node only, and the rules of the nodes around it keep quiet once
they are told so, the problem of the node is the only one. -/
theorem problemsWithin_lone (rooted : script.Rooted) (leaf : lone.children = [])
    (own : (inspection.rules false lone).answer? imports = some [problem])
    (quiet : ∀ node, script.rootNode.Encloses node → node ≠ lone →
      (inspection.rules (!(passing lone problem node).isEmpty) node).answer? imports = some [])
    {limit : Nat} {node : Node} (inside : script.rootNode.Encloses node) (enough : node.id < limit) :
    (inspection.problemsWithin limit node).answer? imports = some (passing lone problem node) := by
  induction limit generalizing node with
  | zero => cases enough
  | succ limit ih =>
    have hs := inside.script_eq
    have below : (node.children.mapM (inspection.problemsWithin limit)).answer? imports =
        some (node.children.map (passing lone problem)) := by
      refine answer?_mapM_eq fun child hc => ih (.child inside hc) ?_
      have before := rooted.id_lt_parent ((Node.script_of_mem_children hc).trans hs)
        (rooted.parent_of_mem hs hc)
      exact before.trans_le (Nat.le_of_lt_succ enough)
    rw [problemsWithin, answer?_bind, below, Option.bind_some, answer?_bind]
    by_cases here : node = lone
    · subst here
      have whole : passing node problem node = [problem] := if_pos .itself
      rw [leaf, whole]
      simp [own]
    · rw [flatten_passing rooted hs here, quiet node inside here]
      rfl

end Inspection

/-! ### Types that do not depend on a node -/

namespace Deeper

/-- The questions answered with at most `depth` questions inside each other, if none of them is
for the type of the hidden node. -/
def without (hidden : Node) : Nat → Deeper
  | 0 => .silent
  | depth + 1 => (without hidden depth).above fun situation node =>
    if node == hidden then .exhausted else (without hidden depth).nodeType situation node

/-- What is answered without the type of a node is answered alike whatever that node is. -/
theorem without_transfers {recast : Recast} (loose : ¬recast.exact) (steady : recast.Steady)
    {hidden : Node} (only : ∀ node, recast.Changes node → (node == hidden) = true) (depth : Nat) :
    (without hidden depth).TransfersTo recast.graft (within depth) := by
  induction depth with
  | zero => exact silent_transfers fun exact_ => absurd exact_ loose
  | succ depth ih =>
    rw [within_succ]
    refine above_transfers recast.faithful ih fun {situation situation' node} together _ => ?_
    split
    · exact .exhausted fun exact_ => absurd exact_ loose
    · next other =>
      exact Recast.nodeType_transfers steady ih together fun changes =>
        absurd (only node changes) other

/-- What is answered without the type of a node is so with it. -/
theorem without_stands (imports : Imports) (hidden : Node) (depth : Nat) :
    (without hidden depth).TransfersTo (Recast.standing imports).graft (within depth) :=
  @without_transfers (.standing imports) id rfl _ (fun _ changes => absurd rfl changes) depth

end Deeper

/-- Whether a name means nothing. -/
def Lookup.isUnknownName : Lookup → Bool
  | .error .unknownName => true
  | _ => false

theorem Lookup.eq_of_isUnknownName {lookup : Lookup} (unknown : lookup.isUnknownName = true) :
    lookup = .error .unknownName := by
  unfold isUnknownName at unknown
  split at unknown
  · rfl
  · cases unknown

namespace Script

/-- A name in a script that means nothing. -/
structure Dangling (script : Script) (place : NodeId) (name : String) (imports : Imports) :
    Prop where
  names : (script.node place).form = .identifier name
  unknown : ((script.node place).resolve name).answer imports = .error .unknownName
  reached : script.rootNode.Encloses (script.node place)

/-- The script in which an escape stands in the place of a name. -/
abbrev escaped (script : Script) (place : NodeId) (code : String) : Script :=
  script.withForm place (.escape code)

/-- The rules of a script without the type of a node. -/
abbrev apart (script : Script) (place : NodeId) (depth : Nat) : Inspection :=
  ⟨.without (script.node place) depth⟩

/-- The rule of a node does not depend on the type of a name, or the node is around the name and
its rule has an excuse. -/
def Spares (script : Script) (imports : Imports) (depth : Nat) (place : NodeId) (node : Node) :
    Prop :=
  (((script.apart place depth).rules false node).answer? imports).isSome = true ∨
    node.Encloses (script.node place) ∧
      (((Inspection.mk (.within depth)).rules true node).answer? imports).isSome = true ∧
      (script.apart place depth).Excused ⟨.within depth⟩ imports node

/-- What is answered without the type of the exchanged operand is answered alike after the
exchange. -/
theorem Exchange.without_transfers {script : Script} {form : Form}
    (exchange : script.Exchange place form) {before after : Imports}
    (loads : script.LoadsAlike (script.withForm place form) before after) (depth : Nat) :
    (Deeper.without (script.node place) depth).TransfersTo
      (exchange.recast loads).loosened.graft (.within depth) := by
  refine @Deeper.without_transfers (exchange.recast loads).loosened id rfl _
    (fun node changes => ?_) depth
  rw [exchange.eq_of_changes loads changes]
  exact Node.sameAs_self _

namespace Dangling

variable {script : Script} {place : NodeId} {name code : String} {before after : Imports}
  (dangling : script.Dangling place name before)

include dangling

theorem exchange (placed : script.Placed) : script.Exchange place (.escape code) where
  placed := placed
  operand := by rw [dangling.names]; rfl
  operand' := rfl
  settled child hc := by
    rw [Node.children, dangling.names] at hc
    cases hc

variable (exchange : script.Exchange place (.escape code))
  (loads : script.LoadsAlike (script.escaped place code) before after)

/-- An escape is no call either. -/
theorem keepsCalls : (exchange.recast loads).loosened.KeepsCalls deeper deeper' where
  call? {_ _ node} together changes := by
    obtain rfl := exchange.eq_of_changes loads changes
    show Inference.Transfers _ _ (deeper'.call? _ (move (exchange.recast loads) _)) _
    rw [exchange.move_node loads]
    simp only [Deeper.call?, dangling.names, exchange.form_place]
    exact .pure (by simp) rfl
  property {node} changes := by
    obtain rfl := exchange.eq_of_changes loads changes
    show _ ∧ ¬(move (exchange.recast loads) (script.node place)).CallsProperty
    rw [exchange.move_node loads]
    constructor
    · rintro ⟨_, _, _, _, _, _, invokes, -⟩
      cases dangling.names.symm.trans invokes
    · rintro ⟨_, _, _, _, _, _, invokes, -⟩
      cases exchange.form_place.symm.trans invokes

/-- What the root encloses it encloses with the escape as well. -/
theorem encloses_escaped {node : Node} (inside : script.rootNode.Encloses node) :
    (script.escaped place code).rootNode.Encloses ((script.escaped place code).node node.id) := by
  induction inside with
  | itself => exact .itself
  | @child node child above hc ih =>
    obtain ⟨owner, id⟩ := node
    obtain rfl : owner = script := above.script_eq
    have away : id ≠ place := by
      rintro rfl
      rw [Node.children, show (Node.mk owner id).form = _ from dangling.names] at hc
      cases hc
    refine .child ih ?_
    obtain ⟨below, hb, rfl⟩ := mem_map.mp hc
    rw [Node.children, form_withForm_of_ne away]
    exact mem_map_of_mem hb

include exchange

theorem lt_size {node : Node} (inside : script.rootNode.Encloses node) : node.id < script.size := by
  rcases dangling.reached.first_step with here | ⟨child, hc, -⟩
  · exact absurd (congrArg Node.id here).symm exchange.root_ne
  · exact (inside.id_le exchange.placed.toLinked rfl).trans_lt (Node.id_lt_of_mem_children hc)

include loads

variable {depth : Nat}
  (clean : ((script.escaped place code).problems? depth).answer? after = some [])

include clean

section

variable {node : Node} (inside : script.rootNode.Encloses node)
include inside

/-- With the escape no rule is broken. -/
theorem rules_clean :
    ((Inspection.mk (.within depth)).rules false (move (exchange.recast loads) node)).answer?
      after = some [] := by
  obtain ⟨owner, id⟩ := node
  obtain rfl : owner = script := inside.script_eq
  have moved : move (exchange.recast loads) (Node.mk owner id) =
    (owner.escaped place code).node id := exchange.move_node loads id
  rw [moved]
  refine Script.rules_clean clean (dangling.encloses_escaped inside) (decide_eq_true ?_)
  rw [exchange.recastAs.size]
  exact @lt_size _ _ _ _ _ dangling exchange ⟨owner, id⟩ inside

/-- Nothing is assigned to the name. -/
theorem target_kept (hf : node.form = .assignment target value) :
    ¬(exchange.recast loads).Changes (node.sibling target) := by
  intro changes
  have kept := dangling.rules_clean exchange loads clean inside
  have same : (move (exchange.recast loads) node).form = node.form :=
    (exchange.recast loads).form_of_not_operand (by rw [hf]; rfl)
  have escape : ((move (exchange.recast loads) node).sibling target).form = .escape code := by
    show (move (exchange.recast loads) (node.sibling target)).form = _
    rw [exchange.eq_of_changes loads changes, exchange.move_node loads, exchange.form_place]
  simp [Inspection.rules, same, hf, Inspection.assignment, Inspection.assignmentTarget, escape] at kept

/-- The rules that spare the name say nothing. -/
theorem rules_quiet (differs : node ≠ script.node place)
    (spares : script.Spares before depth place node) (problem : Problem) :
    ((Inspection.mk (.within depth)).rules
      (!(Inspection.passing (script.node place) problem node).isEmpty) node).answer? before =
        some [] := by
  have transfers := exchange.without_transfers loads depth
  have standing := Deeper.without_stands before (script.node place) depth
  have kept := dangling.rules_clean exchange loads clean inside
  have same : (move (exchange.recast loads) node).form = node.form := not_not.mp fun changes =>
    differs (exchange.eq_of_changes loads changes)
  rcases spares with ends | ⟨around, ends, excused⟩
  · exact Inspection.rules_of_apart transfers (dangling.keepsCalls exchange loads)
      standing same (dangling.target_kept exchange loads clean inside) kept ends _
  · have told : Inspection.passing (script.node place) problem node = [problem] := if_pos around
    rw [told]
    exact Inspection.Silent.answer?_eq (Inspection.rules_of_excused transfers
      (dangling.keepsCalls exchange loads) standing same
      (dangling.target_kept exchange loads clean inside) kept excused) ends

end

end Dangling

/-- An unknown name is the only problem of a script that has none with an escape in its place, if
no rule depends on the type of the name but those around it that have an excuse: what they judge
is of an unknown type itself, and not only made up of unknown types. -/
theorem problems?_of_dangling {path : FilePath} {source : String} {script : Script}
    (read : parse path source = .ok script) {place : NodeId} {name code : String}
    {before after : Imports} (dangling : script.Dangling place name before)
    (loads : script.LoadsAlike (script.escaped place code) before after) {depth : Nat}
    (clean : ((script.escaped place code).problems? depth).answer? after = some [])
    (spared : ∀ node, script.rootNode.Encloses node → node ≠ script.node place →
      script.Spares before depth place node) :
    (script.problems? depth).answer? before = some [⟨script.node place, .unknownName name⟩] := by
  have exchange : script.Exchange place (.escape code) := dangling.exchange (placed_of_parse read)
  have own : ((Inspection.mk (.within depth)).rules false (script.node place)).answer? before =
      some [⟨script.node place, .unknownName name⟩] := by
    simp only [Inspection.rules, dangling.names, Inspection.identifier, Inquirer.resolve,
      answer?_bind, answer?_lift, dangling.unknown, Option.bind_some, answer?_pure]
  have leaf : (script.node place).children = [] := by
    rw [Node.children, dangling.names]
    rfl
  have found := Inspection.problemsWithin_lone exchange.placed.toRooted leaf own
    (fun node inside differs =>
      dangling.rules_quiet exchange loads clean inside differs (spared node inside differs) _)
    .itself (dangling.lt_size exchange .itself)
  rw [problems?, found]
  exact congrArg some (if_pos dangling.reached)

/-- An unknown name inside of the argument of a call. -/
def unknownArgument : Reading :=
  .first ⟨"/main.bgl"⟩ "func twice(n: number) => n * 2\nconst a: number = twice(-foo)"

theorem unknownArgument_problems :
    (unknownArgument.script.problems? 30).answer? .isolated =
      some [⟨unknownArgument.script.node 9, .unknownName "foo"⟩] := by
  obtain ⟨faultless, root, names, unknown, clean, declares, calls, argument, operand, typed, ends,
      others⟩ :
      unknownArgument.fault.isNone = true ∧ unknownArgument.script.root = 13 ∧
      (unknownArgument.script.node 9).form = .identifier "foo" ∧
      (((unknownArgument.script.node 9).resolve "foo").answer .isolated).isUnknownName = true ∧
      (((unknownArgument.script.escaped 9 "foo").problems? 30).answer? .isolated).any (·.isEmpty) =
        true ∧
      12 ∈ (unknownArgument.script.node 13).form.children ∧
      11 ∈ (unknownArgument.script.node 12).form.children ∧
      10 ∈ (unknownArgument.script.node 11).form.children ∧
      (unknownArgument.script.node 10).form = .unary .negate 9 ∧
      (((Inspection.mk (.within 30)).typeOf (unknownArgument.script.node 9)).answer?
        .isolated).any (·.isUnknown) = true ∧
      (((Inspection.mk (.within 30)).rules true (unknownArgument.script.node 10)).answer?
        .isolated).isSome = true ∧
      ∀ id < 14, id ≠ 10 → (((unknownArgument.script.apart 9 30).rules false
        (unknownArgument.script.node id)).answer? .isolated).isSome = true := by
    decide +kernel
  have read : parse _ _ = .ok unknownArgument.script := Reading.parse_of_faultless faultless
  generalize unknownArgument.script = script at *
  obtain ⟨found, clean, none⟩ := (Option.any_eq_true _ _).mp clean
  rw [isEmpty_iff.mp none] at clean
  obtain ⟨type, typed, nothing⟩ := (Option.any_eq_true _ _).mp typed
  obtain rfl : type = .unknown := by
    cases type <;> first | rfl | cases nothing
  have operation : script.node 9 ∈ (script.node 10).children := by
    rw [Node.children, operand]
    exact mem_singleton_self _
  have reached : script.rootNode.Encloses (script.node 9) := by
    rw [Script.rootNode, root]
    exact .child (.child (.child (.child .itself (mem_map_of_mem declares))
      (mem_map_of_mem calls)) (mem_map_of_mem argument)) operation
  refine problems?_of_dangling read ⟨names, Lookup.eq_of_isUnknownName unknown, reached⟩
    (loadsAlike_isolated _ _) clean fun node inside _ => ?_
  have bounded : node.id ≤ script.root := inside.id_le (placed_of_parse read).toLinked rfl
  obtain ⟨owner, id⟩ := node
  obtain rfl : owner = script := inside.script_eq
  by_cases around : id = 10
  · subst around
    have judges : 9 ∈ (owner.node 10).form.judged := by
      rw [operand]
      exact mem_singleton_self _
    exact .inr ⟨.child .itself operation, ends, .judged judges typed fun _ _ assigns => by
      cases operand.symm.trans assigns⟩
  · exact .inl (others id (Nat.lt_succ_of_le (root ▸ bounded)) around)

/-- A list with an unknown name in the place of a number. -/
def unknownElement : Reading := .first ⟨"/main.bgl"⟩ "const x: number[] = [foo]"

/-- A list of things of an unknown type is not of an unknown type, so that the list is reported
together with the name in it. -/
theorem unknownElement_problems : unknownElement.fault.isNone = true ∧
    (unknownElement.script.node 2).form = .identifier "foo" ∧
    (((unknownElement.script.node 2).resolve "foo").answer .isolated).isUnknownName = true ∧
    (((unknownElement.script.escaped 2 "foo").problems? 30).answer? .isolated).map List.length =
      some 0 ∧
    ((unknownElement.script.problems? 30).answer? .isolated).map List.length = some 2 := by
  decide +kernel

end Script

end ScriptCheck
