import ScriptCheck.Proofs.MethodSites

/-!
# What a method-style call comes to

A call in the style of a method has the type that it has written out. An argument, or the
receiver, that takes its type from the call is asked about only with the type on record that the
call expects of it. All other nodes have the same around them in both scripts.
-/

namespace ScriptCheck

open Movable (move)
open List Node

/-- The expectations and types that are being inferred, before and after the call is put back. -/
structure Script.MethodSite.Together {script : Script} (site : script.MethodSite)
    (situation situation' : Situation) : Prop where
  expectations : situation'.expectations = situation.expectations.map (move site.moving)
  written : ∀ row ∈ situation.expectations, row.2.Formed Reference.IsDeclared False
  busy : ∀ node, situation'.busy.contains (move site.moving node) = true →
    situation.busy.contains node = true
  /-- The call itself is being inferred. -/
  calling : situation.busy.contains (site.rewritten.node site.invocation) = true

namespace Script.MethodSite

variable {script : Script} (site : script.MethodSite)

/-- The call is put back as it was. -/
noncomputable def graft (before after : Imports) : Transplant where
  toMoving := site.moving
  before := before
  after := after
  exact := False
  visited _ := True
  allowed := Reference.IsDeclared
  strict := False
  asked := site.Settled
  awaited situation node :=
    site.Settled situation node ∧ (node.script = site.rewritten → node.needsContext = true)
  together := site.Together

section Reading

variable (placed : script.Placed) (before after : Imports)

include placed

/-- The nodes around a node are the same, apart from the subject of the call. -/
theorem surrounds (node : Node) :
    (site.graft before after).Surrounds node.enclosing (move site.moving node).enclosing := by
  have linked := site.linked_rewritten placed.toRooted
  have plain : (site.rewritten.node site.invocation).form.isPlain = true := by
    rw [site.form_invocation]
    rfl
  have plain' : (script.node site.invocation).form.isPlain = true := by
    rw [site.invokes]
    rfl
  by_cases hs : node.script = site.rewritten
  · refine Node.climb linked (fun node hs outside => ?_) node hs
    obtain ⟨owner, id⟩ := node
    obtain rfl : owner = site.rewritten := hs
    change (site.graft before after).Surrounds (site.rewritten.node id).enclosing
      (move site.moving (site.rewritten.node id)).enclosing
    rw [move_rewritten]
    by_cases hr : id = site.receiver
    · subst hr
      have hp := site.parent_rewritten_receiver placed.toRooted
      have rest := outside _ hp
      have skipped : (script.node site.accessor).form.isPlain = true := by
        rw [site.accesses]
        rfl
      rw [move_rewritten] at rest
      rw [enclosing_of_parent linked hp,
        enclosing_of_parent placed.toLinked (site.parent_receiver placed.toRooted),
        enclosing_of_parent placed.toLinked (site.parent_accessor placed.toRooted)]
      exact .before plain (.after skipped (.after plain' rest))
    · rcases site.parents_of_ne placed hr with ⟨none, none'⟩ | ⟨parent, other, hp, hp'⟩
      · rw [enclosing_of_no_parent none, enclosing_of_no_parent none']
        exact .nil
      · have rest := outside _ hp'
        rw [move_rewritten] at rest
        rw [enclosing_of_parent placed.toLinked hp, enclosing_of_parent linked hp']
        by_cases invocation : parent = site.invocation
        · subst invocation
          exact .before plain (.after plain' rest)
        · have form := site.form_elsewhere invocation other
          have index : (script.node id).siblingIndex = (site.rewritten.node id).siblingIndex := by
            rw [Node.siblingIndex, Node.siblingIndex, hp, hp', Option.bind_some, Option.bind_some,
              form]
            rfl
          rw [← site.move_rewritten parent] at form
          rw [← site.move_rewritten id] at index
          have same : (site.graft before after).Surrounds _ ((move site.moving (site.rewritten.node id),
              move site.moving (site.rewritten.node parent)) :: _) := .same form.symm index rest
          rwa [move_rewritten, move_rewritten] at same
  · have still : ∀ above ∈ node :: node.ancestors, move site.moving above = above := by
      refine forall_mem_cons.mpr ⟨site.move_of_ne hs, fun above ha => site.move_of_ne ?_⟩
      exact script_of_mem_ancestors ha ▸ hs
    have links : ∀ link ∈ node.enclosing,
        move site.moving link.1 = link.1 ∧ move site.moving link.2 = link.2 := fun link hl =>
      ⟨still _ (of_mem_zip hl).1, still _ (mem_cons_of_mem _ (of_mem_zip hl).2)⟩
    have same : node.enclosing.map (move site.moving) = node.enclosing :=
      (map_congr_left fun link hl => Prod.ext (links link hl).1 (links link hl).2).trans (map_id _)
    have around : (site.graft before after).Surrounds node.enclosing
        (node.enclosing.map (move site.moving)) := .map fun link hl =>
      .inl ⟨congrArg Node.form (links link hl).2, congrArg Node.siblingIndex (links link hl).1⟩
    rw [site.move_of_ne hs]
    rwa [same] at around

variable {before after} (loads : ∀ importer path,
  after (site.original importer) path = (before importer path).map site.original)

theorem form_root : (site.rewritten.node script.root).form = (script.node script.root).form := by
  have whole := placed.isModule_root
  refine site.form_elsewhere (fun same => ?_) fun same => ?_
  · rw [Script.rootNode, same, site.invokes] at whole
    cases whole
  · rw [Script.rootNode, same, site.accesses] at whole
    cases whole

theorem declarations_moved (target : Script) :
    (site.original target).declarations = target.declarations.map (move site.moving) := by
  by_cases hs : target = site.rewritten
  · subst hs
    rw [original_rewritten]
    show (script.node script.root).form.children.map _ =
      ((site.rewritten.node script.root).form.children.map _).map (move site.moving)
    rw [site.form_root placed, map_map]
    exact map_congr_left fun id _ => (site.move_rewritten id).symm
  · rw [site.original_of_ne hs]
    have still : ∀ declaration ∈ target.declarations, move site.moving declaration = declaration :=
      fun declaration hd => site.move_of_ne (script_of_mem_children hd ▸ hs)
    rw [map_congr_left still, map_id']

include loads

theorem remodels : (site.graft before after).Remodels where
  visited _ := trivial
  allowed := rfl
  node _ := rfl
  form := site.form_moved_or_bare
  size _ := site.size_original
  declarations := site.declarations_moved placed
  imports := loads
  surrounds := site.surrounds placed before after

end Reading

/-! ### Nothing else changes -/

section Asking

variable {situation : Situation} {node : Node} {before after : Imports}

/-- A node that declares something is no part of the call. -/
theorem away_of_form (other : node.form.isBare = false ∨ node.form.isModule = true) :
    node.script = site.rewritten → node.id ≠ site.invocation ∧ node.id ≠ site.accessor := by
  intro hs
  obtain ⟨owner, id⟩ := node
  obtain rfl : owner = site.rewritten := hs
  exact (site.form_of_other rfl other).2

theorem settled_of_form (recorded : site.Recorded situation node)
    (other : node.form.isBare = false) : site.Settled situation node :=
  ⟨fun hs => (site.away_of_form (.inl other) hs).2, recorded⟩

variable (placed : script.Placed)

include placed

theorem opens_of_recorded (recorded : site.Recorded situation node)
    (away : node.script = site.rewritten → node.id ≠ site.invocation ∧ node.id ≠ site.accessor) :
    (site.graft before after).Opens situation node where
  form := site.form_moved away
  sibling _ _ := rfl
  asks _ hi := recorded.down placed (fun hs => (away hs).1) (mem_map_of_mem hi)

/-- Declarations of whole files may always be asked about. -/
theorem settled_declaration (situation : Situation) {target : Script}
    (hd : declaration ∈ target.declarations) : site.Settled situation declaration := by
  by_cases hs : target = site.rewritten
  · subst hs
    have whole : site.rewritten.rootNode.form.isModule = true := by
      show (site.rewritten.node script.root).form.isModule = true
      rw [site.form_root placed]
      exact placed.isModule_root
    exact (recorded_of_isModule placed whole).down placed
      (fun hs => (site.away_of_form (.inr whole) hs).1) hd
  · exact settled_of_script (script_of_mem_children hd ▸ hs)

/-- What a node around a name makes of it may be asked about. -/
theorem opensBinding_of_offers (remodels : (site.graft before after).Remodels) {scope : Node}
    (recorded : site.Recorded situation scope) (offers : scope.Offers before binding) :
    (site.graft before after).OpensBinding situation binding := by
  refine remodels.opensBinding offers (site.settled_of_form recorded)
    (fun settled context => ⟨settled, fun _ => context⟩) (fun row declaration inside => ?_)
    (fun _ _ hd => site.settled_declaration placed situation hd) fun settled other =>
      site.opens_of_recorded placed settled.recorded (site.away_of_form (.inl other))
  refine recorded.down placed (fun hs => (site.away_of_form ?_ hs).1) inside
  cases hf : scope.form with
  | module => exact .inr rfl
  | block => exact .inl rfl
  | _ =>
    rw [hf] at row
    cases row

/-- The nodes inside the invocation are its subject and what it takes. -/
theorem mem_taken_of_parent {id : NodeId} (hp : (site.rewritten.node id).parent =
    some (site.rewritten.node site.invocation)) : id = site.accessor ∨ id ∈ site.taken := by
  by_cases hr : id = site.receiver
  · exact .inr (hr ▸ mem_cons_self)
  rcases site.parents_of_ne placed hr with ⟨-, none⟩ | ⟨parent, -, above, above'⟩
  · rw [none] at hp
    cases hp
  · obtain rfl : parent = site.invocation :=
      congrArg Node.id (Option.some.inj (above'.symm.trans hp))
    obtain ⟨inner, hi, he⟩ := mem_map.mp (placed.mem_of_parent rfl above)
    obtain rfl : inner = id := congrArg Node.id he
    rw [site.invokes] at hi
    exact (mem_cons.mp hi).imp_right (mem_cons_of_mem _)

/-- Nothing is inside the subject. -/
theorem parent_ne_accessor {id parent : NodeId}
    (hp : (site.rewritten.node id).parent = some (site.rewritten.node parent)) :
    parent ≠ site.accessor := by
  by_cases hr : id = site.receiver
  · rw [hr, site.parent_rewritten_receiver placed.toRooted] at hp
    obtain rfl : site.invocation = parent := congrArg Node.id (Option.some.inj hp)
    exact site.accessor_ne_invocation.symm
  rcases site.parents_of_ne placed hr with ⟨-, none⟩ | ⟨above, other, -, above'⟩
  · rw [none] at hp
    cases hp
  · obtain rfl : above = parent := congrArg Node.id (Option.some.inj (above'.symm.trans hp))
    exact other

/-- A node other than the receiver is inside the same node. -/
theorem parent_moved (hr : node.script = site.rewritten → node.id ≠ site.receiver) :
    (move site.moving node).parent = node.parent.map (move site.moving) := by
  obtain ⟨owner, id⟩ := node
  by_cases hs : owner = site.rewritten
  · subst hs
    change (move site.moving (site.rewritten.node id)).parent =
      (site.rewritten.node id).parent.map (move site.moving)
    rw [move_rewritten]
    rcases site.parents_of_ne placed (hr rfl) with ⟨none, none'⟩ | ⟨parent, -, hp, hp'⟩
    · rw [none, none']
      rfl
    · rw [hp, hp', Option.map_some, move_rewritten]
  · rw [site.move_of_ne hs]
    cases hp : (Node.mk owner id).parent with
    | none => rfl
    | some parent =>
      have same : parent.script = owner := script_of_parent hp
      rw [Option.map_some, site.move_of_ne (same ▸ hs)]

/-- An argument that takes its type from the call, and has none on record, is not asked about:
what is around a node that is asked about is not the call. -/
theorem away_of_parent {parent : Node} (settled : site.Settled situation node)
    (known : node.script = site.rewritten → node.id ∈ site.taken → False)
    (hp : node.parent = some parent) : parent.script = site.rewritten →
      parent.id ≠ site.invocation ∧ parent.id ≠ site.accessor := by
  intro hs
  obtain ⟨owner, id⟩ := node
  obtain ⟨_, above⟩ := parent
  obtain rfl : _ = site.rewritten := hs
  obtain rfl : site.rewritten = owner := script_of_parent hp
  refine ⟨?_, site.parent_ne_accessor placed hp⟩
  rintro rfl
  rcases site.mem_taken_of_parent placed hp with subject | argument
  · exact settled.other rfl subject
  · exact known rfl argument

/-- What is in parentheses takes its type from the same place. -/
theorem needsContext_of_parent {parent : Node} {inner : NodeId}
    (away : parent.id ≠ site.invocation ∧ parent.id ≠ site.accessor)
    (hs : node.script = site.rewritten) (hp : node.parent = some parent)
    (hf : parent.form = .parenthesized inner) : parent.needsContext = node.needsContext := by
  obtain ⟨owner, id⟩ := node
  obtain rfl : owner = site.rewritten := hs
  obtain ⟨_, above⟩ := parent
  obtain rfl : _ = site.rewritten := script_of_parent hp
  have form := site.form_elsewhere away.1 away.2
  have hr : id ≠ site.receiver := by
    rintro rfl
    have inside := (site.parent_rewritten_receiver placed.toRooted).symm.trans hp
    exact away.1 (congrArg Node.id (Option.some.inj inside)).symm
  rcases site.parents_of_ne placed hr with ⟨-, none⟩ | ⟨parent, -, hm, hm'⟩
  · cases none.symm.trans hp
  · obtain rfl : parent = above := congrArg Node.id (Option.some.inj (hm'.symm.trans hp))
    obtain ⟨child, hi, he⟩ := mem_map.mp (placed.mem_of_parent rfl hm)
    obtain rfl : child = id := congrArg Node.id he
    rw [← form] at hi
    change child ∈ Form.children (Node.form ⟨site.rewritten, parent⟩) at hi
    rw [hf] at hi
    obtain rfl := mem_singleton.mp hi
    exact needsContext_parenthesized (site.linked_rewritten placed.toRooted) hf

end Asking

section Faithfulness

variable (placed : script.Placed) {before after : Imports} (loads : ∀ importer path,
  after (site.original importer) path = (before importer path).map site.original)

include placed

/-- A parameter belongs to a literal that can be asked about, or to none at all. -/
theorem param_moved {node : Node} (settled : site.Settled situation node) :
    (∃ holder, node.parent = some holder ∧
        (move site.moving node).parent = some (move site.moving holder) ∧
        site.Settled situation holder ∧ (site.graft before after).Opens situation holder) ∨
      (∀ holder ∈ node.parent, holder.literalParams? = none) ∧
        ∀ holder ∈ (move site.moving node).parent, holder.literalParams? = none := by
  by_cases taken : node.script = site.rewritten ∧ node.id ∈ site.taken
  · obtain ⟨owner, id⟩ := node
    obtain ⟨rfl, hi⟩ := taken
    have above := site.parent_of_mem_taken placed.toRooted hi
    refine .inr ⟨fun holder hh => ?_, fun holder hh => ?_⟩
    · obtain rfl := Option.some.inj (above.symm.trans hh)
      rw [Node.literalParams?, form_invocation]
    · change (move site.moving (site.rewritten.node id)).parent = some holder at hh
      rw [move_rewritten] at hh
      rcases mem_cons.mp hi with rfl | hi
      · obtain rfl := Option.some.inj ((site.parent_receiver placed.toRooted).symm.trans hh)
        rw [Node.literalParams?, site.accesses]
      · obtain rfl := Option.some.inj ((site.parent_of_argument placed.toRooted hi).symm.trans hh)
        rw [Node.literalParams?, site.invokes]
  · have moved := site.parent_moved placed fun hs hi => taken ⟨hs, hi ▸ mem_cons_self⟩
    cases hp : node.parent with
    | none =>
      rw [hp] at moved
      rw [moved]
      refine .inr ⟨fun holder hh => ?_, fun holder hh => ?_⟩ <;> cases hh
    | some holder =>
      have away := site.away_of_parent placed settled (fun hs hi => taken ⟨hs, hi⟩) hp
      have recorded := settled.recorded.up placed hp
      rw [hp] at moved
      exact .inl ⟨holder, rfl, moved, ⟨fun hs => (away hs).2, recorded⟩,
        site.opens_of_recorded placed recorded away⟩

include loads

theorem faithful : (site.graft before after).Faithful where
  lower _ := (site.remodels placed loads).lower _
  asTypeParameter _ := (site.remodels placed loads).asTypeParameter _
  id _ := rfl
  typeNames := (site.remodels placed loads).typeNames
  valueNames {_ node name} settled _ := by
    have remodels := site.remodels placed loads
    refine ⟨fun binding found => ?_, (remodels.resolveIn node name .value).moved⟩
    obtain ⟨scope, ha, offers⟩ := exists_offers_of_resolveIn found
    exact site.opensBinding_of_offers placed remodels (settled.recorded.ancestor placed scope ha)
      offers
  opens {situation node} settled := by
    by_cases call : node.script = site.rewritten ∧ node.id = site.invocation
    · obtain ⟨owner, id⟩ := node
      obtain ⟨rfl, rfl⟩ := call
      have moved := site.move_rewritten site.invocation
      refine .inr ⟨?_, ?_⟩
      · rw [show (Node.mk site.rewritten site.invocation).form = _ from site.form_invocation]
        rfl
      · change (move site.moving (site.rewritten.node site.invocation)).form.isOperand = true
        rw [moved, site.invokes]
        rfl
    · exact .inl (site.opens_of_recorded placed settled.recorded
        fun hs => ⟨fun hi => call ⟨hs, hi⟩, settled.other hs⟩)
  visited_of_asked _ := trivial
  asked_expecting other type settled := settled.expecting other type
  needsContext _ := (site.remodels placed loads).keepsForms.needsContext trivial site.size_original
  awaits settled context := ⟨settled, fun _ => context⟩
  visited_of_awaited _ := trivial
  parent {situation node} awaited unrecorded := by
    refine site.parent_moved placed fun hs hi => ?_
    have known := awaited.1.recorded node mem_cons_self hs (hi ▸ mem_cons_self) (awaited.2 hs)
    rw [unrecorded] at known
    cases known
  around {situation node parent} awaited unrecorded hp := by
    have away := site.away_of_parent placed awaited.1 (fun hs hi => by
      have known := awaited.1.recorded node mem_cons_self hs hi (awaited.2 hs)
      rw [unrecorded] at known
      cases known) hp
    have recorded := awaited.1.recorded.up placed hp
    refine .inl ⟨site.opens_of_recorded placed recorded away, fun inner hf => ?_⟩
    refine ⟨⟨fun hs => (away hs).2, recorded⟩, fun hs => ?_⟩
    have same : node.script = site.rewritten := (script_of_parent hp).symm.trans hs
    rw [site.needsContext_of_parent placed (away hs) same hp hf]
    exact awaited.2 same
  param settled _ := site.param_moved placed settled
  this _ _ := (site.remodels placed loads).enclosingStore? _
  stores {declaration} situation store := by
    have store : declaration.form.isStore = true := store
    have other : declaration.form.isBare = false := by
      by_contra bare
      rw [Form.isStore_of_bare (Bool.of_not_eq_false bare)] at store
      cases store
    exact site.opens_of_recorded placed (recorded_of_isStore placed store)
      (site.away_of_form (.inl other))
  declaredStores {situation declaration _ _ _} _ hf := by
    show declaration.form.isStore = true
    rw [hf]
    rfl
  recorded node together := Transplant.recorded together.expectations together.written node
  expecting {situation situation'} node type together written := by
    refine ⟨?_, forall_mem_cons.mpr ⟨written, together.written⟩, together.busy, together.calling⟩
    simp only [Situation.expecting, together.expectations]
    rfl
  imports {node} path _ := ⟨loads node.script path, fun target _ =>
    ⟨site.declarations_moved placed target,
      fun _ hd situation => site.settled_declaration placed situation hd⟩⟩

end Faithfulness

end Script.MethodSite

end ScriptCheck
