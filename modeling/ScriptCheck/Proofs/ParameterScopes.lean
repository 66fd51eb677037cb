import ScriptCheck.Proofs.FreeInference
import ScriptCheck.Proofs.Unfolding

/-!
# Type parameters in scope

A type parameter is recognised in two ways, when a type expression is read and when its name is
looked up. Both go outward from the name, each with its own list of the forms that declare type
parameters, and both stop at the same declaration with the same type.
A name that is no type parameter stays a reference, and the search for it comes to the top level.
-/

namespace ScriptCheck

open List Option Node

/-- The forms that declare type parameters for what is inside them, with these. -/
inductive Form.Binds : Form → List NodeId → Prop where
  | func {typeParams params : List NodeId} {result : Option NodeId} {body : NodeId} :
    Binds (.func typeParams params result body) typeParams
  | proc {typeParams params : List NodeId} {body : NodeId} :
    Binds (.proc typeParams params body) typeParams
  | alias {name : String} {typeParams : List NodeId} {value : NodeId} {nominal exported : Bool} :
    Binds (.typeDeclaration name typeParams value nominal exported) typeParams
  | funcType {typeParams params : List NodeId} {result : NodeId} :
    Binds (.funcType typeParams params result) typeParams
  | procType {typeParams params : List NodeId} : Binds (.procType typeParams params) typeParams

/-- Lowering knows every form that declares type parameters. -/
theorem Form.Binds.typeParams {form : Form} (binds : form.Binds ids) : form.typeParams = ids := by
  cases binds <;> rfl

/-- Lowering takes no other form to declare type parameters. -/
theorem Form.binds_of_typeParams {form : Form} (declares : form.typeParams ≠ []) :
    form.Binds form.typeParams := by
  cases form with
  | func => exact .func
  | proc => exact .proc
  | typeDeclaration => exact .alias
  | funcType => exact .funcType
  | procType => exact .procType
  | _ => exact absurd rfl declares

namespace Node

/-- The type parameter that lowering finds in a scope is the first one of the name among those that
the scope declares. -/
theorem ownTypeParam?_eq_some_iff {scope param : Node} :
    scope.ownTypeParam? name = some param ↔
      ∃ ids, scope.form.Binds ids ∧ scope.typeParamNamed? ids name = some param := by
  rw [ownTypeParam?, ← typeParamNamed?_eq_find?]
  constructor
  · intro own
    refine ⟨_, Form.binds_of_typeParams fun none => ?_, own⟩
    rw [none] at own
    cases own
  · rintro ⟨ids, binds, named⟩
    rwa [binds.typeParams]

/-- The search for a name stops at the innermost node around it that makes something of it. -/
inductive StopsAt (imports : Imports) (name : String) (space : Namespace) :
    Node → Node → Lookup → Prop where
  | here {node scope : Node} {found : Lookup} (hp : node.parent = some scope)
    (answers : (scope.scopeLookup? node name space).answer imports = some found) :
    StopsAt imports name space node scope found
  | further {node parent scope : Node} {found : Lookup} (hp : node.parent = some parent)
    (silent : (parent.scopeLookup? node name space).answer imports = none)
    (outside : StopsAt imports name space parent scope found) :
    StopsAt imports name space node scope found

section Searching

variable {imports : Imports} {name : String} {space : Namespace} {script : Script}
  {node scope other param : Node} {found lookup : Lookup}

theorem StopsAt.unique (stops : StopsAt imports name space node scope found)
    (also : StopsAt imports name space node other lookup) : scope = other ∧ found = lookup := by
  induction stops with
  | here hp answers =>
    cases also with
    | here hp' answers' =>
      cases hp.symm.trans hp'
      exact ⟨rfl, Option.some.inj (answers.symm.trans answers')⟩
    | further hp' silent _ =>
      cases hp.symm.trans hp'
      cases answers.symm.trans silent
  | further hp silent _ ih =>
    cases also with
    | here hp' answers =>
      cases hp.symm.trans hp'
      cases silent.symm.trans answers
    | further hp' _ outside =>
      cases hp.symm.trans hp'
      exact ih outside

/-- Where the search stops, the name is what it is found to be. -/
theorem StopsAt.resolveIn (stops : StopsAt imports name space node scope found)
    (linked : node.script.Linked) : (node.resolveIn name space).answer imports = found := by
  induction stops with
  | here hp answers => rw [resolveIn_of_parent linked hp, answers, getD_some]
  | further hp silent _ ih =>
    rw [resolveIn_of_parent linked hp, silent, getD_none]
    exact ih (script_of_parent hp ▸ linked)

/-- A name is unknown if the search for it stops nowhere. -/
theorem resolveIn_of_not_stops (linked : script.Linked) (hs : node.script = script)
    (nowhere : ∀ scope found, ¬ StopsAt imports name space node scope found) :
    (node.resolveIn name space).answer imports = .error .unknownName := by
  revert nowhere
  refine climb linked (fun node hs outside nowhere => ?_) node hs
  cases hp : node.parent with
  | none => exact resolveIn_of_no_parent hp
  | some parent =>
    cases ha : (parent.scopeLookup? node name space).answer imports with
    | some found => exact absurd (.here hp ha) (nowhere parent found)
    | none =>
      rw [resolveIn_of_parent (hs ▸ linked) hp, ha, getD_none]
      exact outside parent hp fun scope found stops => nowhere scope found (.further hp ha stops)

end Searching

section Parameters

variable {imports : Imports} {name : String} {script : Script} {node scope param : Node}
  {found : Lookup} (rooted : script.Rooted) (hs : node.script = script)
include rooted hs

/-- The search for the name of a type parameter in scope stops where the parameter is declared. -/
theorem stopsAt_of_typeParamInScope (inScope : node.typeParamInScope? name = some param) :
    ∃ scope, StopsAt imports name .type node scope (.ok (.type param.asTypeParameter [])) ∧
      scope.ownTypeParam? name = some param := by
  revert inScope
  refine climb rooted.toLinked (fun node hs outside inScope => ?_) node hs
  cases hp : node.parent with
  | none =>
    rw [typeParamInScope?, ancestors_of_no_parent hp] at inScope
    cases inScope
  | some parent =>
    have hl := (script_of_parent hp).trans hs
    rw [typeParamInScope?_of_parent (hs ▸ rooted.toLinked) hp] at inScope
    have inner : parent.form.isModule = false := by
      rw [Bool.eq_false_iff]
      intro whole
      rw [typeParamInScope?, ancestors_of_no_parent (parent_of_isModule rooted hl whole),
        ownTypeParam?] at inScope
      cases hf : parent.form with
      | module =>
        rw [hf] at inScope
        cases inScope
      | _ => simp [hf, Form.isModule] at whole
    have lookup : (parent.scopeLookup? node name .type).answer imports =
        (parent.ownTypeParam? name).map fun param => .ok (.type param.asTypeParameter []) := by
      rw [scopeLookup?_type_of_inner inner, Inquiry.answer_pure]
    cases own : parent.ownTypeParam? name with
    | some declared =>
      rw [own] at inScope lookup
      cases inScope
      exact ⟨parent, .here hp lookup, own⟩
    | none =>
      rw [own] at inScope lookup
      obtain ⟨scope, stops, declares⟩ := outside parent hp inScope
      exact ⟨scope, .further hp lookup stops, declares⟩

/-- The search for a name that is no type parameter stops at the top level only. -/
theorem eq_root_of_stopsAt (free : node.typeParamInScope? name = none)
    (stops : StopsAt imports name .type node scope found) : scope = script.rootNode := by
  induction stops with
  | @here node scope found hp answers =>
    rw [typeParamInScope?_of_parent (hs ▸ rooted.toLinked) hp] at free
    have hl := (script_of_parent hp).trans hs
    cases whole : scope.form.isModule with
    | false =>
      rw [scopeLookup?_type_of_inner whole, Inquiry.answer_pure,
        (or_eq_none_iff.mp free).1] at answers
      cases answers
    | true =>
      by_cases known : scope.id < script.size
      · obtain ⟨_, id⟩ := scope
        obtain rfl : _ = script := hl
        exact congrArg (Node.mk _) (rooted.eq_root rfl known whole)
      · unfold scopeLookup? at answers
        rw [form_of_size_le (hl ▸ Nat.le_of_not_lt known)] at answers
        cases answers
  | further hp _ _ ih =>
    rw [typeParamInScope?_of_parent (hs ▸ rooted.toLinked) hp] at free
    exact ih ((script_of_parent hp).trans hs) (or_eq_none_iff.mp free).2

end Parameters

section Lowering

variable {lower other : List Node → Node → Ty} {busy : List Node} {node : Node}

/-- The children of a node come before it. -/
theorem lt_of_mem_children (linked : node.script.Linked) {id : NodeId}
    (hi : id ∈ node.form.children) : id < node.id :=
  @Script.Linked.id_lt_parent _ linked (node.sibling id) _ rfl
    (linked.parent_of_mem rfl (mem_map_of_mem hi))

/-- The type of a type expression depends on what comes before it, and on the bounds of type
parameters that are not being read. -/
theorem lowerStep_congr (linked : node.script.Linked)
    (below : ∀ id < node.id, lower busy (node.sibling id) = other busy (node.sibling id))
    (bounds : ∀ param : Node, param.script = node.script → busy.contains param = false →
      ∀ id ∈ param.form.children,
        lower (param :: busy) (param.sibling id) = other (param :: busy) (param.sibling id)) :
    lowerStep lower busy node = lowerStep other busy node := by
  -- nothing moves where nothing changes
  have stands (busy : List Node) (node : Node) (same : lower busy node = other busy node) :
      (Recast.standing .isolated).graft.Agree other lower busy node :=
    (congrArg (lower · node) (map_standing fun _ _ => rfl)).trans
      (same.trans (Ty.move_standing _).symm)
  have deeper {outer id : NodeId} (ho : outer ∈ node.form.children)
      (hi : id ∈ (node.sibling outer).form.children) : id < node.id :=
    (@lt_of_mem_children (node.sibling outer) linked id hi).trans (lt_of_mem_children linked ho)
  have alike := (Recast.remodels (.standing .isolated)).rereads.lowerStep trivial
    (fun id hi => stands busy _ (below id (lt_of_mem_children linked hi)))
    (fun _ ho id hi => stands busy _ (below id (deeper ho hi)))
    fun param _ hs idle id hi => stands _ _ (bounds param hs idle id hi)
  exact (congrArg (lowerStep lower · node) (map_standing fun _ _ => rfl)).symm.trans
    (alike.trans (Ty.move_standing _))

/-- How many nodes of a script are not among the given ones. -/
def spare (script : Script) (busy : List Node) : Nat :=
  (((List.range script.size).map script.node).filter fun node => !busy.contains node).length

/-- Reading a type expression goes down in the tree, or to the bound of a type parameter that is
not being read, so that from some limit on nothing changes. -/
theorem lowerWithin_succ (linked : node.script.Linked)
    (enough : spare node.script busy * (node.script.size + 1) + node.id < limit) :
    lowerWithin (limit + 1) busy node = lowerWithin limit busy node := by
  induction limit generalizing busy node with
  | zero => exact absurd enough (Nat.not_lt_zero _)
  | succ limit ih =>
    have full := Nat.le_of_lt_succ enough
    refine lowerStep_congr linked (fun id hi => ?_) fun param hs idle id hi => ?_
    · exact @ih _ (node.sibling id) linked ((Nat.add_lt_add_left hi _).trans_le full)
    · obtain ⟨_, param⟩ := param
      obtain rfl : _ = node.script := hs
      have known : param < node.script.size :=
        @id_lt_of_mem_children ⟨node.script, param⟩ _ (mem_map_of_mem hi)
      have before : id < param := @lt_of_mem_children ⟨node.script, param⟩ linked id hi
      have last : id < node.script.size + 1 := before.trans (known.trans (Nat.lt_succ_self _))
      refine @ih _ (node.sibling id) linked (Nat.lt_of_lt_of_le ?_ full)
      calc spare node.script (node.script.node param :: busy) * (node.script.size + 1) + id
          < spare node.script (node.script.node param :: busy) * (node.script.size + 1) +
              (node.script.size + 1) := Nat.add_lt_add_left last _
        _ = (spare node.script (node.script.node param :: busy) + 1) *
              (node.script.size + 1) := (Nat.succ_mul _ _).symm
        _ ≤ spare node.script busy * (node.script.size + 1) :=
              Nat.mul_le_mul_right _ (length_idle_lt
                (mem_map_of_mem (mem_range.mpr known)) idle)
        _ ≤ _ := Nat.le_add_right _ node.id

/-- The limit of lowering is beyond what any type expression needs. -/
theorem lower_eq (linked : node.script.Linked) (known : node.id < node.script.size) :
    node.lower = lowerStep (lowerWithin node.loweringLimit) [] node := by
  refine (lowerWithin_succ linked ?_).symm
  have most : spare node.script [] ≤ node.script.size :=
    (length_filter_le _ _).trans_eq (length_map _ |>.trans length_range)
  calc spare node.script [] * (node.script.size + 1) + node.id
      < spare node.script [] * (node.script.size + 1) + (node.script.size + 1) :=
        Nat.add_lt_add_left (known.trans (Nat.lt_succ_self _)) _
    _ = (spare node.script [] + 1) * (node.script.size + 1) := (Nat.succ_mul _ _).symm
    _ ≤ node.loweringLimit := Nat.mul_le_mul_right _ (Nat.succ_le_succ most)

end Lowering

end Node

/-- The name of a type is read as it is found. It is read as a type parameter if and only if the
search for it stops at a node that declares type parameters, with that parameter the first one of
the name among them, and then the type that is read is the type that is found. Otherwise it is read
as a reference, and the search from there stops at the top level or nowhere. -/
theorem Script.typeName_read_as_found {path : FilePath} {source : String} {script : Script}
    (read : parse path source = .ok script) (imports : Imports) {node : Node}
    (hs : node.script = script) {name : String} {args : List NodeId}
    (hf : node.form = .namedType name args) :
    (∀ param, node.typeParamInScope? name = some param ↔
      ∃ scope found ids, Node.StopsAt imports name .type node scope found ∧
        scope.form.Binds ids ∧ scope.typeParamNamed? ids name = some param) ∧
    ((node.typeParamInScope? name).isSome = true →
      (node.resolveIn name .type).answer imports = .ok (.type node.lower [])) ∧
    (node.typeParamInScope? name = none →
      node.lower = .named name (args.map fun id => (node.sibling id).lower) node ∧
      ((∃ found, Node.StopsAt imports name .type node script.rootNode found ∧
          (node.resolveIn name .type).answer imports = found) ∨
        (∀ scope found, ¬ Node.StopsAt imports name .type node scope found) ∧
          (node.resolveIn name .type).answer imports = .error .unknownName)) := by
  have rooted := rooted_of_parse read
  have linked : node.script.Linked := hs ▸ rooted.toLinked
  have known : node.id < node.script.size := by
    by_contra outside
    rw [form_of_size_le (Nat.le_of_not_lt outside)] at hf
    cases hf
  have lowered := lower_eq linked known
  unfold Node.lowerStep at lowered
  simp only [hf] at lowered
  refine ⟨fun param => ⟨fun inScope => ?_, ?_⟩, fun inScope => ?_, fun free => ?_⟩
  · obtain ⟨scope, stops, own⟩ := stopsAt_of_typeParamInScope rooted hs inScope
    obtain ⟨ids, binds, named⟩ := ownTypeParam?_eq_some_iff.mp own
    exact ⟨scope, _, ids, stops, binds, named⟩
  · rintro ⟨scope, found, ids, stops, binds, named⟩
    cases inScope : node.typeParamInScope? name with
    | none =>
      -- the root declares no type parameters
      obtain rfl := eq_root_of_stopsAt rooted hs inScope stops
      have whole := rooted.isModule_root
      generalize script.rootNode.form = form at binds whole
      cases binds <;> cases whole
    | some declared =>
      obtain ⟨other, also, declares⟩ := stopsAt_of_typeParamInScope rooted hs inScope
      obtain ⟨rfl, -⟩ := stops.unique also
      exact declares.symm.trans (ownTypeParam?_eq_some_iff.mpr ⟨ids, binds, named⟩)
  · obtain ⟨param, found⟩ := isSome_iff_exists.mp inScope
    obtain ⟨scope, stops, -⟩ := stopsAt_of_typeParamInScope rooted hs found
    rw [found] at lowered
    have same : param.loweringLimit = node.loweringLimit := by
      rw [Node.loweringLimit, Node.loweringLimit, script_of_typeParamInScope found]
    rw [stops.resolveIn linked, lowered, Node.asTypeParameter, same]
  · rw [free] at lowered
    refine ⟨lowered, ?_⟩
    by_cases stops : ∃ scope found, Node.StopsAt imports name .type node scope found
    · obtain ⟨scope, found, stops⟩ := stops
      obtain rfl := eq_root_of_stopsAt rooted hs free stops
      exact .inl ⟨found, stops, stops.resolveIn linked⟩
    · have nowhere : ∀ scope found, ¬ Node.StopsAt imports name .type node scope found :=
        fun scope found here => stops ⟨scope, found, here⟩
      exact .inr ⟨nowhere, resolveIn_of_not_stops rooted.toLinked hs nowhere⟩

/-- A type parameter that occurs in its own bound, another one of the same name inside, and the name
of a type. -/
def shadowedParameter : Reading :=
  .first ⟨"/main.bgl"⟩ "type V = number\nfunc f<T extends T[]>(x: T) => <T>(y: T, w: V) => y"

theorem shadowedParameter_read_as_found :
    let script := shadowedParameter.script
    (∃ scope found ids, Node.StopsAt Imports.isolated "T" .type (script.node 8) scope found ∧
        scope.form.Binds ids ∧ scope.typeParamNamed? ids "T" = some (script.node 7)) ∧
      ((script.node 2).resolveIn "T" .type).answer Imports.isolated =
        .ok (.type (script.node 2).lower []) ∧
      (script.node 10).lower = .named "V" [] (script.node 10) := by
  obtain ⟨faultless, bound, inner, global, shadows, own, free⟩ :
      shadowedParameter.fault.isNone = true ∧
      (shadowedParameter.script.node 2).form = .namedType "T" [] ∧
      (shadowedParameter.script.node 8).form = .namedType "T" [] ∧
      (shadowedParameter.script.node 10).form = .namedType "V" [] ∧
      ((shadowedParameter.script.node 8).typeParamInScope? "T").map Node.id = some 7 ∧
      ((shadowedParameter.script.node 2).typeParamInScope? "T").isSome = true ∧
      ((shadowedParameter.script.node 10).typeParamInScope? "V").isNone = true := by decide +kernel
  have read : ∃ path source, parse path source = .ok shadowedParameter.script :=
    ⟨_, _, Reading.parse_of_faultless faultless⟩
  -- the script is only evaluated above
  generalize shadowedParameter.script = script at bound inner global shadows own free read ⊢
  obtain ⟨path, source, read⟩ := read
  obtain ⟨param, inScope, named⟩ := map_eq_some_iff.mp shadows
  obtain rfl : param = script.node 7 := by
    obtain ⟨_, id⟩ := param
    obtain rfl : _ = script := script_of_typeParamInScope inScope
    exact congrArg (Node.mk _) named
  exact ⟨((Script.typeName_read_as_found read Imports.isolated rfl inner).1 _).mp inScope,
    (Script.typeName_read_as_found read Imports.isolated rfl bound).2.1 own,
    ((Script.typeName_read_as_found read Imports.isolated rfl global).2.2
      (isNone_iff_eq_none.mp free)).1⟩

end ScriptCheck
