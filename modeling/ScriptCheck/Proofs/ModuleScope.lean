import ScriptCheck.Proofs.RuleCourses
import ScriptCheck.Proofs.SymbolTable

/-!
# The names of a module

The names of a module are listed twice: by what its declarations bind, to find those that
are declared again, and by what a lookup at the top level comes to. If everything that is
imported exists, the two lists are the same, entry by entry. So a name that no inner scope
declares is found if it is bound at all, and it is what the first binder of it introduces.
-/

namespace ScriptCheck

open List

/-- The binding that a lookup came to, whether it is usable at the place of the lookup or not. -/
def Lookup.binding? : Lookup → Option Binding
  | .ok binding => some binding
  | .error (.usedTooEarly binding) => some binding
  | .error (.usedInOwnValue binding) => some binding
  | .error _ => none

namespace Binder

/-- What the node of a binder makes of its name: an imported name is what the other module
exports, an imported module is itself, and a declaration is what it declares. -/
inductive Introduces (imports : Imports) (binder : Binder) : Binding → Prop
  | item {importing : Node} {path imported : String} {items : List NodeId}
      {localName : Option String} {target : Script} {binding : Binding} :
      binder.node.parent = some importing → importing.form = .importNames path items →
      binder.node.form = .importItem imported localName →
      imports importing.script path = some target →
      target.export? imported binder.space = some binding → Introduces imports binder binding
  | all {path localName : String} : binder.node.form = .importAll path localName →
      Introduces imports binder (.importedModule binder.node)
  | declaration {binding : Binding} :
      binder.node.declares? binder.name binder.space = some binding → Introduces imports binder binding

/-- A node binds a name of a kind that is bound before. -/
def Repeats (binders : List Binder) (node : Node) (name : String) : Prop :=
  ∃ before binder after, binders = before ++ binder :: after ∧ binder.node = node ∧
    binder.name = name ∧ ∃ earlier ∈ before, earlier.name = name ∧ earlier.space = binder.space

/-- The repeated binders are those that come after another binder of their name. -/
theorem mem_repeated :
    binder ∈ repeated binders ↔ ∃ before after, binders = before ++ binder :: after ∧
      ∃ earlier ∈ before, earlier.name = binder.name ∧ earlier.space = binder.space := by
  have clash : ∀ taken : List Binder, taken.any binder.clashes = true ↔
      ∃ earlier ∈ taken, earlier.name = binder.name ∧ earlier.space = binder.space := by
    intro taken
    simp only [any_eq_true, clashes, Bool.and_eq_true, beq_iff_eq]
    exact exists_congr fun _ => and_congr_right fun _ => and_congr eq_comm eq_comm
  rw [repeated, mem_filterMap]
  constructor
  · rintro ⟨⟨found, index⟩, hi, hs⟩
    dsimp only at hs
    split at hs
    · next again =>
      cases hs
      have hget : binders[index]? = some binder := List.mem_zipIdx_iff_getElem?.mp hi
      obtain ⟨hl, rfl⟩ := List.getElem?_eq_some_iff.mp hget
      refine ⟨binders.take index, binders.drop (index + 1), ?_, (clash _).mp again⟩
      rw [List.getElem_cons_drop, List.take_append_drop]
    · cases hs
  · rintro ⟨before, after, rfl, earlier⟩
    refine ⟨(binder, before.length), List.mem_zipIdx_iff_getElem?.mpr (by simp), ?_⟩
    simp only [List.take_left', (clash before).mpr earlier, if_true]

section OncePerNode

variable {script : Script} {binders : List Binder}

/-- Nodes of one script are told apart by comparison. -/
theorem node_beq {left right : Node} (hl : left.script = script) (hr : right.script = script) :
    (left == right) = true ↔ left = right := by
  obtain ⟨_, leftId⟩ := left
  obtain ⟨_, rightId⟩ := right
  obtain rfl : _ = script := hl
  obtain rfl : _ = _ := hr
  show (leftId == rightId && _) = true ↔ _
  simp

/-- Going through binders, a binder is added unless one of its node is there: no node is
there twice, and all nodes are there. -/
theorem oncePerNode_step (rest kept : List Binder)
    (own : ∀ binder ∈ kept ++ rest, binder.node.script = script) (once : (kept.map node).Nodup) :
    let found := rest.foldl (fun kept binder =>
      if kept.any (·.node == binder.node) then kept else kept ++ [binder]) kept
    (found.map node).Nodup ∧ (∀ binder ∈ found, binder ∈ kept ++ rest) ∧
      ∀ binder ∈ kept ++ rest, binder.node ∈ found.map node := by
  induction rest generalizing kept with
  | nil =>
    rw [append_nil]
    exact ⟨once, fun _ hb => hb, fun _ hb => mem_map_of_mem hb⟩
  | cons binder rest ih =>
    have there : kept.any (·.node == binder.node) = true ↔ binder.node ∈ kept.map node := by
      rw [any_eq_true, mem_map]
      exact exists_congr fun other => and_congr_right fun hk =>
        node_beq (own other (by simp [hk])) (own binder (by simp))
    rw [foldl_cons]
    split
    · next again =>
      obtain ⟨nodup, sub, all⟩ := ih kept (fun other ho => own other (by grind)) once
      refine ⟨nodup, fun other ho => by grind, fun other ho => ?_⟩
      rcases mem_append.mp ho with hk | hr
      · exact all other (by simp [hk])
      rcases mem_cons.mp hr with rfl | hr
      · obtain ⟨same, hk, hn⟩ := mem_map.mp (there.mp again)
        exact hn ▸ all same (by simp [hk])
      · exact all other (by simp [hr])
    · next fresh =>
      have step := ih (kept ++ [binder]) (fun other ho => own other (by simpa using ho)) (by
        rw [map_append, nodup_append]
        refine ⟨once, nodup_singleton _, fun left hl right hr same => ?_⟩
        rw [map_singleton, mem_singleton] at hr
        exact fresh (there.mpr (hr ▸ same ▸ hl)))
      simpa only [append_assoc, singleton_append] using step

/-- Among binders of one script, each node that repeats a name is reported once and no other
node is; it is reported for a name that it repeats. -/
theorem duplicates_nodes (own : ∀ binder ∈ binders, binder.node.script = script) :
    ((duplicates binders).map Problem.node).Nodup ∧
      (∀ problem ∈ duplicates binders, ∃ name, Repeats binders problem.node name ∧
        problem.fault = .alreadyDeclared name) ∧
      ∀ node name, Repeats binders node name → node ∈ (duplicates binders).map Problem.node := by
  have owned : ∀ binder ∈ [] ++ repeated binders, binder.node.script = script := by
    intro binder hb
    obtain ⟨before, after, rfl, -⟩ := mem_repeated.mp hb
    exact own binder (by simp)
  obtain ⟨nodup, sub, all⟩ := oncePerNode_step (repeated binders) [] owned nodup_nil
  have nodes : (duplicates binders).map Problem.node = (oncePerNode (repeated binders)).map node := by
    rw [duplicates, map_map]
    rfl
  refine ⟨nodes ▸ nodup, fun problem hp => ?_, fun node name again => ?_⟩
  · obtain ⟨binder, hb, rfl⟩ := mem_map.mp hp
    obtain ⟨before, after, he, earlier⟩ := mem_repeated.mp (sub binder hb)
    exact ⟨binder.name, ⟨before, binder, after, he, rfl, rfl, earlier⟩, rfl⟩
  · obtain ⟨before, binder, after, he, rfl, rfl, earlier⟩ := again
    exact nodes ▸ all binder (mem_repeated.mpr ⟨before, after, he, earlier⟩)

end OncePerNode

end Binder

/-- A listing is the listing of what a binder binds. -/
def Listing.Matches (imports : Imports) (listing : Listing) (binder : Binder) : Prop :=
  listing.name = binder.name ∧ listing.space = binder.space ∧
    ∃ binding, Lookup.binding? listing.found = some binding ∧ binder.Introduces imports binding

/-- In a table and binders that match, the first listing of a name is that of its first binder. -/
theorem SymbolTable.find?_of_matches {table : SymbolTable}
    (same : Forall₂ (Listing.Matches imports) table binders) (name : String) (space : Namespace) :
    Option.Rel (fun found binder => ∃ binding, Lookup.binding? found = some binding ∧
        binder.Introduces imports binding)
      (table.find? name space) (binders.find? fun binder => binder.name == name && binder.space == space) := by
  induction same with
  | nil => exact .none
  | @cons listing binder _ _ first _ ih =>
    obtain ⟨hn, hs, found⟩ := first
    rw [find?_cons, List.find?_cons, hn, hs]
    by_cases named : binder.name = name ∧ binder.space = space
    · simp only [named, and_self, if_true, beq_self_eq_true, Bool.and_self]
      exact .some found
    · have other : (binder.name == name && binder.space == space) = false := by simpa using named
      rw [if_neg named, other]
      exact ih

/-- Lists that match piece by piece match. -/
theorem forall₂_flatMap {related : β → γ → Prop} {rows : List α} {left : α → List β}
    {right : α → List γ} (each : ∀ row ∈ rows, Forall₂ related (left row) (right row)) :
    Forall₂ related (rows.flatMap left) (rows.flatMap right) := by
  induction rows with
  | nil => exact .nil
  | cons row rows ih =>
    exact rel_append (each row mem_cons_self) (ih fun row hr => each row (mem_cons_of_mem _ hr))

namespace Node

/-- Everything that a declaration imports exists: its module, and each name of it, as a value
or as a type. -/
def importsFound (imports : Imports) (declaration : Node) : Bool :=
  match declaration.form with
  | .importNames path items => (imports declaration.script path).any fun target =>
    items.all fun id =>
      match (declaration.sibling id).form with
      | .importItem imported _ =>
        (target.export? imported .value).isSome || (target.export? imported .type).isSome
      | _ => true
  | .importAll path _ => (imports declaration.script path).isSome
  | _ => true

variable {imports : Imports} {declaration item : Node}

/-- An imported name is listed as what is bound. -/
theorem importListings_match (hp : item.parent = some declaration)
    (hd : declaration.form = .importNames path items)
    (hi : item.form = .importItem imported localName)
    (ht : imports declaration.script path = some target)
    (found : ((target.export? imported .value).isSome || (target.export? imported .type).isSome) = true)
    :
    Forall₂ (Listing.Matches imports)
      (declaration.importListings imports path imported (localName.getD imported))
      (importBinders (some target) item) := by
  have one : ∀ {space binding}, target.export? imported space = some binding →
      Listing.Matches imports ⟨localName.getD imported, space, .ok binding⟩
        ⟨localName.getD imported, space, item⟩ :=
    fun {_ binding} he => ⟨rfl, rfl, binding, rfl, .item hp hd hi ht he⟩
  rw [importListings, importBinders, ht, hi]
  simp only [Script.find?_exportListings, exportedSpaces, filter_cons, filter_nil, Option.any_some]
  cases hv : target.export? imported .value with
  | none =>
    cases hk : target.export? imported .type with
    | none => simp [hv, hk] at found
    | some type => simpa using one hk
  | some value =>
    cases hk : target.export? imported .type with
    | none => simpa using one hv
    | some type => simpa using ⟨one hv, one hk⟩

/-- What a declaration of a module makes visible is what it binds. -/
theorem topListings_match (rooted : declaration.script.Rooted)
    (found : declaration.importsFound imports = true) (declaredAt usedAt : Nat) :
    Forall₂ (Listing.Matches imports) (declaration.topListings imports declaredAt usedAt)
      (declaration.moduleBinders.answer imports) := by
  have one : ∀ {name space lookup binding}, Lookup.binding? lookup = some binding →
      declaration.declares? name space = some binding →
      Listing.Matches imports ⟨name, space, lookup⟩ ⟨name, space, declaration⟩ :=
    fun {_ _ _ binding} hl hd => ⟨rfl, rfl, binding, hl, .declaration hd⟩
  unfold topListings moduleBinders
  unfold importsFound at found
  cases hf : declaration.form with
  | importNames path items =>
    simp only [hf, Option.any_eq_true] at found
    obtain ⟨target, ht, found⟩ := found
    simp only [Inquiry.answer_bind, answer_load, ht, Inquiry.answer_pure, flatMap_map]
    refine forall₂_flatMap fun id hid => ?_
    have hc : declaration.sibling id ∈ declaration.children :=
      mem_map_of_mem (show id ∈ declaration.form.children by rw [hf]; exact hid)
    have hp := rooted.parent_of_mem rfl hc
    have exported := all_eq_true.mp found id hid
    cases hi : (declaration.sibling id).form with
    | importItem imported localName =>
      simp only [hi] at exported
      exact importListings_match hp hf hi ht exported
    | _ => simp [importBinders, hi]
  | importAll path localName => exact .cons ⟨rfl, rfl, _, rfl, .all hf⟩ .nil
  | valueDeclaration name _ _ _ _ =>
    have value : declaration.declares? name .value = some (.declared declaration) := by
      simp [declares?, valueName?, hf]
    refine .cons (one ?_ value) .nil
    unfold Binding.marked
    split
    · rfl
    · split <;> rfl
  | typeDeclaration name typeParams value nominal exported =>
    have type : declaration.declares? name .type = some declaration.namedTypeBinding := by
      simp [declares?, typeName?, hf]
    cases nominal with
    | false => simpa [declaredListings, hf] using one rfl (type.trans (by simp [namedTypeBinding, hf]))
    | true =>
      simp only [declaredListings, hf]
      exact .cons (one rfl (by simp [declares?, valueName?, hf]))
        (.cons (one rfl (type.trans (by simp [namedTypeBinding, hf]))) .nil)
  | storeDeclaration name _ _ =>
    simp only [declaredListings, hf]
    exact .cons (one rfl (by simp [declares?, valueName?, hf]))
      (.cons (one rfl (by simp [declares?, typeName?, namedTypeBinding, hf])) .nil)
  | funcDeclaration name _ _ | procDeclaration name _ _ =>
    simp only [declaredListings, hf]
    exact .cons (one rfl (by simp [declares?, valueName?, hf])) .nil
  | _ => simp [declaredListings, hf]

end Node

namespace Script

variable {imports : Imports} {script : Script} {node : Node} {name : String} {space : Namespace}

/-- What the declarations of a script bind, in their order. -/
def binders (imports : Imports) (script : Script) : List Binder :=
  script.declarations.flatMap fun declaration => declaration.moduleBinders.answer imports

/-- No scope inside the module around a node declares a name. -/
def reachesModule (imports : Imports) (script : Script) (node : Node) (name : String)
    (space : Namespace) : Bool :=
  node.enclosing.all fun link =>
    link.2.id == script.root || ((link.2.scopeLookup? link.1 name space).answer imports).isNone

/-- A name that no inner scope declares is what the module makes of it, for a use in the
declaration around it. -/
theorem Rooted.resolveIn_of_reachesModule (rooted : script.Rooted)
    (inside : script.rootNode.Encloses node) (hn : node ≠ script.rootNode)
    (reaches : script.reachesModule imports node name space = true) :
    ∃ (place : Nat) (child : Node), script.rootNode.children[place]? = some child ∧
      (node.resolveIn name space).answer imports =
        ((script.rootNode.scopeLookup? child name space).answer imports).getD (.error .unknownName) := by
  induction inside with
  | itself => exact absurd rfl hn
  | @child scope child inside hc ih =>
    have hs : scope.script = script := inside.script_eq
    have step := @rooted.resolveIn_of_mem _ _ _ hs hc name space imports
    rw [reachesModule, Node.enclosing_of_parent (rooted.linked_of_mem hs hc) (rooted.parent_of_mem hs hc),
      all_cons, Bool.and_eq_true] at reaches
    by_cases root : scope = script.rootNode
    · obtain ⟨place, hp⟩ := getElem?_of_mem hc
      rw [root] at hp step
      rw [Node.resolveIn_of_no_parent rooted.parent_root] at step
      exact ⟨place, child, hp, step⟩
    · have other : scope.id ≠ script.root := by
        rintro same
        exact root (by rw [Script.rootNode, Script.node, ← same, ← hs])
      have unseen : (scope.scopeLookup? child name space).answer imports = none := by
        simpa [other] using reaches.1
      rw [step, unseen]
      exact ih root reaches.2

/-- The module makes of a name what the first binder of it introduces. -/
theorem Rooted.scopeLookup?_root (rooted : script.Rooted)
    (found : script.declarations.all (·.importsFound imports) = true) {place : Nat} {child : Node}
    (hc : script.rootNode.children[place]? = some child) (name : String) (space : Namespace) :
    Option.Rel (fun found binder => ∃ binding, Lookup.binding? found = some binding ∧
        binder.Introduces imports binding)
      ((script.rootNode.scopeLookup? child name space).answer imports)
      ((script.binders imports).find? fun binder => binder.name == name && binder.space == space) := by
  rw [← Node.find?_listings _ (rooted.siblingIndex rfl hc)]
  refine SymbolTable.find?_of_matches ?_ name space
  unfold Node.listings binders
  cases hf : script.rootNode.form with
  | module declarations =>
    have hd : script.declarations = declarations.zipIdx.map fun row => script.rootNode.sibling row.1 := by
      rw [← Function.comp_def script.rootNode.sibling, ← map_map, zipIdx_map_fst,
        Script.declarations, Node.children, hf]
      rfl
    rw [hd, all_map, all_eq_true] at found
    rw [hd, flatMap_map]
    exact forall₂_flatMap fun row hr => Node.topListings_match rooted (found row hr) _ _
  | _ =>
    have whole := rooted.isModule_root
    simp [hf, Form.isModule] at whole

/-- The rule of the module is that no name is bound twice. -/
theorem Rooted.rules_root (rooted : script.Rooted) (inspection : Inspection) (faulty : Bool) :
    (inspection.rules faulty script.rootNode).answer? imports =
      some (Binder.duplicates (script.binders imports)) := by
  unfold Inspection.rules binders
  cases hf : script.rootNode.form with
  | module declarations =>
    have hd : script.declarations = declarations.map script.rootNode.sibling := by
      rw [Script.declarations, Node.children, hf]
      rfl
    show some ((Inspection.moduleNames _).answer imports) = _
    rw [Inspection.moduleNames, Inquiry.answer_bind, Inquiry.answer_mapM, hd, flatMap_def]
    rfl
  | _ =>
    have whole := rooted.isModule_root
    simp [hf, Form.isModule] at whole

/-- The duplicate check and lookups see the same module: in a script that was read from a text
and whose imports all exist, a name that no inner scope around a node declares is known there
if and only if a declaration binds it, and it is what the first binder introduces. The check
of the module reports each node once that binds a name again, and nothing else. -/
theorem module_names {path : FilePath} {source : String} (read : parse path source = .ok script)
    (found : script.declarations.all (·.importsFound imports) = true) :
    (∀ node name space, script.rootNode.Encloses node → node ≠ script.rootNode →
      script.reachesModule imports node name space = true →
      ((node.resolveIn name space).answer imports ≠ .error .unknownName ↔
        ∃ binder ∈ script.binders imports, binder.name = name ∧ binder.space = space) ∧
      ∀ binder, (script.binders imports).find?
          (fun binder => binder.name == name && binder.space == space) = some binder →
        ∃ binding, Lookup.binding? ((node.resolveIn name space).answer imports) = some binding ∧
          binder.Introduces imports binding) ∧
      ∀ inspection faulty, ∃ problems,
        (Inspection.rules inspection faulty script.rootNode).answer? imports = some problems ∧
        (problems.map Problem.node).Nodup ∧
        (∀ problem ∈ problems, ∃ name, Binder.Repeats (script.binders imports) problem.node name ∧
          problem.fault = .alreadyDeclared name) ∧
        ∀ node name, Binder.Repeats (script.binders imports) node name →
          node ∈ problems.map Problem.node := by
  have rooted := rooted_of_parse read
  refine ⟨fun node name space inside hn reaches => ?_, fun inspection faulty => ?_⟩
  · obtain ⟨place, child, hc, resolved⟩ := rooted.resolveIn_of_reachesModule inside hn reaches
    have same := rooted.scopeLookup?_root found hc name space
    rw [resolved]
    generalize (script.rootNode.scopeLookup? child name space).answer imports = lookup at same ⊢
    generalize hb : (script.binders imports).find? _ = first at same ⊢
    cases same with
    | none =>
      refine ⟨⟨fun known => absurd rfl known, fun ⟨binder, hm, hn, hs⟩ => ?_⟩, fun _ hf => by cases hf⟩
      have other := find?_eq_none.mp hb binder hm
      simp [hn, hs] at other
    | @some lookup binder introduced =>
      obtain ⟨binding, hl, hi⟩ := introduced
      have named : binder.name = name ∧ binder.space = space := by simpa using find?_some hb
      refine ⟨⟨fun _ => ⟨binder, mem_of_find?_eq_some hb, named⟩, fun _ unknown => ?_⟩, fun other hf => ?_⟩
      · rw [show lookup = .error .unknownName from unknown] at hl
        cases hl
      · cases hf
        exact ⟨binding, hl, hi⟩
  · refine ⟨Binder.duplicates (script.binders imports), rooted.rules_root inspection faulty,
      @Binder.duplicates_nodes script _ fun binder hb => ?_⟩
    obtain ⟨declaration, hd, hb⟩ := mem_flatMap.mp hb
    exact (Node.script_of_moduleBinders hb).trans (Node.script_of_mem_children hd)

/-- A script that imports a name which is exported as a value and as a type, then declares a
store of that name, and uses it. -/
def importedAgain : Reading :=
  .first ⟨"/main.bgl"⟩ "import \x7b Pair as P \x7d from './pair'\nstore P \x7b\n\x7d\nconst w = P"

/-- The script it imports from. -/
def pairLibrary : Imports := fun _ _ =>
  some (Reading.first ⟨"/pair.bgl"⟩ "export nominal type Pair(number)").script

/-- The name that is used is known and is the imported one, and the store, which binds it again
as a value and as a type, is reported once. -/
theorem importedAgain_names :
    let script := importedAgain.script
    let node := script.node 3
    let first := (script.binders pairLibrary).find? fun binder => binder.name == "P" && binder.space == .value
    (script.declarations.all (·.importsFound pairLibrary) = true ∧ script.rootNode.Encloses node ∧
      script.reachesModule pairLibrary node "P" .value = true ∧
      first.map (·.node.id) = some 0) ∧
    (node.resolveIn "P" .value).answer pairLibrary ≠ .error .unknownName ∧
      (∀ binder, first = some binder → ∃ binding, binder.Introduces pairLibrary binding ∧
        Lookup.binding? ((node.resolveIn "P" .value).answer pairLibrary) = some binding) ∧
      ∃ problems, (Inspection.rules ⟨.silent⟩ false script.rootNode).answer? pairLibrary = some problems ∧
        (problems.map Problem.node).Nodup ∧ problems.map (·.node.id) = [2] := by
  obtain ⟨faultless, found, leads, reaches, first, known, reported⟩ : importedAgain.fault.isNone = true ∧
      importedAgain.script.declarations.all (·.importsFound pairLibrary) = true ∧
      importedAgain.script.leads importedAgain.script.root [4] 3 = true ∧
      importedAgain.script.reachesModule pairLibrary (importedAgain.script.node 3) "P" .value = true ∧
      ((importedAgain.script.binders pairLibrary).find? fun binder =>
        binder.name == "P" && binder.space == .value).map (·.node.id) = some 0 ∧
      (3 == importedAgain.script.root) = false ∧
      ((Inspection.rules ⟨.silent⟩ false importedAgain.script.rootNode).answer? pairLibrary).map
        (·.map (·.node.id)) = some [2] := by decide +kernel
  have read : ∃ path source, parse path source = .ok importedAgain.script :=
    ⟨_, _, Reading.parse_of_faultless faultless⟩
  -- the script is only evaluated above
  generalize importedAgain.script = script at found leads reaches first known reported read ⊢
  obtain ⟨path, source, read⟩ := read
  obtain ⟨lookups, rule⟩ := module_names read found
  have inside := encloses_of_leads leads
  have apart : script.node 3 ≠ script.rootNode := by
    intro same
    have ids : 3 = script.root := congrArg Node.id same
    simp [ids] at known
  obtain ⟨iff, introduced⟩ := lookups _ _ _ inside apart reaches
  obtain ⟨binder, hb, -⟩ := Option.map_eq_some_iff.mp first
  have named := find?_some hb
  simp only [Bool.and_eq_true, beq_iff_eq] at named
  obtain ⟨problems, hp, once, -⟩ := rule ⟨.silent⟩ false
  rw [hp] at reported
  refine ⟨⟨found, inside, reaches, first⟩, iff.mpr ⟨binder, mem_of_find?_eq_some hb, named⟩, fun binder hf => ?_,
    problems, hp, once, Option.some.inj reported⟩
  obtain ⟨binding, hl, hi⟩ := introduced binder hf
  exact ⟨binding, hi, hl⟩

end Script

end ScriptCheck
