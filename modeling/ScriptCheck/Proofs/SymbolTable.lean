import ScriptCheck.Proofs.Readings
import ScriptCheck.Proofs.Roots

/-!
# Symbol tables

A table of what every name is can be made up front: the root of a script has an empty one,
and the table of a child is that of its parent behind what the parent makes visible to the
child. Asking the enclosing nodes of a node one by one comes to the first listing of the
name in the table of the node.
-/

namespace ScriptCheck

open List

/-- What a name of a kind is. -/
structure Listing where
  /-- The name. -/
  name : String
  /-- The kind of name. -/
  space : Namespace
  /-- What it is found to be. -/
  found : Lookup

/-- What names are, the first listing of a name before all others. -/
abbrev SymbolTable := List Listing

namespace SymbolTable

variable {name : String} {space : Namespace}

/-- The first listing of a name. -/
def find? (table : SymbolTable) (name : String) (space : Namespace) : Option Lookup :=
  table.findSome? fun listing =>
    if listing.name = name ∧ listing.space = space then some listing.found else none

/-- What a name is. -/
def lookup (table : SymbolTable) (name : String) (space : Namespace) : Lookup :=
  (table.find? name space).getD (.error .unknownName)

@[simp] theorem find?_nil : find? [] name space = none := rfl

@[simp] theorem find?_cons (listing : Listing) (table : SymbolTable) :
    find? (listing :: table) name space =
      if listing.name = name ∧ listing.space = space then some listing.found
      else find? table name space := by
  simp only [find?, findSome?_cons]
  split
  · simp_all
  · simp_all

theorem find?_append (table others : SymbolTable) :
    find? (table ++ others) name space = (find? table name space).or (find? others name space) :=
  findSome?_append

theorem find?_flatMap (items : List α) (listings : α → SymbolTable) :
    find? (items.flatMap listings) name space =
      items.findSome? fun item => find? (listings item) name space := by
  induction items with
  | nil => rfl
  | cons item items ih =>
    rw [flatMap_cons, find?_append, ih, findSome?_cons]
    cases find? (listings item) name space <;> rfl

/-- The items that have names, each listed for what it is. -/
def ofNamed (space : Namespace) (name? : α → Option String) (found : α → Lookup) (items : List α) :
    SymbolTable :=
  items.filterMap fun item => (name? item).map fun name => ⟨name, space, found item⟩

/-- The first item of the name is found. -/
theorem find?_ofNamed (name? : α → Option String) (found : α → Lookup) (items : List α) :
    find? (ofNamed space name? found items) name space =
      (items.find? fun item => name? item == some name).map found := by
  unfold ofNamed
  induction items with
  | nil => rfl
  | cons item items ih =>
    rw [List.filterMap_cons, List.find?_cons]
    cases name? item with
    | none => simpa using ih
    | some declared =>
      by_cases hn : declared = name
      · simp [hn]
      · have hb : (some declared == some name) = false := by simpa using hn
        simpa [hn, hb] using ih

/-- Items are listed as names of their kind only. -/
theorem find?_ofNamed_of_ne {other : Namespace} (hs : other ≠ space) (name? : α → Option String)
    (found : α → Lookup) (items : List α) :
    find? (ofNamed other name? found items) name space = none := by
  unfold ofNamed
  induction items with
  | nil => rfl
  | cons item items ih =>
    rw [filterMap_cons]
    cases name? item with
    | none => simpa using ih
    | some declared => simpa [hs] using ih

/-- Names in front of others are found first. -/
theorem lookup_append (table others : SymbolTable) :
    lookup (table ++ others) name space =
      (find? table name space).getD (lookup others name space) := by
  rw [lookup, find?_append, lookup]
  cases find? table name space <;> rfl

end SymbolTable

/-- A binding used at one place of a list of declarations or statements and declared at
another: it must be declared before. -/
def Binding.marked (binding : Binding) (declaredAt usedAt : Nat) : Lookup :=
  if usedAt < declaredAt then .error (.usedTooEarly binding)
  else if usedAt = declaredAt then .error (.usedInOwnValue binding)
  else .ok binding

namespace Node

/-- The names that a top-level declaration declares. -/
def declaredListings (declaration : Node) : SymbolTable :=
  match declaration.form with
  | .funcDeclaration name _ _ => [⟨name, .value, .ok (.declared declaration)⟩]
  | .procDeclaration name _ _ => [⟨name, .value, .ok (.declared declaration)⟩]
  | .valueDeclaration name _ _ _ _ => [⟨name, .value, .ok (.declared declaration)⟩]
  | .storeDeclaration name _ _ =>
    [⟨name, .value, .ok (.declared declaration)⟩, ⟨name, .type, .ok (.type (.store name declaration) [])⟩]
  | .typeDeclaration name typeParams value true _ =>
    [⟨name, .value, .ok (.declared declaration)⟩,
      ⟨name, .type, .ok (.type (.nominal name (declaration.sibling value).lower)
        (declaration.typeParamSlots typeParams))⟩]
  | .typeDeclaration name typeParams value false _ =>
    [⟨name, .type, .ok (.type (declaration.sibling value).lower
      (declaration.typeParamSlots typeParams))⟩]
  | _ => []

end Node

/-- The names that a script exports. -/
def Script.exportListings (script : Script) : SymbolTable :=
  (script.declarations.filter Node.isExported).flatMap Node.declaredListings

namespace Node

/-- What an imported name is under its local name, as a value and as a type. A name that is
exported as one of them only is not listed as the other. -/
def importListings (imports : Imports) (importing : Node) (path imported localName : String) :
    SymbolTable :=
  match imports importing.script path with
  | none =>
    [⟨localName, .value, .error (.unknownModule importing path)⟩,
      ⟨localName, .type, .error (.unknownModule importing path)⟩]
  | some target =>
    match target.exportListings.find? imported .value, target.exportListings.find? imported .type with
    | none, none =>
      [⟨localName, .value, .error (.unknownExport importing path imported)⟩,
        ⟨localName, .type, .error (.unknownExport importing path imported)⟩]
    | some value, none => [⟨localName, .value, value⟩]
    | none, some type => [⟨localName, .type, type⟩]
    | some value, some type => [⟨localName, .value, value⟩, ⟨localName, .type, type⟩]

/-- What child number `declaredAt` of a module makes visible in child number `usedAt`. -/
def topListings (imports : Imports) (declaration : Node) (declaredAt usedAt : Nat) : SymbolTable :=
  match declaration.form with
  | .importNames path items => items.flatMap fun id =>
    match (declaration.sibling id).form with
    | .importItem imported localName =>
      declaration.importListings imports path imported (localName.getD imported)
    | _ => []
  | .importAll _ localName => [⟨localName, .value, .ok (.importedModule declaration)⟩]
  | .valueDeclaration name _ _ _ _ =>
    [⟨name, .value, (Binding.declared declaration).marked declaredAt usedAt⟩]
  | _ => declaration.declaredListings

/-- The name of a type parameter. -/
def typeParamName? (node : Node) : Option String :=
  match node.form with
  | .typeParam name _ => some name
  | _ => none

/-- The name of a parameter. -/
def paramName? (node : Node) : Option String :=
  match node.form with
  | .param name _ => some name
  | _ => none

/-- The name of a constant or variable of a block. -/
def localName? (node : Node) : Option String :=
  match node.form with
  | .localDeclaration name _ _ _ => some name
  | _ => none

/-- The type parameters among the given nodes. -/
def typeParamListings (scope : Node) (ids : List NodeId) : SymbolTable :=
  .ofNamed .type typeParamName? (fun param => .ok (.type param.asTypeParameter []))
    (ids.map scope.sibling)

/-- The parameters among the given nodes. -/
def paramListings (scope : Node) (ids : List NodeId) : SymbolTable :=
  .ofNamed .value (fun row => (scope.sibling row.1).paramName?)
    (fun row => .ok (.parameter scope row.2)) ids.zipIdx

/-- The constants and variables among the given statements, for a use in statement number
`usedAt`. -/
def localListings (scope : Node) (statements : List NodeId) (usedAt : Nat) : SymbolTable :=
  .ofNamed .value (fun row => (scope.sibling row.1).localName?)
    (fun row => (Binding.declared (scope.sibling row.1)).marked row.2 usedAt) statements.zipIdx

/-- What a node makes visible to its child at the given place. -/
def listings (imports : Imports) (scope : Node) (place : Nat) (child : Node) : SymbolTable :=
  match scope.form with
  | .module declarations => declarations.zipIdx.flatMap fun row =>
    (scope.sibling row.1).topListings imports row.2 place
  | .block statements => scope.localListings statements place
  | .func typeParams params _ _ => scope.paramListings params ++ scope.typeParamListings typeParams
  | .proc typeParams params _ => scope.paramListings params ++ scope.typeParamListings typeParams
  | .typeDeclaration _ typeParams _ _ _ => scope.typeParamListings typeParams
  | .funcType typeParams _ _ => scope.typeParamListings typeParams
  | .procType typeParams _ => scope.typeParamListings typeParams
  | .forLoop item _ body => if child.id = body then [⟨item, .value, .ok (.loopItem scope)⟩] else []
  | .inlineConst name _ value body =>
    if child.id = value then [⟨name, .value, .error (.usedInOwnValue (.declared scope))⟩]
    else if child.id = body then [⟨name, .value, .ok (.declared scope)⟩]
    else []
  | _ => []

end Node

/-- The table of a node, made from the root down. -/
inductive Script.Sees (imports : Imports) (script : Script) : Node → SymbolTable → Prop
  | root : Sees imports script script.rootNode []
  | inside {scope child : Node} {table : SymbolTable} {place : Nat} :
      Sees imports script scope table → scope.children[place]? = some child →
      Sees imports script child (scope.listings imports place child ++ table)

section Listings

variable {imports : Imports} {name : String} {space : Namespace}

/-- The place of the first item with a property is found with the item. -/
theorem map_findIdx? (has : α → Bool) (items : List α) (start : Nat) :
    ((items.zipIdx start).find? fun row => has row.1).map Prod.snd =
      (items.findIdx? has).map (· + start) := by
  induction items generalizing start with
  | nil => rfl
  | cons item items ih =>
    rw [zipIdx_cons, find?_cons, findIdx?_cons]
    cases has item with
    | false =>
      rw [ih]
      cases items.findIdx? has with
      | none => rfl
      | some place => simp [Nat.add_comm, Nat.add_left_comm]
    | true => simp

namespace Node

/-- A declaration is listed for what it declares. -/
theorem find?_declaredListings (declaration : Node) :
    declaration.declaredListings.find? name space = (declaration.declares? name space).map .ok := by
  unfold declaredListings declares? valueName? typeName? namedTypeBinding
  cases space with
  | value =>
    cases declaration.form with
    | typeDeclaration _ _ _ nominal _ => cases nominal <;> simp [apply_ite]
    | _ => simp [apply_ite]
  | type =>
    cases declaration.form with
    | typeDeclaration _ _ _ nominal _ => cases nominal <;> simp [apply_ite]
    | _ => simp [apply_ite]

end Node

/-- What a script exports is listed. -/
theorem Script.find?_exportListings (script : Script) :
    script.exportListings.find? name space = (script.export? name space).map .ok := by
  rw [exportListings, SymbolTable.find?_flatMap, export?, map_findSome?]
  exact congrArg (List.findSome? · _) (funext Node.find?_declaredListings)

namespace Node

/-- An imported name is listed under its local name for what it is. -/
theorem find?_importListings (importing : Node) (path imported localName : String) :
    (importing.importListings imports path imported localName).find? name space =
      if localName = name then (importing.imported? path imported space).answer imports else none := by
  unfold importListings imported?
  rw [Inquiry.answer_bind, answer_load]
  cases imports importing.script path with
  | none => cases space <;> simp
  | some target =>
    simp only [Script.find?_exportListings]
    cases hv : target.export? imported .value with
    | none =>
      cases ht : target.export? imported .type with
      | none => cases space <;> simp [hv, ht, Namespace.other]
      | some type => cases space <;> simp [hv, ht, Namespace.other]
    | some value =>
      cases ht : target.export? imported .type with
      | none => cases space <;> simp [hv, ht, Namespace.other]
      | some type => cases space <;> simp [hv, ht]

/-- The order of declarations is that of the places. -/
theorem inOrder_eq_marked (hc : child.siblingIndex = some place) :
    inOrder binding declaredAt child = binding.marked declaredAt place := by
  rw [inOrder, hc]
  rfl

/-- A declaration of a module is listed for what it makes of names. -/
theorem find?_topListings (declaration : Node) (declaredAt : Nat) {place : Nat} {child : Node}
    (hc : child.siblingIndex = some place) :
    (declaration.topListings imports declaredAt place).find? name space =
      (declaration.topLevel? declaredAt child name space).answer imports := by
  unfold topListings topLevel?
  cases hf : declaration.form with
  | importNames path items =>
    simp only [SymbolTable.find?_flatMap, Inquiry.answer_firstAnswer]
    refine congrArg (List.findSome? · items) (funext fun id => ?_)
    cases (declaration.sibling id).form with
    | importItem imported localName =>
      simp only [find?_importListings]
      split <;> rfl
    | _ => rfl
  | importAll path localName => by_cases hn : localName = name <;> cases space <;> simp [hn]
  | valueDeclaration declared _ _ _ _ =>
    simp only [inOrder_eq_marked hc]
    by_cases hn : declared = name <;> cases space <;>
      simp [declares?, valueName?, typeName?, hf, hn]
  | _ => exact declaration.find?_declaredListings

/-- Type parameters are listed as types. -/
theorem find?_typeParamListings (scope : Node) (ids : List NodeId) :
    (scope.typeParamListings ids).find? name .type = scope.typeParamBinding? ids name := by
  have same : ∀ param : Node, (param.typeParamName? == some name) = param.isTypeParam name := by
    intro param
    unfold typeParamName? isTypeParam
    cases param.form <;> simp
  rw [typeParamListings, SymbolTable.find?_ofNamed, typeParamBinding?, typeParamNamed?_eq_find?]
  simp only [same]

/-- Parameters are listed as values. -/
theorem find?_paramListings (scope : Node) (ids : List NodeId) :
    (scope.paramListings ids).find? name .value = scope.paramBinding? ids name := by
  have same : ∀ id, ((scope.sibling id).paramName? == some name) =
      match (scope.sibling id).form with
      | .param declared _ => declared == name
      | _ => false := by
    intro id
    unfold paramName?
    split <;> simp
  have place := map_findIdx? (fun id => (scope.sibling id).paramName? == some name) ids 0
  simp only [Nat.add_zero, Option.map_id_fun', id_eq, same] at place
  rw [paramListings, SymbolTable.find?_ofNamed]
  simp only [same]
  refine Eq.trans ?_ (congrArg (Option.map fun index => Except.ok (Binding.parameter scope index)) place)
  rw [Option.map_map]
  rfl

/-- The constants and variables of a block are listed as values. -/
theorem find?_localListings (scope : Node) (statements : List NodeId) {place : Nat} {child : Node}
    (hc : child.siblingIndex = some place) :
    (scope.localListings statements place).find? name .value =
      scope.localBinding? statements child name := by
  have same : ∀ row : NodeId × Nat, ((scope.sibling row.1).localName? == some name) =
      match (scope.sibling row.1).form with
      | .localDeclaration declared _ _ _ => declared == name
      | _ => false := by
    intro row
    unfold localName?
    split <;> simp
  rw [localListings, SymbolTable.find?_ofNamed, funext same, localBinding?]
  exact Option.map_congr fun row _ => (inOrder_eq_marked hc).symm

/-- A node lists for its child what it makes of names that are used there. -/
theorem find?_listings (scope : Node) {place : Nat} {child : Node}
    (hc : child.siblingIndex = some place) :
    (scope.listings imports place child).find? name space =
      (scope.scopeLookup? child name space).answer imports := by
  have noValues : ∀ ids, (scope.typeParamListings ids).find? name .value = none := fun ids =>
    SymbolTable.find?_ofNamed_of_ne (by decide) typeParamName? _ _
  have noParams : ∀ ids, (scope.paramListings ids).find? name .type = none := fun ids =>
    SymbolTable.find?_ofNamed_of_ne (by decide) _ _ _
  unfold listings scopeLookup?
  cases hf : scope.form with
  | module declarations =>
    simp only [SymbolTable.find?_flatMap, Inquiry.answer_firstAnswer]
    exact congrArg (List.findSome? · _) (funext fun row => find?_topListings _ _ hc)
  | block statements =>
    cases space with
    | value => exact scope.find?_localListings statements hc
    | type =>
      have noLocals : (scope.localListings statements place).find? name .type = none :=
        SymbolTable.find?_ofNamed_of_ne (by decide) _ _ _
      exact noLocals
  | func typeParams params | proc typeParams params =>
    cases space with
    | value =>
      simp only [SymbolTable.find?_append, find?_paramListings, noValues, Option.or_none]
      rfl
    | type =>
      simp only [SymbolTable.find?_append, noParams, Option.none_or, find?_typeParamListings]
      rfl
  | typeDeclaration _ typeParams | funcType typeParams | procType typeParams =>
    cases space with
    | value => exact noValues typeParams
    | type => exact scope.find?_typeParamListings typeParams
  | forLoop item iterator body =>
    cases space with
    | value => by_cases hn : item = name <;> by_cases hb : child.id = body <;> simp [hn, hb]
    | type => by_cases hb : child.id = body <;> simp [hb]
  | inlineConst declared ascription value body =>
    cases space with
    | value =>
      dsimp only
      rw [Inquiry.answer_pure]
      by_cases hn : declared = name <;> split_ifs <;> simp_all
    | type =>
      dsimp only
      split_ifs <;> simp
  | _ => cases space <;> rfl

end Node

end Listings

section Tables

variable {imports : Imports} {script : Script} {node scope child : Node} {place : Nat}
  {table : SymbolTable}

/-- A child is found at its place among the children of its parent. -/
theorem Script.Rooted.siblingIndex (rooted : script.Rooted) (hs : scope.script = script)
    (hc : scope.children[place]? = some child) : child.siblingIndex = some place := by
  have hp := rooted.parent_of_mem hs (List.mem_of_getElem? hc)
  have hi : scope.form.children[place]? = some child.id := by
    rw [Node.children, List.getElem?_map] at hc
    obtain ⟨id, hid, rfl⟩ := Option.map_eq_some_iff.mp hc
    exact hid
  obtain ⟨hl, hid⟩ := List.getElem?_eq_some_iff.mp hi
  rw [Node.siblingIndex, hp, Option.bind_some, List.findIdx?_eq_some_iff_getElem]
  refine ⟨hl, by simp [hid], fun before hb => ?_⟩
  have distinct := @List.Nodup.getElem_inj_iff _ _ (rooted.nodup_children hs) _ (Nat.lt_trans hb hl) _ hl
  rw [hid] at distinct
  simp [distinct, Nat.ne_of_lt hb]

namespace Script.Sees

theorem script_eq (sees : script.Sees imports node table) : node.script = script := by
  induction sees with
  | root => rfl
  | inside _ hc ih => exact (Node.script_of_mem_children (mem_of_getElem? hc)).trans ih

/-- A node that sees what is inside the root has a parent, and the root has none. -/
theorem ne_root (rooted : script.Rooted) (hs : scope.script = script)
    (hc : scope.children[place]? = some child) : child ≠ script.rootNode := by
  rintro rfl
  have hp := rooted.parent_of_mem hs (mem_of_getElem? hc)
  rw [rooted.parent_root] at hp
  cases hp

/-- A node has one table at most. -/
theorem unique (rooted : script.Rooted) (sees : script.Sees imports node table)
    (too : script.Sees imports node other) : table = other := by
  induction sees generalizing other with
  | root =>
    generalize hn : script.rootNode = node at too
    cases too with
    | root => rfl
    | inside too hc => exact absurd hn.symm (ne_root rooted too.script_eq hc)
  | @inside scope child table place sees hc ih =>
    cases too with
    | root => exact absurd rfl (ne_root rooted sees.script_eq hc)
    | @inside above _ others elsewhere too ha =>
      have hp := rooted.parent_of_mem sees.script_eq (mem_of_getElem? hc)
      have hq := rooted.parent_of_mem too.script_eq (mem_of_getElem? ha)
      obtain rfl : scope = above := Option.some.inj (hp.symm.trans hq)
      have hi := rooted.siblingIndex sees.script_eq hc
      have hj := rooted.siblingIndex sees.script_eq ha
      obtain rfl : place = elsewhere := Option.some.inj (hi.symm.trans hj)
      rw [ih too]

/-- Every node that the root encloses has a table. -/
theorem exists_of_encloses (inside : script.rootNode.Encloses node) :
    ∃ table, script.Sees imports node table := by
  induction inside with
  | itself => exact ⟨[], .root⟩
  | child _ hc ih =>
    obtain ⟨table, sees⟩ := ih
    obtain ⟨place, hp⟩ := getElem?_of_mem hc
    exact ⟨_, .inside sees hp⟩

/-- Asking the enclosing nodes one by one comes to what the table lists. -/
theorem resolveIn_eq (rooted : script.Rooted) (sees : script.Sees imports node table)
    (name : String) (space : Namespace) :
    (node.resolveIn name space).answer imports = table.lookup name space := by
  induction sees with
  | root => exact Node.resolveIn_of_no_parent rooted.parent_root
  | @inside scope child table place sees hc ih =>
    have hs := sees.script_eq
    have step := @Node.find?_listings imports name space scope _ _ (rooted.siblingIndex hs hc)
    rw [SymbolTable.lookup_append, step, ← ih]
    exact rooted.resolveIn_of_mem hs (mem_of_getElem? hc)

end Script.Sees

/-- Asking the enclosing nodes of a node one by one is looking in the table of the node, which
is made from the root down: in a script that was read from a text, every node that the root
encloses has one table, and every name of every kind is what the table lists first for it, or
unknown if the table does not list it. -/
theorem Script.resolveIn_eq_lookup {path : FilePath} {source : String}
    (read : parse path source = .ok script) (imports : Imports)
    (inside : script.rootNode.Encloses node) :
    ∃ table, (∀ other, script.Sees imports node other ↔ other = table) ∧
      ∀ name space, (node.resolveIn name space).answer imports = table.lookup name space := by
  have rooted := rooted_of_parse read
  obtain ⟨table, sees⟩ := @Sees.exists_of_encloses imports _ _ inside
  refine ⟨table, fun other => ⟨fun too => too.unique rooted sees, ?_⟩, sees.resolveIn_eq rooted⟩
  rintro rfl
  exact sees

/-- A script with one scope inside the other, down to a constant that is used in the value it
is declared with, inside an inline constant, a loop, a block and a proc with parameters of
the same names. -/
def nestedScopes : Reading :=
  .first ⟨"/main.bgl"⟩ ("import \x7b Pair \x7d from './pair'\nproc p<T>(x: T) \x7b\n" ++
    "  const y = x\n  for z of [y] \x7b\n    const x = const y = z, [x, y]\n  \x7d\n\x7d")

/-- The innermost use of a name that all scopes have is the one in its own value, and this is
what the table lists first. -/
theorem nestedScopes_tables :
    let script := nestedScopes.script
    let node := script.node 10
    script.rootNode.Encloses node ∧
      (match (node.resolveIn "x" .value).answer Imports.isolated with
        | .error (.usedInOwnValue (.declared declaration)) => declaration.id == 14
        | _ => false) = true ∧
      ∃ table, (∀ other, script.Sees Imports.isolated node other ↔ other = table) ∧
        ∀ name space, (node.resolveIn name space).answer Imports.isolated = table.lookup name space := by
  obtain ⟨faultless, leads, own⟩ : nestedScopes.fault.isNone = true ∧
      nestedScopes.script.leads nestedScopes.script.root [19, 18, 17, 16, 15, 14, 13, 12] 10 = true ∧
      (match ((nestedScopes.script.node 10).resolveIn "x" .value).answer Imports.isolated with
        | .error (.usedInOwnValue (.declared declaration)) => declaration.id == 14
        | _ => false) = true := by decide +kernel
  have read : ∃ path source, parse path source = .ok nestedScopes.script :=
    ⟨_, _, Reading.parse_of_faultless faultless⟩
  -- the script is only evaluated above
  generalize nestedScopes.script = script at leads own read ⊢
  obtain ⟨path, source, read⟩ := read
  have inside := Script.encloses_of_leads leads
  exact ⟨inside, own, Script.resolveIn_eq_lookup read Imports.isolated inside⟩

/-- A script with an import that cannot be loaded before a func of the same name. -/
def unloadedName : Script :=
  (Reading.first ⟨"/main.bgl"⟩ "import \x7b q \x7d from './missing'\nfunc q() => 1\nconst w = q").script

/-- An import that cannot be loaded is not passed over: the name is the missing module, and
not the func of that name which is declared after it. -/
theorem unloadedName_hides_func :
    ((unloadedName.node 4).declares? "q" .value).isSome = true ∧
      (match ((unloadedName.node 5).resolveIn "q" .value).answer Imports.isolated with
        | .error (.unknownModule importing path) => importing.id == 1 && path == "./missing"
        | _ => false) = true := by
  decide +kernel

end Tables

end ScriptCheck
