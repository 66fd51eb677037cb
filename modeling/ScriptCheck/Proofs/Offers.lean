import ScriptCheck.Inference.Calls
import ScriptCheck.Proofs.Answers

/-!
# What enclosing nodes offer

A name is found in a node around its use: as one of the declarations or statements in it, as a
parameter, constant or item that the node itself declares, or as an export of a script that is
imported there.
-/

namespace ScriptCheck

open List

/-- Whether a form is no part of a type expression and declares nothing, except in a row. -/
def Form.isBare : Form → Bool
  | .module _ | .identifier _ | .property _ _ _ | .invocation _ _ _ | .pipe _ _ | .escape _ => true
  | _ => false

/-- Whether a form is a name, a call or an escape. -/
def Form.isOperand : Form → Bool
  | .identifier _ | .invocation _ _ _ | .pipe _ _ | .escape _ => true
  | _ => false

theorem Form.isBare_of_isOperand {form : Form} (operand : form.isOperand = true) :
    form.isBare = true := by
  cases form with
  | identifier | invocation | pipe | escape => rfl
  | _ => cases operand

/-- The type parameters of a form are among its children. -/
theorem Form.typeParams_subset (form : Form) : form.typeParams ⊆ form.children := by
  cases form <;> simp [typeParams, children, append_assoc]

/-- Whether a form holds declarations in a row. -/
def Form.isRow : Form → Bool
  | .module _ | .block _ => true
  | _ => false

variable {imports : Imports}

/-- The first answer is the first one that is found. -/
theorem Inquiry.answer_firstAnswer (ask : α → Inquiry (Option β)) (questions : List α) :
    (firstAnswer ask questions).answer imports =
      questions.findSome? fun question => (ask question).answer imports := by
  induction questions with
  | nil => rfl
  | cons question rest ih =>
    rw [firstAnswer, answer_bind, findSome?_cons]
    cases (ask question).answer imports with
    | none => exact ih
    | some found => rfl

/-- The first answer is the answer to one of the questions. -/
theorem Inquiry.mem_of_firstAnswer {ask : α → Inquiry (Option β)} {questions : List α} {found : β}
    (hf : (firstAnswer ask questions).answer imports = some found) :
    ∃ question ∈ questions, (ask question).answer imports = some found :=
  exists_of_findSome?_eq_some (answer_firstAnswer ask questions ▸ hf)

namespace Node

/-- What an enclosing node may make of a name. -/
inductive Offers (imports : Imports) (scope : Node) : Binding → Prop
  /-- One of the declarations or statements in the node. -/
  | declared {declaration : Node} (row : scope.form.isRow = true)
      (inside : declaration ∈ scope.children) (declares : declaration.form.isBare = false) :
      Offers imports scope (.declared declaration)
  /-- The constant that the node declares. -/
  | constant {name : String} {ascription : Option NodeId} {value body : NodeId}
      (hf : scope.form = .inlineConst name ascription value body) :
      Offers imports scope (.declared scope)
  /-- A parameter of the node. -/
  | parameter {index : Nat} (literal : scope.literalParams?.isSome = true)
      (params : ∀ id, scope.literalParams?.bind (·[index]?) = some id →
        ∃ name ascription, (scope.sibling id).form = .param name ascription) :
      Offers imports scope (.parameter scope index)
  /-- A type parameter of the node. -/
  | typeParam {param : Node} (inside : param ∈ scope.children) :
      Offers imports scope (.type param.asTypeParameter [])
  /-- The type that one of the declarations names. -/
  | named {declaration : Node} (inside : declaration ∈ scope.children) :
      Offers imports scope declaration.namedTypeBinding
  /-- A module that is imported as a whole. -/
  | importedModule {importing : Node} {path localName : String} (row : scope.form.isRow = true)
      (inside : importing ∈ scope.children) (hf : importing.form = .importAll path localName) :
      Offers imports scope (.importedModule importing)
  /-- The item of the loop that the node is. -/
  | loopItem {item : String} {iterator body : NodeId} (hf : scope.form = .forLoop item iterator body) :
      Offers imports scope (.loopItem scope)
  /-- What another script exports. -/
  | exported {importing declaration : Node} {path name : String} {target : Script}
      {space : Namespace} {binding : Binding} (inside : importing ∈ scope.children)
      (loaded : imports importing.script path = some target)
      (found : declaration ∈ target.declarations.filter isExported)
      (declares : declaration.declares? name space = some binding) : Offers imports scope binding

/-- What an enclosing node may answer: what it offers, or that something cannot be used. -/
def Grants (imports : Imports) (scope : Node) : Lookup → Prop
  | .ok binding => scope.Offers imports binding
  | .error error => error ≠ .unknownName

section Bare

variable {node : Node} (bare : node.form.isBare = true)

include bare

theorem valueName?_of_bare : node.valueName? = none := by
  unfold valueName?
  split <;> simp_all [Form.isBare]

theorem typeName?_of_bare : node.typeName? = none := by
  unfold typeName?
  split <;> simp_all [Form.isBare]

end Bare

/-- What a declaration makes of a name is the declaration itself, or the type that it names. -/
theorem cases_of_declares? {declaration : Node}
    (declares : declaration.declares? name space = some binding) :
    declaration.form.isBare = false ∧
      (binding = .declared declaration ∨ binding = declaration.namedTypeBinding) := by
  rw [← Bool.not_eq_true]
  cases space with
  | value =>
    rw [declares?] at declares
    split at declares
    · next named =>
      cases declares
      exact ⟨fun bare => by simp [valueName?_of_bare bare] at named, .inl rfl⟩
    · cases declares
  | type =>
    rw [declares?] at declares
    split at declares
    · next named =>
      cases declares
      exact ⟨fun bare => by simp [typeName?_of_bare bare] at named, .inr rfl⟩
    · cases declares

/-- Each enclosing node is an ancestor. -/
theorem mem_ancestors_of_enclosing {node : Node} (hl : link ∈ node.enclosing) :
    link.2 ∈ node.ancestors := (of_mem_zip hl).2

/-- A declaration gives a name to a type, if to anything. -/
theorem namedTypeBinding_eq (declaration : Node) :
    ∃ type params, declaration.namedTypeBinding = .type type params := by
  unfold namedTypeBinding
  split
  · exact ⟨_, _, rfl⟩
  · exact ⟨_, _, rfl⟩
  · exact ⟨_, _, rfl⟩

variable {scope child declaration : Node} {name : String} {space : Namespace} {binding : Binding}
  {lookup : Lookup}

/-- What a specifier names does not depend on anything else. -/
theorem answer_load (importing : Node) (path : String) :
    (importing.load path).answer imports = imports importing.script path := by
  simp only [Inquiry.answer, load, Imports.load]
  split
  · next hn => exact hn.symm
  · next hs => exact hs.symm

theorem offers_of_declares? (row : scope.form.isRow = true) (inside : declaration ∈ scope.children)
    (declares : declaration.declares? name space = some binding) :
    scope.Offers imports binding := by
  obtain ⟨bare, rfl | rfl⟩ := cases_of_declares? declares
  · exact .declared row inside bare
  · exact .named inside

theorem grants_inOrder (offers : scope.Offers imports binding) (declaredAt : Nat) (child : Node) :
    scope.Grants imports (inOrder binding declaredAt child) := by
  unfold inOrder
  split
  · split
    · nofun
    · split
      · nofun
      · exact offers
  · exact offers

theorem grants_of_topLevel? (row : scope.form.isRow = true) (inside : declaration ∈ scope.children)
    {index : Nat}
    (found : (declaration.topLevel? index child name space).answer imports = some lookup) :
    scope.Grants imports lookup := by
  unfold topLevel? at found
  split at found
  · obtain ⟨id, -, ha⟩ := Inquiry.mem_of_firstAnswer found
    split at ha
    · split at ha
      · rw [imported?, Inquiry.answer_bind] at ha
        split at ha
        · cases ha
          exact fun h => by cases h
        next target ht =>
        split at ha
        · next he =>
          cases ha
          obtain ⟨other, hx, hb⟩ := exists_of_findSome?_eq_some he
          exact .exported inside ((answer_load _ _).symm.trans ht) hx hb
        · split at ha <;> cases ha
          exact fun h => by cases h
      · cases ha
    · cases ha
  · next hf =>
    split at found
    · cases found
      exact .importedModule row inside hf
    · cases found
  · obtain ⟨other, hb, rfl⟩ := Option.map_eq_some_iff.mp found
    exact grants_inOrder (offers_of_declares? row inside hb) index child
  · obtain ⟨other, hb, rfl⟩ := Option.map_eq_some_iff.mp found
    exact offers_of_declares? row inside hb

theorem grants_of_paramBinding? (hp : scope.literalParams? = some params)
    (found : scope.paramBinding? params name = some lookup) : scope.Grants imports lookup := by
  obtain ⟨index, hi, rfl⟩ := Option.map_eq_some_iff.mp found
  refine .parameter (by rw [hp]; rfl) fun id hd => ?_
  rw [hp, Option.bind_some] at hd
  obtain ⟨hlt, same, -⟩ := findIdx?_eq_some_iff_getElem.mp hi
  rw [getElem?_eq_getElem hlt, Option.some.injEq] at hd
  rw [hd] at same
  split at same
  · next hf => exact ⟨_, _, hf⟩
  · cases same

/-- The first type parameter of a name is found as the search for it in a scope finds it. -/
theorem typeParamNamed?_eq_find? (scope : Node) (ids : List NodeId) (name : String) :
    scope.typeParamNamed? ids name = (ids.map scope.sibling).find? (·.isTypeParam name) := by
  induction ids with
  | nil => rfl
  | cons id ids ih =>
    rw [map_cons, find?_cons, ← ih, typeParamNamed?, findSome?_cons]
    unfold isTypeParam
    cases (scope.sibling id).form with
    | typeParam declared bound =>
      by_cases named : declared = name
      · simp [named]
      · simp [named, beq_eq_false_iff_ne.mpr named, typeParamNamed?]
    | _ => rfl

theorem grants_of_typeParamBinding? (hi : ids ⊆ scope.form.children)
    (found : scope.typeParamBinding? ids name = some lookup) : scope.Grants imports lookup := by
  obtain ⟨param, hp, rfl⟩ := Option.map_eq_some_iff.mp found
  rw [typeParamNamed?_eq_find?] at hp
  obtain ⟨id, listed, rfl⟩ := mem_map.mp (mem_of_find?_eq_some hp)
  exact .typeParam (mem_map_of_mem (hi listed))

theorem grants_of_scopeLookup?
    (found : (scope.scopeLookup? child name space).answer imports = some lookup) :
    scope.Grants imports lookup := by
  unfold scopeLookup? at found
  split at found
  · next hf =>
    obtain ⟨row, hr, ha⟩ := Inquiry.mem_of_firstAnswer found
    refine grants_of_topLevel? (by rw [hf]; rfl) (mem_map_of_mem ?_) ha
    rw [hf]
    exact fst_mem_of_mem_zipIdx hr
  · next hf =>
    obtain ⟨row, hr, rfl⟩ := Option.map_eq_some_iff.mp found
    have declares := find?_some hr
    refine grants_inOrder (.declared (by rw [hf]; rfl) (mem_map_of_mem ?_) ?_) _ _
    · rw [hf]
      exact fst_mem_of_mem_zipIdx (mem_of_find?_eq_some hr)
    · split at declares
      · next hl => rw [hl]; rfl
      · cases declares
  · next hf => exact grants_of_typeParamBinding? (by simp [hf, Form.children]) found
  · next hf => exact grants_of_paramBinding? (by rw [literalParams?, hf]) found
  · next hf => exact grants_of_typeParamBinding? (by simp [hf, Form.children]) found
  · next hf => exact grants_of_paramBinding? (by rw [literalParams?, hf]) found
  · next hf => exact grants_of_typeParamBinding? (by simp [hf, Form.children]) found
  · next hf => exact grants_of_typeParamBinding? (by simp [hf, Form.children]) found
  · next hf => exact grants_of_typeParamBinding? (by simp [hf, Form.children]) found
  · next hf =>
    change (if _ then _ else _) = _ at found
    split at found
    · cases found
      exact .loopItem hf
    · cases found
  · next hf =>
    change (if _ then _ else _) = _ at found
    split at found
    · cases found
    split at found
    · cases found
      nofun
    split at found
    · cases found
      exact .constant hf
    · cases found
  · cases found

/-- A name is found at a node because a node around it offers it. -/
theorem exists_offers_of_resolveIn {node : Node}
    (found : (node.resolveIn name space).answer imports = .ok binding) :
    ∃ scope ∈ node.ancestors, scope.Offers imports binding := by
  rw [resolveIn, Inquiry.answer_bind, Inquiry.answer_pure] at found
  cases hf : (Inquiry.firstAnswer (fun link : Node × Node =>
      link.2.scopeLookup? link.1 name space) node.enclosing).answer imports with
  | none =>
    rw [hf] at found
    cases found
  | some lookup =>
    rw [hf] at found
    obtain rfl : lookup = .ok binding := found
    obtain ⟨link, hl, ha⟩ := Inquiry.mem_of_firstAnswer hf
    exact ⟨link.2, mem_ancestors_of_enclosing hl, grants_of_scopeLookup? ha⟩

end Node

end ScriptCheck
