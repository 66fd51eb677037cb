import Mathlib.Data.List.Find
import ScriptCheck.Proofs.TransferredComparisons

/-!
# Names after a change

Type expressions are read and names are looked up from node to node. Where a change leaves the
nodes that are visited as they are, both give the same after it. Nodes that are no part of a type
expression and declare nothing may be replaced by others like them.
-/

namespace ScriptCheck

open Movable (move)
open Inquiry (Transfers)
open List Node

/-- What is made of an item is the same where the tests and what is made agree on the items. -/
theorem map_find?_congr {test test' : α → Bool} {make make' : α → β} {items : List α}
    (same : ∀ item ∈ items, test item = test' item)
    (makes : ∀ item ∈ items, make item = make' item) :
    (items.find? test).map make = (items.find? test').map make' := by
  rw [find?_congr same]
  cases hf : items.find? test' with
  | none => rfl
  | some item => exact congrArg some (makes item (mem_of_find?_eq_some hf))

/-- Positions are found alike by tests that agree on the items. -/
theorem findIdx?_congr {test test' : α → Bool} {items : List α}
    (same : ∀ item ∈ items, test item = test' item) :
    items.findIdx? test = items.findIdx? test' := by
  induction items with
  | nil => rfl
  | cons item rest ih =>
    rw [forall_mem_cons] at same
    rw [findIdx?_cons, findIdx?_cons, same.1, ih same.2]

/-- A node is among others exactly if the moved node is. -/
theorem Moving.contains_move (moving : Moving) (nodes : List Node) (node : Node) :
    (nodes.map (move moving)).contains (move moving node) = nodes.contains node := by
  rw [contains_eq_any_beq, contains_eq_any_beq, any_map]
  exact congrArg nodes.any (funext fun other => moving.sameAs node other)

theorem Form.isParam_of_bare (name : String) : ∀ form : Form, form.isBare = true →
    (match form with
      | .param declared _ => declared == name
      | _ => false) = false := by
  rintro (_ | _) <;> simp [isBare]

theorem Form.isLocal_of_bare (name : String) : ∀ form : Form, form.isBare = true →
    (match form with
      | .localDeclaration declared _ _ _ => declared == name
      | _ => false) = false := by
  rintro (_ | _) <;> simp [isBare]

/-- A type expression is read alike by the second reader, after the change. -/
def Transplant.Agree (graft : Transplant) (lower lower' : List Node → Node → Ty)
    (busy : List Node) (node : Node) : Prop :=
  lower' (busy.map (move graft)) (move graft node) = move graft (lower busy node)

/-- Nodes are the same after the change, or of no use to types and names before and after it. -/
structure Transplant.KeepsForms (graft : Transplant) : Prop where
  form {node : Node} : graft.visited node → (move graft node).form = node.form ∨
    node.form.isBare = true ∧ (move graft node).form.isBare = true
  sibling {node : Node} (id : NodeId) : graft.visited node → id ∈ node.form.children →
    (move graft node).sibling id = move graft (node.sibling id)
  child {node : Node} {id : NodeId} : graft.visited node → id ∈ node.form.children →
    graft.visited (node.sibling id)

/-- Type expressions are read alike after the change. -/
structure Transplant.Rereads (graft : Transplant) : Prop extends graft.KeepsForms where
  typeParam {node : Node} (name : String) : graft.visited node →
    (move graft node).typeParamInScope? name = (node.typeParamInScope? name).map (move graft) ∧
      ∀ param ∈ node.typeParamInScope? name, graft.visited param

namespace Node

section Bare

variable {node : Node} (bare : node.form.isBare = true)

include bare

/-- A bare node is no type parameter. -/
theorem isTypeParam_of_bare (name : String) : node.isTypeParam name = false := by
  unfold isTypeParam
  split <;> simp_all [Form.isBare]

/-- It declares none. -/
theorem typeParams_of_bare : node.form.typeParams = [] := by
  unfold Form.typeParams
  split <;> simp_all [Form.isBare]

theorem objectField?_of_bare (lower : Node → Ty) : objectField? lower node = none := by
  unfold objectField?
  split <;> simp_all [Form.isBare]

theorem declaredParam?_of_bare (lower : Node → Ty) : declaredParam? lower node = none := by
  unfold declaredParam?
  split <;> simp_all [Form.isBare]

/-- It stands for no type. -/
theorem parameterType_of_bare (lower : List Node → Node → Ty) (busy : List Node) :
    parameterType lower busy node = .unknown := by
  unfold parameterType
  split <;> simp_all [Form.isBare]

/-- It is read as no type. -/
theorem lowerStep_of_bare (lower : List Node → Node → Ty) (busy : List Node) :
    lowerStep lower busy node = .unknown := by
  unfold lowerStep
  cases hf : node.form with
  | module | identifier | property | invocation | pipe | escape => rfl
  | _ => simp [hf, Form.isBare] at bare

theorem isBareParam_of_bare : node.isBareParam = false := by
  unfold isBareParam
  cases hf : node.form with
  | param => simp [hf, Form.isBare] at bare
  | _ => rfl

/-- It takes no type from its context. -/
theorem needsContextWithin_of_bare (limit : Nat) : node.needsContextWithin (limit + 1) = false := by
  unfold needsContextWithin
  cases hf : node.form with
  | module | identifier | property | invocation | pipe | escape => rfl
  | _ => simp [hf, Form.isBare] at bare

/-- It is not exported. -/
theorem isExported_of_bare : node.isExported = false := by
  unfold isExported
  split <;> simp_all [Form.isBare]

/-- It declares no name for the file. -/
theorem topLevel?_of_bare (position : Nat) (child : Node) (name : String) (space : Namespace) :
    node.topLevel? position child name space = pure none := by
  have nothing : node.declares? name space = none := by
    cases space with
    | value => rw [declares?, valueName?_of_bare bare]; rfl
    | type => rw [declares?, typeName?_of_bare bare]; rfl
  unfold topLevel?
  rw [nothing]
  split <;> simp_all [Form.isBare]

/-- Nothing is found in a node that declares nothing. -/
theorem scopeLookup?_of_bare (single : node.form.isRow = false) :
    node.scopeLookup? child name space = pure none := by
  unfold scopeLookup?
  cases hf : node.form with
  | identifier | property | invocation | pipe | escape => cases space <;> rfl
  | module => simp [hf, Form.isRow] at single
  | _ => simp [hf, Form.isBare] at bare

end Bare

end Node

/-- The first answer is moved where each answer about the same items is. -/
theorem firstAnswer_moved [Movable α] {ask ask' : ι → Inquiry (Option α)} {items : List ι}
    (asks : ∀ item ∈ items, Transfers graft (ask item) (ask' item) fun _ => True) :
    Transfers graft (Inquiry.firstAnswer ask items) (Inquiry.firstAnswer ask' items)
      fun _ => True := by
  have found : Transfers graft (Inquiry.firstAnswer ask items)
      (Inquiry.firstAnswer ask' items) fun found => ∀ answer ∈ found, True :=
    .firstAnswer fun item hi => (asks item hi).mono fun _ _ _ _ => trivial
  exact found.mono fun _ _ => trivial

variable {ids : List NodeId}

namespace Transplant.KeepsForms

variable {graft : Transplant} (keeps : graft.KeepsForms) {node : Node} (hv : graft.visited node)

include keeps

/-- The children of a node become the children of the moved node. -/
theorem siblings (hv : graft.visited node) (hi : ids ⊆ node.form.children) :
    ids.map (move graft node).sibling = (ids.map node.sibling).map (move graft) := by
  rw [map_map]
  exact map_congr_left fun id hm => keeps.sibling id hv (hi hm)

/-- They come up where the node does. -/
theorem visits (hv : graft.visited node) (hi : ids ⊆ node.form.children) :
    ∀ other ∈ ids.map node.sibling, graft.visited other :=
  forall_mem_map.mpr fun _ hm => keeps.child hv (hi hm)

/-- What nodes describe is collected alike. -/
theorem filterMap_siblings [Movable α] {describe describe' : Node → Option α}
    (hv : graft.visited node) (hi : ids ⊆ node.form.children)
    (same : ∀ id ∈ ids, describe' (move graft (node.sibling id)) =
      (describe (node.sibling id)).map (move graft)) :
    (ids.map (move graft node).sibling).filterMap describe' =
      ((ids.map node.sibling).filterMap describe).map (move graft) := by
  rw [keeps.siblings hv hi, filterMap_map, map_filterMap, filterMap_map, filterMap_map]
  exact filterMap_congr same

include hv

theorem isTypeParam (name : String) :
    (move graft node).isTypeParam name = node.isTypeParam name := by
  rcases keeps.form hv with same | ⟨bare, bare'⟩
  · rw [Node.isTypeParam, Node.isTypeParam, same]
  · rw [isTypeParam_of_bare bare, isTypeParam_of_bare bare']

/-- The type parameter of a name among some children is the same one. -/
theorem find?_isTypeParam (hi : ids ⊆ node.form.children) (name : String) :
    (ids.map (move graft node).sibling).find? (·.isTypeParam name) =
      ((ids.map node.sibling).find? (·.isTypeParam name)).map (move graft) := by
  rw [keeps.siblings hv hi, find?_map]
  refine congrArg (Option.map _) (find?_congr fun param hp => ?_)
  exact keeps.isTypeParam (keeps.visits hv hi param hp) name

/-- A name is declared by the moved type parameter. -/
theorem ownTypeParam? (name : String) :
    (move graft node).ownTypeParam? name = (node.ownTypeParam? name).map (move graft) := by
  rw [Node.ownTypeParam?, Node.ownTypeParam?]
  rcases keeps.form hv with same | ⟨bare, bare'⟩
  · rw [same, keeps.find?_isTypeParam hv node.form.typeParams_subset]
  · rw [typeParams_of_bare bare, typeParams_of_bare bare']
    rfl

/-- A parameter has a type of its own or not, as before. -/
theorem isBareParam : (move graft node).isBareParam = node.isBareParam := by
  rcases keeps.form hv with same | ⟨bare, bare'⟩
  · rw [Node.isBareParam, Node.isBareParam, same]
  · rw [isBareParam_of_bare bare, isBareParam_of_bare bare']

/-- A literal depends on its context as it does before the change. -/
theorem needsContext (size : (move graft node).script.size = node.script.size) :
    (move graft node).needsContext = node.needsContext := by
  have within (limit : Nat) : ∀ node : Node, graft.visited node →
      (move graft node).needsContextWithin limit = node.needsContextWithin limit := by
    induction limit with
    | zero => exact fun _ _ => rfl
    | succ limit ih =>
      intro node hv
      have params {ids : List NodeId} (hi : ids ⊆ node.form.children) :
          (ids.any fun id => ((move graft node).sibling id).isBareParam) =
            ids.any fun id => (node.sibling id).isBareParam := by
        rw [Bool.eq_iff_iff, any_eq_true, any_eq_true]
        refine exists_congr fun id => and_congr_right fun hm => ?_
        rw [keeps.sibling id hv (hi hm), keeps.isBareParam (keeps.child hv (hi hm))]
      rcases keeps.form hv with same | ⟨bare, bare'⟩
      · rw [Node.needsContextWithin, Node.needsContextWithin, same]
        cases hf : node.form with
        | func | proc => exact params (by simp +contextual [hf, Form.children, subset_def])
        | parenthesized inner =>
          have hi : inner ∈ node.form.children := by simp [hf, Form.children]
          show ((move graft node).sibling inner).needsContextWithin limit = _
          rw [keeps.sibling inner hv hi]
          exact ih _ (keeps.child hv hi)
        | _ => rfl
      · rw [needsContextWithin_of_bare bare limit, needsContextWithin_of_bare bare' limit]
  rw [Node.needsContext, Node.needsContext, size]
  exact within _ node hv

end Transplant.KeepsForms

namespace Transplant.Rereads

variable {graft : Transplant} (rereads : graft.Rereads) {node : Node} (hv : graft.visited node)

include rereads hv

section Reading

variable {read read' : Node → Ty} (reads : ∀ id ∈ node.form.children,
  read' (move graft (node.sibling id)) = move graft (read (node.sibling id)))

include reads

/-- A field is read alike if its type is. -/
theorem objectField? : Node.objectField? read' (move graft node) =
    (Node.objectField? read node).map (move graft) := by
  rcases rereads.form hv with same | ⟨bare, bare'⟩
  · rw [Node.objectField?, Node.objectField?, same]
    split
    · next value hf =>
      have hi : value ∈ node.form.children := by rw [hf]; exact mem_singleton_self _
      rw [rereads.sibling value hv hi, reads value hi]
      rfl
    · rfl
  · rw [objectField?_of_bare bare, objectField?_of_bare bare']
    rfl

theorem declaredParam? : Node.declaredParam? read' (move graft node) =
    (Node.declaredParam? read node).map (move graft) := by
  rcases rereads.form hv with same | ⟨bare, bare'⟩
  · rw [Node.declaredParam?, Node.declaredParam?, same]
    split
    · next name ascription hf =>
      cases ascription with
      | none => rfl
      | some id =>
        have hi : id ∈ node.form.children := by rw [hf]; exact mem_singleton_self _
        simp only [Option.map_some, rereads.sibling id hv hi, reads id hi]
        rfl
    · rfl
  · rw [declaredParam?_of_bare bare, declaredParam?_of_bare bare']
    rfl

omit rereads hv reads in
/-- A type parameter is declared with the moved bound. -/
theorem declaredTypeParam? (reads : read' (move graft node) = move graft (read node)) :
    Node.declaredTypeParam? read' (move graft node) =
      (Node.declaredTypeParam? read node).map (move graft) := by
  rw [Node.declaredTypeParam?, Node.declaredTypeParam?, reads]
  cases read node with
  | generic name bound =>
    rw [Ty.move_generic]
    rfl
  | _ => rfl

end Reading

section Steps

variable {lower lower' : List Node → Node → Ty} {busy : List Node}

/-- A type parameter stands for the moved type, unless its bound is being read. -/
theorem parameterType (bound : busy.contains node = false → ∀ id ∈ node.form.children,
      graft.Agree lower lower' (node :: busy) (node.sibling id)) :
    Node.parameterType lower' (busy.map (move graft)) (move graft node) =
      move graft (Node.parameterType lower busy node) := by
  rcases rereads.form hv with same | ⟨bare, bare'⟩
  · rw [Node.parameterType, Node.parameterType, same]
    split
    · next name inner hf =>
      rw [graft.contains_move]
      split
      · rw [Ty.move_generic, Option.map_none]
      · next idle =>
        rw [Ty.move_generic, Option.map_map]
        cases inner with
        | none => rfl
        | some id =>
          have hi : id ∈ node.form.children := by rw [hf]; exact mem_singleton_self _
          have bound := bound (by simpa using idle) id hi
          rw [Agree, ← rereads.sibling id hv hi] at bound
          exact congrArg (fun bound => Ty.generic name (some bound)) bound
    · rfl
  · rw [parameterType_of_bare bare, parameterType_of_bare bare']
    rfl

/-- The type of a type expression is read alike if the types inside it are, and the bounds of type
parameters that are not being read. -/
theorem lowerStep
    (inside : ∀ id ∈ node.form.children, graft.Agree lower lower' busy (node.sibling id))
    (deeper : ∀ outer ∈ node.form.children, ∀ id ∈ (node.sibling outer).form.children,
      graft.Agree lower lower' busy (node.sibling id))
    (bounds : ∀ param : Node, graft.visited param → param.script = node.script →
      busy.contains param = false → ∀ id ∈ param.form.children,
        graft.Agree lower lower' (param :: busy) (param.sibling id)) :
    Node.lowerStep lower' (busy.map (move graft)) (move graft node) =
      move graft (Node.lowerStep lower busy node) := by
  rcases rereads.form hv with same | ⟨bare, bare'⟩
  swap
  · rw [lowerStep_of_bare bare, lowerStep_of_bare bare']
    rfl
  have child (id : NodeId) (hi : id ∈ node.form.children) :
      lower' (busy.map (move graft)) ((move graft node).sibling id) =
        move graft (lower busy (node.sibling id)) := by
    rw [rereads.sibling id hv hi]
    exact inside id hi
  have all {ids : List NodeId} (hi : ids ⊆ node.form.children) :
      (ids.map fun id => lower' (busy.map (move graft)) ((move graft node).sibling id)) =
        (ids.map fun id => lower busy (node.sibling id)).map (move graft) := by
    rw [map_map]
    exact map_congr_left fun id hm => child id (hi hm)
  have typeParams {ids : List NodeId} (hi : ids ⊆ node.form.children) :=
    rereads.filterMap_siblings hv hi fun id hm => declaredTypeParam?
      (rereads.parameterType (rereads.child hv (hi hm)) (bounds _ (rereads.child hv (hi hm)) rfl))
  have params {ids : List NodeId} (hi : ids ⊆ node.form.children) :=
    rereads.filterMap_siblings hv hi fun id hm =>
      rereads.declaredParam? (rereads.child hv (hi hm)) (deeper id (hi hm))
  unfold Node.lowerStep
  simp only [same]
  split
  · next primitive _ => cases primitive <;> rfl
  · rfl
  · next name args hf =>
    have scope := rereads.typeParam name hv
    rw [scope.1]
    cases hp : node.typeParamInScope? name with
    | none =>
      rw [all (by simp [hf, Form.children]), Ty.move_named]
      rfl
    | some param =>
      have hs := script_of_typeParamInScope hp
      exact rereads.parameterType (scope.2 param hp) (bounds param (scope.2 param hp) hs)
  · next hf => rw [all (by simp [hf, Form.children]), Ty.unionOf_move]
  · next hf => rw [child _ (by simp [hf, Form.children]), Ty.move_array]
  · next hf => rw [all (by simp [hf, Form.children]), Ty.move_tuple]
  · next entries hf =>
    have he : entries ⊆ node.form.children := by simp [hf, Form.children]
    rw [rereads.filterMap_siblings hv he fun id hm =>
      rereads.objectField? (rereads.child hv (he hm)) (deeper id (he hm)), Ty.move_object]
  · next hf =>
    rw [child _ (by simp [hf, Form.children]), child _ (by simp [hf, Form.children]),
      Ty.move_indexer]
  · next hf =>
    rw [typeParams (by simp [hf, Form.children, append_assoc]),
      params (by simp [hf, Form.children]), child _ (by simp [hf, Form.children]), Ty.move_func]
  · next hf =>
    rw [typeParams (by simp [hf, Form.children]), params (by simp [hf, Form.children]), Ty.move_proc]
  · next hf => rw [child _ (by simp [hf, Form.children]), Ty.move_iterator]
  · next hf => rw [child _ (by simp [hf, Form.children]), Ty.move_plan]
  · next hf => rw [child _ (by simp [hf, Form.children]), Ty.move_readonly]
  · next hf => exact child _ (by simp [hf, Form.children])
  · rfl

end Steps

/-- Type expressions are read as the moved types: by induction on how deep they are nested. -/
theorem lowerWithin (limit : Nat) (busy : List Node) :
    Node.lowerWithin limit (busy.map (move graft)) (move graft node) =
      move graft (Node.lowerWithin limit busy node) := by
  induction limit generalizing busy node with
  | zero => rfl
  | succ limit ih =>
    exact rereads.lowerStep hv (fun _ hi => ih (rereads.child hv hi) busy)
      (fun _ ho _ hi => ih (rereads.child (rereads.child hv ho) hi) busy)
      fun _ hp _ _ _ hi => ih (rereads.child hp hi) _

/-- Type expressions have the moved types in a script of the same size. -/
theorem lower (size : (move graft node).script.size = node.script.size) :
    (move graft node).lower = move graft node.lower := by
  rw [Node.lower, Node.lower, Node.loweringLimit, Node.loweringLimit, size]
  exact rereads.lowerWithin hv _ []

/-- A type parameter stands for the moved type. -/
theorem asTypeParameter (size : (move graft node).script.size = node.script.size) :
    (move graft node).asTypeParameter = move graft node.asTypeParameter := by
  rw [Node.asTypeParameter, Node.asTypeParameter, Node.loweringLimit, Node.loweringLimit, size]
  exact @parameterType _ rereads _ hv _ _ [] fun _ _ hi =>
    rereads.lowerWithin (rereads.child hv hi) _ _

end Transplant.Rereads

/-- Names are looked up alike after the change. -/
structure Transplant.Renames (graft : Transplant) : Prop extends graft.Rereads where
  lower {node : Node} : graft.visited node → (move graft node).lower = move graft node.lower
  asTypeParameter {node : Node} : graft.visited node →
    (move graft node).asTypeParameter = move graft node.asTypeParameter
  /-- Scripts export the same, to whoever imports them. -/
  imports {node : Node} (path : String) : graft.visited node →
    graft.after (move graft node).script path = (graft.before node.script path).map (move graft) ∧
      ∀ target ∈ graft.before node.script path,
        (move graft target).declarations.filter Node.isExported =
            (target.declarations.filter Node.isExported).map (move graft) ∧
          ∀ declaration ∈ target.declarations.filter Node.isExported, graft.visited declaration

namespace Transplant.Renames

variable {graft : Transplant} (renames : graft.Renames) {node child : Node}
  (hv : graft.visited node) (name : String) (space : Namespace)

include renames hv

theorem typeParamSlots (hi : ids ⊆ node.form.children) : (move graft node).typeParamSlots ids =
      (node.typeParamSlots ids).map (move graft) :=
  renames.filterMap_siblings hv hi fun _ hm =>
    Rereads.declaredTypeParam? (renames.asTypeParameter (renames.child hv (hi hm)))

theorem valueName? : (move graft node).valueName? = node.valueName? := by
  rcases renames.form hv with same | ⟨bare, bare'⟩
  · rw [Node.valueName?, Node.valueName?, same]
  · rw [valueName?_of_bare bare, valueName?_of_bare bare']

theorem typeName? : (move graft node).typeName? = node.typeName? := by
  rcases renames.form hv with same | ⟨bare, bare'⟩
  · rw [Node.typeName?, Node.typeName?, same]
  · rw [typeName?_of_bare bare, typeName?_of_bare bare']

/-- A declaration that stays as it is gives its name to the moved type. -/
theorem namedTypeBinding (same : (move graft node).form = node.form) :
    (move graft node).namedTypeBinding = move graft node.namedTypeBinding := by
  unfold Node.namedTypeBinding
  simp only [same]
  split
  · next value nominal _ hf =>
    have hi : value ∈ node.form.children := by simp [hf, Form.children]
    rw [renames.sibling value hv hi, renames.lower (renames.child hv hi),
      renames.typeParamSlots hv (by simp [hf, Form.children])]
    split <;> rfl
  · rfl
  · rfl

/-- A declaration makes the moved thing of a name. -/
theorem declares? : (move graft node).declares? name space =
    (node.declares? name space).map (move graft) := by
  cases space with
  | value =>
    simp only [Node.declares?, renames.valueName? hv]
    split <;> rfl
  | type =>
    simp only [Node.declares?, renames.typeName? hv]
    split
    · next named =>
      rcases renames.form hv with same | ⟨bare, -⟩
      · rw [renames.namedTypeBinding hv same]
        rfl
      · rw [typeName?_of_bare bare] at named
        cases named
    · rfl

/-- A list of type parameters makes the moved type of a name. -/
theorem typeParamBinding? (hi : ids ⊆ node.form.children) :
    (move graft node).typeParamBinding? ids name =
      (node.typeParamBinding? ids name).map (move graft) := by
  rw [Node.typeParamBinding?, Node.typeParamBinding?, typeParamNamed?_eq_find?,
    typeParamNamed?_eq_find?, renames.find?_isTypeParam hv hi, Option.map_map, Option.map_map]
  cases ho : (ids.map node.sibling).find? (·.isTypeParam name) with
  | none => rfl
  | some param =>
    have visited := renames.visits hv hi param (mem_of_find?_eq_some ho)
    simp only [Option.map_some, Function.comp_apply, renames.asTypeParameter visited]
    rfl

/-- A parameter is found in the same place. -/
theorem paramBinding? {params : List NodeId} (hi : params ⊆ node.form.children) :
    (move graft node).paramBinding? params name =
      (node.paramBinding? params name).map (move graft) := by
  rw [Node.paramBinding?, Node.paramBinding?, Option.map_map]
  refine congrArg (Option.map _) (findIdx?_congr fun id hm => ?_)
  rw [renames.sibling id hv (hi hm)]
  rcases renames.form (renames.child hv (hi hm)) with same | ⟨bare, bare'⟩
  · rw [same]
  · exact (Form.isParam_of_bare name _ bare').trans (Form.isParam_of_bare name _ bare).symm

omit renames hv in
/-- What is declared too late stays so. -/
theorem inOrder (index : (move graft child).siblingIndex = child.siblingIndex)
    (binding : Binding) (declaredAt : Nat) :
    Node.inOrder (move graft binding) declaredAt (move graft child) =
      move graft (Node.inOrder binding declaredAt child) := by
  simp only [Node.inOrder, index]
  split
  · split
    · rfl
    · split <;> rfl
  · rfl

/-- The same statement declares a name. -/
theorem localBinding? (index : (move graft child).siblingIndex = child.siblingIndex)
    {statements : List NodeId} (hi : statements ⊆ node.form.children) :
    (move graft node).localBinding? statements (move graft child) name =
      (node.localBinding? statements child name).map (move graft) := by
  have inside {row : NodeId × Nat} (hr : row ∈ statements.zipIdx) : row.1 ∈ node.form.children :=
    hi (fst_mem_of_mem_zipIdx hr)
  rw [Node.localBinding?, Node.localBinding?, Option.map_map]
  refine map_find?_congr (fun row hr => ?_) fun row hr => ?_
  · rw [renames.sibling row.1 hv (inside hr)]
    rcases renames.form (renames.child hv (inside hr)) with same | ⟨bare, bare'⟩
    · rw [same]
    · exact (Form.isLocal_of_bare name _ bare').trans (Form.isLocal_of_bare name _ bare).symm
  · rw [Function.comp_apply, ← inOrder index, renames.sibling row.1 hv (inside hr)]
    rfl

/-- The moved script is imported, with the moved declarations exported. -/
theorem load (path : String) : Transfers graft (node.load path)
    ((move graft node).load path) fun found => ∀ target ∈ found,
      (move graft target).declarations.filter Node.isExported =
          (target.declarations.filter Node.isExported).map (move graft) ∧
        ∀ declaration ∈ target.declarations.filter Node.isExported, graft.visited declaration := by
  have imports := renames.imports path hv
  constructor
  · rw [answer_load]
    exact imports.2
  · rw [answer_load, answer_load]
    exact imports.1

/-- An import makes the moved thing of a name. -/
theorem imported? (path : String) : Transfers graft (node.imported? path name space)
    ((move graft node).imported? path name space) fun _ => True := by
  refine .bind (renames.load hv path) fun found hf => ?_
  cases found with
  | none => exact .pure trivial rfl
  | some target =>
    obtain ⟨exported, visits⟩ := hf target rfl
    have export? (space : Namespace) : (move graft target).export? name space =
        (target.export? name space).map (move graft) := by
      rw [Script.export?, Script.export?, exported]
      generalize target.declarations.filter Node.isExported = declarations at visits
      induction declarations with
      | nil => rfl
      | cons declaration rest ih =>
        rw [forall_mem_cons] at visits
        rw [map_cons, findSome?_cons, findSome?_cons, renames.declares? visits.1 name space]
        cases declaration.declares? name space with
        | none => exact ih visits.2
        | some binding => rfl
    simp only [move_option, Option.map_some, export?]
    cases target.export? name space with
    | some binding => exact .pure trivial rfl
    | none =>
      exact .ite (by rw [Option.isSome_map]) (fun _ => .pure trivial rfl) fun _ => .pure trivial rfl

/-- A declaration of the file makes the moved thing of a name. -/
theorem topLevel? (index : (move graft child).siblingIndex = child.siblingIndex) (position : Nat) :
    Transfers graft (node.topLevel? position child name space)
      ((move graft node).topLevel? position (move graft child) name space)
      fun _ => True := by
  rcases renames.form hv with same | ⟨bare, bare'⟩
  · unfold Node.topLevel?
    simp only [same]
    split
    · next path items hf =>
      refine firstAnswer_moved fun id hi => ?_
      have hi : id ∈ node.form.children := by rw [hf]; exact hi
      rw [renames.sibling id hv hi]
      rcases renames.form (renames.child hv hi) with same | ⟨bare, bare'⟩
      · rw [same]
        split
        · exact .ite .rfl (fun _ => renames.imported? hv _ space path) fun _ => .pure trivial rfl
        · exact .pure trivial rfl
      · split
        · next hi => rw [hi] at bare; cases bare
        · split
          · next hi => rw [hi] at bare'; cases bare'
          · exact .pure trivial rfl
    · exact .ite .rfl (fun _ => .pure trivial rfl) fun _ => .pure trivial rfl
    · rw [renames.declares? hv, Option.map_map]
      refine .pure trivial ?_
      rw [move_option, Option.map_map]
      exact congrArg (Option.map · _) (funext fun binding => inOrder index binding position)
    · rw [renames.declares? hv, Option.map_map]
      refine .pure trivial ?_
      rw [move_option, Option.map_map]
      rfl
  · rw [topLevel?_of_bare bare, topLevel?_of_bare bare']
    exact .pure trivial rfl

/-- What an enclosing node makes of a name is the same where the node is. -/
theorem scopeLookup? (same : (move graft node).form = node.form)
    (index : (move graft child).siblingIndex = child.siblingIndex)
    (hi : (move graft child).id = child.id) :
    Transfers graft (node.scopeLookup? child name space)
      ((move graft node).scopeLookup? (move graft child) name space)
      fun _ => True := by
  unfold Node.scopeLookup?
  simp only [same, hi]
  split
  · next declarations hf =>
    refine firstAnswer_moved fun row hr => ?_
    have inside : row.1 ∈ node.form.children := by
      rw [hf]
      exact fst_mem_of_mem_zipIdx hr
    rw [renames.sibling row.1 hv inside]
    exact renames.topLevel? (renames.child hv inside) name _ index row.2
  · next hf => exact .pure trivial (renames.localBinding? hv name index (by simp [hf, Form.children]))
  · next hf => exact .pure trivial (renames.typeParamBinding? hv name (by simp [hf, Form.children]))
  · next hf =>
    exact .pure trivial (renames.paramBinding? hv name
      (by simp +contextual [hf, Form.children, subset_def]))
  · next hf => exact .pure trivial (renames.typeParamBinding? hv name (by simp [hf, Form.children]))
  · next hf =>
    exact .pure trivial (renames.paramBinding? hv name
      (by simp +contextual [hf, Form.children, subset_def]))
  · next hf => exact .pure trivial (renames.typeParamBinding? hv name (by simp [hf, Form.children]))
  · next hf => exact .pure trivial (renames.typeParamBinding? hv name (by simp [hf, Form.children]))
  · next hf => exact .pure trivial (renames.typeParamBinding? hv name (by simp [hf, Form.children]))
  · refine .pure trivial ?_
    split
    · rfl
    · rfl
  · refine .pure trivial ?_
    split
    · rfl
    · split
      · rfl
      · split <;> rfl
  · exact .pure trivial rfl

end Transplant.Renames

end ScriptCheck
