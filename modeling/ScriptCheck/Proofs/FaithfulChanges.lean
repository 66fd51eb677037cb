import ScriptCheck.Proofs.Pairings
import ScriptCheck.Proofs.TransferredNames

/-!
# Faithful changes

A change is faithful when it leaves the nodes that are asked about as they are, along with what
is found around them: what the names in them stand for, what is expected of them and the stores
they are in. Only names, calls and escapes may become others of them.
-/

namespace ScriptCheck

open Movable (move)
open List

/-- The name that an expression looks up among values. -/
def Form.valueUsed? : Form → Option String
  | .identifier name => some name
  | .property _ name _ => some name
  | _ => none

theorem Form.isMember_of_operand (name : String) : ∀ form : Form, form.isOperand = true →
    (match form with
      | .storeMember _ declared _ _ => declared == name
      | _ => false) = false := by
  rintro (_ | _) <;> simp [isOperand]

theorem Node.outcome?_of_operand {node : Node} (operand : node.form.isOperand = true) :
    node.outcome? = none := by
  unfold outcome?
  split <;> simp_all [Form.isOperand]

namespace Transplant

variable (graft : Transplant)

/-- A node that is the same after the change, with children that are asked about. -/
structure Opens (situation : Situation) (node : Node) : Prop where
  form : (move graft node).form = node.form
  sibling : ∀ id ∈ node.form.children, (move graft node).sibling id = move graft (node.sibling id)
  asks : ∀ id ∈ node.form.children, graft.asked situation (node.sibling id)

/-- A parameter of a literal can be asked about, and what is expected of the literal if no type
is written for the parameter. -/
structure OpensParam (situation : Situation) (holder : Node) (index : Nat) : Prop where
  opens : graft.Opens situation holder
  param : ∀ id, holder.literalParams?.bind (·[index]?) = some id →
    graft.Opens situation (holder.sibling id) ∧
      ((∀ name ascription, (holder.sibling id).form ≠ .param name (some ascription)) →
        graft.awaited situation holder)

/-- What a name stands for can be asked about. -/
def OpensBinding (situation : Situation) : Binding → Prop
  | .declared declaration => graft.asked situation declaration ∧ graft.Opens situation declaration
  | .parameter holder index => graft.OpensParam situation holder index
  | .type _ _ => True
  | .importedModule importing => graft.visited importing ∧ graft.Opens situation importing
  | .loopItem forLoop => graft.Opens situation forLoop

/-- What a name was found to be, if anything, can be asked about. -/
def OpensLookup (situation : Situation) (lookup : Lookup) : Prop :=
  ∀ binding, lookup = .ok binding → graft.OpensBinding situation binding

/-- The declarations of a script are the same after the change and can be asked about. -/
structure OpensScript (script : Script) : Prop where
  declarations : (move graft script).declarations = script.declarations.map (move graft)
  asks : ∀ declaration ∈ script.declarations, ∀ situation, graft.asked situation declaration

/-- A change that makes no difference to what is asked about nodes and what is inside of them. -/
structure KeepsInside : Prop where
  /-- Type expressions are read alike. -/
  lower : graft.visited node →
    (move graft node).lower = move graft node.lower ∧ graft.Writes node.lower
  asTypeParameter : graft.visited node →
    (move graft node).asTypeParameter = move graft node.asTypeParameter ∧
      graft.Writes node.asTypeParameter
  id : graft.visited node → (move graft node).id = node.id
  typeNames : graft.KeepsTypeNames
  /-- Only a name, a call or an escape may be another one after the change. -/
  opens : graft.asked situation node → graft.Opens situation node ∨
      node.form.isOperand = true ∧ (move graft node).form.isOperand = true
  visited_of_asked : graft.asked situation node → graft.visited node
  asked_expecting (other : Node) (type : Ty) :
    graft.asked situation node → graft.asked (situation.expecting other type) node
  needsContext : graft.asked situation node → (move graft node).needsContext = node.needsContext
  /-- A parameter belongs to a literal that can be asked about, or to none at all. -/
  param : graft.asked situation node → node.form = .param name ascription →
    (∃ holder, node.parent = some holder ∧ (move graft node).parent = some (move graft holder) ∧
        graft.asked situation holder ∧ graft.Opens situation holder) ∨
      (∀ holder ∈ node.parent, holder.literalParams? = none) ∧
        ∀ holder ∈ (move graft node).parent, holder.literalParams? = none
  this : graft.asked situation node → node.form = .this →
    (move graft node).enclosingStore? = node.enclosingStore?.map (move graft) ∧
      ∀ store ∈ node.enclosingStore?, graft.allowed (.store store)
  stores (situation : Situation) :
    graft.allowed (.store declaration) → graft.Opens situation declaration
  declaredStores : graft.asked situation declaration →
    declaration.form = .storeDeclaration name members exported →
    graft.allowed (.store declaration)
  imports (path : String) : graft.visited node → graft.after (move graft node).script path =
        (graft.before node.script path).map (move graft) ∧
      ∀ target ∈ graft.before node.script path, graft.OpensScript target

/-- A change that makes no difference to what is found around nodes either. -/
structure Faithful : Prop extends graft.KeepsInside where
  valueNames : graft.asked situation node → node.form.valueUsed? = some name →
    Inquiry.Transfers graft (node.resolveIn name .value)
      ((move graft node).resolveIn name .value) (graft.OpensLookup situation)
  /-- What is expected is asked only of literals that need it. -/
  awaits : graft.asked situation node → node.needsContext = true → graft.awaited situation node
  visited_of_awaited : graft.awaited situation node → graft.visited node
  parent : graft.awaited situation node → situation.recorded? node = none →
    (move graft node).parent = node.parent.map (move graft)
  /-- What is not on record is asked of the construct around a node, which is a module only
  where nothing is expected. -/
  around {node parent : Node} : graft.awaited situation node →
    situation.recorded? node = none → node.parent = some parent →
    graft.Opens situation parent ∧
        (∀ inner, parent.form = .parenthesized inner → graft.awaited situation parent) ∨
      (∃ declarations, parent.form = .module declarations) ∧
        ∃ declarations, (move graft parent).form = .module declarations
  recorded (node : Node) : graft.together situation situation' →
    situation'.recorded? (move graft node) = (situation.recorded? node).map (move graft) ∧
      ∀ type ∈ situation.recorded? node, graft.Writes type
  expecting (node : Node) {type : Ty} : graft.together situation situation' → graft.Writes type →
    graft.together (situation.expecting node type)
      (situation'.expecting (move graft node) (move graft type))

end Transplant

section Nodes

variable {graft : Transplant} {situation : Situation} {node : Node}

namespace Transplant.Opens

section

variable (opens : graft.Opens situation node)
include opens

theorem children : (move graft node).children = node.children.map (move graft) := by
  rw [Node.children, Node.children, opens.form, map_map]
  exact map_congr_left opens.sibling

/-- Some of the children, in any order. -/
theorem siblings (hi : ids ⊆ node.form.children) :
    ids.map (move graft node).sibling = (ids.map node.sibling).map (move graft) := by
  rw [map_map]
  exact map_congr_left fun id hm => opens.sibling id (hi hm)

theorem asks_siblings (hi : ids ⊆ node.form.children) :
    ∀ other ∈ ids.map node.sibling, graft.asked situation other :=
  forall_mem_map.mpr fun id hm => opens.asks id (hi hm)

theorem literalParams? : (move graft node).literalParams? = node.literalParams? := by
  rw [Node.literalParams?, Node.literalParams?, opens.form]

theorem storeType : (move graft node).storeType = move graft node.storeType := by
  rw [Node.storeType, Node.storeType, opens.form]
  cases node.form <;> rfl

end

end Transplant.Opens

namespace Transplant.KeepsInside

variable (keeps : graft.KeepsInside)
include keeps

/-- A node that is asked about is the same after the change if it is no name, call or escape. -/
theorem opens_of_form (asked : graft.asked situation node)
    (other : node.form.isOperand = false) : graft.Opens situation node := by
  refine (keeps.opens asked).resolve_right fun changed => ?_
  rw [other] at changed
  cases changed.1

/-- A type that is written in a node that is the same after the change. -/
theorem lower_child (opens : graft.Opens situation node) (id : NodeId)
    (hi : id ∈ node.form.children) :
    ((move graft node).sibling id).lower = move graft (node.sibling id).lower ∧
      graft.Writes (node.sibling id).lower := by
  rw [opens.sibling id hi]
  exact keeps.lower (keeps.visited_of_asked (opens.asks id hi))

/-- The type parameters of a node that is the same after the change. -/
theorem typeParamSlots (opens : graft.Opens situation node) (hi : ids ⊆ node.form.children) :
    (move graft node).typeParamSlots ids = (node.typeParamSlots ids).map (move graft) ∧
      ∀ type ∈ slotTypes (node.typeParamSlots ids), graft.Writes type := by
  have read : ∀ param ∈ ids.map node.sibling,
      (move graft param).asTypeParameter = move graft param.asTypeParameter ∧
        graft.Writes param.asTypeParameter := fun param hp =>
    keeps.asTypeParameter (keeps.visited_of_asked (opens.asks_siblings hi param hp))
  constructor
  · rw [Node.typeParamSlots, Node.typeParamSlots, opens.siblings hi, filterMap_map, map_filterMap]
    refine filterMap_congr fun param hp => ?_
    rw [Function.comp_apply, Node.declaredTypeParam?, Node.declaredTypeParam?, (read param hp).1]
    cases param.asTypeParameter with
    | generic name bound =>
      rw [Ty.move_generic]
      rfl
    | _ => rfl
  · exact Node.Reads.declaredTypeParams fun param hp => (read param hp).2

/-- The parameters of a node that is the same after the change, with the types written for
them. -/
theorem paramSlots (opens : graft.Opens situation node) (hi : ids ⊆ node.form.children) :
    (move graft node).paramSlots ids = (node.paramSlots ids).map (move graft) ∧
      ∀ type ∈ slotTypes (node.paramSlots ids), graft.Writes type := by
  have declared : ∀ param ∈ ids.map node.sibling,
      Node.declaredParam? Node.lower (move graft param) =
          (Node.declaredParam? Node.lower param).map (move graft) ∧
        ∀ slot ∈ Node.declaredParam? Node.lower param, ∀ type ∈ slot.type, graft.Writes type := by
    intro param hp
    rcases keeps.opens (opens.asks_siblings hi param hp) with opens | ⟨operand, operand'⟩
    · rw [Node.declaredParam?, Node.declaredParam?, opens.form]
      split
      · next name ascription hf =>
        cases ascription with
        | none => exact ⟨rfl, by simp⟩
        | some id =>
          have read := keeps.lower_child opens id (by simp [hf, Form.children])
          simp only [Option.map_some, read.1]
          exact ⟨rfl, by simpa using read.2⟩
      · exact ⟨rfl, by simp⟩
    · rw [Node.declaredParam?_of_bare (Form.isBare_of_isOperand operand),
        Node.declaredParam?_of_bare (Form.isBare_of_isOperand operand')]
      exact ⟨rfl, by simp⟩
  constructor
  · rw [Node.paramSlots, Node.paramSlots, opens.siblings hi, filterMap_map, map_filterMap]
    exact filterMap_congr fun param hp => (declared param hp).1
  · intro type ht
    obtain ⟨slot, hs, he⟩ := mem_slotTypes.mp ht
    obtain ⟨param, hp, hd⟩ := mem_filterMap.mp hs
    exact (declared param hp).2 slot hd type he

/-- What an arm gives can be asked about. -/
theorem outcome? (asked : graft.asked situation node) :
    (move graft node).outcome? = node.outcome?.map (move graft) ∧
      ∀ outcome ∈ node.outcome?, graft.asked situation outcome := by
  rcases keeps.opens asked with opens | ⟨operand, operand'⟩
  · rw [Node.outcome?, Node.outcome?, opens.form]
    split
    iterate 2
      · next hf =>
        rw [opens.sibling _ (by simp [hf, Form.children])]
        exact ⟨rfl, by simpa using opens.asks _ (by simp [hf, Form.children])⟩
    · exact ⟨rfl, by simp⟩
  · rw [Node.outcome?_of_operand operand, Node.outcome?_of_operand operand']
    exact ⟨rfl, by simp⟩

/-- The members of a store are found alike, and can be asked about. -/
theorem storeMember? (allowed : graft.allowed (.store node)) (name : String)
    (situation : Situation) :
    (move graft node).storeMember? name = (node.storeMember? name).map (move graft) ∧
      ∀ member ∈ node.storeMember? name, graft.Opens situation member := by
  have opens := keeps.stores situation allowed
  have asks : ∀ child ∈ node.children, graft.asked situation child :=
    opens.asks_siblings (List.Subset.refl _)
  constructor
  · rw [Node.storeMember?, Node.storeMember?, opens.children, find?_map]
    refine congrArg (Option.map _) (find?_congr fun child hc => ?_)
    rw [Function.comp_apply]
    rcases keeps.opens (asks child hc) with opens | ⟨operand, operand'⟩
    · rw [opens.form]
    · exact (Form.isMember_of_operand name _ operand').trans
        (Form.isMember_of_operand name _ operand).symm
  · intro member hm
    have found := find?_some hm
    refine keeps.opens_of_form (asks member (mem_of_find?_eq_some hm)) ?_
    by_contra operand
    cases (Form.isMember_of_operand name _ (Bool.of_not_eq_false operand)).symm.trans found

end Transplant.KeepsInside

end Nodes

/-! ### References to declarations -/

/-- A store is referred to by its declaration. -/
def Reference.IsDeclared : Reference → Prop
  | .name _ _ => True
  | .store declaration => declaration.form.isStore = true

theorem Form.isStore_of_bare {form : Form} (bare : form.isBare = true) : form.isStore = false := by
  cases form with
  | storeDeclaration => cases bare
  | _ => rfl

namespace Node

/-- Type expressions refer to stores by their declarations. -/
theorem reads_isDeclared : Reads (fun _ => True) Reference.IsDeclared where
  child _ _ := trivial
  typeParam _ _ := trivial
  name _ _ _ := trivial
  store {node _ _ _} _ hf := by
    show node.form.isStore = true
    rw [hf]
    rfl

/-- A type that is found refers to stores by their declarations. -/
theorem formed_of_resolveIn {node : Node}
    (found : (node.resolveIn name .type).answer imports = .ok (.type type params)) :
    type.Formed Reference.IsDeclared strict ∧
      ∀ type ∈ slotTypes params, type.Formed Reference.IsDeclared strict := by
  obtain ⟨scope, -, offers⟩ := exists_offers_of_resolveIn found
  generalize hb : Binding.type type params = binding at offers
  cases offers with
  | typeParam =>
    cases hb
    exact ⟨reads_isDeclared.asTypeParameter trivial, by simp [slotTypes]⟩
  | named => exact reads_isDeclared.namedTypeBinding trivial hb.symm
  | exported _ _ _ declares =>
    obtain ⟨-, rfl | rfl⟩ := cases_of_declares? declares
    · cases hb
    · exact reads_isDeclared.namedTypeBinding trivial hb.symm
  | _ => cases hb

end Node

end ScriptCheck
