import ScriptCheck.Proofs.Recasts
import ScriptCheck.Proofs.RuleCourses

/-!
# Rules for scripts with other operands

A rule finds at a node that stays as it is the moved problems of the node. It looks further than
to the types of other operands in three places only: at what they call, at the property that they
call and at what is assigned to.
-/

namespace ScriptCheck

open Movable (move)
open List

namespace Recast

variable (recast : Recast)

/-- What a script exports under a name is exported by the script it becomes. -/
theorem export? (script : Script) (name : String) (space : Namespace) :
    (move recast script).export? name space = (script.export? name space).map (move recast) := by
  have exported : Node.isExported ∘ move recast = Node.isExported :=
    funext recast.remodels.isExported
  rw [Script.export?, Script.export?, Script.declarations_recast, filter_map, exported,
    findSome?_map, map_findSome?]
  exact congrArg (List.findSome? · _) (funext fun declaration =>
    recast.remodels.renames.declares? trivial name space)

/-- A name is exported in the same namespaces. -/
theorem exportedSpaces (target : Option Script) (name : String) :
    Node.exportedSpaces (target.map (move recast)) name = Node.exportedSpaces target name := by
  cases target with
  | none => rfl
  | some script =>
    simp only [Node.exportedSpaces, Option.map_some, Option.any_some, recast.export?,
      Option.isSome_map]

/-- An item of an import declares the same names. -/
theorem importBinders (target : Option Script) (item : Node) :
    Node.importBinders (target.map (move recast)) (move recast item) =
      (Node.importBinders target item).map (move recast) := by
  unfold Node.importBinders
  rcases recast.form_or_operand item with same | ⟨operand, operand'⟩
  · simp only [same, recast.exportedSpaces]
    split
    · rw [map_map]
      rfl
    · rfl
  · split <;> split <;> simp_all [Form.isOperand]

/-- A declaration declares the moved names, whatever operands are in it. -/
theorem moduleBinders_transfers (declaration : Node) :
    Inquiry.Transfers recast.graft declaration.moduleBinders
      (move recast declaration).moduleBinders fun _ => True := by
  unfold Node.moduleBinders
  rcases recast.form_or_operand declaration with same | ⟨operand, operand'⟩
  · simp only [same]
    split
    · next path items _ =>
      refine .bind (recast.remodels.renames.load trivial path) fun target _ => .pure trivial ?_
      rw [move_option, move_list, map_flatMap, flatMap_map, flatMap_map]
      exact flatMap_congr fun id _ => recast.importBinders target (declaration.sibling id)
    · exact .pure trivial rfl
    · refine .pure trivial ?_
      split <;> rfl
    iterate 5 exact .pure trivial rfl
  · cases hf : declaration.form with
    | identifier | invocation | pipe | escape =>
      cases hf' : (move recast declaration).form with
      | identifier | invocation | pipe | escape => exact .pure trivial rfl
      | _ => simp [hf', Form.isOperand] at operand'
    | _ => simp [hf, Form.isOperand] at operand

end Recast

/-- Other operands call the same, and no property. -/
structure Recast.KeepsCalls (recast : Recast) (deeper deeper' : Deeper) : Prop where
  call? {situation situation' : Situation} {node : Node} : recast.Together situation situation' →
    recast.Changes node →
    Inference.Transfers recast.graft (deeper.call? situation node)
      (deeper'.call? situation' (move recast node))
      fun found => ∀ call ∈ found, recast.graft.AsksCall situation call
  property {node : Node} : recast.Changes node →
    ¬node.CallsProperty ∧ ¬(move recast node).CallsProperty

namespace Inspection

open Inference (Transfers)

section Parts

variable {recast : Recast}

/-- The second rule, applied after the change, finds the moved problems of the first. -/
abbrev Refinds (recast : Recast) (asked again : Inference (List Problem)) : Prop :=
  Transfers recast.graft asked again fun _ => True

variable (recast) (node : Node)

/-- The same imported names are reported. -/
theorem importedNames_transfers (path : String) (items : List NodeId) :
    Refinds recast (importedNames node path items)
      (importedNames (move recast node) path items) := by
  refine .bind (.lift (recast.remodels.renames.load trivial path)) fun target _ => ?_
  cases target with
  | none => exact .pure trivial rfl
  | some target =>
    have spaces (name : String) : Node.exportedSpaces (some (move recast target)) name =
        Node.exportedSpaces (some target) name := recast.exportedSpaces (some target) name
    refine .pure trivial ?_
    rw [move_list, map_filterMap, filterMap_map, filterMap_map]
    refine congrArg (List.filterMap · items) (funext fun id => ?_)
    have sibling : (move recast node).sibling id = move recast (node.sibling id) := rfl
    simp only [Function.comp_apply, sibling]
    rcases recast.form_or_operand (node.sibling id) with same | ⟨operand, operand'⟩
    · simp only [same, spaces]
      split
      · split <;> rfl
      · rfl
    · split <;> split <;> simp_all [Form.isOperand]

/-- The same names are found to be declared twice. -/
theorem moduleNames_transfers (declarations : List Node) :
    Inquiry.Transfers recast.graft (moduleNames declarations)
      (moduleNames (declarations.map (move recast))) fun _ => True := by
  refine .bind (.mapM fun declaration _ => recast.moduleBinders_transfers declaration)
    fun binders _ => .pure trivial ?_
  exact (congrArg Binder.duplicates map_flatten.symm).trans
    (Binder.duplicates_move recast binders.flatten)

end Parts

section Rules

variable {recast : Recast} {inspection inspection' : Inspection}
  (transfers : inspection.answers.TransfersTo recast.graft inspection'.answers)

include transfers

/-- A call that stays as it is calls the moved function with the moved arguments. -/
theorem call?_transfers (same : (move recast node).form = node.form) :
    Transfers recast.graft (inspection.answers.call? .idle node)
      (inspection'.answers.call? .idle (move recast node))
      fun found => ∀ call ∈ found, recast.graft.AsksCall .idle call :=
  have opens := recast.opens same .idle
  (transfers.course recast.faithful recast.together_idle).call? opens
    ((recast.faithful.looks _).namesSubject opens)

variable (faulty : Bool) (keeps : recast.KeepsCalls inspection.answers inspection'.answers)

/-- Rules find the moved problems where other operands call the same. -/
def recasting : Course recast.graft Unit where
  toCourse := transfers.course recast.faithful recast.together_idle
  idle := ⟨rfl, rfl, rfl⟩
  faulty _ := faulty
  faulty' := faulty
  owns _ := True
  asks _ := trivial
  sibling _ _ := rfl
  parent _ := Node.parent_recast recast _
  isDescendantOf other _ := Node.isDescendantOf_recast recast _ other
  looks := recast.faithful.looks _
  namedType name _ := recast.remodels.resolveIn _ name .type
  calledAlike {node} _ := by
    by_cases changes : recast.Changes node
    · exact .inr (keeps.property changes)
    · exact .inl (not_not.mp changes)
  sites _ := True
  site _ _ := trivial
  calls := recast.graft.AsksCall .idle
  asksCall := id
  nodes _ _ _ _ := trivial
  made {node} _ := by
    by_cases changes : recast.Changes node
    · exact keeps.call? recast.together_idle changes
    · exact call?_transfers transfers (not_not.mp changes)
  Gives question again := Refinds recast (question ()) again
  give _ same := .pure trivial same
  goOn asks gives := asks.bind gives
  sameGiven same gives := same ▸ gives
  hush gives := .ite .rfl (fun _ => .pure trivial rfl) fun _ => gives
  behind _ gives := gives.bind fun _ _ => .pure trivial map_append.symm
  gather gives := (Transfers.mapM gives).bind fun _ _ => .pure trivial map_flatten.symm
  moduleNames _ := .lift (moduleNames_transfers recast _)
  importedNames _ := importedNames_transfers recast _ _ _

end Rules

end Inspection

end ScriptCheck
