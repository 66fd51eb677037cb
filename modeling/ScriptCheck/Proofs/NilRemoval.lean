import ScriptCheck.Proofs.CleanScripts
import ScriptCheck.Proofs.Lookups
import ScriptCheck.Proofs.Unions
import ScriptCheck.Workspace.Source

/-!
# Taking `nil` out of a type

The members of a type are found in two rounds, each of which sees through names and then takes
unions apart. Where two rounds come to the leaves of a type, no `nil` is left and taking it out
again changes nothing. A union that is three names deep is not taken apart, and `nil` stays in it.
-/

namespace ScriptCheck.Ty

open List

variable {imports : Imports} {type : Ty} {kept : List Ty}

/-- Whether a type is a leaf: `nil`, primitive, literal, array, tuple or object. -/
def isLeaf : Ty → Bool
  | nil | string | number | boolean | literal _ | array _ | tuple _ | object _ => true
  | _ => false

/-- Whether the type is `nil`. -/
def isNil : Ty → Bool
  | nil => true
  | _ => false

/-- The members of a type once its name is seen through. -/
def openMembers (imports : Imports) (type : Ty) : List Ty := (type.expand.answer imports).flatten

/-- Whether a number of rounds, each of which sees through names and takes unions apart, comes to
leaves only. -/
def opensWithin (imports : Imports) : Nat → Ty → Bool
  | 0, type => type.isLeaf
  | rounds + 1, type => (type.openMembers imports).all (opensWithin imports rounds)

section

variable (leaf : type.isLeaf = true)
include leaf

theorem isNamed_of_isLeaf : type.isNamed = false := by
  cases type with
  | named => cases leaf
  | _ => rfl

theorem isUnion_of_isLeaf : type.isUnion = false := by
  cases type with
  | union => cases leaf
  | _ => rfl

theorem openMembers_of_isLeaf : type.openMembers imports = [type] := by
  rw [openMembers, expand_of_not_named (isNamed_of_isLeaf leaf),
    flatten_of_not_union (isUnion_of_isLeaf leaf)]

/-- A leaf that is not `nil` and `nil` do not accept each other. -/
theorem subsumesWithin_nil_of_isLeaf (other : type.isNil = false) (limit : Nat) :
    (subsumesWithin false limit [] type .nil).answer imports = false ∧
      (subsumesWithin false limit [] .nil type).answer imports = false := by
  cases limit with
  | zero => exact ⟨rfl, rfl⟩
  | succ limit =>
    rw [subsumesWithin_succ (isNamed_of_isLeaf leaf) rfl, subsumesWithin_succ rfl (isNamed_of_isLeaf leaf)]
    cases type with
    | nil => cases other
    | union | indexer | func | proc | named | nominal | generic | iterator | plan | readonly | store
    | unknown | any | escape => cases leaf
    | _ => exact ⟨rfl, rfl⟩

/-- Of the leaves, only `nil` is taken out. -/
theorem survives_of_isLeaf : (survives .nil type).answer imports = !type.isNil := by
  cases hn : type.isNil with
  | true =>
    cases type with
    | nil => rfl
    | _ => cases hn
  | false =>
    have apart := (@subsumesWithin_nil_of_isLeaf imports _ leaf hn comparisonLimit).2
    cases type with
    | any | unknown => cases leaf
    | _ => exact congrArg (!·) apart

end

/-- What is left of a type are the members that two rounds find, without those taken out. -/
theorem answer_subtract (type removed : Ty) : (type.subtract removed).answer imports =
    collapse (((type.openMembers imports).flatMap (openMembers imports)).filter fun member =>
      (survives removed member).answer imports) := by
  rw [subtract, Inquiry.answer_bind, Inquiry.answer_bind, Inquiry.answer_pure, Inquiry.answer_mapM,
    filter_flatMap, flatMap_def]
  refine congrArg (fun left : List (List Ty) => collapse left.flatten)
    (map_congr_left fun member _ => ?_)
  rw [Inquiry.answer_bind, Inquiry.answer_filterM]
  rfl

/-- What is left of a type that two rounds open are its leaves other than `nil`. -/
theorem answer_subtract_nil (opens : type.opensWithin imports 2 = true) :
    ∃ kept : List Ty, (∀ member ∈ kept, member.isLeaf = true ∧ member.isNil = false) ∧
      (type.subtract .nil).answer imports = collapse kept := by
  refine ⟨_, ?_, answer_subtract type .nil⟩
  intro member hm
  obtain ⟨hm, left⟩ := mem_filter.mp hm
  obtain ⟨outer, ho, hm⟩ := mem_flatMap.mp hm
  have leaf : member.isLeaf = true := all_eq_true.mp (all_eq_true.mp opens outer ho) member hm
  rw [survives_of_isLeaf leaf] at left
  exact ⟨leaf, by simpa using left⟩

section Leaves

variable (leaves : ∀ member ∈ kept, member.isLeaf = true ∧ member.isNil = false)
include leaves

/-- A union of leaves other than `nil` does not accept `nil`. -/
theorem collapse_refuses_nil : ((collapse kept).subsumes .nil false).answer imports = false := by
  match kept, leaves with
  | [], _ => rfl
  | [member], leaves =>
    obtain ⟨leaf, other⟩ := leaves member mem_cons_self
    exact (subsumesWithin_nil_of_isLeaf leaf other comparisonLimit).1
  | first :: second :: rest, leaves =>
    rw [collapse, subsumes, comparisonLimit, subsumesWithin_succ rfl rfl]
    · show ((first :: second :: rest).anyM (subsumesWithin false 63 [] · .nil)).answer imports = false
      rw [Inquiry.answer_anyM, any_eq_false]
      intro member hm
      obtain ⟨leaf, other⟩ := leaves member hm
      rw [(subsumesWithin_nil_of_isLeaf leaf other 63).1]
      exact Bool.false_ne_true
    · nofun

/-- Nothing is taken out of a union of leaves other than `nil`. -/
theorem subtract_collapse : ((collapse kept).subtract .nil).answer imports = collapse kept := by
  have flat : ∀ member ∈ kept, member.isUnion = false :=
    fun member hm => isUnion_of_isLeaf (leaves member hm).1
  have unnamed : (collapse kept).isNamed = false := by
    match kept, leaves with
    | [], _ => rfl
    | [member], leaves => exact isNamed_of_isLeaf (leaves member mem_cons_self).1
    | _ :: _ :: _, _ => rfl
  have outer : (collapse kept).openMembers imports = kept := by
    rw [openMembers, expand_of_not_named unnamed, flatten_collapse flat]
  have inner : kept.flatMap (openMembers imports) = kept := by
    rw [flatMap_congr fun member hm => openMembers_of_isLeaf (leaves member hm).1,
      flatMap_singleton']
  rw [answer_subtract, outer, inner, filter_eq_self.mpr]
  intro member hm
  rw [survives_of_isLeaf (leaves member hm).1, (leaves member hm).2]
  rfl

end Leaves

/-- Taking `nil` out of a type that two rounds open leaves a type that does not accept `nil`, and
taking it out again changes nothing. -/
theorem subtract_nil_settles (opens : type.opensWithin imports 2 = true) :
    (((type.subtract .nil).answer imports).subsumes .nil false).answer imports = false ∧
      (((type.subtract .nil).answer imports).subtract .nil).answer imports =
        (type.subtract .nil).answer imports := by
  obtain ⟨kept, leaves, left⟩ := answer_subtract_nil opens
  rw [left]
  exact ⟨collapse_refuses_nil leaves, subtract_collapse leaves⟩

/-- Names of unions with names of unions among their members, down to `nil`. -/
def nestedNames : Reading :=
  .first ⟨"/main.bgl"⟩ ("type Flag = nil | boolean\n" ++ "type Mark = Flag | number\n" ++
    "type Note = Mark | string\n" ++ "func f(mark: Mark, note: Note) => note ?? mark")

/-- Two rounds see `nil` in a union that is a member of another, and take it out. -/
theorem nestedUnion_settles :
    let mark := (nestedNames.script.node 12).lower
    (mark.subsumes .nil false).answer Imports.isolated = true ∧
      (((mark.subtract .nil).answer Imports.isolated).subsumes .nil false).answer
        Imports.isolated = false ∧
      (((mark.subtract .nil).answer Imports.isolated).subtract .nil).answer Imports.isolated =
        (mark.subtract .nil).answer Imports.isolated := by
  obtain ⟨accepts, opens⟩ :
      ((nestedNames.script.node 12).lower.subsumes .nil false).answer Imports.isolated = true ∧
        (nestedNames.script.node 12).lower.opensWithin Imports.isolated 2 = true := by
    decide +kernel
  exact ⟨accepts, subtract_nil_settles opens⟩

/-- Three rounds come to the leaves of a union that is three names deep, but only two are made:
`nil` is left in it, and is taken out when that is done once more. -/
theorem nil_left_by_subtract :
    let note := (nestedNames.script.node 14).lower
    note.opensWithin Imports.isolated 3 = true ∧
      (((note.subtract .nil).answer Imports.isolated).subsumes .nil false).answer
        Imports.isolated = true ∧
      ((((note.subtract .nil).answer Imports.isolated).subtract .nil).answer
        Imports.isolated).sameAs ((note.subtract .nil).answer Imports.isolated) = false := by
  decide +kernel

end ScriptCheck.Ty
