import Mathlib.Data.Fintype.Card
import Mathlib.Data.Set.Finite.List
import ScriptCheck.Inference.Expressions
import ScriptCheck.Proofs.Lookups
import ScriptCheck.Proofs.Transitivity
import ScriptCheck.Proofs.Unions

/-!
# Distilled unions

A member of a union is left out when another one covers it, and that one may be left out in its
turn. Where covering is transitive, as it is among plain types, there is always a member left
that covers the first, so a distilled union accepts all that it was distilled from. Through `any`
covering is not transitive, and a case may be lost.
-/

namespace ScriptCheck

open List Inquiry

namespace Ty

variable {imports : Imports} {height : Nat} {types : List Ty} {type : Ty}

/-- One member of a union covers another: it accepts all its values. -/
def Covers (imports : Imports) (other member : Ty) : Prop :=
  (other.subsumes member false).answer imports = true

/-- A numbered member of a union takes the place of another: it covers the other, and is not
covered by it unless it comes first. -/
structure Replaces (imports : Imports) (other member : Ty × Nat) : Prop where
  ne : other.2 ≠ member.2
  covers : Covers imports other.1 member.1
  before : Covers imports member.1 other.1 → other.2 < member.2

/-- A member is covered when another member takes its place. -/
theorem isCovered_iff :
    (isCovered members member).answer imports = true ↔
      ∃ other ∈ members, Replaces imports other member := by
  rw [isCovered, answer_anyM, any_eq_true]
  refine exists_congr fun other => and_congr_right fun _ => ?_
  by_cases same : other.2 = member.2
  · simp only [if_pos same, answer_pure, Bool.false_eq_true, false_iff]
    exact fun replaces => replaces.ne same
  · simp only [if_neg same, answer_bind]
    by_cases covers : (other.1.subsumes member.1 false).answer imports = true
    · rw [if_pos covers]
      by_cases first : other.2 < member.2
      · simp only [if_pos first, answer_pure, true_iff]
        exact ⟨same, covers, fun _ => first⟩
      · simp only [if_neg first, answer_bind, answer_pure, Bool.not_eq_true']
        constructor
        · exact fun no => ⟨same, covers, fun yes => absurd (yes.symm.trans no) (by decide)⟩
        · exact fun replaces => Bool.eq_false_iff.mpr fun yes => first (replaces.before yes)
    · simp only [if_neg covers, answer_pure, Bool.false_eq_true, false_iff]
      exact fun replaces => covers replaces.covers

section Chains

variable {members : List (Ty × Nat)}
  (rows : ∀ first ∈ members, ∀ second ∈ members, first.2 = second.2 → first = second)
  (chain : ∀ first ∈ members, ∀ second ∈ members, ∀ third ∈ members,
    Covers imports first.1 second.1 → Covers imports second.1 third.1 →
      Covers imports first.1 third.1)
include rows chain

/-- What takes the place of a member that takes the place of a third takes the place of the
third. -/
theorem Replaces.trans (hf : first ∈ members) (hs : second ∈ members) (ht : third ∈ members)
    (replaces : Replaces imports first second) (next : Replaces imports second third) :
    Replaces imports first third := by
  have covers := chain first hf second hs third ht replaces.covers next.covers
  -- If the third covers the first, all three cover each other, and come in this order.
  have before (back : Covers imports third.1 first.1) : first.2 < third.2 := by
    have early := replaces.before (chain second hs third ht first hf next.covers back)
    have late := next.before (chain third ht first hf second hs back replaces.covers)
    omega
  refine ⟨fun same => ?_, covers, before⟩
  have one := rows first hf third ht same
  have less := before (one ▸ covers)
  omega

/-- Every member is covered by one that is not left out. -/
theorem exists_kept (hm : member ∈ members) (own : Covers imports member.1 member.1) :
    ∃ kept ∈ members, (isCovered members kept).answer imports = false ∧
      Covers imports kept.1 member.1 := by
  have : Finite {row // row ∈ members} := (finite_toSet members).to_subtype
  let earlier (first second : {row // row ∈ members}) : Prop := Replaces imports first.1 second.1
  have : IsTrans _ earlier := ⟨fun first second third replaces next =>
    replaces.trans rows chain first.2 second.2 third.2 next⟩
  have : Std.Irrefl earlier := ⟨fun row replaces => replaces.ne rfl⟩
  have founded := Finite.wellFounded_of_trans_of_irrefl earlier
  -- Members are followed to the ones that take their place, as long as there are any.
  have follow : ∀ row : {row // row ∈ members}, Covers imports row.1.1 member.1 →
      ∃ kept ∈ members, (isCovered members kept).answer imports = false ∧
        Covers imports kept.1 member.1 := by
    intro row
    induction row using founded.induction with
    | h row ih =>
      intro covers
      cases hc : (isCovered members row.1).answer imports with
      | false => exact ⟨row.1, row.2, hc, covers⟩
      | true =>
        obtain ⟨other, ho, replaces⟩ := isCovered_iff.mp hc
        exact ih ⟨other, ho⟩ replaces (chain other ho row.1 row.2 member hm replaces.covers covers)
  exact follow ⟨member, hm⟩ own

end Chains

/-- The members that are kept of a union. -/
theorem answer_distillUnion (types : List Ty) : (distillUnion types).answer imports =
    collapse (((distinct (flattenList types)).zipIdx.filter fun row =>
      !(isCovered (distinct (flattenList types)).zipIdx row).answer imports).map Prod.fst) := by
  rw [distillUnion, answer_bind, answer_filterM, flatten_unionOf]
  rfl

/-- The members of a distilled union are members of the types it is distilled from. -/
theorem flatten_distillUnion (types : List Ty) :
    ((distillUnion types).answer imports).flatten =
      ((distinct (flattenList types)).zipIdx.filter fun row =>
        !(isCovered (distinct (flattenList types)).zipIdx row).answer imports).map Prod.fst := by
  rw [answer_distillUnion]
  refine flatten_collapse fun member hm => ?_
  obtain ⟨row, hr, rfl⟩ := mem_map.mp hm
  exact isUnion_of_mem_flattenList
    (mem_of_mem_distinct (fst_mem_of_mem_zipIdx (mem_filter.mp hr).1))

/-- A plain type accepts another if its members accept the members of the other, unless it is
readonly and the other is a union. -/
theorem accepts_of_members (hd : IsPlain destination) (hv : IsPlain value)
    (whole : value.isUnion = false ∨ destination.isReadonly = false)
    (covered : ∀ member ∈ value.flatten, ∃ target ∈ destination.flatten,
      Accepts view target member) : Accepts view destination value := by
  induction value using parts_induction with
  | step value ih =>
    cases hu : value.isUnion with
    | false =>
      rw [flatten_of_not_union hu, forall_mem_singleton] at covered
      obtain ⟨target, ht, accepts⟩ := covered
      exact accepts_of_target hd.concrete hv.concrete ht accepts
    | true =>
      cases value with
      | union members =>
        have bare := whole.resolve_left nofun
        have within (member : Ty) (hm : member ∈ members) : IsPlain member :=
          hv.of_mem_compared (mem_append_left _ hm)
        refine (accepts_union_members hd.concrete fun member hm => (within member hm).concrete).2
          (fun hr => by simp [bare] at hr) fun member hm => ih member hm (within member hm) (.inr bare)
            fun part hp => covered part ?_
        rw [flatten, flattenList_eq]
        exact mem_flatMap.mpr ⟨member, hm, hp⟩
      | _ => cases hu

section Plain

variable (plain : ∀ type ∈ types, type.isPlainWithin height = true)
include plain

theorem isPlainWithin_of_mem_flattenList (hm : member ∈ flattenList types) :
    member.isPlainWithin height = true := by
  rw [flattenList_eq] at hm
  obtain ⟨type, ht, hm⟩ := mem_flatMap.mp hm
  exact isPlainWithin_of_mem_flatten (plain type ht) hm

/-- A distilled union of plain types is plain. -/
theorem isPlainWithin_distillUnion :
    ((distillUnion types).answer imports).isPlainWithin (height + 1) = true := by
  rw [answer_distillUnion]
  have inside : ∀ member ∈ ((distinct (flattenList types)).zipIdx.filter fun row =>
      !(isCovered (distinct (flattenList types)).zipIdx row).answer imports).map Prod.fst,
      member.isPlainWithin height = true := by
    intro member hm
    obtain ⟨row, hr, rfl⟩ := mem_map.mp hm
    exact isPlainWithin_of_mem_flattenList plain
      (mem_of_mem_distinct (fst_mem_of_mem_zipIdx (mem_filter.mp hr).1))
  generalize ((distinct (flattenList types)).zipIdx.filter _).map Prod.fst = kept at inside
  match kept, inside with
  | [], _ => rfl
  | [member], inside => exact isPlainWithin_mono (inside member mem_cons_self) (Nat.le_succ _)
  | _ :: _ :: _, inside => exact isPlainWithin_succ_iff.mpr ⟨rfl, inside⟩

/-- Each member of plain types is accepted by a member that is kept of them. -/
theorem exists_accepts_of_distilled (low : 2 * height ≤ comparisonLimit)
    (own : ∀ type ∈ types, type.sameAs type = true) (hm : member ∈ flattenList types) :
    ∃ target ∈ ((distillUnion types).answer imports).flatten,
      Accepts ⟨imports, false⟩ target member := by
  have all (row : Ty × Nat) (hr : row ∈ (distinct (flattenList types)).zipIdx) :
      row.1.isPlainWithin height = true := isPlainWithin_of_mem_flattenList plain
    (mem_of_mem_distinct (fst_mem_of_mem_zipIdx hr))
  have same : member.sameAs member = true := by
    rw [flattenList_eq] at hm
    obtain ⟨type, ht, hm⟩ := mem_flatMap.mp hm
    have alike := sameAs_flatten (own type ht)
    exact forall₂_same.mp alike member hm
  obtain ⟨found, hf, like⟩ := exists_like_mem_distinct hm
  have alike := like.symm.sameAs_left same
  obtain ⟨index, hi⟩ := mem_iff_getElem?.mp hf
  have listed : (found, index) ∈ (distinct (flattenList types)).zipIdx :=
    mem_zipIdx_iff_getElem?.mpr hi
  have plainMember := isPlainWithin_of_mem_flattenList plain hm
  have plainFound := all _ listed
  have self : Accepts ⟨imports, false⟩ found found := accepts_of_sameAs ⟨_, plainFound⟩
    ⟨_, plainFound⟩ (sameAs_trans _ _ _ alike (sameAs_symm _ _ alike))
  obtain ⟨kept, hk, left, covers⟩ := exists_kept
    (fun first hf second hs same => by
      have one := mem_zipIdx_iff_getElem?.mp hf
      have other := mem_zipIdx_iff_getElem?.mp hs
      rw [same, other] at one
      exact Prod.ext (Option.some.inj one).symm same)
    (fun first hf second hs third ht =>
      subsumes_trans (all first hf) (all second hs) (all third ht) (by omega))
    listed (self.subsumesWithin plainFound plainFound (by omega))
  refine ⟨kept.1, ?_, ?_⟩
  · rw [flatten_distillUnion]
    exact mem_map_of_mem (mem_filter.mpr ⟨hk, by rw [left]; rfl⟩)
  · have accepts := IsPlain.accepts ⟨_, all kept hk⟩ ⟨_, plainFound⟩ covers
    exact accepts.of_like ⟨_, all kept hk⟩ ⟨_, plainFound⟩ ⟨_, all kept hk⟩ ⟨_, plainMember⟩
      (.refl _) like

end Plain

end Ty

namespace Deeper

variable {deeper : Deeper} {situation : Situation} {node : Node}

/-- The types of the arms of a conditional or switch. Without a last arm it may also be `nil`. -/
def armTypes (deeper : Deeper) (situation : Situation) (node : Node) (arms : List NodeId)
    (otherwise : Option NodeId) : Inference (List Ty) := do
  let types ← (arms.filterMap fun id => (node.sibling id).outcome?).mapM (deeper.typeOf situation)
  let last ← match otherwise with
    | some id => deeper.typeOf situation (node.sibling id)
    | none => pure Ty.nil
  return types ++ [last]

/-- The types of the branches of a conditional, a switch or a choice with `??`. The first branch
of a choice is not `nil`. -/
def branches? (deeper : Deeper) (situation : Situation) (node : Node) :
    Option (Inference (List Ty)) :=
  match node.form with
  | .ifExpression arms otherwise => some (deeper.armTypes situation node arms otherwise)
  | .switch _ arms otherwise => some (deeper.armTypes situation node arms otherwise)
  | .binary left .orElse right => some do
    let left ← deeper.typeOf situation (node.sibling left)
    let right ← deeper.typeOf situation (node.sibling right)
    return [← left.subtract .nil, right]
  | _ => none

theorem armsType_eq (arms : List NodeId) (otherwise : Option NodeId) :
    deeper.armsType situation node arms otherwise =
      deeper.armTypes situation node arms otherwise >>= fun types => liftM (Ty.distillUnion types) := by
  cases otherwise with
  | none => simp only [armsType, armTypes, Inquirer.distillUnion, bind_assoc, pure_bind]
  | some id => simp only [armsType, armTypes, Inquirer.distillUnion, bind_assoc, pure_bind]

/-- The type of a conditional, a switch or a choice with `??` is distilled from the types of its
branches. -/
theorem formType_of_branches (hb : deeper.branches? situation node = some branches) :
    deeper.formType situation node = branches >>= fun types => liftM (Ty.distillUnion types) := by
  unfold branches? at hb
  unfold formType
  split at hb
  · next arms otherwise hf =>
    cases hb
    simp only [hf]
    exact armsType_eq arms otherwise
  · next hf =>
    cases hb
    simp only [hf]
    exact armsType_eq _ _
  · next hf =>
    cases hb
    simp only [hf, operationType, Inquirer.subtract, Inquirer.distillUnion, bind_assoc, pure_bind]
  · cases hb

end Deeper

namespace Ty

/-- Among plain types of which none is a number that is not equal to itself, distilling loses no
case: the distilled union accepts each of the types, unless it is readonly and the type is a
union. So does the type of every conditional, switch and choice with `??` that has branches of
these types. -/
theorem accepts_branches {imports : Imports} {height : Nat} {types : List Ty} {type : Ty}
    (plain : ∀ type ∈ types, type.isPlainWithin height = true)
    (own : ∀ type ∈ types, type.sameAs type = true) (low : 2 * height ≤ comparisonLimit)
    (ht : type ∈ types)
    (whole : type.isUnion = false ∨ ((distillUnion types).answer imports).isReadonly = false) :
    (((distillUnion types).answer imports).subsumes type false).answer imports = true ∧
      ∀ (deeper : Deeper) (situation : Situation) (node : Node) (branches : Inference (List Ty)),
        deeper.branches? situation node = some branches → branches.answer? imports = some types →
        ∃ result, (deeper.formType situation node).answer? imports = some result ∧
          (result.subsumes type false).answer imports = true := by
  have plainResult := @isPlainWithin_distillUnion imports _ _ plain
  have covered : ∀ member ∈ type.flatten, ∃ target ∈ ((distillUnion types).answer imports).flatten,
      Accepts ⟨imports, false⟩ target member := by
    intro member hm
    refine exists_accepts_of_distilled plain low own ?_
    rw [flattenList_eq]
    exact mem_flatMap.mpr ⟨type, ht, hm⟩
  have accepts : (((distillUnion types).answer imports).subsumes type false).answer imports = true :=
    (accepts_of_members ⟨_, plainResult⟩ ⟨_, plain type ht⟩ whole covered).subsumesWithin plainResult
      (plain type ht) (by omega)
  refine ⟨accepts, fun deeper situation node branches hb answered => ?_⟩
  refine ⟨(distillUnion types).answer imports, ?_, accepts⟩
  rw [Deeper.formType_of_branches hb, Inference.answer?_bind, answered]
  rfl

/-- A literal is left out for a union that covers it, and the array of such literals for a
readonly array. -/
theorem coveredLiterals_accepted :
    let one := Ty.numberLiteral (.finite false 1 0)
    let types := [one, .union [.number, .nil], .array one, .readonly (.array .number)]
    let imports : Imports := fun _ _ => none
    ((distillUnion types).answer imports).sameAs
        (.union [.number, .nil, .readonly (.array .number)]) = true ∧
      ∀ type ∈ types,
        (((distillUnion types).answer imports).subsumes type false).answer imports = true := by
  intro one types imports
  obtain ⟨plain, own, writable, distilled⟩ : (types.all (isPlainWithin 3)) = true ∧
      (types.all fun type => type.sameAs type) = true ∧
      ((distillUnion types).answer imports).isReadonly = false ∧
      ((distillUnion types).answer imports).sameAs
        (.union [.number, .nil, .readonly (.array .number)]) = true := by decide +kernel
  exact ⟨distilled, fun type ht => (accepts_branches (all_eq_true.mp plain)
    (all_eq_true.mp own) (by decide) ht (.inr writable)).1⟩

/-- Between a number and a string, `any` is left out for the number, since both cover each other,
and the string for `any`. The number that is left does not accept the string. -/
theorem distillUnion_loses_case :
    let types := [Ty.numberLiteral (.finite false 1 0), .any, .stringLiteral "a"]
    let imports : Imports := fun _ _ => none
    ¬ ∀ type ∈ types,
      (((distillUnion types).answer imports).subsumes type false).answer imports = true := by
  intro types imports all
  have lost : (((distillUnion types).answer imports).subsumes (.stringLiteral "a") false).answer
      imports = false := by decide +kernel
  exact absurd ((all (.stringLiteral "a") (by simp [types])).symm.trans lost) (by decide)

end Ty

end ScriptCheck
