import ScriptCheck.Proofs.Likeness

/-!
# What comparisons come to

One step of a comparison looks at the kinds of two types and goes on to types inside them.
A yes is therefore carried over to two other types of the same kinds, if it is carried over
by the comparisons of the types inside.
-/

namespace ScriptCheck

open List Inquiry

section Lists

variable {α β : Type} {imports elsewhere : Imports} {related : α → β → Prop} {questions : List α}
  {others : List β} {ask : α → Inquiry Bool} {asked : β → Inquiry Bool}

section

variable (all : Forall₂ related questions others)
  (carry : ∀ {question other}, related question other → (ask question).answer imports = true →
    (asked other).answer elsewhere = true)
include all carry

/-- If each yes is carried over to a related question, so is the yes to all. -/
theorem Inquiry.allM_of_forall₂ (yes : (questions.allM ask).answer imports = true) :
    (others.allM asked).answer elsewhere = true := by
  rw [answer_allM] at yes ⊢
  induction all with
  | nil => rfl
  | cons head _ ih =>
    simp only [all_cons, Bool.and_eq_true] at yes ⊢
    exact ⟨carry head yes.1, ih yes.2⟩

/-- If each yes is carried over to a related question, so is the yes to some. -/
theorem Inquiry.anyM_of_forall₂ (yes : (questions.anyM ask).answer imports = true) :
    (others.anyM asked).answer elsewhere = true := by
  rw [answer_anyM] at yes ⊢
  induction all with
  | nil => exact yes
  | cons head _ ih =>
    simp only [any_cons, Bool.or_eq_true] at yes ⊢
    exact yes.imp (carry head) ih

end

/-- Lists that are related one by one are so in pairs. -/
theorem forall₂_zip {also : γ → δ → Prop} {thirds : List γ} {fourths : List δ}
    (all : Forall₂ related firsts seconds) (too : Forall₂ also thirds fourths) :
    Forall₂ (fun pair other => related pair.1 other.1 ∧ also pair.2 other.2)
      (firsts.zip thirds) (seconds.zip fourths) := by
  induction all generalizing thirds fourths with
  | nil => exact .nil
  | cons head _ ih =>
    cases too with
    | nil => exact .nil
    | cons first rest => exact .cons ⟨head, first⟩ (ih rest)

theorem forall₂_and_mem {γ : Type} {related : γ → γ → Prop} {firsts seconds : List γ}
    (all : Forall₂ related firsts seconds) : Forall₂ (fun first second =>
      related first second ∧ first ∈ firsts ∧ second ∈ seconds) firsts seconds :=
  Ty.forall₂_imp_of_mem all fun _ hf _ hs both => ⟨both, hf, hs⟩

end Lists

/-- Two object entries are called the same and are both optional or not, and what comparisons
of them come to is related. -/
structure Field.Corresponds (related : Ty → Ty → Prop) (field other : Field Ty) : Prop where
  /-- Both have the same name. -/
  name : field.name = other.name
  /-- Both may be missing, or none. -/
  optional : field.optional = other.optional
  /-- The types are related. -/
  type : related field.type other.type
  /-- The names are related, as the types of single strings. -/
  key : related (.stringLiteral field.name) (.stringLiteral other.name)

/-- The types of two parameters are related, be they missing or not. -/
def Slot.Corresponds (related : Ty → Ty → Prop) (slot other : Slot Ty) : Prop :=
  related slot.typeOrUnknown other.typeOrUnknown

namespace Ty

/-- Two types are of one kind, and what comparisons of them come to is related one by one. -/
inductive Corresponds (related : Ty → Ty → Prop) : Ty → Ty → Prop
  | string : Corresponds related .string .string
  | number : Corresponds related .number .number
  | boolean : Corresponds related .boolean .boolean
  | nil : Corresponds related .nil .nil
  | unknown : Corresponds related .unknown .unknown
  | any : Corresponds related .any .any
  | escape : Corresponds related .escape .escape
  | numberLiteral (value other : Number) :
      Corresponds related (.literal (.number value)) (.literal (.number other))
  | stringLiteral (value other : String) :
      Corresponds related (.literal (.string value)) (.literal (.string other))
  | booleanLiteral (value other : Bool) :
      Corresponds related (.literal (.boolean value)) (.literal (.boolean other))
  | union {members others : List Ty} : Forall₂ related members others →
      Forall₂ related (flattenList members) (flattenList others) →
      Corresponds related (.union members) (.union others)
  | array {element other : Ty} : related element other →
      Corresponds related (.array element) (.array other)
  | tuple {elements others : List Ty} : Forall₂ related elements others →
      Corresponds related (.tuple elements) (.tuple others)
  | object {fields others : List (Field Ty)} : Forall₂ (Field.Corresponds related) fields others →
      Corresponds related (.object fields) (.object others)
  | indexer {key value otherKey otherValue : Ty} : related key otherKey →
      related value otherValue → Corresponds related (.indexer key value) (.indexer otherKey otherValue)
  | func {params others : List (Slot Ty)} {result other : Ty}
      (typeParams otherTypeParams : List (Slot Ty)) :
      Forall₂ (Slot.Corresponds related) params others → related result other →
      Corresponds related (.func typeParams params result) (.func otherTypeParams others other)
  | proc {params others : List (Slot Ty)} (typeParams otherTypeParams : List (Slot Ty)) :
      Forall₂ (Slot.Corresponds related) params others →
      Corresponds related (.proc typeParams params) (.proc otherTypeParams others)
  | named (name other : String) (args others : List Ty) (origin elsewhere : Node) :
      Corresponds related (.named name args origin) (.named other others elsewhere)
  | nominal (name other : String) (inner otherInner : Ty) :
      Corresponds related (.nominal name inner) (.nominal other otherInner)
  | free (name other : String) : Corresponds related (.generic name none) (.generic other none)
  | bounded {bound otherBound : Ty} (name other : String) : related bound otherBound →
      Corresponds related (.generic name (some bound)) (.generic other (some otherBound))
  | iterator {inner other : Ty} : related inner other →
      Corresponds related (.iterator inner) (.iterator other)
  | plan {inner other : Ty} : related inner other → Corresponds related (.plan inner) (.plan other)
  | readonly {inner other : Ty} : related inner other →
      Corresponds related (.readonly inner) (.readonly other)
  | store (name other : String) (declaration otherDeclaration : Node) :
      Corresponds related (.store name declaration) (.store other otherDeclaration)

/-- A yes to a comparison is carried over to related types inside two types, or to the type on
one side and a related type inside the other. Scripts may import each other in another way there. -/
structure Carries (imports elsewhere : Imports) (related also : Ty → Ty → Prop)
    (sub other : Ty → Ty → Inquiry Bool) (destination value left right : Ty) : Prop where
  /-- Types inside both sides. -/
  inner : related part leftPart → also member rightPart →
    (sub part member).answer imports = true → (other leftPart rightPart).answer elsewhere = true
  /-- Types inside both sides, compared the other way round. -/
  swapped : related part leftPart → also member rightPart →
    (sub member part).answer imports = true → (other rightPart leftPart).answer elsewhere = true
  /-- A part of the destination. -/
  inLeft : part ∈ destination.parts → leftPart ∈ left.parts → related part leftPart →
    (sub part value).answer imports = true → (other leftPart right).answer elsewhere = true
  /-- A part of the value. -/
  inRight : member ∈ value.parts → rightPart ∈ right.parts → also member rightPart →
    (sub destination member).answer imports = true → (other left rightPart).answer elsewhere = true

/-- Without seeing through type parameters, a side of a comparison is what is seen through
its name. -/
theorem resolveSide_false (type : Ty) : type.resolveSide false = type.expand := by
  unfold resolveSide
  refine Eq.trans ?_ (bind_pure type.expand)
  refine congrArg (type.expand >>= ·) (funext fun seen => ?_)
  cases seen <;> rfl

/-- Types without names are compared by one step after the other. -/
theorem subsumesWithin_succ (hd : destination.isNamed = false) (hv : value.isNamed = false)
    (limit : Nat) (pending : List (Ty × Ty)) :
    (subsumesWithin false (limit + 1) pending destination value).answer imports =
      (subsumesStep (subsumesWithin false limit pending) destination value).answer imports := by
  rw [subsumesWithin, hd, hv]
  simp only [Bool.or_self, Bool.false_and, Bool.false_eq_true, if_false, resolveSide_false,
    answer_bind, expand_of_not_named hd, expand_of_not_named hv]

section Step

variable {imports elsewhere : Imports} {related also : Ty → Ty → Prop}
  {sub other : Ty → Ty → Inquiry Bool} {destination value left right : Ty}

/-- The entries of a name correspond. -/
theorem find?_of_corresponds (name : String)
    (all : Forall₂ (Field.Corresponds related) fields others) :
    Option.Rel (Field.Corresponds related) (fields.find? (·.name == name))
      (others.find? (·.name == name)) := by
  induction all with
  | nil => exact .none
  | @cons field other _ _ head _ ih =>
    by_cases hn : field.name = name
    · rw [find?_cons_of_pos (by simpa using hn), find?_cons_of_pos (by simpa using head.name ▸ hn)]
      exact .some head
    · rw [find?_cons_of_neg (by simpa using hn), find?_cons_of_neg (by simpa using head.name ▸ hn)]
      exact ih

/-- Parameters that are accepted are so in the corresponding types. -/
theorem paramsAccept_carried {params others leftParams rightParams : List (Slot Ty)}
    (hd : Forall₂ (Slot.Corresponds related) params leftParams)
    (hv : Forall₂ (Slot.Corresponds also) others rightParams)
    (carry : ∀ {part member leftPart rightPart : Ty}, related part leftPart →
      also member rightPart → (sub member part).answer imports = true →
      (other rightPart leftPart).answer elsewhere = true)
    (yes : (paramsAccept sub params others).answer imports = true) :
    (paramsAccept other leftParams rightParams).answer elsewhere = true := by
  unfold paramsAccept at yes ⊢
  rw [hd.length_eq, hv.length_eq] at yes
  split
  · rename_i hl
    rw [if_pos hl] at yes
    exact allM_of_forall₂ (forall₂_zip hv hd) (fun both => carry both.2 both.1) yes
  · rename_i hl
    rw [if_neg hl] at yes
    cases yes

/-- Whether the wanted entry is there as it should be. -/
def entryAccepts (sub : Ty → Ty → Inquiry Bool) (wanted : Field Ty) :
    Option (Field Ty) → Inquiry Bool
  | some found =>
    if wanted.optional || !found.optional then sub wanted.type found.type else return false
  | none => return wanted.optional

/-- An object entry that is accepted is so in the corresponding types. -/
theorem entryAccepts_carried (hw : Field.Corresponds related wanted leftWanted)
    (hf : Option.Rel (Field.Corresponds also) found rightFound)
    (carry : ∀ {part member leftPart rightPart : Ty}, related part leftPart →
      also member rightPart → (sub part member).answer imports = true →
      (other leftPart rightPart).answer elsewhere = true)
    (yes : (entryAccepts sub wanted found).answer imports = true) :
    (entryAccepts other leftWanted rightFound).answer elsewhere = true := by
  cases hf with
  | none =>
    rw [entryAccepts, hw.optional] at yes
    exact yes
  | some head =>
    rw [entryAccepts, hw.optional, head.optional] at yes
    rw [entryAccepts]
    split
    · rename_i accepted
      rw [if_pos accepted] at yes
      exact carry hw.type head.type yes
    · rename_i refused
      rw [if_neg refused] at yes
      cases yes

section

variable (hd : Corresponds related destination left) (hv : Corresponds also value right)
  (carries : Carries imports elsewhere related also sub other destination value left right)
include hd hv carries

/-- A yes by the rules for types of the same shape is carried over. -/
theorem sameShapeSubsumes_carried
    (yes : (sameShapeSubsumes sub destination value).answer imports = true) :
    (sameShapeSubsumes other left right).answer elsewhere = true := by
  revert yes
  fun_cases sameShapeSubsumes sub destination value
  case case1 =>
    cases hd with | func _ _ hp hr =>
    cases hv with | func _ _ ho hs =>
    simp only [sameShapeSubsumes, answer_bind]
    intro yes
    split at yes
    · rename_i accepts
      rw [if_pos (paramsAccept_carried hp ho carries.swapped accepts)]
      exact carries.inner hr hs yes
    · cases yes
  case case2 =>
    cases hd with | proc _ _ hp =>
    cases hv with | proc _ _ ho =>
    exact paramsAccept_carried hp ho carries.swapped
  case case3 =>
    cases hd with | array he =>
    cases hv with | array ho =>
    exact carries.inner he ho
  case case4 =>
    cases hd with | array he =>
    cases hv with | tuple ho =>
    exact allM_of_forall₂ ho fun hm => carries.inner he hm
  case case5 hl =>
    cases hd with | tuple he =>
    cases hv with | tuple ho =>
    intro yes
    rw [sameShapeSubsumes, if_pos (he.length_eq ▸ ho.length_eq ▸ hl)]
    exact allM_of_forall₂ (forall₂_zip he ho) (fun both => carries.inner both.1 both.2) yes
  case case6 => exact nofun
  case case7 =>
    cases hd with | object he =>
    cases hv with | object ho =>
    refine allM_of_forall₂ he fun {wanted leftWanted} hw accepted => ?_
    have hf := find?_of_corresponds wanted.name ho
    rw [hw.name] at accepted hf
    exact entryAccepts_carried hw hf carries.inner accepted
  case case8 =>
    cases hd with | indexer hk he =>
    cases hv with | indexer ho hs =>
    simp only [sameShapeSubsumes, answer_bind]
    intro yes
    split at yes
    · rename_i keys
      rw [if_pos (carries.inner hk ho keys)]
      exact carries.inner he hs yes
    · cases yes
  case case9 =>
    cases hd with | indexer hk he =>
    cases hv with | object ho =>
    refine allM_of_forall₂ ho fun {found rightFound} hf accepted => ?_
    simp only [answer_bind] at accepted ⊢
    split at accepted
    · rename_i keys
      rw [if_pos (carries.inner hk hf.key keys)]
      exact carries.inner he hf.type accepted
    · cases accepted
  case case10 =>
    cases hd with | iterator he =>
    cases hv with | iterator ho =>
    exact carries.inner he ho
  case case11 =>
    cases hd with | plan he =>
    cases hv with | plan ho =>
    exact carries.inner he ho
  case case12 =>
    cases hv with | bounded _ _ hb =>
    have fits : (sub destination _).answer imports = true → _ :=
      carries.inRight (by simp [parts]) (by simp [parts]) hb
    cases hd <;> exact fits
  case case13 => exact nofun

/-- A yes by the rules is carried over. -/
theorem subsumesByRule_carried
    (yes : (subsumesByRule sub destination value).answer imports = true) :
    (subsumesByRule other left right).answer elsewhere = true := by
  revert yes
  fun_cases subsumesByRule sub destination value
  case case1 | case3 =>
    cases hd
    cases hv <;> exact fun _ => rfl
  case case2 | case5 =>
    cases hv
    cases hd <;> exact fun _ => rfl
  case case4 => exact nofun
  case case6 | case7 | case8 =>
    cases hd
    cases hv
    exact fun _ => rfl
  case case9 =>
    cases hd with | union _ ht =>
    cases hv with | union _ hm =>
    exact allM_of_forall₂ hm fun member =>
      anyM_of_forall₂ ht fun target => carries.inner target member
  case case10 targets _ _ _ _ =>
    cases hd with | @union _ others ht _ =>
    have fits : (targets.anyM fun target => sub target value).answer imports = true →
        (others.anyM fun target => other target right).answer elsewhere = true :=
      anyM_of_forall₂ (forall₂_and_mem ht) fun both => carries.inLeft both.2.1 both.2.2 both.1
    cases hv <;> first | exact fits | (exfalso; solve_by_elim)
  case case11 =>
    cases hd with | readonly hi =>
    cases hv with | readonly ho =>
    exact carries.inner hi ho
  case case12 inner _ _ _ _ =>
    cases hd with | @readonly _ left hi =>
    have fits : (sub inner value).answer imports = true →
        (other left right).answer elsewhere = true :=
      carries.inLeft (by simp [parts]) (by simp [parts]) hi
    cases hv <;> first | exact fits | (exfalso; solve_by_elim)
  case case13 => exact nofun
  case case14 members _ _ _ _ =>
    cases hv with | @union _ others hm _ =>
    have fits : (members.allM fun member => sub destination member).answer imports = true →
        (others.allM fun member => other left member).answer elsewhere = true :=
      allM_of_forall₂ (forall₂_and_mem hm) fun both => carries.inRight both.2.1 both.2.2 both.1
    cases hd <;> first | exact fits | (exfalso; solve_by_elim)
  case case15 =>
    -- the corresponding types are of the same kinds, so none of the other rules is for them
    have fits := sameShapeSubsumes_carried hd hv carries
    fun_cases subsumesByRule other left right
    case case15 => exact fits
    case case6 | case7 | case8 =>
      cases hd
      cases hv
      exfalso
      solve_by_elim
    all_goals
      exfalso
      first | (cases hd; solve_by_elim) | (cases hv; solve_by_elim)

end

theorem Corresponds.flip (same : Corresponds related type image) :
    Corresponds (fun part member => related member part) image type := by
  have slots {params others : List (Slot Ty)}
      (all : Forall₂ (Slot.Corresponds related) params others) :
      Forall₂ (Slot.Corresponds fun part member => related member part) others params :=
    Forall₂.flip all
  cases same with
  | union all flat => exact .union (Forall₂.flip all) (Forall₂.flip flat)
  | tuple all => exact .tuple (Forall₂.flip all)
  | object all =>
    exact .object (Forall₂.flip (all.imp fun _ _ field =>
      ⟨field.name.symm, field.optional.symm, field.type, field.key⟩))
  | func _ _ all result => exact .func _ _ (slots all) result
  | proc _ _ all => exact .proc _ _ (slots all)
  | _ => constructor <;> assumption

/-- Comparisons of related types inside two types come to the same, and so do comparisons of the
type on one side with related parts of the other. -/
structure Agrees (imports elsewhere : Imports) (related also : Ty → Ty → Prop)
    (sub other : Ty → Ty → Inquiry Bool) (destination value left right : Ty) : Prop where
  inner : related part leftPart → also member rightPart →
    (sub part member).answer imports = (other leftPart rightPart).answer elsewhere
  swapped : related part leftPart → also member rightPart →
    (sub member part).answer imports = (other rightPart leftPart).answer elsewhere
  inLeft : part ∈ destination.parts → related part leftPart →
    (sub part value).answer imports = (other leftPart right).answer elsewhere
  inRight : member ∈ value.parts → also member rightPart →
    (sub destination member).answer imports = (other left rightPart).answer elsewhere

/-- The rules come to the same for corresponding types. -/
theorem subsumesByRule_congr (hd : Corresponds related destination left)
    (hv : Corresponds also value right)
    (agrees : Agrees imports elsewhere related also sub other destination value left right) :
    (subsumesByRule sub destination value).answer imports =
      (subsumesByRule other left right).answer elsewhere := by
  rw [Bool.eq_iff_iff]
  constructor
  · refine subsumesByRule_carried hd hv ⟨?_, ?_, ?_, ?_⟩
    · exact fun hp hm yes => (agrees.inner hp hm).symm.trans yes
    · exact fun hp hm yes => (agrees.swapped hp hm).symm.trans yes
    · exact fun hi _ hp yes => (agrees.inLeft hi hp).symm.trans yes
    · exact fun hi _ hm yes => (agrees.inRight hi hm).symm.trans yes
  · refine subsumesByRule_carried hd.flip hv.flip ⟨?_, ?_, ?_, ?_⟩
    · exact fun hp hm yes => (agrees.inner hp hm).trans yes
    · exact fun hp hm yes => (agrees.swapped hp hm).trans yes
    · exact fun _ hi hp yes => (agrees.inLeft hi hp).trans yes
    · exact fun _ hi hm yes => (agrees.inRight hi hm).trans yes

end Step

/-- The types inside a type that comparisons of it come to. A missing type of a parameter is
compared as `unknown`, and the name of an entry as the type of a single string. -/
def compared : Ty → List Ty
  | union members => members ++ flattenList members
  | array element => [element]
  | tuple elements => elements
  | object fields => fields.map Field.type ++ fields.map fun field => .stringLiteral field.name
  | indexer key value => [key, value]
  | func _ params result => result :: params.map Slot.typeOrUnknown
  | proc _ params => params.map Slot.typeOrUnknown
  | generic _ bound => bound.toList
  | iterator inner => [inner]
  | plan inner => [inner]
  | readonly inner => [inner]
  | _ => []

/-- Comparing two types may come to comparing two others. -/
inductive Asks (destination value : Ty) : Ty → Ty → Prop
  | inner {part member : Ty} : part ∈ destination.compared → member ∈ value.compared →
      Asks destination value part member
  | swapped {part member : Ty} : part ∈ destination.compared → member ∈ value.compared →
      Asks destination value member part
  | inLeft {part : Ty} : part ∈ destination.compared → Asks destination value part value
  | inRight {member : Ty} : member ∈ value.compared → Asks destination value destination member

section Like

variable {type other : Ty}

/-- Two types inside others that cannot be told apart cannot be told apart. -/
structure LikeInside (type other part member : Ty) : Prop where
  /-- They cannot be told apart. -/
  like : Like part member
  /-- The one is what comparing the first type comes to. -/
  left : part ∈ type.compared
  /-- The other is what comparing the second type comes to. -/
  right : member ∈ other.compared

/-- Lists of types that cannot be told apart, which comparisons come to. -/
theorem forall₂_inside {parts members : List Ty} (all : Forall₂ Like parts members)
    (hp : parts ⊆ type.compared) (hm : members ⊆ other.compared) :
    Forall₂ (LikeInside type other) parts members :=
  forall₂_imp_of_mem all fun _ hpart _ hmember like => ⟨like, hp hpart, hm hmember⟩

/-- The parts of types that cannot be told apart, if comparisons come to all of them. -/
theorem Like.inside (like : Like type other) (hp : type.parts ⊆ type.compared)
    (hm : other.parts ⊆ other.compared) :
    Forall₂ (LikeInside type other) type.parts other.parts :=
  forall₂_inside like.parts hp hm

/-- Parameters that cannot be told apart correspond. -/
theorem slots_correspond (heads : params.map Slot.head = others.map Slot.head)
    (all : Forall₂ Like (slotTypes params) (slotTypes others))
    (hp : params.map Slot.typeOrUnknown ⊆ type.compared)
    (ho : others.map Slot.typeOrUnknown ⊆ other.compared) :
    Forall₂ (Slot.Corresponds (LikeInside type other)) params others := by
  refine forall₂_imp_of_mem (forall₂_slots heads all) fun slot hs found hf like => ?_
  refine ⟨?_, hp (mem_map_of_mem hs), ho (mem_map_of_mem hf)⟩
  obtain ⟨name, written⟩ := slot
  obtain ⟨otherName, otherWritten⟩ := found
  cases like with
  | none => exact .refl _
  | some like => exact like

/-- Types that cannot be told apart correspond: what comparisons of them come to cannot be
told apart either. -/
theorem Like.corresponds (like : Like type other) : Corresponds (LikeInside type other) type other := by
  have inside := like.parts
  have head := like.head
  cases head.sameKind with
  | union =>
    exact .union (forall₂_inside inside (subset_append_left _ _) (subset_append_left _ _))
      (forall₂_inside like.flatten (subset_append_right _ _) (subset_append_right _ _))
  | tuple => exact .tuple (like.inside (List.Subset.refl _) (List.Subset.refl _))
  | object =>
    refine .object (forall₂_imp_of_mem (forall₂_fields head.labels inside) fun field hf found ho same => ?_)
    obtain ⟨same, type⟩ := same
    obtain ⟨name, optional⟩ := Prod.mk.inj same
    refine ⟨name, optional, ⟨type, ?_, ?_⟩, ⟨name ▸ .refl _, ?_, ?_⟩⟩
    · exact mem_append_left _ (mem_map_of_mem hf)
    · exact mem_append_left _ (mem_map_of_mem ho)
    · exact mem_append_right _ (mem_map_of_mem hf)
    · exact mem_append_right _ (mem_map_of_mem ho)
  | func =>
    simp only [Ty.parts, append_assoc] at inside
    rw [forall₂_append_iff (length_slotTypes head.typeParams),
      forall₂_append_iff (length_slotTypes head.labels)] at inside
    obtain ⟨-, all, results⟩ := inside
    cases results with | cons hr _ =>
    exact .func _ _ (slots_correspond head.labels all (subset_cons_self _ _) (subset_cons_self _ _))
      ⟨hr, mem_cons_self, mem_cons_self⟩
  | proc =>
    rw [Ty.parts, Ty.parts, forall₂_append_iff (length_slotTypes head.typeParams)] at inside
    exact .proc _ _ (slots_correspond head.labels inside.2 (List.Subset.refl _) (List.Subset.refl _))
  | generic name otherName bound otherBound =>
    have all := like.inside (List.Subset.refl _) (List.Subset.refl _)
    cases bound with
    | none =>
      cases otherBound with
      | none => exact .free name otherName
      | some => cases all
    | some bound =>
      cases otherBound with
      | none => cases all
      | some otherBound =>
        cases all with | cons hb _ =>
        exact .bounded name otherName hb
  | indexer =>
    cases like.inside (List.Subset.refl _) (List.Subset.refl _) with | cons hk all =>
    cases all with | cons hv _ =>
    exact .indexer hk hv
  | array | iterator | plan | readonly =>
    cases like.inside (List.Subset.refl _) (List.Subset.refl _) with | cons hi _ =>
    constructor
    exact hi
  | literal value otherValue =>
    cases value <;> cases otherValue <;>
      first | constructor | (rcases head.heads with same | ⟨-, -, -, same⟩ <;> cases same)
  | string | number | boolean | nil | unknown | any | escape | named | nominal | store => constructor

/-- A yes is carried over to types that cannot be told apart, if it is carried over by what
comparing them comes to. -/
theorem subsumesStep_like {sub also : Ty → Ty → Inquiry Bool} (hd : Like destination left)
    (hv : Like value right)
    (carry : ∀ {part member leftPart rightPart : Ty}, Asks destination value part member →
      Asks left right leftPart rightPart → Like part leftPart → Like member rightPart →
      (sub part member).answer imports = true → (also leftPart rightPart).answer imports = true)
    (yes : (subsumesStep sub destination value).answer imports = true) :
    (subsumesStep also left right).answer imports = true := by
  unfold subsumesStep at yes ⊢
  by_cases hs : destination.sameAs value = true
  · rw [if_pos (hd.sameAs hv hs)]
    rfl
  rw [if_neg hs] at yes
  split
  · rfl
  refine subsumesByRule_carried hd.corresponds hv.corresponds ⟨?_, ?_, ?_, ?_⟩ yes
  · exact fun hp hm => carry (.inner hp.left hm.left) (.inner hp.right hm.right) hp.like hm.like
  · exact fun hp hm => carry (.swapped hp.left hm.left) (.swapped hp.right hm.right) hm.like hp.like
  · exact fun _ _ hp => carry (.inLeft hp.left) (.inLeft hp.right) hp.like hv
  · exact fun _ _ hm => carry (.inRight hm.left) (.inRight hm.right) hd hm.like

end Like

end Ty

end ScriptCheck
