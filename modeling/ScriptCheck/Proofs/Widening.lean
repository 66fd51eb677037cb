import ScriptCheck.Proofs.NormalTypes
import ScriptCheck.Proofs.Transparency

/-!
# Widening a type

A widened type has no literals where widening goes on, so widening it again changes nothing. It
subsumes the type it was made from, member by member and part by part. Members that become the
same are kept once: what they refer to by the same name has to be the same for that.
-/

namespace ScriptCheck.Ty

open List

variable {type : Ty} {members : List Ty}

/-- The types inside a type that widening goes on to. -/
def widenedParts : Ty → List Ty
  | union members => members
  | array element => [element]
  | tuple elements => elements
  | object fields => fields.map Field.type
  | _ => []

theorem mem_parts_of_mem_widenedParts (hp : part ∈ type.widenedParts) : part ∈ type.parts := by
  cases type <;> first | exact hp | cases hp

/-- A type is reached in another through unions, arrays, tuples and object entries. -/
inductive Reaches : Ty → Ty → Prop
  | refl (type : Ty) : Reaches type type
  | part {type part inner : Ty} : part ∈ type.widenedParts → Reaches part inner → Reaches type inner

/-- No literal is reached in a type. -/
def Wide (type : Ty) : Prop := ∀ value, ¬ type.Reaches (.literal value)

/-- Whether a type is a literal. -/
def isLiteral : Ty → Bool
  | literal _ => true
  | _ => false

theorem wide_of_parts (own : type.isLiteral = false)
    (inside : ∀ part ∈ type.widenedParts, Wide part) : Wide type := by
  intro value reaches
  cases reaches with
  | refl => cases own
  | part hp reaches => exact inside _ hp value reaches

theorem Normal.normalMembers (normal : (union members).Normal) : NormalMembers members := by
  cases normal with
  | intro own _ => exact own members rfl

theorem isUnion_widen (single : type.isUnion = false) : type.widen.isUnion = false := by
  cases type with
  | literal value => cases value <;> rfl
  | union => cases single
  | _ => rfl

/-- The members of a union in normal form are widened one by one, and those that become the same
are kept once. -/
theorem Normal.widen_union (normal : (union members).Normal) :
    (∀ member ∈ members.map widen, member.isUnion = false) ∧
      (union members).widen = collapse (distinct (members.map widen)) := by
  have flat : ∀ member ∈ members.map widen, member.isUnion = false :=
    forall_mem_map.mpr fun member hm => isUnion_widen (normal.normalMembers.flat member hm)
  rw [widen, widenList_eq, unionOf, flattenList_eq_self flat]
  exact ⟨flat, rfl⟩

/-- What is widened is wide. -/
theorem Normal.wide_widen (normal : type.Normal) : Wide type.widen := by
  induction normal with
  | @intro type own inside ih =>
    cases type with
    | literal value => cases value <;> exact wide_of_parts rfl (forall_mem_nil _)
    | union members =>
      have kept : ∀ member ∈ distinct (members.map widen), Wide member := fun member hm =>
        forall_mem_map.mpr ih member (mem_of_mem_distinct hm)
      rw [(Normal.intro own inside).widen_union.2]
      unfold collapse
      split
      · next only => exact kept _ (only ▸ mem_cons_self)
      · exact wide_of_parts rfl kept
    | array element => exact wide_of_parts rfl (forall_mem_singleton.mpr (ih element mem_cons_self))
    | tuple elements =>
      rw [widen, widenList_eq]
      exact wide_of_parts rfl (forall_mem_map.mpr ih)
    | object fields =>
      rw [widen, widenFields_eq]
      refine wide_of_parts rfl ?_
      rw [widenedParts, map_map]
      exact forall_mem_map.mpr fun field hf => ih _ (mem_map_of_mem hf)
    | _ => exact wide_of_parts rfl (forall_mem_nil _)

theorem distinct_eq_self (apart : types.Pairwise fun first second => first.sameAs second = false) :
    distinct types = types := by
  have walk : ∀ kept : List Ty, (kept ++ types).Pairwise (fun first second =>
      first.sameAs second = false) → types.foldl addDistinct kept = kept ++ types := by
    clear apart
    induction types with
    | nil => simp
    | cons first types ih =>
      intro kept apart
      have new : kept.any (·.sameAs first) = false := by
        refine any_eq_false.mpr fun other ho => ?_
        simp [(pairwise_append.mp apart).2.2 other ho first mem_cons_self]
      rw [foldl_cons, addDistinct, if_neg (by simp [new]), ih _ (by simpa using apart),
        append_assoc, singleton_append]
  exact walk [] apart

/-- A union in normal form stays as it is if its members do. -/
theorem Normal.widen_union_eq (normal : (union members).Normal)
    (stays : ∀ member ∈ members, member.widen = member) :
    (union members).widen = union members := by
  rw [normal.widen_union.2, (map_congr_left stays).trans (map_id members),
    distinct_eq_self normal.normalMembers.apart]
  unfold collapse
  split
  · exact absurd rfl normal.normalMembers.several
  · rfl

/-- Widening a type that is wide changes nothing. -/
theorem Normal.widen_eq (normal : type.Normal) (wide : Wide type) : type.widen = type := by
  induction normal with
  | @intro type own inside ih =>
    have inner : ∀ part ∈ type.widenedParts, part.widen = part := fun part hp =>
      ih part (mem_parts_of_mem_widenedParts hp) fun value reaches => wide value (.part hp reaches)
    cases type with
    | literal value => exact absurd (.refl _) (wide value)
    | union members => exact (Normal.intro own inside).widen_union_eq inner
    | array element => rw [widen, inner element mem_cons_self]
    | tuple elements =>
      rw [widen, widenList_eq]
      exact congrArg tuple ((map_congr_left inner).trans (map_id elements))
    | object fields =>
      have kept (field : Field Ty) (hf : field ∈ fields) :
          { field with type := field.type.widen } = field := by
        rw [inner field.type (mem_map_of_mem hf)]
      rw [widen, widenFields_eq]
      exact congrArg object ((map_congr_left kept).trans (map_id fields))
    | _ => rfl

section Subsumption

variable {imports : Imports} {destination value : Ty}

/-- Whether a type is no deeper than so many levels. -/
def isNestedWithin : Nat → Ty → Bool
  | 0, _ => false
  | levels + 1, type => type.parts.all (isNestedWithin levels)

/-- What is asked of a type apart from its names and how deep it is. -/
structure Regular (type : Ty) : Prop where
  /-- Its unions are in normal form. -/
  normal : type.Normal
  /-- It is the same as itself, which says that the literal NaN is not in it. -/
  self : type.sameAs type = true
  /-- Its objects have no entry twice. -/
  entries {fields : List (Field Ty)} : type.Reaches (.object fields) → (fields.map Field.name).Nodup

theorem Regular.part (regular : Regular type) {part : Ty} (hp : part ∈ type.widenedParts) :
    Regular part where
  normal := by
    cases regular.normal with
    | intro _ inside => exact inside part (mem_parts_of_mem_widenedParts hp)
  self := forall₂_same.mp (sameAs_iff.mp regular.self).2 part (mem_parts_of_mem_widenedParts hp)
  entries reaches := regular.entries (.part hp reaches)

theorem subsumesWithin_of_rule (hd : destination.isNamed = false) (hv : value.isNamed = false)
    (rule : (subsumesByRule (subsumesWithin false limit pending) destination value).answer
      imports = true) :
    (subsumesWithin false (limit + 1) pending destination value).answer imports = true := by
  rw [subsumesWithin_succ hd hv, subsumesStep]
  split
  · rfl
  · exact rule

/-- A type that is seen through or made `readonly` is widened to itself only. -/
theorem widen_eq_of_like (like : Like destination type.widen)
    (whole : ¬(destination.isNamed = false ∧ destination.isReadonly = false))
    (single : type.isUnion = false) : type.widen = type := by
  have kind := like.head.sameKind
  cases type with
  | literal value => cases value <;> (cases kind; exact absurd ⟨rfl, rfl⟩ whole)
  | union => cases single
  | array | tuple | object =>
    cases kind
    exact absurd ⟨rfl, rfl⟩ whole
  | _ => rfl

/-- A type that is no union and not `readonly` subsumes a union by the rules if it subsumes the
members. -/
theorem rule_members {sub : Ty → Ty → Inquiry Bool} (single : destination.isUnion = false)
    (bare : destination.isReadonly = false)
    (all : ∀ member ∈ members, (sub destination member).answer imports = true) :
    (subsumesByRule sub destination (.union members)).answer imports = true := by
  have yes : (members.allM fun member => sub destination member).answer imports = true := by
    rw [Inquiry.answer_allM]
    exact all_eq_true.mpr all
  cases destination with
  | any | unknown => rfl
  | union => cases single
  | readonly => cases bare
  | _ => exact yes

/-- Names that are written alike and reached in the two types stand for the same. -/
def NamedAlike (imports : Imports) (type other : Ty) : Prop :=
  ∀ {first second : Ty}, type.Reaches first → other.Reaches second → first.isNamed = true →
    first.sameAs second = true →
      (first.expand.answer imports).sameAs (second.expand.answer imports) = true

section Step

variable (regular : Regular type) (changes : type.widen ≠ type) (like : Like destination type.widen)
  (inside : ∀ {target part : Ty}, part ∈ type.widenedParts → Like target part.widen →
    (∀ {inner}, target.Reaches inner → destination.Reaches inner) → ∀ pending,
      (subsumesWithin false limit pending target part).answer imports = true)
  (pending : List (Ty × Ty))

include regular changes like inside

/-- The members of a union find themselves widened among those that are kept, be it one or
more. -/
theorem subsumesWithin_widen_union (union : type = .union members) :
    (subsumesWithin false (limit + 1) pending destination type).answer imports = true := by
  subst union
  have normal := regular.normal.normalMembers
  obtain ⟨flat, widened⟩ := regular.normal.widen_union
  have single {target kept : Ty} (like : Like target kept)
      (hk : kept ∈ distinct (members.map widen)) : target.isUnion = false := by
    rw [← flat kept (mem_of_mem_distinct hk)]
    cases like.head.sameKind <;> rfl
  have found {member : Ty} (hm : member ∈ members) : ∃ kept ∈ distinct (members.map widen),
      Like kept member.widen := exists_like_mem_distinct (mem_map_of_mem hm)
  rw [widened] at like
  generalize distinct (members.map widen) = kept at like single found
  unfold collapse at like
  split at like
  · have all : ∀ member ∈ members, Like destination member.widen := by
      intro member hm
      obtain ⟨_, hk, alike⟩ := found hm
      exact like.trans (mem_singleton.mp hk ▸ alike)
    obtain ⟨unnamed, bare⟩ : destination.isNamed = false ∧ destination.isReadonly = false := by
      by_contra whole
      exact changes (regular.normal.widen_union_eq fun member hm =>
        widen_eq_of_like (all member hm) whole (normal.flat member hm))
    exact subsumesWithin_of_rule unnamed rfl (rule_members (single like mem_cons_self) bare
      fun member hm => inside hm (all member hm) id pending)
  · cases like.head.sameKind with
    | union targets =>
    refine subsumesWithin_of_rule rfl rfl (rule_union (fun target ht => ?_) normal.flat
      fun member hm => ?_)
    · obtain ⟨_, hk, alike⟩ := exists_of_mem_right like.parts.flip ht
      exact single alike hk
    · obtain ⟨_, hk, alike⟩ := found hm
      obtain ⟨target, ht, also⟩ := exists_of_mem_right like.parts hk
      exact ⟨target, ht, inside hm (also.trans alike) (.part ht) pending⟩

/-- A widened type subsumes the type if the types inside are subsumed. -/
theorem subsumesWithin_widen_step :
    (subsumesWithin false (limit + 1) pending destination type).answer imports = true := by
  have kind := like.head.sameKind
  have parts := like.parts
  cases type with
  | literal value => cases value <;> (cases kind; exact subsumesWithin_of_rule rfl rfl rfl)
  | array element =>
    cases kind
    cases parts with
    | cons first _ =>
    exact subsumesWithin_of_rule rfl rfl (inside mem_cons_self first (.part mem_cons_self) pending)
  | tuple elements =>
    rw [widen, widenList_eq] at kind parts
    cases kind with
    | tuple targets =>
    refine subsumesWithin_of_rule rfl rfl (rule_tuple ?_)
    exact forall₂_imp_of_mem (forall₂_map_right_iff.mp parts) fun target ht element he like =>
      inside he like (.part ht) pending
  | object fields =>
    rw [widen, widenFields_eq] at kind parts like
    have labels := like.head.labels
    cases kind with
    | object wanted =>
    refine subsumesWithin_of_rule rfl rfl (rule_object (regular.entries (.refl _)) ?_)
    refine forall₂_imp_of_mem (forall₂_map_right_iff.mp (forall₂_fields labels parts))
      fun entry he field hf both => ⟨both.1, ?_⟩
    exact inside (mem_map_of_mem hf) both.2 (.part (mem_map_of_mem he)) pending
  | union members => exact subsumesWithin_widen_union regular changes like inside pending rfl
  | _ => exact absurd rfl changes

end Step

/-- A type alike to the widened type subsumes the type, given enough comparisons inside each
other. -/
theorem subsumesWithin_widen (enough : levels ≤ limit) (like : Like destination type.widen)
    (regular : Regular type) (below : type.isNestedWithin levels = true)
    (names : NamedAlike imports destination type) (pending : List (Ty × Ty)) :
    (subsumesWithin false limit pending destination type).answer imports = true := by
  induction levels generalizing limit type destination pending with
  | zero => cases below
  | succ levels ih =>
    obtain ⟨limit, rfl⟩ : ∃ less, limit = less + 1 := ⟨limit - 1, by omega⟩
    by_cases stays : type.widen = type
    · rw [stays] at like
      have same := like.symm.sameAs_left regular.self
      have alike : (destination.expand.answer imports).sameAs (type.expand.answer imports) = true := by
        cases named : destination.isNamed with
        | true => exact names (.refl _) (.refl _) named same
        | false => rwa [expand_of_not_named named, expand_of_not_named (isNamed_of_sameAs same ▸ named)]
      rw [subsumesWithin]
      dsimp only
      split
      · rfl
      · rw [resolveSide_false, resolveSide_false, Inquiry.answer_bind, Inquiry.answer_bind,
          subsumesStep, if_pos alike]
        rfl
    · refine subsumesWithin_widen_step regular stays like (fun hp like within => ?_) pending
      exact ih (by omega) like (regular.part hp)
        (all_eq_true.mp below _ (mem_parts_of_mem_widenedParts hp))
        fun first second => names (within first) (.part hp second)

theorem Normal.formed (normal : type.Normal) : type.Formed (fun _ => True) True := by
  induction normal with
  | intro own _ inside => exact .intro (fun _ _ => trivial) (fun _ => own) inside

/-- Widening is a closure upwards: the widened type of a type with unions in normal form has its
unions in normal form too and is widened to itself, no literal is reached in it, and it subsumes
the type if that nests less deep than comparisons may and names that are written alike stand for
the same. -/
theorem widen_closes (imports : Imports) (regular : Regular type) :
    (type.isNestedWithin comparisonLimit = true → NamedAlike imports type.widen type →
      (type.widen.subsumes type false).answer imports = true) ∧
    type.widen.widen = type.widen ∧ type.widen.Normal ∧
    ∀ value, ¬ type.widen.Reaches (.literal value) :=
  have normal : type.widen.Normal := regular.normal.formed.widen.normal
  have wide : Wide type.widen := regular.normal.wide_widen
  ⟨fun below names => subsumesWithin_widen (Nat.le_refl _) (.refl _) regular below names [],
    normal.widen_eq wide, normal, wide⟩

end Subsumption

section Examples

/-- An object with a mark and a name that is written somewhere. -/
def markedBy (mark : Ty) (origin : Node) : Ty :=
  .object [⟨"mark", mark, false⟩, ⟨"of", .named "A" [] origin, false⟩]

theorem reaches_markedBy {mark inner : Ty} (leaf : mark.widenedParts = [])
    (reaches : (markedBy mark origin).Reaches inner) :
    inner = markedBy mark origin ∨ inner = mark ∨ inner = .named "A" [] origin := by
  have stops {type : Ty} (none : type.widenedParts = []) (reaches : type.Reaches inner) :
      inner = type := by
    cases reaches with
    | refl => rfl
    | part hp _ => cases none ▸ hp
  cases reaches with
  | refl => exact .inl rfl
  | part hp reaches =>
    rcases mem_pair.mp hp with rfl | rfl
    · exact .inr (.inl (stops leaf reaches))
    · exact .inr (.inr (stops rfl reaches))

/-- Two objects that become the same by widening, apart from where the name in them is written. -/
def marked (first second : Node) : Ty :=
  .union [markedBy (.stringLiteral "x") first, markedBy (.stringLiteral "y") second]

theorem marked_regular (first second : Node) : Regular (marked first second) := by
  have normal (mark : String) (origin : Node) : (markedBy (.stringLiteral mark) origin).Normal := by
    refine .intro nofun fun part hp => ?_
    rcases mem_pair.mp hp with rfl | rfl <;> exact .intro nofun nofun
  refine ⟨.intro ?_ fun part hp => ?_, rfl, fun reaches => ?_⟩
  · rintro _ ⟨⟩
    exact ⟨by simp [markedBy, isUnion], nofun, pairwise_pair.mpr rfl⟩
  · rcases mem_pair.mp hp with rfl | rfl <;> exact normal _ _
  · cases reaches with
    | part hp reaches =>
    rcases mem_pair.mp hp with rfl | rfl <;>
    · rcases reaches_markedBy rfl reaches with same | same | same <;> cases same
      simp

/-- Where one of the scripts uses the name that both declare. -/
def ownName : Node := (namesakes.headD default).node 6

/-- Two members of a union become one, which subsumes both if the name in them is one. -/
theorem marked_widen_closes :
    (marked ownName ownName).widen = markedBy .string ownName ∧
      ((markedBy .string ownName).subsumes (marked ownName ownName) false).answer
        (Program.ofScripts namesakes).imports = true := by
  refine ⟨rfl, (widen_closes _ (marked_regular ownName ownName)).1 rfl ?_⟩
  intro first second hf hs named same
  rcases reaches_markedBy rfl hf with rfl | rfl | rfl
  · cases named
  · cases named
  · cases hs with
    | refl => cases same
    | part hp hs =>
      rcases mem_pair.mp hp with rfl | rfl <;>
      · rcases reaches_markedBy rfl hs with rfl | rfl | rfl
        · cases same
        · cases same
        · decide +kernel

/-- What the two members refer to by one name may differ: the member that is kept does not subsume
the other one then. -/
theorem marked_not_subsumed :
    let type := marked ownName ((namesakes.getD 1 default).node 2)
    Regular type ∧ type.isNestedWithin comparisonLimit = true ∧
      (type.widen.subsumes type false).answer (Program.ofScripts namesakes).imports = false :=
  ⟨marked_regular _ _, rfl, by decide +kernel⟩

end Examples

end ScriptCheck.Ty
