import ScriptCheck.Proofs.CleanScripts
import ScriptCheck.Proofs.Coverage

/-!
# Unions on both sides

A type keeps what it accepts when it is put into a union, and a union is accepted if and only if
each of its members is. Both have exceptions: `unknown` is accepted by itself but by no union
around it, and a readonly type that is given a union asks its inner type for the whole union,
which then may not have readonly members.
-/

namespace ScriptCheck.Ty

open List Inquiry

variable {view : View} {type destination value target member inner : Ty} {targets members : List Ty}

section Clear

/-- A property holds of a type and of all that comparing it comes to. -/
inductive Throughout (holds : Ty → Bool) : Ty → Prop
  | intro {type : Ty} : holds type = true → (∀ part ∈ type.compared, Throughout holds part) →
      Throughout holds type

variable {holds also : Ty → Bool}

theorem throughout_iff : Throughout holds type ↔
    holds type = true ∧ ∀ part ∈ type.compared, Throughout holds part :=
  ⟨fun all => by cases all with | intro own inside => exact ⟨own, inside⟩, fun all => .intro all.1 all.2⟩

theorem Throughout.mono (all : Throughout holds type)
    (more : ∀ type, holds type = true → also type = true) : Throughout also type := by
  induction all with
  | intro own _ ih => exact .intro (more _ own) ih

/-- Whether a property holds throughout a type that has not more than the given number of
levels. -/
def isThroughout (holds : Ty → Bool) : Nat → Ty → Bool
  | 0, _ => false
  | levels + 1, type => holds type && type.compared.all (isThroughout holds levels)

theorem throughout_of_levels (all : isThroughout holds levels type = true) :
    Throughout holds type := by
  induction levels generalizing type with
  | zero => cases all
  | succ levels ih =>
    simp only [isThroughout, Bool.and_eq_true, all_eq_true] at all
    exact .intro all.1 fun part hp => ih (all.2 part hp)

/-- A union has a property throughout if its members have. -/
theorem throughout_union (own : holds (.union members) = true)
    (all : ∀ member ∈ members, Throughout holds member) : Throughout holds (.union members) := by
  refine .intro own fun part hp => ?_
  rcases mem_append.mp hp with hp | hp
  · exact all part hp
  · rw [flattenList_eq] at hp
    obtain ⟨member, hm, hp⟩ := mem_flatMap.mp hp
    cases member with
    | union others => exact (throughout_iff.mp (all _ hm)).2 part (mem_append_right _ hp)
    | _ => exact mem_singleton.mp hp ▸ all _ hm

/-- Whether a type is neither a name nor a type parameter. -/
def isOpen : Ty → Bool
  | named _ _ _ => false
  | generic _ _ => false
  | _ => true

/-- Whether a type is seen through at once: it is open, or a type parameter with an open bound. -/
def isClear : Ty → Bool
  | generic _ bound => bound.any isOpen
  | named _ _ _ => false
  | _ => true

theorem isClear_cases (clear : type.isClear = true) : type.isOpen = true ∨
    ∃ name bound, type = .generic name (some bound) ∧ bound.isOpen = true := by
  cases type with
  | generic name bound =>
    cases bound with
    | none => cases clear
    | some bound => exact .inr ⟨name, bound, rfl, clear⟩
  | named => cases clear
  | _ => exact .inl rfl

theorem side_of_open (seen : type.isOpen = true) : type.side view = type := by
  cases type with
  | named | generic => cases seen
  | _ => exact side_eq_self rfl (by simp)

/-- What a type parameter with an open bound is seen as. -/
theorem side_generic (seen : bound.isOpen = true) :
    (Ty.generic name (some bound)).side view =
      if view.throughGenerics then bound else .generic name (some bound) := by
  rw [side, resolveSide, answer_bind, expand_of_not_named rfl]
  cases view.throughGenerics with
  | false => rfl
  | true =>
    have named : bound.isNamed = false := by
      cases bound with
      | named => cases seen
      | _ => rfl
    exact expand_of_not_named named

/-- Clear types of one kind are seen as themselves, or both as their bounds. -/
theorem side_of_sameKind (kind : SameKind left right) (hl : left.isClear = true)
    (hr : right.isClear = true) :
    (left.side view = left ∧ right.side view = right) ∨
      ∃ name other bound value, left = .generic name (some bound) ∧
        right = .generic other (some value) ∧ left.side view = bound ∧ right.side view = value := by
  rcases isClear_cases hl with hl | ⟨name, bound, rfl, hb⟩
  · have too : right.isOpen = true := by
      cases kind with
      | generic | named => cases hl
      | _ => rfl
    exact .inl ⟨side_of_open hl, side_of_open too⟩
  · rcases isClear_cases hr with hr | ⟨other, value, rfl, hv⟩
    · cases kind
      cases hr
    · rw [side_generic hb, side_generic hv]
      cases view.throughGenerics with
      | false => exact .inl ⟨rfl, rfl⟩
      | true => exact .inr ⟨name, other, bound, value, rfl, rfl, rfl, rfl⟩

/-- Types that are seen through at once, throughout, are a family in which nothing has two
meanings. -/
theorem clearSides_clear : ClearSides view (Throughout isClear) where
  compared all hp := (throughout_iff.mp all).2 _ hp
  seen {type} all := by
    obtain ⟨own, inside⟩ := throughout_iff.mp all
    rcases isClear_cases own with seen | ⟨name, bound, rfl, hb⟩
    · exact (side_of_open seen).symm ▸ all
    · rw [side_generic hb]
      split
      · exact inside bound mem_cons_self
      · exact all
  like {left right} hl hr like := by
    rcases side_of_sameKind like.head.sameKind (throughout_iff.mp hl).1 (throughout_iff.mp hr).1 with
      ⟨left, right⟩ | ⟨name, other, bound, value, rfl, rfl, left, right⟩
    · rwa [left, right]
    · rw [left, right]
      cases like.parts with | cons first _ => exact first
  same {left right} hl hr same := by
    rcases side_of_sameKind (.of_sameAs same) (throughout_iff.mp hl).1 (throughout_iff.mp hr).1 with
      ⟨left, right⟩ | ⟨name, other, bound, value, rfl, rfl, left, right⟩
    · rwa [left, right]
    · rw [left, right]
      simp only [sameAs, sameOption, Bool.and_eq_true] at same
      exact same.2
  again {type} all := by
    rcases isClear_cases (throughout_iff.mp all).1 with seen | ⟨name, bound, rfl, hb⟩
    · rw [side_of_open seen, side_of_open seen]
    · rw [side_generic hb]
      split
      · exact side_of_open hb
      · rw [side_generic hb]
        split
        · contradiction
        · rfl

/-- Whether a type is open and, by itself, neither takes anything nor is taken for anything. -/
def isConcrete : Ty → Bool
  | any => false
  | unknown => false
  | escape => false
  | type => type.isOpen

theorem isOpen_of_concrete (own : type.isConcrete = true) : type.isOpen = true := by
  cases type with
  | any | unknown | escape => cases own
  | _ => exact own

/-- Types that are concrete throughout are clear. -/
theorem Throughout.clear (all : Throughout isConcrete type) : Throughout isClear type := by
  refine all.mono fun type own => ?_
  cases type with
  | named | generic => cases own
  | _ => rfl

/-- What the values of a type may be taken for is concrete throughout if the type is. -/
theorem Throughout.comesTo (all : Throughout isConcrete value)
    (comes : ComesTo view value member) : Throughout isConcrete member := by
  obtain ⟨own, inside⟩ := throughout_iff.mp all
  have seen : value.side view = value := side_of_open (isOpen_of_concrete own)
  cases comes with
  | seen => exact seen.symm ▸ all
  | member hs hm =>
    rw [seen] at hs
    exact inside member (hs ▸ mem_append_right _ hm)
  | inner hs =>
    rw [seen] at hs
    exact inside member (hs ▸ mem_cons_self)

/-- The values of a type that is concrete throughout are not taken for `unknown`. -/
theorem Throughout.known (all : Throughout isConcrete type) : Known view type := by
  intro part reached
  have inside : Throughout isConcrete part := by
    induction reached with
    | refl => exact all
    | tail _ comes ih => exact ih.comesTo comes
  have own := (throughout_iff.mp inside).1
  rw [side_of_open (isOpen_of_concrete own)]
  rintro rfl
  cases own

end Clear

section Concrete

variable (hd : Throughout isConcrete destination) (hv : Throughout isConcrete value)
include hv

/-- A type that is no union is accepted by a member of what accepts it. -/
theorem exists_target_of_concrete (hu : value.isUnion = false)
    (accepts : Accepts view destination value) :
    ∃ target ∈ destination.flatten, Accepts view target value := by
  have own := (throughout_iff.mp hv).1
  refine clearSides_clear.exists_target hv.clear ?_ accepts
  rw [side_of_open (isOpen_of_concrete own)]
  cases value with
  | any | unknown | escape => cases own
  | union => cases hu
  | _ => rfl

include hd

/-- What a member of a type accepts, the type accepts. -/
theorem accepts_of_target (ht : target ∈ destination.flatten)
    (accepts : Accepts view target value) : Accepts view destination value := by
  cases destination with
  | union targets =>
    have has : HasTarget view (.union targets) target := ⟨targets, side_union, ht⟩
    exact clearSides_clear.accepts_of_covered ⟨clearSides_clear.hasTarget hd.clear has, hv.clear,
      .single has, accepts, .refl, hv.known⟩
  | _ => rwa [← mem_singleton.mp ht]

/-- What accepts a type accepts what the values of that type may be taken for. -/
theorem Accepts.of_comesTo (accepts : Accepts view destination value)
    (comes : ComesTo view value member) : Accepts view destination member :=
  clearSides_clear.accepts_of_covered ⟨hd.clear, hv.clear, .refl, accepts, .single comes, hv.known⟩

/-- What accepts a type accepts its members. -/
theorem Accepts.of_mem_flatten (accepts : Accepts view destination value)
    (hm : member ∈ value.flatten) : Accepts view destination member := by
  cases value with
  | union members => exact accepts.of_comesTo hd hv (.member side_union hm)
  | _ => rwa [mem_singleton.mp hm]

end Concrete

/-- A union without members is accepted by every type. -/
theorem accepts_of_no_members (hs : value.side view = .union members)
    (none : flattenList members = []) : Accepts view destination value := by
  refine accepts_of_goesOn (fun _ value => ∃ members,
    value.side view = .union members ∧ flattenList members = []) ?_
    ⟨members, hs, none⟩
  rintro destination value ⟨members, hs, none⟩
  have inside : ∀ member ∈ members, ∃ others,
      member.side view = .union others ∧ flattenList others = [] := by
    intro member hm
    have empty : member.flatten = [] := flatMap_eq_nil_iff.mp (flattenList_eq members ▸ none) _ hm
    cases member with
    | union others => exact ⟨others, side_union, empty⟩
    | _ => simp [flatten] at empty
  refine (goesOn_iff rfl hs).mpr (.inr ?_)
  cases destination.side view with
  | any | unknown => rfl
  | union targets => simp [subsumesByRule, none]
  | readonly inner =>
    simp only [subsumesByRule, answer_asked]
    exact .inl ⟨members, side_union, none⟩
  | _ =>
    simp only [subsumesByRule, answer_allM, all_eq_true, answer_asked]
    exact fun member hm => .inl (inside member hm)

section Wider

variable (clear : ClearSides view family)

/-- Among the types of a list there is one for the value, or one for each of its members. -/
structure Targets (view : View) (targets : List Ty) (value : Ty) : Prop where
  /-- A value that is no union has a target. -/
  single : (value.side view).isSingle = true → ∃ target ∈ targets, Accepts view target value
  /-- Each member of a union has a target. -/
  members {members : List Ty} {member : Ty} : value.side view = .union members →
    member ∈ flattenList members → ∃ target ∈ targets, Accepts view target member
  /-- `unknown` has no target. -/
  known : value.side view ≠ .unknown

include clear in
/-- A union that accepts a value has targets for it. -/
theorem ClearSides.targets_of_accepts (hd : family (.union targets)) (hv : family value)
    (accepts : Accepts view (.union targets) value) :
    Targets view (flattenList targets) value where
  single single := clear.exists_target hv single accepts
  members hs hm := clear.exists_target_of_member hd hv accepts side_union hs hm
  known hs := by
    have goes := (goesOn_iff side_union hs).mp accepts.goesOn
    simp [sameAs, subsumesByRule] at goes

/-- A union of types that are no unions accepts a value for which it has targets. -/
theorem Targets.accepts (found : Targets view targets value)
    (again : (value.side view).side view = value.side view)
    (flat : ∀ target ∈ targets, target.isUnion = false) :
    Accepts view (.union targets) value := by
  refine accepts_iff_goesOn.mpr ((goesOn_iff side_union rfl).mpr (.inr ?_))
  cases hs : value.side view with
  | any | escape => rfl
  | unknown => exact absurd hs found.known
  | union members =>
    simp only [subsumesByRule, answer_allM, answer_anyM, all_eq_true,
      any_eq_true, answer_asked, flattenList_eq_self flat]
    exact fun member hm => found.members hs hm
  | _ =>
    obtain ⟨target, ht, accepts⟩ := found.single (by rw [hs]; rfl)
    have accepts := (accepts_side_right again).mpr accepts
    simp only [subsumesByRule, answer_anyM, any_eq_true, answer_asked]
    exact ⟨target, ht, hs ▸ accepts⟩

/-- A union that is built from types is the union of those kept, unless one alone is kept. -/
theorem unionOf_eq_union (hu : (unionOf types).isUnion = true) :
    unionOf types = .union (distinct (flattenList types)) := by
  have flat (type : Ty) (hm : type ∈ distinct (flattenList types)) :=
    isUnion_of_mem_flattenList (mem_of_mem_distinct hm)
  unfold unionOf at hu ⊢
  unfold collapse at hu ⊢
  split at hu
  · next kept =>
    rw [flat _ (kept ▸ mem_singleton_self _)] at hu
    cases hu
  · rfl

include clear in
/-- A union that others are added to has targets for what it accepted. -/
theorem ClearSides.targets_distinct_append (hv : family value) (found : Targets view targets value)
    (within : ∀ target ∈ targets, family target) (rest : List Ty) :
    Targets view (distinct (targets ++ rest)) value := by
  -- Of types that cannot be told apart one is kept, and it accepts what the other does.
  have kept {target part : Ty} (hp : family part) (ht : target ∈ targets)
      (accepts : Accepts view target part) :
      ∃ other ∈ distinct (targets ++ rest), Accepts view other part := by
    obtain ⟨other, ho, like⟩ := exists_like_mem_distinct ht
    have member := within other (mem_of_mem_distinct ho)
    exact ⟨other, mem_distinct_append ho rest,
      accepts.like clear.toOneMeaning (within target ht) hp member hp like.symm (.refl _)⟩
  refine ⟨fun single => ?_, fun hs hm => ?_, found.known⟩
  · obtain ⟨target, ht, accepts⟩ := found.single single
    exact kept hv ht accepts
  · obtain ⟨target, ht, accepts⟩ := found.members hs hm
    exact kept (clear.comesTo hv (.member hs hm)) ht accepts

/-- What has no targets to choose from is accepted by every type. -/
theorem Targets.accepts_of_nil (found : Targets view [] value) :
    Accepts view destination value := by
  cases hs : value.side view with
  | any | escape =>
    refine accepts_iff_goesOn.mpr ((goesOn_iff rfl hs).mpr (.inr ?_))
    cases destination.side view <;> rfl
  | unknown => exact absurd hs found.known
  | union members =>
    refine accepts_of_no_members hs (eq_nil_iff_forall_not_mem.mpr fun member hm => ?_)
    obtain ⟨_, ht, _⟩ := found.members hs hm
    cases ht
  | _ =>
    obtain ⟨_, ht, _⟩ := found.single (by rw [hs]; rfl)
    cases ht

include clear in
/-- What a type accepts, a union that it is put into accepts. -/
theorem ClearSides.accepts_unionOf (hd : family destination) (hv : family value)
    (known : destination.isUnion = false → Known view value)
    (several : destination.isUnion = true → destination.flatten = [] ∨
      (unionOf [destination, type]).isUnion = true)
    (accepts : Accepts view destination value) :
    Accepts view (unionOf [destination, type]) value := by
  have members : flattenList [destination, type] = destination.flatten ++ flattenList [type] := rfl
  cases hu : destination.isUnion with
  | false =>
    have own : destination ∈ (unionOf [destination, type]).flatten := by
      rw [flatten_unionOf, members, flatten_of_not_union hu]
      exact mem_distinct_append (mem_singleton_self _) _
    cases wide : unionOf [destination, type] with
    | union kept =>
      rw [wide] at own
      exact clear.accepts_of_covered
        ⟨hd, hv, .single ⟨kept, side_union, own⟩, accepts, .refl, known hu⟩
    | _ =>
      rw [wide] at own
      rw [← mem_singleton.mp own]
      exact accepts
  | true =>
    cases destination with
    | union targets =>
      have found := clear.targets_of_accepts hd hv accepts
      rcases several hu with none | wide
      · rw [flatten] at none
        rw [none] at found
        exact found.accepts_of_nil
      · rw [unionOf_eq_union wide, members]
        have within (part : Ty) (hp : part ∈ flattenList targets) : family part :=
          clear.compared hd (mem_append_right _ hp)
        refine (clear.targets_distinct_append hv found within _).accepts (clear.again hv) ?_
        exact fun target ht => isUnion_of_mem_flattenList (members ▸ mem_of_mem_distinct ht)
    | _ => cases hu

include clear in
/-- A type that fits a value still fits it as a member of a union. This asks for three things:
the value cannot be taken for `unknown`, which no union around `unknown` accepts; a union that is
widened does not fall together into one type; and the types are seen through at once, with names
that mean one thing. -/
theorem ClearSides.subsumes_unionOf (hd : family destination) (hv : family value)
    (known : destination.isUnion = false → Known view value)
    (several : destination.isUnion = true → destination.flatten = [] ∨
      (unionOf [destination, type]).isUnion = true)
    (shallow : Shallow view (unionOf [destination, type]) value)
    (fits : (destination.subsumes value view.throughGenerics).answer view.imports = true) :
    ((unionOf [destination, type]).subsumes value view.throughGenerics).answer view.imports = true :=
  (clear.accepts_unionOf hd hv known several (clear.accepts hd hv fits)).subsumes shallow

/-- A type parameter that stands for readonly lists takes lists and tuples, also as a member of a
union. -/
theorem subsumes_unionOf_type_parameter :
    let destination := Ty.generic "T" (some (.readonly (.array .number)))
    let value := Ty.union [.array .number, .tuple [.number]]
    (destination.subsumes value true).answer Imports.isolated = true ∧
      ((unionOf [destination, .nil]).subsumes value true).answer Imports.isolated = true := by
  have fits : ((Ty.generic "T" (some (.readonly (.array .number)))).subsumes
      (.union [.array .number, .tuple [.number]]) true).answer Imports.isolated = true := by
    decide +kernel
  have clear : isThroughout isClear 4 (.generic "T" (some (.readonly (.array .number)))) = true := by
    decide +kernel
  have concrete : isThroughout isConcrete 3 (.union [.array .number, .tuple [.number]]) = true := by
    decide +kernel
  have lists := throughout_of_levels concrete
  have sides : ClearSides ⟨Imports.isolated, true⟩ (Throughout isClear) := clearSides_clear
  refine ⟨fits, sides.subsumes_unionOf (throughout_of_levels clear) lists.clear
    (fun _ => lists.known) (by simp [isUnion]) ?_ fits⟩
  unfold Shallow
  decide +kernel

/-- The cases that are left out. A value that is `unknown` fits `unknown` but not a union with
it. A union of readonly lists alone, put together with readonly lists, is no union any more. And
a type parameter that is bounded by another fits itself, but not the union that it is a member
of. -/
theorem subsumes_unionOf_fails :
    let lists := Ty.readonly (.array .number)
    let bounded := Ty.generic "T" (some (.generic "U" (some .number)))
    ∀ row ∈ [(Ty.unknown, Ty.number, Ty.unknown, false),
        (.union [lists], lists, .union [lists, .array .number], false),
        (bounded, .string, bounded, true)],
      (row.1.subsumes row.2.2.1 row.2.2.2).answer Imports.isolated = true ∧
        ((unionOf [row.1, row.2.1]).subsumes row.2.2.1 row.2.2.2).answer Imports.isolated = false := by
  decide +kernel

end Wider

section Members

variable (hd : Throughout isConcrete destination) (hm : ∀ member ∈ members, Throughout isConcrete member)

/-- A union goes on with another if it has targets for the members. -/
theorem goesOn_union (found : ∀ member ∈ flattenList members, ∃ target ∈ flattenList targets,
      related target member) : GoesOn view related (.union targets) (.union members) := by
  refine (goesOn_iff side_union side_union).mpr (.inr ?_)
  simp only [subsumesByRule, answer_allM, answer_anyM, all_eq_true, any_eq_true, answer_asked]
  exact found

include hm in
/-- A union accepts a union of concrete types if and only if it accepts each member. -/
theorem accepts_union_iff_of_union (hd : Throughout isConcrete (.union targets)) :
    Accepts view (.union targets) (.union members) ↔
      ∀ member ∈ members, Accepts view (.union targets) member := by
  have clear : ClearSides view (Throughout isClear) := clearSides_clear
  have hv : Throughout isConcrete (.union members) := throughout_union rfl hm
  constructor
  · intro accepts member hp
    have found := clear.targets_of_accepts hd.clear hv.clear accepts
    have inside (part : Ty) (hi : part ∈ member.flatten) : part ∈ flattenList members := by
      rw [flattenList_eq]
      exact mem_flatMap.mpr ⟨member, hp, hi⟩
    cases hu : member.isUnion with
    | true =>
      cases member with
      | union others =>
        exact accepts_iff_goesOn.mpr (goesOn_union fun part hi => found.members side_union (inside part hi))
      | _ => cases hu
    | false =>
      have own := inside member (flatten_of_not_union hu ▸ mem_singleton_self _)
      exact accepts.of_mem_flatten hd hv own
  · intro each
    refine accepts_iff_goesOn.mpr (goesOn_union fun part hp => ?_)
    rw [flattenList_eq] at hp
    obtain ⟨member, hi, hp⟩ := mem_flatMap.mp hp
    have own := hm member hi
    cases member with
    | union others =>
      exact clear.exists_target_of_member hd.clear own.clear (each _ hi) side_union side_union hp
    | _ =>
      rw [mem_singleton.mp hp]
      exact exists_target_of_concrete own rfl (each _ hi)

/-- A type that takes unions member by member goes on with one if and only if it does with each
member. -/
theorem goesOn_union_iff_of_takesMembers (seen : destination.isOpen = true)
    (parted : destination.takesMembers = true) :
    GoesOn view related destination (.union members) ↔
      ∀ member ∈ members, related destination member := by
  rw [goesOn_iff (side_of_open seen) side_union]
  cases destination with
  | any | unknown | union | readonly => cases parted
  | named | generic => cases seen
  | _ => simp [sameAs, subsumesByRule, answer_allM]

/-- A readonly type accepts what its inner type accepts. -/
theorem accepts_readonly_of_inner (hi : Throughout isConcrete inner) (hv : Throughout isConcrete value)
    (accepts : Accepts view inner value) :
    Accepts view (.readonly inner) value := by
  refine accepts_iff_goesOn.mpr (goesOn_readonly (side_of_open rfl) (hv.known .refl) ?_ ?_)
  · exact fun _ => accepts.of_comesTo hi hv .seen
  · exact fun _ hs => accepts.of_comesTo hi hv (.inner hs)

/-- A type that is not readonly is accepted by a readonly type only if the inner type accepts
it. -/
theorem accepts_inner_of_readonly (hv : Throughout isConcrete value) (hr : value.isReadonly = false)
    (accepts : Accepts view (.readonly inner) value) :
    Accepts view inner value := by
  have own := (throughout_iff.mp hv).1
  have goes := (goesOn_iff (side_of_open rfl) (side_of_open (isOpen_of_concrete own))).mp
    accepts.goesOn
  cases value with
  | any | unknown | escape | named | generic => cases own
  | readonly => cases hr
  | _ => simpa [sameAs, subsumesByRule] using goes

include hd hm in
/-- A concrete type that accepts a union of such types accepts each member, and if it is not
readonly, or no member is, then the other way round too. The induction is along the readonly
types around the destination. -/
theorem accepts_union_members :
    (Accepts view destination (.union members) →
      ∀ member ∈ members, Accepts view destination member) ∧
    ((destination.isReadonly = true → ∀ member ∈ members, member.isReadonly = false) →
      (∀ member ∈ members, Accepts view destination member) →
      Accepts view destination (.union members)) := by
  have hv : Throughout isConcrete (.union members) := throughout_union rfl hm
  induction destination using parts_induction with
  | step destination ih =>
    obtain ⟨own, inside⟩ := throughout_iff.mp hd
    cases destination with
    | any | unknown | escape | named | generic => cases own
    | union targets =>
      exact ⟨(accepts_union_iff_of_union hm hd).mp, fun _ => (accepts_union_iff_of_union hm hd).mpr⟩
    | readonly inner =>
      have hi := inside inner mem_cons_self
      obtain ⟨each, whole⟩ := ih inner mem_cons_self hi
      constructor
      · intro accepts member hp
        exact accepts_readonly_of_inner hi (hm member hp)
          (each (accepts_inner_of_readonly hv rfl accepts) member hp)
      · intro bare accepts
        refine accepts_readonly_of_inner hi hv (whole (fun _ => bare rfl) fun member hp => ?_)
        exact accepts_inner_of_readonly (hm member hp) (bare rfl member hp) (accepts member hp)
    | _ =>
      rw [accepts_iff_goesOn, goesOn_union_iff_of_takesMembers rfl rfl]
      exact ⟨id, fun _ => id⟩

include hd hm in
/-- A union fits if each member does, and only then, for types that are concrete throughout:
except that a readonly type is given a union as a whole, so that one with a readonly member
does not fit it. -/
theorem subsumes_union_iff (view : View)
    (shallow : ∀ value ∈ Ty.union members :: members, Shallow view destination value) :
    ((destination.subsumes (.union members) view.throughGenerics).answer view.imports = true →
      ∀ member ∈ members, (destination.subsumes member view.throughGenerics).answer view.imports = true) ∧
    ((destination.isReadonly = true → ∀ member ∈ members, member.isReadonly = false) →
      (∀ member ∈ members, (destination.subsumes member view.throughGenerics).answer view.imports = true) →
      (destination.subsumes (.union members) view.throughGenerics).answer view.imports = true) := by
  have clear : ClearSides view (Throughout isClear) := clearSides_clear
  have hv : Throughout isConcrete (.union members) := throughout_union rfl hm
  constructor
  · intro fits member hp
    have accepts := (accepts_union_members hd hm).1 (clear.accepts hd.clear hv.clear fits) member hp
    exact accepts.subsumes (shallow member (mem_cons_of_mem _ hp))
  · intro bare fits
    have accepts := (accepts_union_members hd hm).2 bare fun member hp =>
      clear.accepts hd.clear (hm member hp).clear (fits member hp)
    exact accepts.subsumes (shallow _ mem_cons_self)

/-- A readonly list takes lists and tuples of either length together, as it takes them one by
one. -/
theorem subsumes_union_lists :
    let destination := Ty.readonly (.array .number)
    let members := [Ty.array .number, .union [.tuple [.number], .tuple []]]
    (∀ member ∈ members, (destination.subsumes member false).answer Imports.isolated = true) ∧
      (destination.subsumes (.union members) false).answer Imports.isolated = true := by
  have fits : ∀ member ∈ [Ty.array .number, .union [.tuple [.number], .tuple []]],
      ((Ty.readonly (.array .number)).subsumes member false).answer Imports.isolated = true := by
    decide +kernel
  refine ⟨fits, (subsumes_union_iff ?_ ?_ ⟨Imports.isolated, false⟩ ?_).2 (by simp [isReadonly]) fits⟩
  · have levels : isThroughout isConcrete 3 (.readonly (.array .number)) = true := by decide +kernel
    exact throughout_of_levels levels
  · have levels : ∀ member ∈ [Ty.array .number, .union [.tuple [.number], .tuple []]],
        isThroughout isConcrete 3 member = true := by
      decide +kernel
    exact fun member hm => throughout_of_levels (levels member hm)
  · unfold Shallow
    decide +kernel

/-- A readonly list fits a readonly list and so does a list, but a value that is one or the other
does not. -/
theorem subsumes_union_readonly_list :
    let destination := Ty.readonly (.array .number)
    let members := [Ty.readonly (.array .number), .array .number]
    (∀ member ∈ members, (destination.subsumes member false).answer Imports.isolated = true) ∧
      (destination.subsumes (.union members) false).answer Imports.isolated = false := by
  decide +kernel

end Members

end ScriptCheck.Ty
