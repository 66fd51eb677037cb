import Mathlib.Logic.Relation
import ScriptCheck.Proofs.Acceptance
import ScriptCheck.Proofs.Unions

/-!
# What unions take over from their members

What a type accepts is accepted by every union that it is a member of, and with it all that its
values may be taken for: what a name stands for, the members of a union, the inside of a readonly
type. Only `unknown` stands in the way, which is accepted by itself but by no union around it.
-/

namespace ScriptCheck.Ty

open List Inquiry

variable {view : View} {type destination value target member inner : Ty}

/-- A type is seen as a union that has the other as a member. -/
def HasTarget (view : View) (destination target : Ty) : Prop :=
  ∃ targets, destination.side view = .union targets ∧ target ∈ flattenList targets

/-- What the values of a type may be taken for: what the type is seen as, a member of that, or
what is readonly in it. -/
inductive ComesTo (view : View) (type : Ty) : Ty → Prop
  | seen : ComesTo view type (type.side view)
  | member {members : List Ty} {member : Ty} : type.side view = .union members →
      member ∈ flattenList members → ComesTo view type member
  | inner {inner : Ty} : type.side view = .readonly inner → ComesTo view type inner

/-- Nothing that the values of a type may be taken for is `unknown`. -/
def Known (view : View) (type : Ty) : Prop :=
  ∀ {part}, Relation.ReflTransGen (ComesTo view) type part → part.side view ≠ .unknown

/-- A family of types in which names mean one thing and types are seen through at once. -/
structure ClearSides (view : View) (family : Ty → Prop) : Prop extends OneMeaning view family where
  /-- Types that are alike are seen as types that are alike. -/
  same {left right : Ty} : family left → family right → left.sameAs right = true →
    (left.side view).sameAs (right.side view) = true
  /-- What a type is seen as is not seen as something else. -/
  again {type : Ty} : family type → (type.side view).side view = type.side view

/-- A type that is neither a name nor a type parameter is seen as it is. -/
theorem side_eq_self (hn : type.isNamed = false) (hg : ∀ name bound, type ≠ .generic name bound) :
    type.side view = type := by
  rw [side, resolveSide, answer_bind, expand_of_not_named hn]
  cases type with
  | generic name bound => exact absurd rfl (hg name bound)
  | _ => rfl

@[simp] theorem side_union : (Ty.union members).side view = .union members :=
  side_eq_self rfl (by simp)

/-- Whether a union that is given for the type is taken member by member. -/
def takesMembers : Ty → Bool
  | any => false
  | unknown => false
  | union _ => false
  | readonly _ => false
  | _ => true

/-- Whether a union has one target for a value of the type as a whole. -/
def isSingle : Ty → Bool
  | any => false
  | unknown => false
  | escape => false
  | union _ => false
  | _ => true

/-- Acceptance is about what types are seen as. -/
theorem accepts_side_left (again : (destination.side view).side view = destination.side view) :
    Accepts view (destination.side view) value ↔ Accepts view destination value := by
  rw [accepts_iff_goesOn, accepts_iff_goesOn, GoesOn, GoesOn, again]

theorem accepts_side_right (again : (value.side view).side view = value.side view) :
    Accepts view destination (value.side view) ↔ Accepts view destination value := by
  rw [accepts_iff_goesOn, accepts_iff_goesOn, GoesOn, GoesOn, again]

section Steps

/-- What accepts everything goes on with everything. -/
theorem goesOn_of_top (top : destination.side view = .any ∨ destination.side view = .unknown) :
    GoesOn view related destination value := by
  refine (goesOn_iff rfl rfl).mpr (.inr ?_)
  rcases top with top | top
  · rw [top, subsumesByRule]
    rfl
  · rw [top]
    cases value.side view <;> rfl

/-- A readonly type goes on with its inner type. -/
theorem goesOn_readonly (hd : destination.side view = .readonly inner)
    (known : value.side view ≠ .unknown)
    (whole : (value.side view).isReadonly = false → related inner (value.side view))
    (bare : ∀ other, value.side view = .readonly other → related inner other) :
    GoesOn view related destination value := by
  refine (goesOn_iff hd rfl).mpr (.inr ?_)
  cases hv : value.side view with
  | readonly other => simpa [subsumesByRule] using bare other hv
  | unknown => exact absurd hv known
  | any | escape => rfl
  | _ => simpa [subsumesByRule, hv, isReadonly] using whole

/-- A union goes on with a target that goes on with the members of the value, or with all of it
if it is no union. -/
theorem goesOn_of_target (has : HasTarget view destination target)
    (known : value.side view ≠ .unknown)
    (each : ∀ member, ComesTo view value member → related target member)
    (around : ∀ outer, HasTarget view outer target → related outer (value.side view)) :
    GoesOn view related destination value := by
  obtain ⟨targets, hd, ht⟩ := has
  -- The target is a member of the union, or of a union among its members.
  obtain ⟨outer, ho, hm⟩ := mem_flatMap.mp (flattenList_eq targets ▸ ht)
  have one : related outer (value.side view) := by
    cases outer with
    | union others => exact around _ ⟨others, side_union, hm⟩
    | _ =>
      rw [← mem_singleton.mp hm]
      exact each _ .seen
  refine (goesOn_iff hd rfl).mpr (.inr ?_)
  cases hv : value.side view with
  | union members =>
    simp only [subsumesByRule, answer_allM, answer_anyM, all_eq_true, any_eq_true, answer_asked]
    exact fun member hm => ⟨target, ht, each member (.member hv hm)⟩
  | unknown => exact absurd hv known
  | any | escape => rfl
  | _ =>
    simp only [subsumesByRule, answer_anyM, any_eq_true, answer_asked]
    exact ⟨outer, ho, hv ▸ one⟩

end Steps

section Family

variable {family : Ty → Prop} (clear : ClearSides view family)
include clear

/-- Types of a family that are alike accept each other. -/
theorem ClearSides.accepts_of_sameAs (hl : family left) (hr : family right)
    (same : left.sameAs right = true) : Accepts view left right := by
  exact accepts_iff_goesOn.mpr ((goesOn_iff rfl rfl).mpr (.inl (clear.same hl hr same)))

theorem ClearSides.hasTarget (hd : family destination)
    (has : HasTarget view destination target) : family target := by
  obtain ⟨targets, hs, ht⟩ := has
  exact clear.compared (hs ▸ clear.seen hd) (mem_append_right _ ht)

theorem ClearSides.comesTo (hv : family value) (comes : ComesTo view value member) :
    family member := by
  have seen := clear.seen hv
  cases comes with
  | seen => exact seen
  | member hs hm => exact clear.compared (hs ▸ seen) (mem_append_right _ hm)
  | inner hs => exact clear.compared (hs ▸ seen) mem_cons_self

/-- A value that is taken as a whole is accepted by a member of a type that accepts it. -/
theorem ClearSides.exists_target (hv : family value) (single : (value.side view).isSingle = true)
    (accepts : Accepts view destination value) :
    ∃ target ∈ destination.flatten, Accepts view target value := by
  induction destination using parts_induction with
  | step destination ih =>
    cases destination with
    | union targets =>
      rcases (goesOn_iff side_union rfl).mp accepts.goesOn with same | goes
      · cases hs : value.side view with
        | union => simp [hs, isSingle] at single
        | _ => simp [hs, sameAs] at same
      · have found : ∃ target ∈ targets, Accepts view target (value.side view) := by
          cases hs : value.side view with
          | union | any | unknown | escape => simp [hs, isSingle] at single
          | _ => simpa [hs, subsumesByRule, answer_anyM] using goes
        obtain ⟨target, ht, accepts⟩ := found
        obtain ⟨part, hp, accepts⟩ := ih target ht ((accepts_side_right (clear.again hv)).mp accepts)
        rw [flatten, flattenList_eq]
        exact ⟨part, mem_flatMap.mpr ⟨target, ht, hp⟩, accepts⟩
    | _ => exact ⟨_, mem_singleton_self _, accepts⟩

/-- A type that takes unions member by member accepts every member of what it accepts. -/
theorem ClearSides.accepts_member (hd : family destination)
    (parted : (destination.side view).takesMembers = true)
    (accepts : Accepts view destination value) (hm : member ∈ value.flatten) :
    Accepts view destination member := by
  induction value using parts_induction with
  | step value ih =>
    cases value with
    | union members =>
      rw [flatten, flattenList_eq] at hm
      obtain ⟨part, hp, hm⟩ := mem_flatMap.mp hm
      have each : Accepts view (destination.side view) part := by
        rcases (goesOn_iff rfl side_union).mp accepts.goesOn with same | goes
        · cases hs : destination.side view with
          | union => simp [hs, takesMembers] at parted
          | _ => simp [hs, sameAs] at same
        · cases hs : destination.side view with
          | any | unknown | union | readonly => simp [hs, takesMembers] at parted
          | _ =>
            simp only [hs, subsumesByRule, answer_allM, all_eq_true, answer_asked] at goes
            exact goes part hp
      exact ih part hp ((accepts_side_left (clear.again hd)).mp each) hm
    | _ =>
      rw [mem_singleton.mp hm]
      exact accepts

/-- A union that accepts a union has a target for each member. -/
theorem ClearSides.exists_target_of_member (hd : family destination) (hv : family value)
    (accepts : Accepts view destination value)
    (hside : destination.side view = .union targets)
    (hs : value.side view = .union members) (hm : member ∈ flattenList members) :
    ∃ target ∈ flattenList targets, Accepts view target member := by
  rcases (goesOn_iff hside hs).mp accepts.goesOn with same | goes
  · obtain ⟨target, ht, same⟩ := exists_of_mem_right (sameAs_flatten same) hm
    refine ⟨target, ht, clear.accepts_of_sameAs ?_ (clear.comesTo hv (.member hs hm)) same⟩
    exact clear.hasTarget hd ⟨targets, hside, ht⟩
  · simp only [subsumesByRule, answer_allM, answer_anyM, all_eq_true,
      any_eq_true, answer_asked] at goes
    exact goes member hm

/-- A type that accepts a union accepts everything, has targets that accept the members, asks its
inner type for the union, or accepts each member. -/
theorem ClearSides.accepts_union (hd : family destination) (hv : family value)
    (accepts : Accepts view destination value)
    (hs : value.side view = .union members) (hm : member ∈ flattenList members) :
    (destination.side view = .any ∨ destination.side view = .unknown) ∨
      (∃ target, HasTarget view destination target ∧ Accepts view target member) ∨
      (∃ inner, destination.side view = .readonly inner ∧ Accepts view inner (value.side view)) ∨
      Accepts view destination member := by
  by_cases parted : (destination.side view).takesMembers = true
  · have whole : Accepts view destination (.union members) :=
      hs ▸ (accepts_side_right (clear.again hv)).mpr accepts
    exact .inr (.inr (.inr (clear.accepts_member hd parted whole hm)))
  cases hside : destination.side view with
  | any => exact .inl (.inl rfl)
  | unknown => exact .inl (.inr rfl)
  | union targets =>
    obtain ⟨target, ht, accepts⟩ := clear.exists_target_of_member hd hv accepts hside hs hm
    exact .inr (.inl ⟨target, ⟨targets, hside, ht⟩, accepts⟩)
  | readonly inner =>
    have goes := (goesOn_iff hside hs).mp accepts.goesOn
    refine .inr (.inr (.inl ⟨inner, rfl, ?_⟩))
    rw [hs]
    simpa [subsumesByRule, sameAs] using goes
  | _ => simp [hside, takesMembers] at parted

/-- A type that accepts a readonly type accepts everything, has a target that accepts it, or is
readonly and accepts what is inside. -/
theorem ClearSides.accepts_readonly (hd : family destination) (hv : family value)
    (accepts : Accepts view destination value)
    (hs : value.side view = .readonly inner) :
    (destination.side view = .any ∨ destination.side view = .unknown) ∨
      (∃ target, HasTarget view destination target ∧ Accepts view target value) ∨
      ∃ other, destination.side view = .readonly other ∧ Accepts view other inner := by
  cases hside : destination.side view with
  | any => exact .inl (.inl rfl)
  | unknown => exact .inl (.inr rfl)
  | union targets =>
    have whole : Accepts view (.union targets) value :=
      hside ▸ (accepts_side_left (clear.again hd)).mpr accepts
    obtain ⟨target, ht, accepts⟩ := clear.exists_target hv (by rw [hs]; rfl) whole
    exact .inr (.inl ⟨target, ⟨targets, hside, ht⟩, accepts⟩)
  | readonly other =>
    refine .inr (.inr ⟨other, rfl, ?_⟩)
    rcases (goesOn_iff hside hs).mp accepts.goesOn with same | goes
    · refine clear.accepts_of_sameAs ?_ (clear.comesTo hv (.inner hs)) same
      exact clear.comesTo hd (.inner hside)
    · simpa [subsumesByRule] using goes
  | _ =>
    have goes := (goesOn_iff hside hs).mp accepts.goesOn
    simp [sameAs, subsumesByRule] at goes

end Family

/-- A target of the one type, through unions and names, accepts a type whose values may be taken
for the other. -/
structure Covered (view : View) (family : Ty → Prop)
    (destination value target whole : Ty) : Prop where
  /-- The family holds the target. -/
  target_mem : family target
  /-- The family holds what the target accepts. -/
  whole_mem : family whole
  /-- The target is found in the destination. -/
  targets : Relation.ReflTransGen (HasTarget view) destination target
  /-- The target accepts a type. -/
  accepts : Accepts view target whole
  /-- The values of that type may be taken for the given one. -/
  comes : Relation.ReflTransGen (ComesTo view) whole value
  /-- They are never taken for `unknown`. -/
  known : Known view whole

/-- A type covers another, or accepts it. -/
def Takes (view : View) (family : Ty → Prop) (destination value : Ty) : Prop :=
  (∃ target whole, Covered view family destination value target whole) ∨ Accepts view destination value

section Covered

variable {family : Ty → Prop} (clear : ClearSides view family) {whole : Ty}

section

variable (covered : Covered view family destination value target whole)
include covered

/-- A union around a covered type covers it too. -/
theorem Covered.around (has : HasTarget view outer destination) :
    Covered view family outer value target whole :=
  { covered with targets := .head has covered.targets }

/-- What a covered type may be taken for is covered. -/
theorem Covered.further (comes : ComesTo view value member) :
    Covered view family destination member target whole :=
  { covered with comes := covered.comes.tail comes }

/-- A union that has a target for a covered type goes on with it. -/
theorem Covered.goesOn_around (has : HasTarget view outer destination) :
    GoesOn view (Takes view family) outer value :=
  goesOn_of_target has (covered.known covered.comes)
    (fun _ comes => .inl ⟨target, whole, covered.further comes⟩)
    fun _ has => .inl ⟨target, whole, (covered.further .seen).around has⟩

end

/-- A readonly type whose inner type covers another goes on with it. -/
theorem Covered.goesOn_readonly (covered : Covered view family inner value target whole)
    (hd : destination.side view = .readonly inner) :
    GoesOn view (Takes view family) destination value :=
  Ty.goesOn_readonly hd (covered.known covered.comes)
    (fun _ => .inl ⟨target, whole, covered.further .seen⟩)
    fun _ hs => .inl ⟨target, whole, covered.further (.inner hs)⟩

include clear in
/-- What accepts a type goes on with what its values may be taken for. The induction is on how
these are reached. -/
theorem ClearSides.goesOn_of_comes (hd : family destination) (hw : family whole)
    (accepts : Accepts view destination whole)
    (comes : Relation.ReflTransGen (ComesTo view) whole value)
    (known : Known view whole) :
    GoesOn view (Takes view family) destination value := by
  induction comes using Relation.ReflTransGen.head_induction_on with
  | refl => exact accepts.goesOn.mono .inr
  | @head whole next first rest ih =>
    have hn := clear.comesTo hw first
    have ahead : Known view next := fun after => known (.head first after)
    have on (accepts : Accepts view destination next) := ih hn accepts ahead
    cases first with
    | seen => exact on ((accepts_side_right (clear.again hw)).mpr accepts)
    | member hs hm =>
      rcases clear.accepts_union hd hw accepts hs hm with
        top | ⟨target, has, accepts⟩ | ⟨inner, hside, accepts⟩ | accepts
      · exact goesOn_of_top top
      · exact Covered.goesOn_around ⟨clear.hasTarget hd has, hn, .refl, accepts, rest, ahead⟩ has
      · have within := clear.comesTo hd (.inner hside)
        have accepts := (accepts_side_right (clear.again hw)).mp accepts
        exact Covered.goesOn_readonly
          ⟨within, hw, .refl, accepts, .head (.member hs hm) rest, known⟩ hside
      · exact on accepts
    | inner hs =>
      rcases clear.accepts_readonly hd hw accepts hs with top | ⟨target, has, accepts⟩ | ⟨inner, hside, accepts⟩
      · exact goesOn_of_top top
      · exact Covered.goesOn_around
          ⟨clear.hasTarget hd has, hw, .refl, accepts, .head (.inner hs) rest, known⟩ has
      · have within := clear.comesTo hd (.inner hside)
        exact Covered.goesOn_readonly ⟨within, hn, .refl, accepts, rest, ahead⟩ hside

include clear in
/-- What a target accepts, and all that its values may be taken for, is accepted by every type
that has this target, unless the values may be taken for `unknown`. -/
theorem ClearSides.accepts_of_covered
    (covered : Covered view family destination value target whole) :
    Accepts view destination value := by
  refine accepts_of_goesOn (fun destination value => ∃ target whole,
    Covered view family destination value target whole) ?_ ⟨target, whole, covered⟩
  rintro destination value ⟨target, whole, covered⟩
  rcases Relation.ReflTransGen.cases_head covered.targets with rfl | ⟨next, has, rest⟩
  · exact clear.goesOn_of_comes covered.target_mem covered.whole_mem covered.accepts covered.comes
      covered.known
  · exact Covered.goesOn_around { covered with targets := rest } has

end Covered

end ScriptCheck.Ty
