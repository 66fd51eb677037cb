import ScriptCheck.Inference.Matching
import ScriptCheck.Proofs.FullTypes
import ScriptCheck.Proofs.Offers

/-!
# What types are formed of

A type refers to nodes by its names, each with the place where it was written, and by the
types of stores. Putting types together and taking them apart makes up no references, and
reading a type expression makes those of the names in it. So what is known of the references
in types is known of the references in whatever is made of them.

A union is in normal form when no member is a union, there is not one member alone and no member
is there twice. All this keeps unions in normal form too, except that taking members out of a
union may leave one of the others twice.
-/

namespace ScriptCheck

open List

/-- What a type refers to by itself, leaving out its parts. -/
inductive Reference where
  /-- A name, from the place where it was written. -/
  | name (name : String) (origin : Node)
  /-- The declaration of a store. -/
  | store (declaration : Node)

/-- The node that is referred to. -/
def Reference.node : Reference → Node
  | name _ origin => origin
  | store declaration => declaration

/-- The reference of a type by itself. -/
def Ty.reference? : Ty → Option Reference
  | named name _ origin => some (.name name origin)
  | store _ declaration => some (.store declaration)
  | _ => none

/-- The members of a union in normal form: no union among them, not one alone and none twice. -/
structure Ty.NormalMembers (members : List Ty) : Prop where
  flat : ∀ member ∈ members, member.isUnion = false
  several : members.length ≠ 1
  apart : members.Pairwise fun first second => first.sameAs second = false

/-- Types that refer only to what is allowed, with all unions in normal form where that is
required. -/
inductive Ty.Formed (allowed : Reference → Prop) (strict : Prop) : Ty → Prop
  | intro {type : Ty} : (∀ reference ∈ type.reference?, allowed reference) →
      (strict → ∀ members, type = .union members → NormalMembers members) →
      (∀ part ∈ type.parts, Ty.Formed allowed strict part) → Ty.Formed allowed strict type

/-- Types that refer only to what is allowed. -/
abbrev Ty.RefersOnly (allowed : Reference → Prop) (type : Ty) : Prop := type.Formed allowed False

/-- Types that are formed so, but may be unions out of normal form themselves. -/
structure Ty.FormedInside (allowed : Reference → Prop) (strict : Prop) (type : Ty) : Prop where
  own : ∀ reference ∈ type.reference?, allowed reference
  parts : ∀ part ∈ type.parts, part.Formed allowed strict

namespace Ty

/-- A list without repetitions has no types that were not there before. -/
theorem mem_of_mem_distinct (ht : type ∈ distinct types) : type ∈ types := by
  have kept : distinct types ⊆ types := by
    refine foldlRecOn (motive := (· ⊆ types)) types addDistinct (nil_subset _) ?_
    intro kept inside first hf
    unfold addDistinct
    split
    · exact inside
    · exact append_subset.mpr ⟨inside, cons_subset.mpr ⟨hf, nil_subset _⟩⟩
  exact kept ht

/-- Substituting in a type of a fixed kind leaves its own reference alone. -/
theorem reference?_substitute {type : Ty} (fixed : type.isFixed = true) (bindings : Bindings) :
    (type.substitute bindings).reference? = type.reference? := by
  cases type with
  | generic | union => cases fixed
  | _ => rfl

/-- No type that is kept is the same as another one. -/
theorem pairwise_distinct (types : List Ty) :
    (distinct types).Pairwise fun first second => first.sameAs second = false := by
  refine foldlRecOn (motive := Pairwise fun first second => first.sameAs second = false) types
    addDistinct .nil ?_
  intro kept apart type _
  unfold addDistinct
  split
  · exact apart
  · next new =>
    refine pairwise_append.mpr ⟨apart, pairwise_singleton _ _, ?_⟩
    intro first hf second hs
    rw [mem_singleton.mp hs]
    simpa using any_eq_false.mp (Bool.not_eq_true _ ▸ new) first hf

section Formed

variable {allowed : Reference → Prop} {strict : Prop} {type : Ty}

theorem FormedInside.formed (formed : FormedInside allowed strict type)
    (single : type.isUnion = false) : Formed allowed strict type := by
  refine .intro formed.own (fun _ => ?_) formed.parts
  rintro members rfl
  cases single

/-- Where no normal form is required, only the parts matter. -/
theorem FormedInside.refersOnly (formed : FormedInside allowed False type) :
    RefersOnly allowed type := .intro formed.own nofun formed.parts

namespace Formed

theorem own (formed : Formed allowed strict type) :
    ∀ reference ∈ type.reference?, allowed reference := by
  cases formed with | intro own _ _ => exact own

theorem parts (formed : Formed allowed strict type) :
    ∀ part ∈ type.parts, Formed allowed strict part := by
  cases formed with | intro _ _ inside => exact inside

theorem members {members : List Ty} (formed : Formed allowed strict (.union members))
    (required : strict) : NormalMembers members := by
  cases formed with | intro _ normal _ => exact normal required members rfl

theorem inside (formed : Formed allowed strict type) : FormedInside allowed strict type :=
  ⟨formed.own, formed.parts⟩

/-- A type that refers to nothing by itself and is no union. -/
theorem of_parts (none : type.reference? = none) (single : type.isUnion = false)
    (inside : ∀ part ∈ type.parts, Formed allowed strict part) : Formed allowed strict type :=
  FormedInside.formed ⟨by simp [none], inside⟩ single

/-- A type that refers to nothing by itself and has no parts. -/
theorem leaf (none : type.reference? = none) (single : type.isUnion = false)
    (empty : type.parts = []) : Formed allowed strict type :=
  .of_parts none single (by simp [empty])

end Formed

end Formed

section Kinds

variable {allowed : Reference → Prop} {strict : Prop} {type key value result : Ty} {name : String}
  {typeParams params : List (Slot Ty)}

theorem formed_iff (single : type.isUnion = false) : type.Formed allowed strict ↔
    (∀ reference ∈ type.reference?, allowed reference) ∧
      ∀ part ∈ type.parts, part.Formed allowed strict :=
  ⟨fun only => ⟨only.own, only.parts⟩, fun only => FormedInside.formed ⟨only.1, only.2⟩ single⟩

@[simp] theorem formed_string : string.Formed allowed strict := .leaf rfl rfl rfl

@[simp] theorem formed_number : number.Formed allowed strict := .leaf rfl rfl rfl

@[simp] theorem formed_boolean : boolean.Formed allowed strict := .leaf rfl rfl rfl

@[simp] theorem formed_nil : nil.Formed allowed strict := .leaf rfl rfl rfl

@[simp] theorem formed_unknown : unknown.Formed allowed strict := .leaf rfl rfl rfl

@[simp] theorem formed_any : any.Formed allowed strict := .leaf rfl rfl rfl

@[simp] theorem formed_escape : escape.Formed allowed strict := .leaf rfl rfl rfl

@[simp] theorem formed_literal {value : Literal} : (literal value).Formed allowed strict :=
  .leaf rfl rfl rfl

theorem formed_union (inside : ∀ type ∈ types, type.Formed allowed strict)
    (normal : strict → NormalMembers types) : (union types).Formed allowed strict := by
  refine .intro nofun (fun required members hu => ?_) inside
  cases hu
  exact normal required

@[simp] theorem formed_array : (array type).Formed allowed strict ↔ type.Formed allowed strict := by
  rw [formed_iff rfl]
  simp [Ty.parts, reference?]

@[simp] theorem formed_tuple :
    (tuple types).Formed allowed strict ↔ ∀ type ∈ types, type.Formed allowed strict := by
  rw [formed_iff rfl]
  simp [Ty.parts, reference?]

@[simp] theorem formed_object {fields : List (Field Ty)} :
    (object fields).Formed allowed strict ↔ ∀ field ∈ fields, field.type.Formed allowed strict := by
  rw [formed_iff rfl]
  simp [Ty.parts, reference?]

@[simp] theorem formed_indexer : (indexer key value).Formed allowed strict ↔
    key.Formed allowed strict ∧ value.Formed allowed strict := by
  rw [formed_iff rfl]
  simp [Ty.parts, reference?]

@[simp] theorem formed_func : (func typeParams params result).Formed allowed strict ↔
    (∀ type ∈ slotTypes typeParams, type.Formed allowed strict) ∧
      (∀ type ∈ slotTypes params, type.Formed allowed strict) ∧ result.Formed allowed strict := by
  rw [formed_iff rfl]
  simp [Ty.parts, reference?, or_imp, forall_and]

@[simp] theorem formed_proc : (proc typeParams params).Formed allowed strict ↔
    (∀ type ∈ slotTypes typeParams, type.Formed allowed strict) ∧
      ∀ type ∈ slotTypes params, type.Formed allowed strict := by
  rw [formed_iff rfl]
  simp [Ty.parts, reference?, or_imp, forall_and]

@[simp] theorem formed_named {origin : Node} : (named name types origin).Formed allowed strict ↔
    allowed (.name name origin) ∧ ∀ type ∈ types, type.Formed allowed strict := by
  rw [formed_iff rfl]
  simp [Ty.parts, reference?]

@[simp] theorem formed_nominal :
    (nominal name type).Formed allowed strict ↔ type.Formed allowed strict := by
  rw [formed_iff rfl]
  simp [Ty.parts, reference?]

@[simp] theorem formed_generic {bound : Option Ty} :
    (generic name bound).Formed allowed strict ↔ ∀ type ∈ bound, type.Formed allowed strict := by
  rw [formed_iff rfl]
  simp [Ty.parts, reference?]

@[simp] theorem formed_iterator :
    (iterator type).Formed allowed strict ↔ type.Formed allowed strict := by
  rw [formed_iff rfl]
  simp [Ty.parts, reference?]

@[simp] theorem formed_plan : (plan type).Formed allowed strict ↔ type.Formed allowed strict := by
  rw [formed_iff rfl]
  simp [Ty.parts, reference?]

@[simp] theorem formed_readonly :
    (readonly type).Formed allowed strict ↔ type.Formed allowed strict := by
  rw [formed_iff rfl]
  simp [Ty.parts, reference?]

@[simp] theorem formed_store {declaration : Node} :
    (store name declaration).Formed allowed strict ↔ allowed (.store declaration) := by
  rw [formed_iff rfl]
  simp [Ty.parts, reference?]

end Kinds

section Formed

variable {allowed : Reference → Prop} {strict : Prop} {type : Ty} {types : List Ty}
  {bindings : Bindings}

/-- The members of a union are formed as its parts are. -/
theorem FormedInside.flatten (only : FormedInside allowed strict type) :
    ∀ member ∈ type.flatten, Formed allowed strict member := by
  induction type using parts_induction with
  | step type ih =>
    intro member hm
    cases type with
    | union members =>
      rw [Ty.flatten, flattenList_eq] at hm
      obtain ⟨inner, hi, hm⟩ := mem_flatMap.mp hm
      exact ih inner hi (only.parts inner hi).inside member hm
    | _ => exact mem_singleton.mp hm ▸ only.formed rfl

/-- Types that are formed so make up a union of which only the parts are known. -/
theorem FormedInside.collapse (only : ∀ type ∈ types, Formed allowed strict type) :
    FormedInside allowed strict (Ty.collapse types) := by
  unfold Ty.collapse
  split
  · exact (only _ mem_cons_self).inside
  · exact ⟨nofun, only⟩

namespace Formed

theorem flatten (only : Formed allowed strict type) :
    ∀ member ∈ type.flatten, Formed allowed strict member := only.inside.flatten

theorem flattenList (only : ∀ type ∈ types, FormedInside allowed strict type) :
    ∀ member ∈ flattenList types, Formed allowed strict member := by
  intro member hm
  rw [flattenList_eq] at hm
  obtain ⟨inner, hi, hm⟩ := mem_flatMap.mp hm
  exact (only inner hi).flatten member hm

/-- No member of a type in normal form is there twice. -/
theorem apart (only : Formed allowed strict type) (required : strict) :
    type.flatten.Pairwise fun first second => first.sameAs second = false := by
  cases type with
  | union members =>
    rw [Ty.flatten, flattenList_eq_self (only.members required).flat]
    exact (only.members required).apart
  | _ => exact pairwise_singleton _ _

theorem collapse (only : ∀ type ∈ types, Formed allowed strict type)
    (flat : ∀ type ∈ types, type.isUnion = false)
    (apart : strict → types.Pairwise fun first second => first.sameAs second = false) :
    Formed allowed strict (collapse types) := by
  match types, only, flat, apart with
  | [], only, _, _ => exact formed_union only fun _ => ⟨nofun, by simp, .nil⟩
  | [type], only, _, _ => exact only type mem_cons_self
  | first :: second :: rest, only, flat, apart =>
    exact formed_union only fun required => ⟨flat, by simp, apart required⟩

/-- Putting types together brings their union in normal form. -/
theorem unionOf (only : ∀ type ∈ types, FormedInside allowed strict type) :
    Formed allowed strict (unionOf types) :=
  collapse (fun member hm => flattenList only member (mem_of_mem_distinct hm))
    (fun _ hm => isUnion_of_mem_flattenList (mem_of_mem_distinct hm)) fun _ => pairwise_distinct _

theorem orNil (only : FormedInside allowed strict type) : Formed allowed strict type.orNil :=
  unionOf (forall_mem_cons.mpr ⟨only, forall_mem_singleton.mpr formed_nil.inside⟩)

/-- Members of a union in normal form are a union in normal form. -/
theorem collapse_sublist (only : Formed allowed strict type) (among : types.Sublist type.flatten) :
    Formed allowed strict (Ty.collapse types) :=
  collapse (fun member hm => only.flatten member (among.subset hm))
    (fun _ hm => isUnion_of_mem_flatten (among.subset hm))
    fun required => (only.apart required).sublist among

/-- Widening brings in no references and keeps unions in normal form. -/
theorem widen (only : Formed allowed strict type) : Formed allowed strict type.widen := by
  induction type using parts_induction with
  | step type ih =>
    cases type with
    | literal value => cases value <;> simp [Ty.widen, ofLiteral]
    | union members =>
      rw [Ty.widen, widenList_eq]
      refine unionOf fun member hm => ?_
      obtain ⟨inner, hi, rfl⟩ := mem_map.mp hm
      exact (ih inner hi (only.parts inner hi)).inside
    | array element => exact formed_array.mpr (ih element mem_cons_self (formed_array.mp only))
    | tuple elements =>
      rw [Ty.widen, widenList_eq, formed_tuple]
      intro element he
      obtain ⟨inner, hi, rfl⟩ := mem_map.mp he
      exact ih inner hi (formed_tuple.mp only inner hi)
    | object fields =>
      rw [Ty.widen, widenFields_eq, formed_object]
      intro field hf
      obtain ⟨inner, hi, rfl⟩ := mem_map.mp hf
      exact ih inner.type (mem_map_of_mem hi) (formed_object.mp only inner hi)
    | _ => exact only

theorem lookup (bound : ∀ binding ∈ bindings, Formed allowed strict binding.2)
    (hl : bindings.lookup name = some type) : Formed allowed strict type := by
  obtain ⟨_, _, rfl, -⟩ := lookup_eq_some_iff.mp hl
  exact bound (name, type) (by simp)

/-- The bindings that hold inside a type are among the others. -/
theorem innerBindings (bound : ∀ binding ∈ bindings, Formed allowed strict binding.2) (type : Ty) :
    ∀ binding ∈ type.innerBindings bindings, Formed allowed strict binding.2 := by
  unfold Ty.innerBindings
  split
  · exact fun binding hb => bound binding (mem_filter.mp hb).1
  · exact fun binding hb => bound binding (mem_filter.mp hb).1
  · exact bound

/-- Putting types in the place of type parameters brings in the references of these only. -/
theorem substitute (only : Formed allowed strict type)
    (bound : ∀ binding ∈ bindings, Formed allowed strict binding.2) :
    Formed allowed strict (type.substitute bindings) := by
  induction type using parts_induction generalizing bindings with
  | step type ih =>
    by_cases fixed : type.isFixed = true
    · have single : (type.substitute bindings).isUnion = false := by
        cases type with
        | generic | union => cases fixed
        | _ => rfl
      refine FormedInside.formed ⟨reference?_substitute fixed bindings ▸ only.own, fun part hp => ?_⟩
        single
      rw [parts_substitute fixed] at hp
      rcases mem_append.mp hp with hp | hp
      · exact only.parts part (parts_eq type ▸ mem_append_left _ hp)
      · obtain ⟨inner, hi, rfl⟩ := mem_map.mp hp
        have hm : inner ∈ type.parts := parts_eq type ▸ mem_append_right _ hi
        exact ih inner hm (only.parts inner hm) (innerBindings bound type)
    · cases type with
      | generic name limit =>
        rw [Ty.substitute]
        cases hl : bindings.lookup name with
        | none => exact only
        | some found => exact lookup bound hl
      | union members =>
        rw [Ty.substitute]
        split
        · exact only
        · rw [substituteList_eq]
          refine unionOf fun member hm => ?_
          obtain ⟨inner, hi, rfl⟩ := mem_map.mp hm
          exact (ih inner hi (only.parts inner hi) bound).inside
      | _ => exact absurd rfl fixed

theorem typeOrUnknown (only : ∀ type ∈ slotTypes slots, Formed allowed strict type)
    (hs : slot ∈ slots) : Formed allowed strict slot.typeOrUnknown := by
  unfold Slot.typeOrUnknown
  cases ht : slot.type with
  | none => exact leaf rfl rfl rfl
  | some type => exact only type (mem_slotTypes.mpr ⟨slot, hs, ht⟩)

theorem fallbacks (only : ∀ type ∈ slotTypes typeParams, Formed allowed strict type) :
    ∀ binding ∈ fallbacks typeParams, Formed allowed strict binding.2 := by
  intro binding hb
  obtain ⟨param, hp, rfl⟩ := mem_map.mp hb
  exact typeOrUnknown only hp

theorem eraseGenerics (only : Formed allowed strict type) : Formed allowed strict type.eraseGenerics := by
  unfold Ty.eraseGenerics
  split
  · have ho := formed_func.mp only
    split
    · exact only
    · exact substitute (formed_func.mpr ⟨by simp [slotTypes], ho.2⟩) (fallbacks ho.1)
  · have ho := formed_proc.mp only
    split
    · exact only
    · exact substitute (formed_proc.mpr ⟨by simp [slotTypes], ho.2⟩) (fallbacks ho.1)
  · exact only

theorem bindFirst (bound : ∀ binding ∈ bindings, Formed allowed strict binding.2)
    (only : Formed allowed strict type) (name : String) :
    ∀ binding ∈ bindFirst bindings name type, Formed allowed strict binding.2 := by
  unfold Ty.bindFirst
  split
  · exact bound
  · rw [forall_mem_append]
    exact ⟨bound, by simpa using only⟩

theorem completeBindings (only : ∀ type ∈ slotTypes typeParams, Formed allowed strict type)
    (bound : ∀ binding ∈ bindings, Formed allowed strict binding.2) :
    ∀ binding ∈ completeBindings typeParams bindings, Formed allowed strict binding.2 := by
  intro binding hb
  obtain ⟨param, hp, rfl⟩ := mem_map.mp hb
  dsimp only
  cases hl : bindings.lookup param.name with
  | none => exact typeOrUnknown only hp
  | some found => exact lookup bound hl

/-- The types at the same place in two parameter lists are types of these. -/
theorem slotPairs (only : ∀ type ∈ slotTypes params, Formed allowed strict type)
    (others : ∀ type ∈ slotTypes args, Formed allowed strict type) :
    ∀ pair ∈ slotPairs params args, Formed allowed strict pair.1 ∧ Formed allowed strict pair.2 := by
  intro pair hp
  obtain ⟨slots, hs, hm⟩ := mem_filterMap.mp hp
  split at hm
  · next hl hr =>
    cases hm
    have hz := of_mem_zip hs
    exact ⟨only _ (mem_slotTypes.mpr ⟨_, hz.1, hl⟩), others _ (mem_slotTypes.mpr ⟨_, hz.2, hr⟩)⟩
  · cases hm

theorem fieldPairs (only : ∀ field ∈ params, Formed allowed strict field.type)
    (others : ∀ field ∈ args, Formed allowed strict field.type) :
    ∀ pair ∈ fieldPairs params args, Formed allowed strict pair.1 ∧ Formed allowed strict pair.2 := by
  intro pair hp
  obtain ⟨param, hm, hf⟩ := mem_filterMap.mp hp
  obtain ⟨arg, ha, rfl⟩ := Option.map_eq_some_iff.mp hf
  exact ⟨only param hm, others arg (mem_of_find?_eq_some ha)⟩

theorem argumentBindings (bounds : ∀ bound ∈ slotTypes params, Formed allowed strict bound)
    (only : ∀ arg ∈ args, Formed allowed strict arg) :
    ∀ binding ∈ argumentBindings params args, Formed allowed strict binding.2 := by
  fun_induction Ty.argumentBindings params args with
  | case1 args => simp
  | case2 param params ih =>
    rw [forall_mem_cons]
    exact ⟨typeOrUnknown bounds mem_cons_self, ih (forall_mem_slotTypes_cons.mp bounds).2 only⟩
  | case3 param params arg args ih =>
    rw [forall_mem_cons] at only ⊢
    exact ⟨only.1, ih (forall_mem_slotTypes_cons.mp bounds).2 only.2⟩

end Formed

end Formed

end Ty

namespace Node

/-- A type is that of a type expression in a node, or one level deeper. -/
def Holds (node : Node) (read : List Node → Node → Ty) (busy : List Node) (part : Ty) : Prop :=
  ∃ id ∈ node.form.children, part = read busy (node.sibling id) ∨
    (node.sibling id).form.typeParams = [] ∧
      ∃ inner ∈ (node.sibling id).form.children, part = read busy (node.sibling inner)

/-- How the type of a type expression is made, given how the type expressions in it are read. -/
inductive Lowered (node : Node) (read : List Node → Node → Ty) (busy : List Node) : Ty → Prop
  | leaf {type : Ty} : type.isFixed = true → type.reference? = none → type.parts = [] →
      Lowered node read busy type
  /-- The name of a type parameter. -/
  | parameter {name : String} {param : Node} : node.typeParamInScope? name = some param →
      Lowered node read busy (parameterType read busy param)
  /-- An expression in parentheses. -/
  | inner {id : NodeId} : node.form.typeParams = [] → id ∈ node.form.children →
      Lowered node read busy (read busy (node.sibling id))
  | union {types : List Ty} : node.form.typeParams = [] →
      (∀ type ∈ types, ∃ id ∈ node.form.children, type = read busy (node.sibling id)) →
      Lowered node read busy (.unionOf types)
  /-- All else: a type with what is written in it as its parts, and the type parameters that are
  declared in it. -/
  | made {type : Ty} : type.isFixed = true →
      (∀ reference ∈ type.reference?, ∃ name args, node.form = .namedType name args ∧
        node.typeParamInScope? name = none ∧ reference = .name name node) →
      type.ownSlots = (node.form.typeParams.map node.sibling).filterMap
        (declaredTypeParam? (parameterType read busy)) →
      (∀ part ∈ type.openParts, node.Holds read busy part) → Lowered node read busy type

theorem lowered_lowerStep (node : Node) (read : List Node → Node → Ty) (busy : List Node) :
    node.Lowered read busy (lowerStep read busy node) := by
  have own {id : NodeId} (hi : id ∈ node.form.children) :
      node.Holds read busy (read busy (node.sibling id)) := ⟨id, hi, .inl rfl⟩
  have all {ids : List NodeId} (hi : ids ⊆ node.form.children) :
      ∀ type ∈ ids.map fun id => read busy (node.sibling id), node.Holds read busy type :=
    forall_mem_map.mpr fun id hm => own (hi hm)
  have params {ids : List NodeId} (hi : ids ⊆ node.form.children) :
      ∀ type ∈ slotTypes ((ids.map node.sibling).filterMap (declaredParam? (read busy))),
        node.Holds read busy type := by
    intro type ht
    obtain ⟨slot, hs, hn⟩ := mem_slotTypes.mp ht
    obtain ⟨param, hp, hd⟩ := mem_filterMap.mp hs
    obtain ⟨id, hm, rfl⟩ := mem_map.mp hp
    unfold declaredParam? at hd
    split at hd
    · next hf =>
      cases hd
      obtain ⟨inner, rfl, rfl⟩ := Option.map_eq_some_iff.mp hn
      exact ⟨id, hi hm, .inr ⟨by rw [hf]; rfl, inner, by simp [hf, Form.children], rfl⟩⟩
    · cases hd
  unfold lowerStep
  split
  · next primitive _ => cases primitive <;> exact .leaf rfl rfl rfl
  · exact .leaf rfl rfl rfl
  · next name args hf =>
    split
    · next found => exact .parameter found
    · next free =>
      refine .made rfl (fun reference hr => ?_) (by rw [hf]; rfl)
        (all (by simp [hf, Form.children]))
      cases hr
      exact ⟨name, args, hf, free, rfl⟩
  · next hf =>
    refine .union (by rw [hf]; rfl) (forall_mem_map.mpr fun id hi => ⟨id, ?_, rfl⟩)
    simpa [hf, Form.children] using hi
  · next hf =>
    exact .made rfl (fun _ hr => by cases hr) (by rw [hf]; rfl)
      (forall_mem_singleton.mpr (own (by simp [hf, Form.children])))
  · next hf => exact .made rfl (fun _ hr => by cases hr) (by rw [hf]; rfl) (all (by simp [hf, Form.children]))
  · next hf =>
    refine .made rfl (fun _ hr => by cases hr) (by rw [hf]; rfl) fun part hp => ?_
    obtain ⟨field, hm, rfl⟩ := mem_map.mp hp
    obtain ⟨entry, he, ho⟩ := mem_filterMap.mp hm
    obtain ⟨id, hi, rfl⟩ := mem_map.mp he
    unfold objectField? at ho
    split at ho
    · next inner he =>
      cases ho
      exact ⟨id, by simpa [hf, Form.children] using hi,
        .inr ⟨by rw [he]; rfl, inner, by simp [he, Form.children], rfl⟩⟩
    · cases ho
  · next hf =>
    refine .made rfl (fun _ hr => by cases hr) (by rw [hf]; rfl) (forall_mem_cons.mpr ⟨own ?_,
      forall_mem_singleton.mpr (own ?_)⟩) <;> simp [hf, Form.children]
  · next hf =>
    refine .made rfl (fun _ hr => by cases hr) (by rw [hf]; rfl) (forall_mem_append.mpr ⟨params ?_,
      forall_mem_singleton.mpr (own ?_)⟩) <;> simp [hf, Form.children]
  · next hf => exact .made rfl (fun _ hr => by cases hr) (by rw [hf]; rfl) (params (by simp [hf, Form.children]))
  iterate 3
    · next hf =>
      exact .made rfl (fun _ hr => by cases hr) (by rw [hf]; rfl)
        (forall_mem_singleton.mpr (own (by simp [hf, Form.children])))
  · next hf => exact .inner (by rw [hf]; rfl) (by simp [hf, Form.children])
  · exact .leaf rfl rfl rfl

end Node

/-- Nodes that reading type expressions stays among, and whose names and declarations may be
referred to. -/
structure Node.Reads (visited : Node → Prop) (allowed : Reference → Prop) : Prop where
  /-- Reading goes on to what is written inside a node. -/
  child {id : NodeId} : visited node → id ∈ node.form.children → visited (node.sibling id)
  /-- Reading a name goes on to the type parameter that it is. -/
  typeParam : visited node → node.typeParamInScope? name = some param → visited param
  /-- A name that is no type parameter may be referred to. -/
  name {node : Node} {name : String} {args : List NodeId} : visited node →
    node.form = .namedType name args → node.typeParamInScope? name = none →
    allowed (.name name node)
  /-- A store may be referred to. -/
  store {node : Node} {name : String} {members : List NodeId} {exported : Bool} : visited node →
    node.form = .storeDeclaration name members exported → allowed (.store node)

namespace Node.Reads

variable {visited : Node → Prop} {allowed : Reference → Prop} {strict : Prop}
  {read : List Node → Node → Ty} {node : Node} {params : List Node}

theorem parameterType (reads : Reads visited allowed)
    (ih : ∀ busy node, visited node → (read busy node).Formed allowed strict) (busy : List Node)
    (hn : visited node) : (parameterType read busy node).Formed allowed strict := by
  unfold Node.parameterType
  split
  · next name bound hf =>
    split
    · exact .leaf rfl rfl rfl
    · refine .of_parts rfl rfl fun part hp => ?_
      simp only [Ty.parts, Option.mem_toList, Option.map_eq_some_iff] at hp
      obtain ⟨id, rfl, rfl⟩ := hp
      exact ih _ _ (reads.child hn (by simp [hf, Form.children]))
  · exact .leaf rfl rfl rfl

/-- The bounds of type parameters that are read refer to what the type parameters do. -/
theorem declaredTypeParams (ih : ∀ param ∈ params, (parameter param).Formed allowed strict) :
    ∀ type ∈ slotTypes (params.filterMap (declaredTypeParam? parameter)), type.Formed allowed strict := by
  intro type ht
  obtain ⟨slot, hs, hn⟩ := mem_slotTypes.mp ht
  obtain ⟨param, hp, hd⟩ := mem_filterMap.mp hs
  unfold declaredTypeParam? at hd
  split at hd
  · next he =>
    cases hd
    have only := he ▸ ih param hp
    exact only.parts type (Option.mem_toList.mpr hn)
  · cases hd

section

variable (reads : Reads visited allowed)
include reads

theorem lowerStep (ih : ∀ busy node, visited node → (read busy node).Formed allowed strict)
    (busy : List Node) (hn : visited node) : (lowerStep read busy node).Formed allowed strict := by
  have lowered := node.lowered_lowerStep read busy
  generalize Node.lowerStep read busy node = type at lowered ⊢
  cases lowered with
  | leaf fixed none empty => exact .leaf none (Ty.isUnion_of_isFixed fixed) empty
  | parameter found => exact reads.parameterType ih busy (reads.typeParam hn found)
  | inner _ hi => exact ih _ _ (reads.child hn hi)
  | union _ all =>
    refine .unionOf fun type ht => ?_
    obtain ⟨id, hi, rfl⟩ := all type ht
    exact (ih _ _ (reads.child hn hi)).inside
  | made fixed names slots inside =>
    refine Ty.FormedInside.formed ⟨fun reference hr => ?_, fun part hp => ?_⟩
      (Ty.isUnion_of_isFixed fixed)
    · obtain ⟨name, args, hf, free, rfl⟩ := names reference hr
      exact reads.name hn hf free
    rw [Ty.parts_eq, Ty.ownBounds_eq, slots] at hp
    rcases mem_append.mp hp with hp | hp
    · refine declaredTypeParams (fun param hm => reads.parameterType ih busy ?_) part hp
      obtain ⟨id, hi, rfl⟩ := mem_map.mp hm
      exact reads.child hn (node.form.typeParams_subset hi)
    · obtain ⟨id, hi, rfl | ⟨-, inner, hm, rfl⟩⟩ := inside part hp
      · exact ih busy (node.sibling id) (reads.child hn hi)
      · exact ih busy ((node.sibling id).sibling inner) (reads.child (reads.child hn hi) hm)

theorem lowerWithin (limit : Nat) (busy : List Node) (hn : visited node) :
    (lowerWithin limit busy node).Formed allowed strict := by
  induction limit generalizing busy node with
  | zero => exact .leaf rfl rfl rfl
  | succ limit ih => exact reads.lowerStep (fun busy node hn => ih busy hn) busy hn

/-- Type expressions refer to the names in them. -/
theorem lower (hn : visited node) : node.lower.Formed allowed strict := reads.lowerWithin _ _ hn

theorem asTypeParameter (hn : visited node) : node.asTypeParameter.Formed allowed strict :=
  reads.parameterType (fun busy _ hn => reads.lowerWithin _ busy hn) [] hn

theorem typeParamSlots (hn : visited node) (hi : ids ⊆ node.form.children) :
    ∀ type ∈ slotTypes (node.typeParamSlots ids), type.Formed allowed strict := by
  refine declaredTypeParams fun param hp => reads.asTypeParameter ?_
  obtain ⟨id, hm, rfl⟩ := mem_map.mp hp
  exact reads.child hn (hi hm)

/-- What a declaration gives its name to refers to what may be referred to. -/
theorem namedTypeBinding (hn : visited node) {params : List (Slot Ty)}
    (he : node.namedTypeBinding = .type type params) :
    type.Formed allowed strict ∧ ∀ bound ∈ slotTypes params, bound.Formed allowed strict := by
  unfold Node.namedTypeBinding at he
  split at he
  · next name typeParams value nominal exported hf =>
    cases he
    have inner : ((node.sibling value).lower).Formed allowed strict :=
      reads.lower (reads.child hn (by simp [hf, Form.children]))
    refine ⟨?_, reads.typeParamSlots hn (by simp [hf, Form.children])⟩
    split
    · exact .of_parts rfl rfl (by simpa [Ty.parts] using inner)
    · exact inner
  · next hf =>
    cases he
    exact ⟨Ty.formed_store.mpr (reads.store hn hf), by simp [slotTypes]⟩
  · cases he
    exact ⟨.leaf rfl rfl rfl, by simp [slotTypes]⟩

end

end Node.Reads

end ScriptCheck
