import ScriptCheck.Ty.Substitution

/-!
# The parts of types

A type is made of the types directly inside it. What holds of a type as soon as it holds
of these holds of every type, so that functions on types can be followed part by part,
whatever lists, entries and parameters the parts stand in.
-/

namespace ScriptCheck

open List

/-- The types that are written for parameters, or as the bounds of type parameters. -/
def slotTypes (slots : List (Slot Ty)) : List Ty := slots.filterMap Slot.type

variable {type : Ty}

theorem mem_slotTypes :
    type ∈ slotTypes slots ↔ ∃ slot ∈ slots, slot.type = some type := mem_filterMap

theorem forall_mem_slotTypes_cons {holds : Ty → Prop} :
    (∀ type ∈ slotTypes (slot :: slots), holds type) ↔
      (∀ type ∈ slot.type, holds type) ∧ ∀ type ∈ slotTypes slots, holds type := by
  simp [mem_slotTypes, or_imp, forall_and]

namespace Ty

/-- The types directly inside a type. -/
def parts : Ty → List Ty
  | union members => members
  | array element => [element]
  | tuple elements => elements
  | object fields => fields.map Field.type
  | indexer key value => [key, value]
  | func typeParams params result => slotTypes typeParams ++ slotTypes params ++ [result]
  | proc typeParams params => slotTypes typeParams ++ slotTypes params
  | named _ args _ => args
  | nominal _ inner => [inner]
  | generic _ bound => bound.toList
  | iterator inner => [inner]
  | plan inner => [inner]
  | readonly inner => [inner]
  | _ => []

theorem sizeOf_lt_of_mem_fields {fields : List (Field Ty)} (ht : type ∈ fields.map Field.type) :
    sizeOf type < sizeOf fields := by
  obtain ⟨field, hf, rfl⟩ := mem_map.mp ht
  have hl := sizeOf_lt_of_mem hf
  have hs : sizeOf field.type < sizeOf field := by
    cases field
    simp only [Field.mk.sizeOf_spec]
    omega
  omega

theorem sizeOf_lt_of_mem_slots (ht : type ∈ slotTypes slots) : sizeOf type < sizeOf slots := by
  obtain ⟨slot, hs, hn⟩ := mem_slotTypes.mp ht
  have hl := sizeOf_lt_of_mem hs
  have ht : sizeOf type < sizeOf slot := by
    cases slot
    subst hn
    simp only [Slot.mk.sizeOf_spec, Option.some.sizeOf_spec]
    omega
  omega

/-- Every part is smaller than the type it is in. -/
theorem sizeOf_lt_of_mem_parts {type part : Ty} (hp : part ∈ type.parts) :
    sizeOf part < sizeOf type := by
  cases type with
  | union members =>
    have hl : sizeOf part < sizeOf members := sizeOf_lt_of_mem hp
    simp only [union.sizeOf_spec]
    omega
  | tuple elements =>
    have hl : sizeOf part < sizeOf elements := sizeOf_lt_of_mem hp
    simp only [tuple.sizeOf_spec]
    omega
  | object fields =>
    have hl := sizeOf_lt_of_mem_fields hp
    simp only [object.sizeOf_spec]
    omega
  | func typeParams params result =>
    simp only [func.sizeOf_spec]
    rcases mem_append.mp hp with hp | hp
    · rcases mem_append.mp hp with hp | hp
      · have hl := sizeOf_lt_of_mem_slots hp
        omega
      · have hl := sizeOf_lt_of_mem_slots hp
        omega
    · rw [mem_singleton.mp hp]
      omega
  | proc typeParams params =>
    simp only [proc.sizeOf_spec]
    rcases mem_append.mp hp with hp | hp
    · have hl := sizeOf_lt_of_mem_slots hp
      omega
    · have hl := sizeOf_lt_of_mem_slots hp
      omega
  | named name args origin =>
    have hl : sizeOf part < sizeOf args := sizeOf_lt_of_mem hp
    simp only [named.sizeOf_spec]
    omega
  | generic name bound =>
    cases bound with
    | none => cases hp
    | some bound =>
      rw [mem_singleton.mp hp]
      simp only [generic.sizeOf_spec, Option.some.sizeOf_spec]
      omega
  | indexer key value =>
    simp only [indexer.sizeOf_spec]
    rcases mem_cons.mp hp with rfl | hp
    · omega
    · rw [mem_singleton.mp hp]
      omega
  | nominal name inner =>
    rw [mem_singleton.mp hp, nominal.sizeOf_spec]
    omega
  | array inner | iterator inner | plan inner | readonly inner =>
    rw [mem_singleton.mp hp]
    simp
  | string | number | boolean | nil | unknown | any | escape | literal | store => cases hp

/-- What holds of a type once it holds of its parts holds of every type. -/
@[elab_as_elim]
theorem parts_induction {motive : Ty → Prop}
    (step : ∀ type, (∀ part ∈ type.parts, motive part) → motive type) (type : Ty) : motive type :=
  step type fun part _ => parts_induction step part
termination_by sizeOf type
decreasing_by exact sizeOf_lt_of_mem_parts ‹_›

/-- A flattened list has the members of all its types. -/
theorem flattenList_eq (types : List Ty) : flattenList types = types.flatMap flatten := by
  induction types with
  | nil => rfl
  | cons type types ih => simp only [flattenList, ih, flatMap_cons]

/-- Whether the type is a union. -/
def isUnion : Ty → Bool
  | union _ => true
  | _ => false

/-- The members of a type are no unions. -/
theorem isUnion_of_mem_flatten {type member : Ty} (hm : member ∈ type.flatten) :
    member.isUnion = false := by
  induction type using parts_induction with
  | step type ih =>
    cases type with
    | union members =>
      rw [flatten, flattenList_eq] at hm
      obtain ⟨part, hp, hm⟩ := mem_flatMap.mp hm
      exact ih part hp hm
    | _ =>
      rw [mem_singleton.mp hm]
      rfl

/-- The members of several types are no unions. -/
theorem isUnion_of_mem_flattenList (hm : member ∈ flattenList types) : member.isUnion = false := by
  rw [flattenList_eq] at hm
  obtain ⟨type, -, hm⟩ := mem_flatMap.mp hm
  exact isUnion_of_mem_flatten hm

/-- A type that is no union is its only member. -/
theorem flatten_of_not_union (single : type.isUnion = false) : type.flatten = [type] := by
  cases type with
  | union => cases single
  | _ => rfl

/-- Types that are no unions are their own members. -/
theorem flattenList_eq_self (flat : ∀ type ∈ types, type.isUnion = false) :
    flattenList types = types := by
  induction types with
  | nil => rfl
  | cons type types ih =>
    rw [forall_mem_cons] at flat
    rw [flattenList, flatten_of_not_union flat.1, ih flat.2]
    rfl

theorem widenList_eq (types : List Ty) : widenList types = types.map widen := by
  induction types with
  | nil => rfl
  | cons type types ih => simp only [widenList, ih, map_cons]

theorem widenFields_eq (fields : List (Field Ty)) :
    widenFields fields = fields.map fun field => { field with type := field.type.widen } := by
  induction fields with
  | nil => rfl
  | cons field fields ih => simp only [widenFields, ih, map_cons]

theorem substituteList_eq (types : List Ty) (bindings : Bindings) :
    substituteList types bindings = types.map (·.substitute bindings) := by
  induction types with
  | nil => rfl
  | cons type types ih => simp only [substituteList, ih, map_cons]

theorem substituteFields_eq (fields : List (Field Ty)) (bindings : Bindings) :
    substituteFields fields bindings =
      fields.map fun field => { field with type := field.type.substitute bindings } := by
  induction fields with
  | nil => rfl
  | cons field fields ih => simp only [substituteFields, ih, map_cons]

theorem substituteSlots_eq (slots : List (Slot Ty)) (bindings : Bindings) :
    substituteSlots slots bindings =
      slots.map fun slot => { slot with type := slot.type.map (·.substitute bindings) } := by
  induction slots with
  | nil => rfl
  | cons slot slots ih =>
    obtain ⟨name, type⟩ := slot
    cases type <;> simp only [substituteSlots, ih, map_cons, Option.map_none, Option.map_some]

end Ty

end ScriptCheck
