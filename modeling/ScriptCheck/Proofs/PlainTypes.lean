import ScriptCheck.Proofs.Comparison

/-!
# Plain types

Plain types have no names in them and nothing that accepts or is accepted without being
looked at. What comparing them comes to is plain again and has fewer levels.
-/

namespace ScriptCheck.Ty

open List

/-- Whether a type is plain, its parts aside. All parameters have types, and no entry is
optional. -/
def isPlainKind : Ty → Bool
  | unknown => false
  | any => false
  | escape => false
  | named _ _ _ => false
  | generic _ _ => false
  | indexer _ _ => false
  | object fields => fields.all fun field => !field.optional
  | func _ params _ => params.all fun param => param.type.isSome
  | proc _ params => params.all fun param => param.type.isSome
  | _ => true

/-- Whether a type is plain and has not more than the given number of levels. -/
def isPlainWithin : Nat → Ty → Bool
  | 0, _ => false
  | height + 1, type => type.isPlainKind && type.parts.all (isPlainWithin height)

/-- A type is plain, whatever its levels. -/
def IsPlain (type : Ty) : Prop := ∃ height, type.isPlainWithin height = true

section Levels

variable {type part left right : Ty} {height otherHeight : Nat}

theorem isPlainWithin_succ_iff : type.isPlainWithin (height + 1) = true ↔
    type.isPlainKind = true ∧ ∀ part ∈ type.parts, part.isPlainWithin height = true := by
  simp [isPlainWithin]

theorem isPlainWithin_mono (hp : type.isPlainWithin height = true) (hm : height ≤ more) :
    type.isPlainWithin more = true := by
  induction height generalizing type more with
  | zero => cases hp
  | succ height ih =>
    obtain ⟨more, rfl⟩ : ∃ rest, more = rest + 1 := ⟨more - 1, by omega⟩
    obtain ⟨hk, hp⟩ := isPlainWithin_succ_iff.mp hp
    exact isPlainWithin_succ_iff.mpr ⟨hk, fun part hm => ih (hp part hm) (by omega)⟩

/-- The members of a plain type are plain, and have not more levels. -/
theorem isPlainWithin_of_mem_flatten (hp : type.isPlainWithin height = true)
    (hm : part ∈ type.flatten) : part.isPlainWithin height = true := by
  induction type using parts_induction generalizing height with
  | step type ih =>
    cases type with
    | union members =>
      cases height with
      | zero => cases hp
      | succ height =>
        rw [flatten, flattenList_eq] at hm
        obtain ⟨member, hmember, hm⟩ := mem_flatMap.mp hm
        have inner := (isPlainWithin_succ_iff.mp hp).2 member hmember
        exact isPlainWithin_mono (ih member hmember inner hm) (Nat.le_succ height)
    | _ =>
      rw [mem_singleton.mp hm]
      exact hp

/-- The type of a parameter that has one is a part. -/
theorem typeOrUnknown_mem (annotated : (params.all fun param => param.type.isSome) = true)
    (hs : slot ∈ params) : slot.typeOrUnknown ∈ slotTypes params := by
  obtain ⟨type, ht⟩ := Option.isSome_iff_exists.mp (all_eq_true.mp annotated slot hs)
  rw [Slot.typeOrUnknown, ht]
  exact mem_slotTypes.mpr ⟨slot, hs, ht⟩

/-- What comparisons of a plain type come to is plain and has fewer levels. -/
theorem isPlainWithin_of_mem_compared (hp : type.isPlainWithin (height + 1) = true)
    (hm : part ∈ type.compared) : part.isPlainWithin height = true := by
  obtain ⟨hk, hp⟩ := isPlainWithin_succ_iff.mp hp
  cases type with
  | union members =>
    rcases mem_append.mp hm with hm | hm
    · exact hp part hm
    · rw [flattenList_eq] at hm
      obtain ⟨member, hmember, hm⟩ := mem_flatMap.mp hm
      exact isPlainWithin_of_mem_flatten (hp member hmember) hm
  | object fields =>
    rcases mem_append.mp hm with hm | hm
    · exact hp part hm
    · obtain ⟨field, hf, rfl⟩ := mem_map.mp hm
      cases height with
      | zero => cases hp field.type (mem_map_of_mem hf)
      | succ height => rfl
  | func typeParams params result =>
    rcases mem_cons.mp hm with rfl | hm
    · exact hp _ (by simp [parts])
    · obtain ⟨slot, hs, rfl⟩ := mem_map.mp hm
      exact hp _ (by simp [parts, typeOrUnknown_mem hk hs])
  | proc typeParams params =>
    obtain ⟨slot, hs, rfl⟩ := mem_map.mp hm
    exact hp _ (by simp [parts, typeOrUnknown_mem hk hs])
  | array | tuple | iterator | plan | readonly => exact hp part hm
  | named | indexer | generic => cases hk
  | string | number | boolean | nil | unknown | any | escape | literal | nominal | store => cases hm

/-- What comparing plain types comes to is plain and has fewer levels on both sides together. -/
theorem Asks.isPlainWithin (asks : Asks left right part member)
    (hl : left.isPlainWithin height = true) (hr : right.isPlainWithin otherHeight = true) :
    ∃ first second, part.isPlainWithin first = true ∧ member.isPlainWithin second = true ∧
      first + second < height + otherHeight := by
  cases height with
  | zero => cases hl
  | succ height =>
    cases otherHeight with
    | zero => cases hr
    | succ otherHeight =>
      cases asks with
      | inner hp hm =>
        exact ⟨height, otherHeight, isPlainWithin_of_mem_compared hl hp,
          isPlainWithin_of_mem_compared hr hm, by omega⟩
      | swapped hp hm =>
        exact ⟨otherHeight, height, isPlainWithin_of_mem_compared hr hm,
          isPlainWithin_of_mem_compared hl hp, by omega⟩
      | inLeft hp =>
        exact ⟨height, otherHeight + 1, isPlainWithin_of_mem_compared hl hp, hr, by omega⟩
      | inRight hm =>
        exact ⟨height + 1, otherHeight, hl, isPlainWithin_of_mem_compared hr hm, by omega⟩

theorem isNamed_of_isPlainWithin (hp : type.isPlainWithin height = true) : type.isNamed = false := by
  cases height with
  | zero => cases hp
  | succ height =>
    have hk := (isPlainWithin_succ_iff.mp hp).1
    cases type with
    | named => cases hk
    | _ => rfl

/-- What comparisons of a plain type come to is plain. -/
theorem IsPlain.of_mem_compared (plain : IsPlain type) (hm : part ∈ type.compared) :
    IsPlain part := by
  obtain ⟨height, hp⟩ := plain
  cases height with
  | zero => cases hp
  | succ height => exact ⟨height, isPlainWithin_of_mem_compared hp hm⟩

/-- A member of a plain type is plain. -/
theorem IsPlain.of_mem_flatten (plain : IsPlain type) (hm : part ∈ type.flatten) : IsPlain part :=
  plain.imp fun _ hp => isPlainWithin_of_mem_flatten hp hm

theorem IsPlain.kind (plain : IsPlain type) : type.isPlainKind = true := by
  obtain ⟨height, hp⟩ := plain
  cases height with
  | zero => cases hp
  | succ height => exact (isPlainWithin_succ_iff.mp hp).1

end Levels

/-- Whether the type is readonly. -/
def isReadonly : Ty → Bool
  | readonly _ => true
  | _ => false

end ScriptCheck.Ty
