import ScriptCheck.Proofs.PlainTypes
import ScriptCheck.Proofs.References

/-!
# The members of unions

A union is put together from the members of its parts, each kept once. The members of the result
are the members kept, whether one of them is left or more.
-/

namespace ScriptCheck.Ty

open List

theorem flatten_collapse (flat : ∀ type ∈ types, type.isUnion = false) :
    (collapse types).flatten = types := by
  match types, flat with
  | [], _ => rfl
  | [type], flat => exact flatten_of_not_union (flat type mem_cons_self)
  | _ :: _ :: _, flat => exact flattenList_eq_self flat

/-- The members of a union are the members of its parts, each once. -/
theorem flatten_unionOf (types : List Ty) :
    (unionOf types).flatten = distinct (flattenList types) :=
  flatten_collapse fun _ hm => isUnion_of_mem_flattenList (mem_of_mem_distinct hm)

/-- What holds of a union if and only if it holds of one of its members does so for the members
of its members too. -/
theorem exists_mem_flatten_iff {holds : Ty → Prop}
    (union : ∀ members, holds (.union members) ↔ ∃ member ∈ members, holds member) :
    (∃ member ∈ type.flatten, holds member) ↔ holds type := by
  induction type using parts_induction with
  | step type ih =>
    cases type with
    | union members =>
      rw [union, flatten, flattenList_eq]
      constructor
      · rintro ⟨member, hm, here⟩
        obtain ⟨part, hp, hm⟩ := mem_flatMap.mp hm
        exact ⟨part, hp, (ih part hp).mp ⟨member, hm, here⟩⟩
      · rintro ⟨part, hp, here⟩
        obtain ⟨member, hm, here⟩ := (ih part hp).mpr here
        exact ⟨member, mem_flatMap.mpr ⟨part, hp, hm⟩, here⟩
    | _ => simp [flatten]

/-- No type of a list can be told apart from all that are kept. -/
theorem exists_like_mem_distinct (ht : type ∈ types) : ∃ kept ∈ distinct types, Like kept type := by
  have walk : ∀ kept : List Ty, type ∈ types ∨ (∃ found ∈ kept, Like found type) →
      ∃ found ∈ types.foldl addDistinct kept, Like found type := by
    clear ht
    induction types with
    | nil => exact fun kept known => known.resolve_left not_mem_nil
    | cons first types ih =>
      intro kept known
      refine ih _ ?_
      unfold addDistinct
      split
      · rename_i old
        rcases known with hm | known
        · rcases mem_cons.mp hm with rfl | hm
          · obtain ⟨found, hf, same⟩ := any_eq_true.mp old
            exact .inr ⟨found, hf, .of_sameAs same⟩
          · exact .inl hm
        · exact .inr known
      · rcases known with hm | ⟨found, hf, like⟩
        · rcases mem_cons.mp hm with rfl | hm
          · exact .inr ⟨type, by simp, .refl type⟩
          · exact .inl hm
        · exact .inr ⟨found, by simp [hf], like⟩
  exact walk [] (.inl ht)

/-- What is kept of a list is kept of a longer one. -/
theorem mem_distinct_append (hm : type ∈ distinct types) (rest : List Ty) :
    type ∈ distinct (types ++ rest) := by
  unfold distinct at hm ⊢
  rw [foldl_append]
  generalize types.foldl addDistinct [] = kept at hm ⊢
  induction rest generalizing kept with
  | nil => exact hm
  | cons first rest ih =>
    refine ih _ ?_
    unfold addDistinct
    split
    · exact hm
    · exact mem_append_left _ hm

end ScriptCheck.Ty
