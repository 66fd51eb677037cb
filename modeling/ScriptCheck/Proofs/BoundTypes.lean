import ScriptCheck.Proofs.Lookups

/-!
# What type parameters are bound to

Matching binds a type parameter to what stands at its place in an argument: a part of it, some of
its members, or a part of what a name in it stands for. So a property that goes over from a type
to all of these holds of what is bound if it holds of the arguments.
-/

namespace ScriptCheck

open List

/-- A generic argument is an argument, along with the type of its parameter. -/
theorem Deeper.of_mem_genericArguments (ha : argument ∈ genericArguments names params args) :
    args[argument.index]? = some argument.arg ∧ argument.paramType ∈ slotTypes params := by
  obtain ⟨⟨⟨param, arg⟩, index⟩, hr, hb⟩ := mem_filterMap.mp ha
  obtain ⟨type, ht, hg⟩ := Option.bind_eq_some_iff.mp hb
  have hz := mem_zipIdx_iff_getElem?.mp hr
  rw [getElem?_zip_eq_some] at hz
  split at hg
  · cases hg
    exact ⟨hz.2, mem_slotTypes.mpr ⟨param, mem_of_getElem? hz.1, ht⟩⟩
  · cases hg

/-- Of filled in types all is known that is known of the types before. -/
theorem Deeper.forall_mem_fillTypes {holds : Ty → Prop}
    (hd : ∀ type ∈ slotTypes declared, holds type) (hg : ∀ type ∈ slotTypes given, holds type) :
    ∀ type ∈ slotTypes (fillTypes declared given), holds type := by
  fun_induction fillTypes declared given with
  | case1 param params first rest ih =>
    rw [forall_mem_slotTypes_cons] at hd hg ⊢
    refine ⟨?_, ih hd.2 hg.2⟩
    split
    · exact hd.1
    · exact hg.1
  | case2 => exact hd

namespace Ty

theorem Formed.signature {type : Ty} (formed : type.Formed allowed strict)
    (hs : type.signature? = some (typeParams, params)) :
    (∀ bound ∈ slotTypes typeParams, bound.Formed allowed strict) ∧
      ∀ param ∈ slotTypes params, param.Formed allowed strict := by
  cases type with
  | func =>
    cases hs
    exact (formed_func.mp formed).imp_right And.left
  | proc =>
    cases hs
    exact formed_proc.mp formed
  | _ => cases hs

variable {imports : Imports} {holds : Ty → Prop} {type part param arg : Ty} {bound : Bindings}
  {names : List String} {walk : Walk}

/-- A property that goes over from a type to what matching looks at inside it. -/
structure Inherited (imports : Imports) (holds : Ty → Prop) : Prop where
  /-- It goes over to parts, bounds apart. -/
  part {type part : Ty} : holds type → part ∈ type.shownParts → holds part
  /-- It goes over to some of the members. -/
  rest {type : Ty} : holds type → ∀ keep, holds (.collapse (type.flatten.filter keep))
  /-- It goes over to unions. -/
  items {items : List Ty} : (∀ item ∈ items, holds item) → holds (.unionOf items)
  /-- It goes over to what a name stands for. -/
  seen {type : Ty} : holds type → holds (type.expand.answer imports)

/-- A walk that binds names to types with a property if the argument has it. -/
def Walk.Keeps (imports : Imports) (holds : Ty → Prop) (walk : Walk) : Prop :=
  ∀ param arg bound, holds arg → (∀ binding ∈ bound, holds binding.2) →
    ∀ binding ∈ (walk param arg bound).answer imports, holds binding.2

/-- What is bound in the end has a property if it was found for a type parameter, or is a bound
or `unknown`, and these have it. -/
theorem forall_mem_completeBindings (free : holds .unknown)
    (bounds : ∀ type ∈ slotTypes typeParams, holds type)
    (before : ∀ binding ∈ bound, holds binding.2) :
    ∀ binding ∈ completeBindings typeParams bound, holds binding.2 := by
  intro binding hb
  obtain ⟨param, hp, rfl⟩ := mem_map.mp hb
  dsimp only
  cases hl : bound.lookup param.name with
  | some found =>
    obtain ⟨_, _, rfl, -⟩ := lookup_eq_some_iff.mp hl
    exact before (param.name, found) (by simp)
  | none =>
    obtain ⟨name, type⟩ := param
    cases type with
    | none => exact free
    | some type => exact bounds type (mem_slotTypes.mpr ⟨_, hp, rfl⟩)

section Pairs

/-- The types of an argument at the places of parameters are parts of it. -/
theorem forall_mem_slotPairs (all : ∀ type ∈ slotTypes args, holds type) :
    ∀ pair ∈ slotPairs params args, holds pair.2 := by
  intro pair hp
  obtain ⟨slots, hs, hm⟩ := mem_filterMap.mp hp
  split at hm
  · next arg _ ha =>
    cases hm
    exact all _ (mem_slotTypes.mpr ⟨slots.2, (of_mem_zip hs).2, ha⟩)
  · cases hm

theorem forall_mem_fieldPairs (all : ∀ type ∈ args.map Field.type, holds type) :
    ∀ pair ∈ fieldPairs params args, holds pair.2 := by
  intro pair hp
  obtain ⟨param, -, hm⟩ := mem_filterMap.mp hp
  obtain ⟨arg, ha, rfl⟩ := Option.map_eq_some_iff.mp hm
  exact all _ (mem_map_of_mem (mem_of_find?_eq_some ha))

theorem forall_mem_zip {params args : List Ty} (all : ∀ type ∈ args, holds type) :
    ∀ pair ∈ params.zip args, holds pair.2 :=
  fun _ hp => all _ (of_mem_zip hp).2

end Pairs

section Walks

variable (keeps : walk.Keeps imports holds)
include keeps

theorem Walk.Keeps.walkPairs (all : ∀ pair ∈ pairs, holds pair.2)
    (before : ∀ binding ∈ bound, holds binding.2) :
    ∀ binding ∈ (walkPairs walk pairs bound).answer imports, holds binding.2 := by
  unfold Ty.walkPairs
  induction pairs generalizing bound with
  | nil => exact before
  | cons pair rest ih =>
    rw [forall_mem_cons] at all
    rw [foldlM_cons, Inquiry.answer_bind]
    exact ih all.2 (keeps _ _ _ all.1 before)

variable (inherited : Inherited imports holds) (ha : holds arg)
  (before : ∀ binding ∈ bound, holds binding.2)
include inherited ha before

theorem Walk.Keeps.matchUnion :
    ∀ binding ∈ (matchUnion names walk members arg bound).answer imports, holds binding.2 := by
  unfold Ty.matchUnion
  dsimp only
  split
  · rw [Inquiry.answer_bind, Inquiry.answer_filterM]
    split
    · exact before
    · exact keeps _ _ _ (inherited.rest ha _) before
  · exact before

theorem Walk.Keeps.matchShapes :
    ∀ binding ∈ (matchShapes names walk param arg bound).answer imports, holds binding.2 := by
  unfold Ty.matchShapes
  split
  · exact keeps.matchUnion inherited ha before
  · exact keeps _ _ _ (inherited.part ha mem_cons_self) before
  · exact keeps _ _ _ (inherited.part ha mem_cons_self) before
  · exact keeps _ _ _ (inherited.part ha mem_cons_self) before
  · exact keeps _ _ _ (inherited.part ha mem_cons_self) before
  · exact keeps _ _ _ ha before
  · split
    · exact before
    · exact keeps _ _ _ (inherited.items fun _ hi => inherited.part ha hi) before
  · exact keeps.walkPairs (forall_mem_zip fun _ hi => inherited.part ha hi) before
  · exact keeps.walkPairs (forall_mem_fieldPairs fun _ hi => inherited.part ha hi) before
  · refine keeps.walkPairs (forall_mem_cons.mpr ⟨inherited.part ha mem_cons_self, ?_⟩) before
    exact forall_mem_singleton.mpr (inherited.part ha (mem_cons_of_mem _ mem_cons_self))
  · refine keeps.walkPairs (forall_mem_append.mpr ⟨?_, ?_⟩) before
    · exact forall_mem_slotPairs fun _ hi => inherited.part ha (mem_append_left _ hi)
    · exact forall_mem_singleton.mpr (inherited.part ha (mem_append_right _ mem_cons_self))
  · exact keeps.walkPairs (forall_mem_slotPairs fun _ hi => inherited.part ha hi) before
  · exact before

theorem Walk.Keeps.matchNames :
    ∀ binding ∈ (matchNames names walk param arg bound).answer imports, holds binding.2 := by
  unfold Ty.matchNames
  split
  · split
    · exact keeps.walkPairs (forall_mem_zip fun _ hi => inherited.part ha hi) before
    · rw [Inquiry.answer_bind]
      split
      · exact keeps _ _ _ ha before
      · exact before
  · rw [Inquiry.answer_bind]
    split
    · exact keeps _ _ _ ha before
    · exact before
  · rw [Inquiry.answer_bind]
    split
    · exact keeps _ _ _ (inherited.seen ha) before
    · exact before
  · exact keeps.matchShapes inherited ha before

end Walks

theorem Inherited.matchWithin (inherited : Inherited imports holds) (names : List String) (limit : Nat) :
    (matchWithin names limit).Keeps imports holds := by
  induction limit with
  | zero => exact fun _ _ _ _ before => before
  | succ limit ih =>
    intro param arg bound ha before
    unfold Ty.matchWithin
    dsimp only
    split
    · split
      · unfold bindFirst
        split
        · exact before
        · exact forall_mem_append.mpr ⟨before, forall_mem_singleton.mpr ha⟩
      · exact ih.matchNames inherited ha before
    · exact ih.matchNames inherited ha before

/-- What type parameters are bound to has every inherited property that the arguments have. -/
theorem Inherited.matchGenerics (inherited : Inherited imports holds) (names : List String) :
    (matchGenerics names).Keeps imports holds := inherited.matchWithin names _

end Ty

end ScriptCheck
