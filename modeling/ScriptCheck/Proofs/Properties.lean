import ScriptCheck.Proofs.Settling

/-!
# Looking for a property

A property of a readonly type is looked for inside it, and a property of a union in one
member after another until one does not have it. The search comes to an end exactly if it
cannot go on from type to type for ever.
-/

namespace ScriptCheck

open List

namespace Ty

/-- Whether a type that is neither readonly nor a union has a property. -/
def hasOwn (name : String) : Ty → Bool
  | object fields => fields.any (·.name == name)
  | store _ declaration => (declaration.storeMember? name).isSome
  | nominal _ _ => name == "value"
  | array _ => name == "length"
  | tuple _ => name == "length"
  | string => name == "length"
  | literal (.string _) => name == "length"
  | any => true
  | _ => false

variable {imports : Imports} {name : String}

/-- Types that have a property with the given name. -/
inductive Offers (imports : Imports) (name : String) : Ty → Prop
  | own {type : Ty} : type.hasOwn name = true → Offers imports name type
  | readonly {inner : Ty} :
      Offers imports name (inner.expand.answer imports) → Offers imports name (.readonly inner)
  | union {members : List Ty} : members ≠ [] →
      (∀ member ∈ members, Offers imports name (member.expand.answer imports)) →
      Offers imports name (.union members)

/-- The types that the search for a property goes on to. It gets to a member of a union only
if the members before have the property. -/
inductive SearchedAfter (imports : Imports) (name : String) : Ty → Ty → Prop
  | readonly {inner : Ty} :
      SearchedAfter imports name (inner.expand.answer imports) (.readonly inner)
  | union {before after : List Ty} {member : Ty} :
      (∀ earlier ∈ before, Offers imports name (earlier.expand.answer imports)) →
      SearchedAfter imports name (member.expand.answer imports) (.union (before ++ member :: after))

theorem offers_readonly_iff {inner : Ty} : Offers imports name (.readonly inner) ↔
    Offers imports name (inner.expand.answer imports) := by
  refine ⟨fun offers => ?_, .readonly⟩
  cases offers with
  | own has => cases has
  | readonly offers => exact offers

theorem offers_union_iff : Offers imports name (.union members) ↔
    members ≠ [] ∧ ∀ member ∈ members, Offers imports name (member.expand.answer imports) := by
  refine ⟨fun offers => ?_, fun ⟨hm, all⟩ => .union hm all⟩
  cases offers with
  | own has => cases has
  | union hm all => exact ⟨hm, all⟩

/-- Types that are taken apart to look for a property. -/
def isLayered : Ty → Bool
  | readonly _ => true
  | union _ => true
  | _ => false

/-- Other types have the property themselves or not at all. -/
theorem offers_iff_hasOwn (hl : type.isLayered = false) :
    Offers imports name type ↔ type.hasOwn name = true := by
  refine ⟨fun offers => ?_, .own⟩
  cases offers with
  | own has => exact has
  | readonly _ => cases hl
  | union _ _ => cases hl

/-- The search ends at other types. -/
theorem acc_of_not_layered (hl : type.isLayered = false) :
    Acc (SearchedAfter imports name) type := by
  refine ⟨_, fun inner after => ?_⟩
  cases after with
  | readonly => cases hl
  | union _ => cases hl

end Ty

/-- Asking about items until one has no answer gets to all items behind others that have
one, and has an answer if all of them have. -/
theorem Deeper.askAll_answer {ask : α → Inference (Option β)} {has : α → Prop} {items : List α}
    {found : Option (List β)}
    (sound : ∀ item ∈ items, ∀ answer, (ask item).answer? imports = some answer →
      (answer.isSome = true ↔ has item)) (asked : (askAll ask items).answer? imports = some found) :
    (found.isSome = true ↔ ∀ item ∈ items, has item) ∧
      ∀ before item after, items = before ++ item :: after → (∀ earlier ∈ before, has earlier) →
        ∃ answer, (ask item).answer? imports = some answer := by
  induction items generalizing found with
  | nil =>
    cases asked
    simp
  | cons first rest ih =>
    rw [forall_mem_cons] at sound
    rw [askAll, Inference.answer?_bind] at asked
    obtain ⟨answer, ha, asked⟩ := Option.bind_eq_some_iff.mp asked
    have hf := sound.1 answer ha
    cases answer with
    | none =>
      cases asked
      have hno : ¬ has first := fun h => by simpa using hf.mpr h
      refine ⟨by simp [hno], fun before item after he hb => ?_⟩
      cases before with
      | nil =>
        cases he
        exact ⟨_, ha⟩
      | cons other before =>
        cases he
        exact absurd (hb first mem_cons_self) hno
    | some value =>
      have hyes : has first := hf.mp rfl
      rw [Inference.answer?_bind] at asked
      obtain ⟨others, ho, hp⟩ := Option.bind_eq_some_iff.mp asked
      obtain ⟨hsome, hreach⟩ := ih sound.2 ho
      cases hp
      refine ⟨by simp [hyes, hsome], fun before item after he hb => ?_⟩
      cases before with
      | nil =>
        cases he
        exact ⟨_, ha⟩
      | cons other before =>
        cases he
        exact hreach before item after rfl fun earlier hm => hb earlier (mem_cons_of_mem _ hm)

namespace Ty

/-- A type that is not taken apart has a property as soon as one is found. -/
theorem isSome_eq_hasOwn {deeper : Deeper} (hl : type.isLayered = false)
    (ha : (deeper.propertyType situation type name).answer? imports = some found) :
    found.isSome = type.hasOwn name := by
  unfold Deeper.propertyType at ha
  dsimp only at ha
  split at ha
  · cases ha
    rw [Option.isSome_map, Bool.eq_iff_iff, find?_isSome, hasOwn, any_eq_true]
  · split at ha
    · next member hm =>
      obtain ⟨inner, -, hp⟩ := Option.bind_eq_some_iff.mp
        ((Inference.answer?_bind ..).symm.trans ha)
      cases hp
      simp [hasOwn, hm]
    · next hm =>
      cases ha
      simp [hasOwn, hm]
  · cases ha
    by_cases hn : name = "value" <;> simp [hasOwn, hn]
  iterate 4
    · cases ha
      by_cases hn : name = "length" <;> simp [hasOwn, hn]
  · cases hl
  · cases hl
  · cases ha
    rfl
  · cases ha
    unfold hasOwn
    split <;> simp_all

/-- A search that has come to an end can only go on so far, and has found the property
exactly if the type has it. -/
theorem acc_of_property (depth : Nat)
    (ha : ((Deeper.within depth).property? situation type name).answer? imports = some found) :
    Acc (SearchedAfter imports name) type ∧ (found.isSome = true ↔ Offers imports name type) := by
  induction depth generalizing type found with
  | zero => cases ha
  | succ depth ih =>
    change ((Deeper.within depth).propertyType situation type name).answer? imports = _ at ha
    cases hl : type.isLayered with
    | false =>
      rw [offers_iff_hasOwn hl, isSome_eq_hasOwn hl ha]
      exact ⟨acc_of_not_layered hl, Iff.rfl⟩
    | true =>
      cases type with
      | readonly inner =>
        obtain ⟨hacc, hoffers⟩ := ih ha
        rw [offers_readonly_iff]
        refine ⟨⟨_, fun next after => ?_⟩, hoffers⟩
        cases after
        exact hacc
      | union members =>
        rw [offers_union_iff]
        rw [Deeper.propertyType] at ha
        split at ha
        · next hm =>
          cases ha
          rw [isEmpty_iff.mp hm]
          refine ⟨⟨_, fun next after => ?_⟩, by simp⟩
          generalize he : Ty.union [] = outer at after
          cases after with
          | readonly => cases he
          | union _ => simp at he
        · next hm =>
          rw [Inference.answer?_bind] at ha
          obtain ⟨answers, hall, hp⟩ := Option.bind_eq_some_iff.mp ha
          cases hp
          have sound : ∀ member ∈ members, ∀ answer, (do
              (Deeper.within depth).property? situation (← member.expand) name :
                Inference (Option Ty)).answer? imports = some answer →
              (answer.isSome = true ↔ Offers imports name (member.expand.answer imports)) :=
            fun member _ answer hanswer => (ih hanswer).2
          obtain ⟨hsome, hreach⟩ := Deeper.askAll_answer sound hall
          refine ⟨⟨_, fun next after => ?_⟩, ?_⟩
          · generalize he : Ty.union members = outer at after
            cases after with
            | readonly => cases he
            | union earlier =>
              cases he
              obtain ⟨answer, hanswer⟩ := hreach _ _ _ rfl earlier
              exact (ih hanswer).1
          · have hne : members ≠ [] := by simpa using hm
            simpa [hne] using hsome
      | _ => cases hl

end Ty

namespace Modules

variable {modules : Modules} {situation : Situation} {type : Ty} {name : String}

/-- Asking about items until one has no answer is settled if each question is that the
answers before lead to. -/
theorem askAll_settles {ask : Nat → α → Inference (Option β)} {has : α → Prop} (goal : β → Prop)
    (sound : ∀ item ∈ items, ∀ depth answer, (ask depth item).answer? modules.imports = some answer →
      (answer.isSome = true ↔ has item))
    (settles : ∀ before item after, items = before ++ item :: after →
      (∀ earlier ∈ before, has earlier) → modules.Settles (fun depth => ask depth item)
        fun found => ∀ answer ∈ found, goal answer) :
    modules.Settles (fun depth => Deeper.askAll (ask depth) items)
      fun found => ∀ answers ∈ found, ∀ answer ∈ answers, goal answer := by
  induction items with
  | nil => exact .done (by simp)
  | cons first rest ih =>
    rw [forall_mem_cons] at sound
    have hfirst := settles [] first rest rfl (by simp)
    obtain ⟨found, hf, enough, he⟩ := hfirst
    have hhas := sound.1 enough found (he enough (Nat.le_refl _))
    have asked : modules.Settles (fun depth => ask depth first) (· = found) :=
      ⟨found, rfl, enough, he⟩
    simp only [Deeper.askAll]
    refine asked.andThen fun answer ha => ?_
    rw [ha]
    cases found with
    | none => exact .done (by simp)
    | some value =>
      have later := ih sound.2 fun before item after hrest hb =>
        settles (first :: before) item after (by rw [hrest]; rfl)
          (forall_mem_cons.mpr ⟨hhas.mp rfl, hb⟩)
      refine later.andThen fun others ho => .done ?_
      intro answers ha
      obtain ⟨rest, hr, rfl⟩ := Option.map_eq_some_iff.mp ha
      exact forall_mem_cons.mpr ⟨hf value rfl, ho rest hr⟩

/-- The search for a property goes on among the types of the scripts. -/
theorem searched_written (ht : modules.Forms type) {inner : Ty}
    (after : Ty.SearchedAfter modules.imports name inner type) : modules.Forms inner := by
  cases after with
  | readonly => exact expand_forms (Ty.formed_readonly.mp ht)
  | union _ => exact expand_forms (ht.parts _ (by simp [Ty.parts]))

/-- A property of a type is settled when it is in the types that the search goes on to. -/
theorem propertyType_settles (typed : modules.Typed situation) (ht : modules.Forms type)
    (settles : ∀ inner, Ty.SearchedAfter modules.imports name inner type → modules.Settles
      (fun depth => (Deeper.within depth).property? situation inner name) modules.FormsFound) :
    modules.SettlesAt (·.propertyType situation type name) modules.FormsFound := by
  have length : modules.FormsFound (if name = "length" then some .number else none) := by
    split <;> simp [FormsFound]
  unfold Deeper.propertyType
  dsimp only
  split
  · refine .done fun found hf => ?_
    obtain ⟨field, hm, rfl⟩ := Option.map_eq_some_iff.mp hf
    have hw := Ty.formed_object.mp ht field (mem_of_find?_eq_some hm)
    split
    · exact .orNil hw.inside
    · exact hw
  · split
    · next member hm =>
      have hd : modules.Has member := by
        obtain ⟨id, -, rfl⟩ := mem_map.mp (mem_of_find?_eq_some hm)
        exact (Ty.formed_store.mp ht :)
      refine .andThen (declarationType_settles typed hd) fun found hf => .done ?_
      simpa [FormsFound] using hf
    · exact .done (by simp [FormsFound])
  · refine .done ?_
    split
    · simpa [FormsFound] using Ty.formed_nominal.mp ht
    · simp [FormsFound]
  · exact .done length
  · exact .done length
  · exact .done length
  · exact .done length
  · exact .after (settles _ .readonly)
  · next members =>
    split
    · exact .done (by simp [FormsFound])
    · have sound : ∀ member ∈ members, ∀ depth answer, (do
          (Deeper.within depth).property? situation (← member.expand) name :
            Inference (Option Ty)).answer? modules.imports = some answer →
          (answer.isSome = true ↔
            Ty.Offers modules.imports name (member.expand.answer modules.imports)) :=
        fun member _ depth answer hanswer => (Ty.acc_of_property depth hanswer).2
      refine .andThen (askAll_settles modules.Forms sound fun before member after he hb => ?_) fun found hf =>
        .done fun union hu => ?_
      · subst he
        exact .after (settles _ (.union hb))
      · obtain ⟨types, htypes, rfl⟩ := Option.map_eq_some_iff.mp hu
        exact .unionOf fun type hm => (hf types htypes type hm).inside
  · exact .done (by simp [FormsFound])
  · exact .done (by simp [FormsFound])

/-- Every property that can be searched for only so far is settled. -/
theorem property_settles (typed : modules.Typed situation)
    (ends : Acc (Ty.SearchedAfter modules.imports name) type) (ht : modules.Forms type) :
    modules.SettlesAt (·.property? situation type name) modules.FormsFound := by
  induction ends with
  | intro type _ ih =>
    refine .deeper (propertyType_settles typed ht fun inner after => ?_) fun depth => rfl
    exact ih inner after (searched_written ht after)

/-- In no type of the scripts does the search for a property go on for ever. -/
def Searchable (modules : Modules) : Prop :=
  ∀ type, modules.Writes type → ∀ name, Acc (Ty.SearchedAfter modules.imports name) type

theorem propertyType_settles_of_searchable (searchable : modules.Searchable)
    (typed : modules.Typed situation) (ht : modules.Forms type) (name : String) :
    modules.SettlesAt (·.propertyType situation type name) modules.FormsFound :=
  propertyType_settles typed ht fun inner after =>
    have hw := searched_written ht after
    property_settles typed (searchable inner (Ty.writtenIn_iff_refersOnly.mpr hw) name) hw

theorem indexType_settles (typed : modules.Typed situation) (hb : modules.Forms base)
    (hk : modules.Forms key)
    (settles : ∀ inner, base = .readonly inner → ∀ key, modules.Forms key → modules.Settles
      (fun depth => (Deeper.within depth).indexed? situation (inner.expand.answer modules.imports) key)
      modules.FormsFound) :
    modules.SettlesAt (·.indexType situation base key) modules.FormsFound := by
  unfold Deeper.indexType
  refine .after ?_
  dsimp only
  split
  · split
    · refine propertyType_settles typed hb fun inner after => ?_
      cases after
    · exact .done (by simp [FormsFound])
  · refine .after (.done ?_)
    split
    · simpa [FormsFound] using Ty.Formed.orNil (Ty.formed_indexer.mp hb).2.inside
    · simp [FormsFound]
  · refine .after (.done ?_)
    split
    · simpa [FormsFound] using Ty.formed_array.mp hb
    · simp [FormsFound]
  · have hw := Ty.formed_tuple.mp hb
    split
    · exact .done fun item hi => hw item (mem_of_getElem? hi)
    · refine .after (.done ?_)
      split
      · simpa [FormsFound] using Ty.Formed.unionOf fun item hi => (hw item hi).inside
      · simp [FormsFound]
  · exact .after (settles _ rfl _ (expand_forms hk))
  · exact .done (by simp [FormsFound])
  · exact .done (by simp [FormsFound])

/-- A key is looked for inside readonly types only, as every property is. -/
theorem indexed_settles (typed : modules.Typed situation)
    (ends : Acc (Ty.SearchedAfter modules.imports name) type) (ht : modules.Forms type)
    (hk : modules.Forms key) :
    modules.SettlesAt (·.indexed? situation type key) modules.FormsFound := by
  induction ends generalizing key with
  | intro type _ ih =>
    refine .deeper (indexType_settles typed ht hk ?_) fun depth => rfl
    rintro inner rfl key hk
    exact ih _ .readonly (expand_forms (Ty.formed_readonly.mp ht)) hk

theorem indexType_settles_of_searchable (searchable : modules.Searchable)
    (typed : modules.Typed situation) (hb : modules.Forms base) (hk : modules.Forms key) :
    modules.SettlesAt (·.indexType situation base key) modules.FormsFound := by
  refine indexType_settles typed hb hk ?_
  rintro inner rfl key hk
  have hw : modules.Forms (inner.expand.answer modules.imports) :=
    expand_forms (Ty.formed_readonly.mp hb)
  exact indexed_settles typed (searchable _ (Ty.writtenIn_iff_refersOnly.mpr hw) "length") hw hk

end Modules

end ScriptCheck
