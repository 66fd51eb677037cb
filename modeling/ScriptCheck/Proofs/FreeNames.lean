import ScriptCheck.Proofs.Unions

/-!
# Free type parameters

A type parameter is free in a type where no signature around the place declares one of its name.
Substituting goes past the signatures that declare the names it replaces, but not past those that
declare the names it brings in. So a name that is free in what is put in the place of a type
parameter is free in the result exactly if the type parameter occurs outside all signatures that
declare this name.
-/

namespace ScriptCheck.Ty

open List

/-- Whether a signature declares a type parameter of the name. -/
def declares (name : String) : Ty → Bool
  | func typeParams _ _ => typeParams.any (·.name == name)
  | proc typeParams _ => typeParams.any (·.name == name)
  | _ => false

theorem declares_eq (name : String) (type : Ty) :
    type.declares name = type.ownSlots.any (·.name == name) := by
  cases type <;> rfl

/-- A type parameter occurs in a type, outside all signatures that declare one of the hidden
names. -/
inductive Shows (hidden : List String) (name : String) : Ty → Prop
  | own (bound : Option Ty) : Shows hidden name (.generic name bound)
  | inside {type part : Ty} : (∀ other ∈ hidden, type.declares other = false) →
      part ∈ type.shownParts → Shows hidden name part → Shows hidden name type

/-- A type parameter occurs in a type and is not one that a signature there declares. -/
abbrev Free (name : String) (type : Ty) : Prop := type.Shows [name] name

variable {hidden : List String} {name : String} {type left right : Ty} {bindings : Bindings}

theorem shows_generic_iff : Shows hidden name (.generic other bound) ↔ other = name := by
  constructor
  · intro shows
    cases shows with
    | own => rfl
    | inside _ hp _ => cases hp
  · rintro rfl
    exact .own bound

/-- A type that is no type parameter shows what its parts do. -/
theorem shows_iff (solid : ∀ other bound, type ≠ .generic other bound) :
    type.Shows hidden name ↔ (∀ other ∈ hidden, type.declares other = false) ∧
      ∃ part ∈ type.openParts, part.Shows hidden name := by
  have open_ : type.shownParts = type.openParts := by
    cases type with
    | generic other bound => exact absurd rfl (solid other bound)
    | _ => rfl
  constructor
  · intro shows
    cases shows with
    | own bound => exact absurd rfl (solid name bound)
    | inside clear hp shows => exact ⟨clear, _, open_ ▸ hp, shows⟩
  · rintro ⟨clear, part, hp, shows⟩
    exact .inside clear (open_ ▸ hp) shows

theorem shows_union_iff : Shows hidden name (.union types) ↔
    ∃ type ∈ types, type.Shows hidden name := by
  rw [shows_iff (by simp)]
  simp [declares, openParts, parts]

section Unions

/-- Types of the same kind declare the same names. -/
theorem SameHead.declares (same : SameHead left right) (name : String) :
    left.declares name = right.declares name := by
  cases same.sameKind with
  | func | proc => exact any_name_eq same.typeParams name
  | _ => rfl

/-- Types that cannot be told apart show the same names. -/
theorem Shows.like (shows : left.Shows hidden name) (like : Like left right) :
    right.Shows hidden name := by
  induction shows generalizing right with
  | own bound =>
    cases right with
    | generic other limit => exact shows_generic_iff.mpr like.head.generic.symm
    | _ => cases like.head.sameKind
  | @inside left part clear hp _ ih =>
    have inside := like.parts
    rw [parts_eq left, parts_eq right, forall₂_append_iff like.head.length_ownBounds] at inside
    cases left with
    | generic => cases hp
    | _ =>
      obtain ⟨other, ho, same⟩ := exists_of_mem_right inside.2.flip hp
      refine (shows_iff ?_).mpr ⟨fun other ho => like.head.declares other ▸ clear other ho, other, ho, ih same⟩
      rintro _ _ rfl
      cases like.head.sameKind

theorem shows_flatten_iff : (∃ member ∈ type.flatten, member.Shows hidden name) ↔
    type.Shows hidden name := exists_mem_flatten_iff fun _ => shows_union_iff

/-- A union shows what the types show that it is put together from. -/
theorem shows_unionOf_iff : (unionOf types).Shows hidden name ↔
    ∃ type ∈ types, type.Shows hidden name := by
  rw [← shows_flatten_iff, flatten_unionOf, flattenList_eq]
  constructor
  · rintro ⟨member, hm, shows⟩
    obtain ⟨type, ht, hm⟩ := mem_flatMap.mp (mem_of_mem_distinct hm)
    exact ⟨type, ht, shows_flatten_iff.mp ⟨member, hm, shows⟩⟩
  · rintro ⟨type, ht, shows⟩
    obtain ⟨member, hm, shows⟩ := shows_flatten_iff.mpr shows
    obtain ⟨kept, hk, like⟩ := exists_like_mem_distinct (mem_flatMap.mpr ⟨type, ht, hm⟩)
    exact ⟨kept, hk, shows.like like.symm⟩

end Unions

section Substitution

/-- Inside a signature, what it declares is not replaced. -/
theorem lookup_innerBindings (bindings : Bindings) (type : Ty) (name : String) :
    (type.innerBindings bindings).lookup name =
      if type.declares name then none else bindings.lookup name := by
  have unshadowed : ∀ params : List (Slot Ty), (unshadowed bindings params).lookup name =
      if params.any (·.name == name) then none else bindings.lookup name := by
    intro params
    unfold Ty.unshadowed
    induction bindings with
    | nil => simp
    | cons binding rest ih =>
      obtain ⟨other, found⟩ := binding
      by_cases same : name = other
      · subst same
        cases declared : params.any (·.name == name) with
        | true => simpa [filter_cons, declared] using ih
        | false => simp [declared]
      · have apart : (name == other) = false := by simpa using same
        rw [lookup_cons, apart, ← ih, filter_cons]
        split
        · rw [lookup_cons, apart]
        · rfl
  cases type with
  | func typeParams => exact unshadowed typeParams
  | proc typeParams => exact unshadowed typeParams
  | _ => rfl

theorem declares_substitute (fixed : type.isFixed = true) (bindings : Bindings) (name : String) :
    (type.substitute bindings).declares name = type.declares name := by
  cases type with
  | generic | union => cases fixed
  | _ => rfl

/-- Substituting goes into the open parts with the bindings that hold there. -/
theorem openParts_substitute (fixed : type.isFixed = true) (bindings : Bindings) :
    (type.substitute bindings).openParts =
      type.openParts.map (·.substitute (type.innerBindings bindings)) := by
  have bounds : (type.substitute bindings).ownBounds = type.ownBounds := by
    cases type with
    | generic | union => cases fixed
    | _ => rfl
  have whole := parts_substitute fixed bindings
  rw [parts_eq, bounds] at whole
  exact append_cancel_left whole

/-- What a type shows after substituting is what its open parts show after it, unless the type
is a type parameter or a union. -/
theorem shows_substitute_iff (fixed : type.isFixed = true) :
    (type.substitute bindings).Shows hidden name ↔
      (∀ other ∈ hidden, type.declares other = false) ∧ ∃ part ∈ type.openParts,
        (part.substitute (type.innerBindings bindings)).Shows hidden name := by
  have solid : ∀ other bound, type.substitute bindings ≠ .generic other bound := by
    cases type with
    | generic | union => cases fixed
    | _ => exact fun _ _ => Ty.noConfusion
  rw [shows_iff solid, openParts_substitute fixed]
  simp [declares_substitute fixed]

/-- Without bindings a type stays as it is. -/
theorem substitute_nil (type : Ty) : type.substitute [] = type := by
  have slots : ∀ params : List (Slot Ty), (∀ part ∈ slotTypes params, part.substitute [] = part) →
      substituteSlots params [] = params := by
    intro params same
    induction params with
    | nil => rfl
    | cons param params ih =>
      rw [forall_mem_slotTypes_cons] at same
      obtain ⟨name, type⟩ := param
      cases type with
      | none => rw [substituteSlots, ih same.2]
      | some type => rw [substituteSlots, ih same.2, same.1 type rfl]
  induction type using parts_induction with
  | step type ih =>
    have list : ∀ types : List Ty, types ⊆ type.parts → substituteList types [] = types := by
      intro types inside
      rw [substituteList_eq]
      exact (map_congr_left fun part hp => ih part (inside hp)).trans (map_id types)
    cases type with
    | tuple elements => rw [substitute, list elements (List.Subset.refl _)]
    | named name args origin => rw [substitute, list args (List.Subset.refl _)]
    | object fields =>
      rw [substitute, substituteFields_eq]
      refine congrArg _ ((map_congr_left fun field hf => ?_).trans (map_id fields))
      rw [ih field.type (mem_map_of_mem hf), id]
    | indexer key value => rw [substitute, ih key (by simp [parts]), ih value (by simp [parts])]
    | func typeParams params result =>
      rw [substitute]
      show Ty.func _ (substituteSlots params []) (result.substitute []) = _
      rw [slots params fun part hp => ih part (by simp [parts, hp]), ih result (by simp [parts])]
    | proc typeParams params =>
      rw [substitute]
      show Ty.proc _ (substituteSlots params []) = _
      rw [slots params fun part hp => ih part (by simp [parts, hp])]
    | array inner | iterator inner | plan inner | readonly inner | nominal _ inner =>
      rw [substitute, ih inner mem_cons_self]
    | _ => rfl

/-- A union shows after substituting what its members show after it. -/
theorem shows_substitute_union_iff : ((Ty.union types).substitute bindings).Shows hidden name ↔
    ∃ type ∈ types, (type.substitute bindings).Shows hidden name := by
  rw [substitute]
  split
  · next empty =>
    rw [isEmpty_iff.mp empty, shows_union_iff]
    simp only [substitute_nil]
  · rw [substituteList_eq, shows_unionOf_iff]
    simp

/-- What is free after substituting was free before and is not replaced, or is free in what is
put in the place of a type parameter outside the signatures that declare it. -/
theorem shows_of_free_substitute (free : (type.substitute bindings).Free other) :
    type.Free other ∧ bindings.lookup other = none ∨
      ∃ name inner, bindings.lookup name = some inner ∧ type.Shows [name, other] name ∧
        inner.Free other := by
  induction type using parts_induction generalizing bindings with
  | step type ih =>
    by_cases fixed : type.isFixed = true
    · have solid : ∀ other bound, type ≠ .generic other bound := by
        rintro _ _ rfl
        cases fixed
      obtain ⟨clear, part, hp, free⟩ := (shows_substitute_iff fixed).mp free
      have whole : part ∈ type.parts := parts_eq type ▸ mem_append_right _ hp
      rcases ih part whole free with ⟨free, kept⟩ | ⟨name, inner, found, shows, free⟩
      · rw [lookup_innerBindings, clear other mem_cons_self] at kept
        exact .inl ⟨(shows_iff solid).mpr ⟨clear, part, hp, free⟩, kept⟩
      · rw [lookup_innerBindings] at found
        split at found
        · cases found
        next apart =>
        have both : ∀ declared ∈ [name, other], type.declares declared = false := by
          simpa [apart] using clear
        exact .inr ⟨name, inner, found, (shows_iff solid).mpr ⟨both, part, hp, shows⟩, free⟩
    · cases type with
      | generic name bound =>
        rw [substitute] at free
        cases found : bindings.lookup name with
        | none =>
          rw [found] at free
          obtain rfl := shows_generic_iff.mp free
          exact .inl ⟨.own bound, found⟩
        | some inner =>
          rw [found] at free
          exact .inr ⟨name, inner, found, .own bound, free⟩
      | union members =>
        obtain ⟨member, hm, free⟩ := shows_substitute_union_iff.mp free
        rcases ih member hm free with ⟨free, kept⟩ | ⟨name, inner, found, shows, free⟩
        · exact .inl ⟨shows_union_iff.mpr ⟨member, hm, free⟩, kept⟩
        · exact .inr ⟨name, inner, found, shows_union_iff.mpr ⟨member, hm, shows⟩, free⟩
      | _ => exact absurd rfl fixed

/-- What is free in what becomes of a type parameter is free after substituting, if the type
parameter occurs outside the signatures that declare either. -/
theorem free_substitute_of_shows (shows : type.Shows hidden name) (own : name ∈ hidden)
    (also : other ∈ hidden)
    (free : ∀ bound, ((Ty.generic name bound).substitute bindings).Free other) :
    (type.substitute bindings).Free other := by
  induction shows generalizing bindings with
  | own bound => exact free bound
  | @inside type part clear hp _ ih =>
    by_cases fixed : type.isFixed = true
    · have inside : part ∈ type.openParts := by
        cases type with
        | generic => cases hp
        | _ => exact hp
      refine (shows_substitute_iff fixed).mpr ⟨?_, part, inside, ih fun bound => ?_⟩
      · simpa using clear other also
      · have same := lookup_innerBindings bindings type name
        rw [clear name own] at same
        simpa [substitute, same] using free bound
    · cases type with
      | generic => cases hp
      | union members => exact shows_substitute_union_iff.mpr ⟨part, hp, ih free⟩
      | _ => exact absurd rfl fixed

/-- A type parameter is free after substituting exactly if it was free before and is not replaced,
or if it is free in the first binding of a name that occurs in the type outside the signatures
that declare either of the two. No signature between captures it then. -/
theorem free_substitute_iff (type : Ty) (bindings : Bindings) (other : String) :
    (type.substitute bindings).Free other ↔
      type.Free other ∧ bindings.lookup other = none ∨
        ∃ name inner, bindings.lookup name = some inner ∧ type.Shows [name, other] name ∧
          inner.Free other := by
  constructor
  · exact shows_of_free_substitute
  · rintro (⟨free, kept⟩ | ⟨name, inner, found, shows, free⟩)
    · exact free_substitute_of_shows free (by simp) (by simp) (by simp [substitute, kept, Shows.own])
    · exact free_substitute_of_shows shows (by simp) (by simp) (by simpa [substitute, found] using free)

/-- A signature with a type parameter of its own captures another of the same name that is put
into it. -/
theorem substitute_captures :
    let type := Ty.func [⟨"G", none⟩] [⟨"y", some (.generic "G" none)⟩] (.generic "X" none)
    let bindings := [("X", Ty.generic "G" none)]
    type.Free "X" ∧ (∃ inner, bindings.lookup "X" = some inner ∧ inner.Free "G") ∧
      ¬ (type.substitute bindings).Free "G" := by
  refine ⟨.inside (by decide) (mem_append_right _ mem_cons_self) (.own none),
    ⟨_, rfl, .own none⟩, fun free => ?_⟩
  have clear := ((shows_substitute_iff rfl).mp free).1
  exact absurd (clear "G" mem_cons_self) (by decide)

end Substitution

end ScriptCheck.Ty
