import ScriptCheck.Proofs.Unions

/-!
# Comparing what types stand for

One step of a comparison looks at the shapes of two types and goes on to their parts. Where
names are clear, it comes to the same answer for types as for what these stand for, given
that the comparisons of the parts do. Each rule carries the answer over; what the rules do
not see is that two types written in different ways are alike, and then their parts fit.
-/

namespace ScriptCheck

open List

namespace Ty

/-- Two ways of comparing agree on types and on what these stand for, up to the given
number of levels on both sides together. -/
structure Agree (imports : Imports) (roots : List Ty) (levels : Nat)
    (sub full : Ty → Ty → Inquiry Bool) : Prop where
  /-- The answers are the same. -/
  answer_eq {left right leftFull rightFull : Ty} {height otherHeight : Nat} :
    Paired imports roots height left leftFull → Paired imports roots otherHeight right rightFull →
      height + otherHeight ≤ levels →
      (sub left right).answer imports = (full leftFull rightFull).answer imports
  /-- Types without names that are alike fit. -/
  alike {left right : Ty} : left.isNamed = false → right.isNamed = false →
    left.sameAs right = true → (full left right).answer imports = true
  /-- Where both types are missing, they fit. -/
  missing : (sub .unknown .unknown).answer imports = true

section Step

variable {imports : Imports} {roots : List Ty} {sub full : Ty → Ty → Inquiry Bool}
  {replace change : Ty → Ty} {height otherHeight : Nat}

theorem Paired.unknown : Paired imports roots 1 .unknown .unknown := ⟨.unknown, .leaf rfl rfl⟩

theorem Paired.entryName (name : String) :
    Paired imports roots 1 (.stringLiteral name) (.stringLiteral name) :=
  ⟨.entryName name, .leaf rfl rfl⟩

theorem Paired.isNamed_full (paired : Paired imports roots height type other) :
    other.isNamed = false := by
  obtain ⟨below, replace, -, rfl, opened⟩ := paired.opened
  rw [isNamed_mapParts, opened.not_named]

section

variable (clear : NamedClearly imports roots)
include clear

/-- No member of a union that is met is a union. -/
theorem Opened.isUnion_member (opened : Opened imports roots height (.union members) replace)
    (hm : member ∈ members) : member.isUnion = false := by
  have hu := clear.flat_unions opened.whole.met hm
  cases member with
  | union => exact hu
  | _ => rfl

/-- No member of a union that is met stands for a union. -/
theorem Opened.isUnion_replace (opened : Opened imports roots height (.union members) replace)
    (hm : member ∈ members) : (replace member).isUnion = false := by
  have hu := clear.flat_unions opened.whole.met hm
  obtain ⟨_, inner, -, he, -⟩ := (opened.parts member hm).opened
  rw [he]
  generalize member.expand.answer imports = seen at hu ⊢
  cases seen with
  | union => exact hu
  | _ => rfl

/-- A union that is stood for has no unions among its members. -/
theorem Opened.isUnion_of_union (opened : Opened imports roots height type replace)
    (hu : type.mapParts replace = .union members) : ∀ member ∈ members, member.isUnion = false := by
  cases type with
  | union written =>
    cases hu
    intro member hm
    obtain ⟨inner, hi, rfl⟩ := mem_map.mp hm
    exact opened.isUnion_replace clear hi
  | _ => cases hu

end

/-- A type inside another with what it stands for, or a type that is missing. -/
def PairedInside (imports : Imports) (roots : List Ty) (height : Nat) (part full : Ty) : Prop :=
  (∃ low ≤ height, Paired imports roots low part full) ∨ part = .unknown ∧ full = .unknown

theorem Paired.pos (paired : Paired imports roots height type other) : 0 < height := by
  obtain ⟨below, -, rfl, -⟩ := paired.opened
  exact Nat.succ_pos below

/-- What comparisons of a type come to corresponds to what it stands for. -/
theorem Opened.corresponds (clear : NamedClearly imports roots)
    (opened : Opened imports roots height type replace) :
    Corresponds (PairedInside imports roots height) type (type.mapParts replace) := by
  have inside {part : Ty} (hp : part ∈ type.parts) :
      PairedInside imports roots height part (replace part) :=
    .inl ⟨height, Nat.le_refl _, opened.parts part hp⟩
  have all {members : List Ty} (hm : members ⊆ type.parts) :
      Forall₂ (PairedInside imports roots height) members (members.map replace) :=
    forall₂_map_right_iff.mpr (forall₂_same.mpr fun _ hp => inside (hm hp))
  have slots {params : List (Slot Ty)} (hs : slotTypes params ⊆ type.parts) :
      Forall₂ (Slot.Corresponds (PairedInside imports roots height)) params
        (params.map (Slot.mapType replace)) := by
    refine forall₂_map_right_iff.mpr (forall₂_same.mpr fun slot hp => ?_)
    obtain ⟨name, written⟩ := slot
    cases written with
    | none => exact .inr ⟨rfl, rfl⟩
    | some part => exact inside (hs (mem_slotTypes.mpr ⟨_, hp, rfl⟩))
  cases type with
  | union members =>
    refine .union (all (List.Subset.refl _)) ?_
    rw [flattenList_eq_self fun member hm => opened.isUnion_member clear hm,
      flattenList_eq_self (opened.isUnion_of_union clear rfl)]
    exact all (List.Subset.refl _)
  | tuple elements => exact .tuple (all (List.Subset.refl _))
  | object fields =>
    refine .object (forall₂_map_right_iff.mpr (forall₂_same.mpr fun field hf => ?_))
    have hp : field.type ∈ (object fields).parts := mem_map_of_mem hf
    exact ⟨rfl, rfl, inside hp, .inl ⟨1, (opened.parts _ hp).pos, .entryName field.name⟩⟩
  | indexer => exact .indexer (inside (by simp [Ty.parts])) (inside (by simp [Ty.parts]))
  | func typeParams params result =>
    exact .func _ _ (slots (by simp +contextual [Ty.parts, subset_def])) (inside (by simp [Ty.parts]))
  | proc typeParams params => exact .proc _ _ (slots (by simp [Ty.parts]))
  | generic name bound =>
    cases bound with
    | none => exact .free name name
    | some bound => exact .bounded name name (inside (by simp [Ty.parts]))
  | array inner | iterator inner | plan inner | readonly inner =>
    constructor
    exact inside mem_cons_self
  | literal value => cases value <;> constructor
  | string | number | boolean | nil | unknown | any | escape | named | nominal | store => constructor

/-- Types inside two others fit exactly if what they stand for does. -/
theorem Agree.inside (agree : Agree imports roots (height + otherHeight + 1) sub full)
    (hp : PairedInside imports roots height part leftPart)
    (hm : PairedInside imports roots otherHeight member rightPart) :
    (sub part member).answer imports = (full leftPart rightPart).answer imports := by
  rcases hp with ⟨low, hl, hp⟩ | ⟨rfl, rfl⟩ <;> rcases hm with ⟨under, hu, hm⟩ | ⟨rfl, rfl⟩
  · exact agree.answer_eq hp hm (by omega)
  · exact agree.answer_eq hp .unknown (by omega)
  · exact agree.answer_eq .unknown hm (by omega)
  · exact agree.missing.trans (agree.alike rfl rfl rfl).symm

/-- A part of a type fits another type exactly if what they stand for does. -/
theorem Agree.part (agree : Agree imports roots (height + otherHeight + 1) sub full)
    (hd : Opened imports roots height destination replace)
    (hv : Opened imports roots otherHeight value change) {part leftPart : Ty}
    (hi : part ∈ destination.parts) (hp : PairedInside imports roots height part leftPart) :
    (sub part value).answer imports = (full leftPart (value.mapParts change)).answer imports ∧
      (sub value part).answer imports = (full (value.mapParts change) leftPart).answer imports := by
  have pos := (hd.parts part hi).pos
  obtain ⟨low, hl, hp⟩ : ∃ low ≤ height, Paired imports roots low part leftPart := by
    rcases hp with paired | ⟨rfl, rfl⟩
    · exact paired
    · exact ⟨1, pos, .unknown⟩
  exact ⟨agree.answer_eq hp hv.whole (by omega), agree.answer_eq hv.whole hp (by omega)⟩

/-- Types fit by the rules exactly if what they stand for does. -/
theorem subsumesByRule_eq (clear : NamedClearly imports roots)
    (agree : Agree imports roots (height + otherHeight + 1) sub full)
    (hd : Opened imports roots height destination replace)
    (hv : Opened imports roots otherHeight value change) :
    (subsumesByRule sub destination value).answer imports =
      (subsumesByRule full (destination.mapParts replace)
        (value.mapParts change)).answer imports := by
  have swap : Agree imports roots (otherHeight + height + 1) sub full := by
    rwa [Nat.add_comm otherHeight height]
  exact subsumesByRule_congr (hd.corresponds clear) (hv.corresponds clear)
    ⟨agree.inside, fun hp hm => swap.inside hm hp, fun hi hp => (agree.part hd hv hi hp).1,
      fun hi hm => (swap.part hv hd hi hm).2⟩

/-- An entry of an object type that has each entry once is found by its name. -/
theorem find?_of_mem_fields {fields : List (Field Ty)} (distinct : (fields.map Field.name).Nodup)
    (hf : field ∈ fields) : fields.find? (·.name == field.name) = some field := by
  obtain ⟨earlier, later, rfl⟩ := append_of_mem hf
  rw [map_append, nodup_append] at distinct
  refine find?_eq_some_iff_append.mpr ⟨BEq.rfl, earlier, later, rfl, fun other ho => ?_⟩
  simpa using distinct.2.2 other.name (mem_map_of_mem ho) field.name (by simp)

/-- Tuples fit by the rules if their elements do one by one. -/
theorem rule_tuple
    (all : Forall₂ (fun target element => (full target element).answer imports = true) targets
      elements) :
    (subsumesByRule full (.tuple targets) (.tuple elements)).answer imports = true := by
  obtain ⟨length, yes⟩ := forall₂_iff_zip.mp all
  simp only [subsumesByRule, sameShapeSubsumes, if_pos length, Inquiry.answer_allM, all_eq_true]
  exact fun pair => yes

/-- Objects fit by the rules if their entries do one by one, and no entry is there twice: the
entry that is found by the name of another is then the one that belongs to it. -/
theorem rule_object {wanted fields : List (Field Ty)} (distinct : (fields.map Field.name).Nodup)
    (all : Forall₂ (fun entry field => entry.head = field.head ∧
      (full entry.type field.type).answer imports = true) wanted fields) :
    (subsumesByRule full (.object wanted) (.object fields)).answer imports = true := by
  simp only [subsumesByRule, sameShapeSubsumes, Inquiry.answer_allM, all_eq_true]
  intro entry he
  obtain ⟨field, hf, heads, yes⟩ := exists_of_mem_right all.flip he
  obtain ⟨name, optional⟩ := Prod.mk.inj heads
  rw [name, find?_of_mem_fields distinct hf]
  simp [optional, yes]

/-- Unions without unions among their members fit by the rules if each member finds one. -/
theorem rule_union (flat : ∀ target ∈ targets, target.isUnion = false)
    (single : ∀ member ∈ members, member.isUnion = false)
    (found : ∀ member ∈ members, ∃ target ∈ targets, (full target member).answer imports = true) :
    (subsumesByRule full (.union targets) (.union members)).answer imports = true := by
  simp only [subsumesByRule, flattenList_eq_self flat, flattenList_eq_self single,
    Inquiry.answer_allM, Inquiry.answer_anyM, all_eq_true, any_eq_true]
  exact found

/-- Parameters that are alike are accepted if their types fit. -/
theorem paramsAccept_of_sameSlots (same : sameSlots params others = true)
    (alike : ∀ part ∈ slotTypes params, ∀ other ∈ slotTypes others, part.sameAs other = true →
      (full other part).answer imports = true)
    (missing : (full .unknown .unknown).answer imports = true) :
    (paramsAccept full params others).answer imports = true := by
  obtain ⟨heads, inside⟩ := sameSlots_iff.mp same
  obtain ⟨hl, all⟩ := forall₂_iff_zip.mp (forall₂_slots heads inside).flip
  unfold paramsAccept
  rw [if_pos (Nat.le_of_eq hl), Inquiry.answer_allM, all_eq_true]
  rintro ⟨⟨otherName, otherType⟩, ⟨name, type⟩⟩ hm
  have hs := all hm
  obtain ⟨ho, hp⟩ := of_mem_zip hm
  cases hs with
  | none => exact missing
  | some same =>
    exact alike _ (mem_slotTypes.mpr ⟨_, hp, rfl⟩) _ (mem_slotTypes.mpr ⟨_, ho, rfl⟩) same

/-- Types that are alike fit by the rules if their parts do, as far as types have parts and
are not compared as a whole only. -/
theorem subsumesByRule_of_sameAs (same : left.sameAs right = true) (hp : left.parts ≠ [])
    (hn : left.isNamed = false) (hs : left.isSealed = false)
    (alike : ∀ part ∈ left.parts, ∀ other ∈ right.parts, part.sameAs other = true →
      (full part other).answer imports = true ∧ (full other part).answer imports = true)
    (missing : (full .unknown .unknown).answer imports = true)
    (flat : ∀ members, left = .union members ∨ right = .union members →
      ∀ member ∈ members, member.isUnion = false)
    (distinct : ∀ fields, right = .object fields → (fields.map Field.name).Nodup) :
    (subsumesByRule full left right).answer imports = true := by
  cases left with
  | string | number | boolean | nil | unknown | any | escape | literal | store => cases hp rfl
  | named => cases hn
  | nominal | generic => cases hs
  | array inner | iterator inner | plan inner | readonly inner =>
    cases right with
    | array other | iterator other | plan other | readonly other =>
      first
      | cases same
      | exact (alike inner (by simp [parts]) other (by simp [parts]) same).1
    | _ => cases same
  | union targets =>
    cases right with
    | union members =>
      refine rule_union (flat targets (.inl rfl)) (flat members (.inr rfl)) fun member hm => ?_
      obtain ⟨target, ht, hs⟩ := exists_of_mem_right (sameAs_iff.mp same).2 hm
      exact ⟨target, ht, (alike target ht member hm hs).1⟩
    | _ => cases same
  | tuple elements =>
    cases right with
    | tuple others =>
      exact rule_tuple (forall₂_imp_of_mem (sameAs_iff.mp same).2 fun part hp other ho hs =>
        (alike part hp other ho hs).1)
    | _ => cases same
  | object fields =>
    cases right with
    | object others =>
      obtain ⟨heads, all⟩ := sameFields_iff.mp same
      refine rule_object (distinct others rfl) (forall₂_imp_of_mem (forall₂_fields heads all)
        fun entry he other ho both => ⟨both.1, ?_⟩)
      exact (alike _ (mem_map_of_mem he) _ (mem_map_of_mem ho) both.2).1
    | _ => cases same
  | indexer key value =>
    cases right with
    | indexer otherKey otherValue =>
      simp only [sameAs, Bool.and_eq_true] at same
      simp only [subsumesByRule, sameShapeSubsumes, Inquiry.answer_bind]
      rw [(alike key (by simp [parts]) otherKey (by simp [parts]) same.1).1, if_pos rfl]
      exact (alike value (by simp [parts]) otherValue (by simp [parts]) same.2).1
    | _ => cases same
  | func typeParams params result =>
    cases right with
    | func otherTypeParams others other =>
      simp only [sameAs, Bool.and_eq_true] at same
      have accepts := paramsAccept_of_sameSlots same.1.2
        (fun part hp other ho hs => (alike part (by simp [parts, hp]) other (by simp [parts, ho]) hs).2)
        missing
      simp only [subsumesByRule, sameShapeSubsumes, Inquiry.answer_bind]
      rw [accepts, if_pos rfl]
      exact (alike result (by simp [parts]) other (by simp [parts]) same.2).1
    | _ => cases same
  | proc typeParams params =>
    cases right with
    | proc otherTypeParams others =>
      simp only [sameAs, Bool.and_eq_true] at same
      exact paramsAccept_of_sameSlots same.2
        (fun part hp other ho hs => (alike part (by simp [parts, hp]) other (by simp [parts, ho]) hs).2)
        missing
    | _ => cases same

/-- Types fit exactly if what they stand for does. -/
theorem subsumesStep_eq (clear : NamedClearly imports roots)
    (agree : Agree imports roots (height + otherHeight + 1) sub full)
    (hd : Opened imports roots height destination replace)
    (hv : Opened imports roots otherHeight value change) :
    (subsumesStep sub destination value).answer imports =
      (subsumesStep full (destination.mapParts replace)
        (value.mapParts change)).answer imports := by
  have byRule := subsumesByRule_eq clear agree hd hv
  unfold subsumesStep
  by_cases hs : destination.sameAs value = true
  · rw [if_pos hs, if_pos (sameAs_full clear hd.whole hv.whole hs)]
  rw [if_neg hs]
  by_cases hf : (destination.mapParts replace).sameAs (value.mapParts change) = true
  swap
  · rw [if_neg hf, byRule]
  -- The full types are alike and the written ones are not. So there are parts that are
  -- written in different ways, and the rules go down to these.
  rw [if_pos hf, byRule]
  refine subsumesByRule_of_sameAs hf ?_ ?_ ?_ ?_ (agree.alike rfl rfl rfl) ?_ ?_
  · intro none
    rw [parts_mapParts, map_eq_nil_iff] at none
    have too : value.parts = [] := by
      have hl := (sameAs_iff.mp hf).2.length_eq
      simpa [none] using hl.symm
    rw [mapParts_eq_self none, mapParts_eq_self too] at hf
    exact hs hf
  · rw [isNamed_mapParts, hd.not_named]
  · by_contra sealed
    have hl : destination.isSealed = true := by simpa using sealed
    have hr : value.isSealed = true := by
      rw [← isSealed_mapParts change, ← isSealed_of_sameAs hf, isSealed_mapParts, hl]
    exact hs (clear.one_spelling hd.whole.met hv.whole.met hl hr hd.whole.stands hv.whole.stands hf)
  · rw [parts_mapParts, parts_mapParts]
    intro part hp other ho same
    obtain ⟨first, hfirst, rfl⟩ := mem_map.mp hp
    obtain ⟨second, hsecond, rfl⟩ := mem_map.mp ho
    have hn := (hd.parts first hfirst).isNamed_full
    have hm := (hv.parts second hsecond).isNamed_full
    exact ⟨agree.alike hn hm same, agree.alike hm hn (sameAs_symm _ _ same)⟩
  · rintro members (hu | hu)
    · exact hd.isUnion_of_union clear hu
    · exact hv.isUnion_of_union clear hu
  · intro fields ho
    cases value with
    | object entries =>
      cases ho
      simpa [Function.comp_def] using clear.distinct_entries hv.whole.met
    | _ => cases ho

end Step

end Ty

end ScriptCheck
