import ScriptCheck.Proofs.UnionLaws

/-!
# Subsumption is transitive on plain types

What accepts a type that accepts a third type accepts the third. Unions and readonly types are
taken apart first: every member that has to be accepted is accepted by a member on the way. Among
the types that are left, those of the same kind are compared inside, where the argument repeats,
with the direction changed for parameters.
-/

namespace ScriptCheck.Ty

open List Inquiry

/-- The ways in which types that are neither unions nor readonly fit without being alike,
given which types inside them fit. -/
inductive Widens (fits : Ty → Ty → Prop) : Ty → Ty → Prop
  | number (value : Number) : Widens fits .number (.literal (.number value))
  | string (value : String) : Widens fits .string (.literal (.string value))
  | boolean (value : Bool) : Widens fits .boolean (.literal (.boolean value))
  | func {params others : List (Slot Ty)} {result other : Ty}
      (typeParams otherTypeParams : List (Slot Ty)) : others.length ≤ params.length →
      (∀ pair ∈ others.zip params, fits pair.1.typeOrUnknown pair.2.typeOrUnknown) →
      fits result other → Widens fits (.func typeParams params result) (.func otherTypeParams others other)
  | proc {params others : List (Slot Ty)} (typeParams otherTypeParams : List (Slot Ty)) :
      others.length ≤ params.length →
      (∀ pair ∈ others.zip params, fits pair.1.typeOrUnknown pair.2.typeOrUnknown) →
      Widens fits (.proc typeParams params) (.proc otherTypeParams others)
  | array {element other : Ty} : fits element other → Widens fits (.array element) (.array other)
  | items {element : Ty} {others : List Ty} : (∀ other ∈ others, fits element other) →
      Widens fits (.array element) (.tuple others)
  | tuple {elements others : List Ty} : elements.length = others.length →
      (∀ pair ∈ elements.zip others, fits pair.1 pair.2) →
      Widens fits (.tuple elements) (.tuple others)
  | object {fields others : List (Field Ty)} : (∀ wanted ∈ fields, ∃ found,
        others.find? (·.name == wanted.name) = some found ∧ fits wanted.type found.type) →
      Widens fits (.object fields) (.object others)
  | iterator {inner other : Ty} : fits inner other → Widens fits (.iterator inner) (.iterator other)
  | plan {inner other : Ty} : fits inner other → Widens fits (.plan inner) (.plan other)

variable {view : View} {type destination value inner member first second third : Ty}
  {related : Ty → Ty → Prop}

/-- Plain types are concrete throughout. -/
theorem IsPlain.concrete (plain : IsPlain type) : Throughout isConcrete type := by
  obtain ⟨height, hp⟩ := plain
  induction height generalizing type with
  | zero => cases hp
  | succ height ih =>
    refine .intro ?_ fun part hm => ih (isPlainWithin_of_mem_compared hp hm)
    have hk := (isPlainWithin_succ_iff.mp hp).1
    cases type with
    | unknown | any | escape | named | generic => cases hk
    | _ => rfl

theorem IsPlain.side (plain : IsPlain type) : type.side view = type :=
  side_of_open (isOpen_of_concrete (throughout_iff.mp plain.concrete).1)

/-- What is accepted is so for plain types that cannot be told apart. -/
theorem Accepts.of_like (accepts : Accepts view destination value) (hd : IsPlain destination)
    (hv : IsPlain value) (hl : IsPlain left) (hr : IsPlain right)
    (destinations : Like destination left) (values : Like value right) : Accepts view left right :=
  accepts.like clearSides_clear.toOneMeaning hd.concrete.clear hv.concrete.clear
    hl.concrete.clear hr.concrete.clear destinations values

theorem accepts_of_sameAs (hd : IsPlain destination) (hv : IsPlain value)
    (same : destination.sameAs value = true) : Accepts view destination value :=
  clearSides_clear.accepts_of_sameAs hd.concrete.clear hv.concrete.clear same

theorem paramsAccept_asked :
    (paramsAccept (asked related) params others).answer view.imports = true ↔
      others.length ≤ params.length ∧ ∀ pair ∈ others.zip params,
        related pair.1.typeOrUnknown pair.2.typeOrUnknown := by
  unfold paramsAccept
  split
  · rename_i hl
    simp [hl, answer_allM]
  · rename_i hl
    simp [hl]

/-- An entry that is not optional is accepted when there is one of its name that it is related
to. -/
theorem entryAccepts_asked {others : List (Field Ty)} (required : wanted.optional = false)
    (present : ∀ found ∈ others, found.optional = false) :
    (entryAccepts (asked related) wanted (others.find? (·.name == wanted.name))).answer
        view.imports = true ↔
      ∃ found, others.find? (·.name == wanted.name) = some found ∧
        related wanted.type found.type := by
  cases hf : others.find? (·.name == wanted.name) with
  | none => simp [entryAccepts, required]
  | some found => simp [entryAccepts, present found (mem_of_find?_eq_some hf)]

section Solid

variable (hd : IsPlain destination) (hv : IsPlain value)
include hd hv

/-- Plain types of the same shape go on in the ways that are listed. -/
theorem sameShapeSubsumes_asked :
    (sameShapeSubsumes (asked related) destination value).answer view.imports = true →
      Widens related destination value := by
  have kind := hd.kind
  have otherKind := hv.kind
  fun_cases sameShapeSubsumes (asked related) destination value
  case case1 =>
    simp only [answer_bind]
    intro yes
    split at yes
    · rename_i accepts
      obtain ⟨hl, all⟩ := paramsAccept_asked.mp accepts
      exact .func _ _ hl all (answer_asked.mp yes)
    · cases yes
  case case2 =>
    intro yes
    obtain ⟨hl, all⟩ := paramsAccept_asked.mp yes
    exact .proc _ _ hl all
  case case3 => exact fun yes => .array (answer_asked.mp yes)
  case case4 =>
    simp only [answer_allM, all_eq_true, answer_asked]
    exact .items
  case case5 hl =>
    simp only [answer_allM, all_eq_true, answer_asked]
    exact .tuple hl
  case case7 fields others =>
    have required : ∀ field ∈ fields, field.optional = false := by simpa [isPlainKind] using kind
    have present : ∀ field ∈ others, field.optional = false := by simpa [isPlainKind] using otherKind
    simp only [answer_allM, all_eq_true]
    intro yes
    exact .object fun wanted hw => (entryAccepts_asked (required wanted hw) present).mp (yes wanted hw)
  case case8 | case9 => cases kind
  case case10 => exact fun yes => .iterator (answer_asked.mp yes)
  case case11 => exact fun yes => .plan (answer_asked.mp yes)
  case case12 => cases otherKind
  case case6 | case13 => exact nofun

/-- Plain types that are neither unions nor readonly and go on are alike or go on in one of the
ways that are listed. -/
theorem GoesOn.widens (hdu : destination.isUnion = false) (hdr : destination.isReadonly = false)
    (hvu : value.isUnion = false) (goes : GoesOn view related destination value) :
    destination.sameAs value = true ∨ Widens related destination value := by
  have kind := hd.kind
  have otherKind := hv.kind
  refine ((goesOn_iff hd.side hv.side).mp goes).imp_right ?_
  fun_cases subsumesByRule (asked related) destination value
  case case1 | case3 => cases kind
  case case2 | case4 | case5 => cases otherKind
  case case6 => exact fun _ => .number _
  case case7 => exact fun _ => .string _
  case case8 => exact fun _ => .boolean _
  case case9 | case10 => cases hdu
  case case11 | case12 => cases hdr
  case case13 => exact (absurd · Bool.false_ne_true)
  case case14 => cases hvu
  case case15 => exact sameShapeSubsumes_asked hd hv

/-- Plain types go on in the ways that are listed. -/
theorem Widens.goesOn (widens : Widens related destination value) :
    GoesOn view related destination value := by
  refine (goesOn_iff hd.side hv.side).mpr (.inr ?_)
  cases widens with
  | number | string | boolean => rfl
  | func _ _ hl all result =>
    have accepts : (paramsAccept (asked related) _ _).answer view.imports = true :=
      paramsAccept_asked.mpr ⟨hl, all⟩
    simp [subsumesByRule, sameShapeSubsumes, accepts, result]
  | proc _ _ hl all => exact paramsAccept_asked.mpr ⟨hl, all⟩
  | array inner | iterator inner | plan inner => exact answer_asked.mpr inner
  | items all => simpa [subsumesByRule, sameShapeSubsumes, answer_allM] using all
  | tuple hl all => simpa [subsumesByRule, sameShapeSubsumes, answer_allM, hl] using all
  | @object fields others all =>
    have required : ∀ field ∈ fields, field.optional = false := by
      simpa [isPlainKind] using hd.kind
    have present : ∀ field ∈ others, field.optional = false := by
      simpa [isPlainKind] using hv.kind
    simp only [subsumesByRule, sameShapeSubsumes, answer_allM, all_eq_true]
    exact fun wanted hw => (entryAccepts_asked (required wanted hw) present).mpr (all wanted hw)

end Solid

section Transitivity

/-- The second type stands between the others: the first accepts it, and it accepts the third. -/
structure Between (view : View) (first second third : Ty) : Prop where
  plain_first : IsPlain first
  plain_second : IsPlain second
  plain_third : IsPlain third
  accepts : Accepts view first second
  accepts_third : Accepts view second third

/-- Some type stands between two others. -/
def Through (view : View) (first third : Ty) : Prop := ∃ second, Between view first second third

/-- Relations between the pairs of two lists compose, if they do for the items. -/
theorem forall_zip_trans {related whole : α → α → Prop} {firsts seconds thirds : List α}
    (hl : firsts.length ≤ seconds.length)
    (all : ∀ pair ∈ firsts.zip seconds, related pair.1 pair.2)
    (too : ∀ pair ∈ seconds.zip thirds, related pair.1 pair.2)
    (trans : ∀ first ∈ firsts, ∀ second ∈ seconds, ∀ third ∈ thirds,
      related first second → related second third → whole first third) :
    ∀ pair ∈ firsts.zip thirds, whole pair.1 pair.2 := by
  induction firsts generalizing seconds thirds with
  | nil => simp
  | cons first firsts ih =>
    cases seconds with
    | nil => cases hl
    | cons second seconds =>
      cases thirds with
      | nil => simp
      | cons third thirds =>
        intro pair hp
        rcases mem_cons.mp hp with rfl | hp
        · exact trans first (by simp) second (by simp) third (by simp)
            (all (first, second) (by simp)) (too (second, third) (by simp))
        · refine ih (Nat.le_of_succ_le_succ hl) (fun pair hp => all pair (by simp [hp]))
            (fun pair hp => too pair (by simp [hp])) ?_ pair hp
          intro first hf second hs third ht
          exact trans first (by simp [hf]) second (by simp [hs]) third (by simp [ht])

section

variable (hf : IsPlain first) (hs : IsPlain second) (ht : IsPlain third)
include hf hs ht

/-- A type inside the second of three plain types stands between types inside the others. -/
theorem through_inside (hl : left ∈ first.compared) (hm : middle ∈ second.compared)
    (hr : right ∈ third.compared) (accepts : Accepts view left middle)
    (too : Accepts view middle right) : Through view left right :=
  ⟨middle, hf.of_mem_compared hl, hs.of_mem_compared hm, ht.of_mem_compared hr, accepts, too⟩

/-- The parameters of plain types compose, from the last type to the first. -/
theorem through_params {params others rest : List (Slot Ty)}
    (hp : params.map Slot.typeOrUnknown ⊆ first.compared)
    (ho : others.map Slot.typeOrUnknown ⊆ second.compared)
    (hr : rest.map Slot.typeOrUnknown ⊆ third.compared) (hl : rest.length ≤ others.length)
    (all : ∀ pair ∈ others.zip params, Accepts view pair.1.typeOrUnknown pair.2.typeOrUnknown)
    (too : ∀ pair ∈ rest.zip others, Accepts view pair.1.typeOrUnknown pair.2.typeOrUnknown) :
    ∀ pair ∈ rest.zip params, Through view pair.1.typeOrUnknown pair.2.typeOrUnknown :=
  @forall_zip_trans _ (fun slot other => Accepts view slot.typeOrUnknown other.typeOrUnknown)
    (fun slot other => Through view slot.typeOrUnknown other.typeOrUnknown) _ _ _ hl too all
    fun _ hlast _ hother _ hslot => through_inside ht hs hf (hr (mem_map_of_mem hlast))
      (ho (mem_map_of_mem hother)) (hp (mem_map_of_mem hslot))

/-- The ways in which types go on compose. -/
theorem Widens.trans (widens : Widens (Accepts view) first second)
    (too : Widens (Accepts view) second third) : Widens (Through view) first third := by
  have inside {left middle right : Ty} := @through_inside view _ _ _ hf hs ht left middle right
  cases widens with
  | number | string | boolean => cases too
  | func _ _ hl all result =>
    cases too with
    | func _ _ hlo allo resulto =>
      exact .func _ _ (Nat.le_trans hlo hl) (through_params hf hs ht (subset_cons_self _ _)
        (subset_cons_self _ _) (subset_cons_self _ _) hlo all allo)
        (inside mem_cons_self mem_cons_self mem_cons_self result resulto)
  | proc _ _ hl all =>
    cases too with
    | proc _ _ hlo allo =>
      exact .proc _ _ (Nat.le_trans hlo hl) (through_params hf hs ht (List.Subset.refl _)
        (List.Subset.refl _) (List.Subset.refl _) hlo all allo)
  | array inner =>
    cases too with
    | array other => exact .array (inside mem_cons_self mem_cons_self mem_cons_self inner other)
    | items all =>
      exact .items fun other ho => inside mem_cons_self mem_cons_self ho inner (all other ho)
  | @items element others all =>
    cases too with
    | @tuple _ rest hl allo =>
      refine .items fun last hlast => ?_
      have each := forall₂_iff_zip.mpr ⟨hl, fun {other last} hp => allo (other, last) hp⟩
      obtain ⟨other, ho, accepts⟩ := exists_of_mem_right each hlast
      exact inside mem_cons_self ho hlast (all other ho) accepts
  | tuple hl all =>
    cases too with
    | tuple hlo allo =>
      exact .tuple (hl.trans hlo) (forall_zip_trans (Nat.le_of_eq hl) all allo
        fun _ hfirst _ hsecond _ hthird => inside hfirst hsecond hthird)
  | object all =>
    cases too with
    | object allo =>
      refine .object fun wanted hw => ?_
      obtain ⟨found, hfound, accepts⟩ := all wanted hw
      have hm := mem_of_find?_eq_some hfound
      have hn : found.name = wanted.name := by simpa using find?_some hfound
      obtain ⟨last, hlast, also⟩ := allo found hm
      rw [hn] at hlast
      have entry {fields : List (Field Ty)} {field : Field Ty} (hf : field ∈ fields) :
          field.type ∈ (Ty.object fields).compared := mem_append_left _ (mem_map_of_mem hf)
      exact ⟨last, hlast, inside (entry hw) (entry hm) (entry (mem_of_find?_eq_some hlast))
        accepts also⟩
  | iterator inner =>
    cases too with
    | iterator other =>
      exact .iterator (inside mem_cons_self mem_cons_self mem_cons_self inner other)
  | plan inner =>
    cases too with
    | plan other => exact .plan (inside mem_cons_self mem_cons_self mem_cons_self inner other)

end

/-- A type that is neither a union nor readonly accepts no readonly type. -/
theorem isReadonly_of_accepts (hd : IsPlain destination) (hv : IsPlain value)
    (hu : destination.isUnion = false) (hr : destination.isReadonly = false)
    (accepts : Accepts view destination value) : value.isReadonly = false := by
  have kind := hd.kind
  cases value with
  | readonly inner =>
    have goes := (goesOn_iff hd.side hv.side).mp accepts.goesOn
    cases destination with
    | union => cases hu
    | readonly => cases hr
    | unknown | any | escape | named | generic | indexer => cases kind
    | _ => simp [subsumesByRule, sameAs] at goes
  | _ => rfl

/-- A union goes on with a type that is none if one of its members does. -/
theorem goesOn_union_left_iff (hd : IsPlain (.union targets)) (hv : IsPlain value)
    (hu : value.isUnion = false) : GoesOn view related (.union targets) value ↔
      ∃ target ∈ targets, related target value := by
  have kind := hv.kind
  rw [goesOn_iff hd.side hv.side]
  cases value with
  | union => cases hu
  | unknown | any | escape | named | generic | indexer => cases kind
  | _ => simp [subsumesByRule, answer_anyM, sameAs]

section

variable (between : Between view first second third)
include between

/-- Where the third type is no union, a type that is none stands between. -/
theorem Between.single (hu : third.isUnion = false) :
    ∃ middle, middle.isUnion = false ∧ Between view first middle third := by
  obtain ⟨target, ht, accepts⟩ := exists_target_of_concrete between.plain_third.concrete hu
    between.accepts_third
  exact ⟨target, isUnion_of_mem_flatten ht, between.plain_first,
    between.plain_second.of_mem_flatten ht, between.plain_third,
    between.accepts.of_mem_flatten between.plain_first.concrete between.plain_second.concrete ht,
    accepts⟩

theorem Between.of_mem_flatten (hm : member ∈ third.flatten) : Between view first second member :=
  { between with
    plain_third := between.plain_third.of_mem_flatten hm
    accepts_third := between.accepts_third.of_mem_flatten between.plain_second.concrete
      between.plain_third.concrete hm }

end

/-- What stands between a readonly type and another stands between what is inside, or is readonly
and what is in it does. -/
theorem Between.goesOn_readonly (between : Between view (.readonly inner) second third) :
    GoesOn view (Through view) (.readonly inner) third := by
  obtain ⟨hf, hs, ht, accepts, too⟩ := between
  have hi := hf.of_mem_compared mem_cons_self
  have known : third.side view ≠ .unknown := ht.concrete.known .refl
  cases hsr : second.isReadonly with
  | false =>
    have inside := accepts_inner_of_readonly hs.concrete hsr accepts
    refine Ty.goesOn_readonly hf.side known (fun _ => ?_) fun other ho => ?_
    · exact ⟨second, hi, hs, ht.side.symm ▸ ht, inside, ht.side.symm ▸ too⟩
    · have held : IsPlain other := (ht.side.symm.trans ho ▸ ht).of_mem_compared mem_cons_self
      exact ⟨second, hi, hs, held, inside, too.of_comesTo hs.concrete ht.concrete (.inner ho)⟩
  | true =>
    cases second with
    | readonly middle =>
      have hm := hs.of_mem_compared mem_cons_self
      have both {left right : Ty} (hl : IsPlain (.readonly left)) (hr : IsPlain (.readonly right))
          (accepts : Accepts view (.readonly left) (.readonly right)) : Accepts view left right := by
        rcases (goesOn_iff hl.side hr.side).mp accepts.goesOn with same | yes
        · exact accepts_of_sameAs (hl.of_mem_compared mem_cons_self)
            (hr.of_mem_compared mem_cons_self) same
        · exact answer_asked.mp yes
      refine Ty.goesOn_readonly hf.side known (fun htr => ?_) fun other ho => ?_
      · rw [ht.side] at htr ⊢
        exact ⟨middle, hi, hm, ht, both hf hs accepts,
          accepts_inner_of_readonly ht.concrete htr too⟩
      · rw [ht.side] at ho
        subst ho
        exact ⟨middle, hi, hm, ht.of_mem_compared mem_cons_self, both hf hs accepts, both hs ht too⟩
    | _ => cases hsr

/-- What stands between two types that are neither unions nor readonly is of their kind, or alike
to one of them. -/
theorem Between.goesOn_solid (between : Between view first second third)
    (hfu : first.isUnion = false) (hfr : first.isReadonly = false)
    (hsu : second.isUnion = false) (htu : third.isUnion = false) :
    GoesOn view (fun first third => Through view first third ∨ Accepts view first third)
      first third := by
  obtain ⟨hf, hs, ht, accepts, too⟩ := between
  rcases accepts.goesOn.widens hf hs hfu hfr hsu with same | widens
  · have whole := too.of_like hs ht hf ht (.of_sameAs (sameAs_symm _ _ same)) (.refl third)
    exact whole.goesOn.mono .inr
  have hsr := isReadonly_of_accepts hf hs hfu hfr accepts
  rcases too.goesOn.widens hs ht hsu hsr htu with same | also
  · have whole := accepts.of_like hf hs hf ht (.refl first) (.of_sameAs same)
    exact whole.goesOn.mono .inr
  · exact ((widens.trans hf hs ht also).goesOn hf ht).mono .inl

/-- What stands between two types shows how the one goes on with the other. -/
theorem Between.goesOn (between : Between view first second third) :
    GoesOn view (fun first third => Through view first third ∨ Accepts view first third)
      first third := by
  cases hfr : first.isReadonly with
  | true =>
    cases first with
    | readonly inner => exact between.goesOn_readonly.mono .inl
    | _ => cases hfr
  | false =>
  cases htu : third.isUnion with
  | false =>
    obtain ⟨middle, hsu, between⟩ := between.single htu
    cases first with
    | union targets =>
      obtain ⟨hf, hs, ht, accepts, too⟩ := between
      obtain ⟨target, hm, accepts⟩ := (goesOn_union_left_iff hf hs hsu).mp accepts.goesOn
      have plain := hf.of_mem_compared (mem_append_left _ hm)
      exact (goesOn_union_left_iff hf ht htu).mpr
        ⟨target, hm, .inl ⟨middle, plain, hs, ht, accepts, too⟩⟩
    | _ => exact between.goesOn_solid rfl hfr hsu htu
  | true =>
    cases third with
    | union members =>
      cases hfu : first.isUnion with
      | true =>
        cases first with
        | union targets =>
          refine goesOn_union fun member hm => ?_
          have single := isUnion_of_mem_flattenList hm
          obtain ⟨middle, hsu, between⟩ := (between.of_mem_flatten hm).single single
          obtain ⟨hf, hs, ht, accepts, too⟩ := between
          obtain ⟨target, hm, accepts⟩ := exists_target_of_concrete hs.concrete hsu accepts
          exact ⟨target, hm, .inl ⟨middle, hf.of_mem_flatten hm, hs, ht, accepts, too⟩⟩
        | _ => cases hfu
      | false =>
        obtain ⟨hf, hs, ht, accepts, too⟩ := between
        have within (member : Ty) (hm : member ∈ members) : IsPlain member :=
          ht.of_mem_compared (mem_append_left _ hm)
        have each := (accepts_union_members hs.concrete fun member hm =>
          (within member hm).concrete).1 too
        have parted : first.isOpen = true ∧ first.takesMembers = true := by
          have kind := hf.kind
          cases first with
          | unknown | any | escape | named | generic | indexer => cases kind
          | union => cases hfu
          | readonly => cases hfr
          | _ => exact ⟨rfl, rfl⟩
        refine (goesOn_union_iff_of_takesMembers parted.1 parted.2).mpr fun member hm => ?_
        exact .inl ⟨second, hf, hs, within member hm, accepts, each member hm⟩
    | _ => cases htu

/-- What accepts a type that accepts a third one accepts the third. -/
theorem Between.accepts_trans (between : Between view first second third) :
    Accepts view first third :=
  accepts_of_goesOn (Through view) (fun ⟨_, between⟩ => between.goesOn) ⟨second, between⟩

end Transitivity

section Levels

/-- What is accepted is subsumed, given enough comparisons inside each other. -/
theorem Accepts.subsumesWithin (accepts : Accepts ⟨imports, false⟩ destination value)
    (hd : destination.isPlainWithin height = true) (hv : value.isPlainWithin otherHeight = true)
    (low : height + otherHeight ≤ limit + 1) :
    (subsumesWithin false limit [] destination value).answer imports = true := by
  induction limit generalizing destination value height otherHeight with
  | zero =>
    cases height with
    | zero => cases hd
    | succ height =>
      obtain rfl : otherHeight = 0 := by omega
      cases hv
  | succ limit ih =>
    have goes := accepts.goesOn
    rw [GoesOn, IsPlain.side ⟨height, hd⟩, IsPlain.side ⟨otherHeight, hv⟩] at goes
    rw [subsumesWithin_succ (isNamed_of_isPlainWithin hd) (isNamed_of_isPlainWithin hv)]
    refine subsumesStep_like (.refl _) (.refl _) (fun asks asked hp hm inner => ?_) goes
    obtain ⟨_, _, hpart, hmember, -⟩ := asks.isPlainWithin hd hv
    obtain ⟨first, second, hfirst, hsecond, fewer⟩ := asked.isPlainWithin hd hv
    have accepts := (@answer_asked ⟨imports, false⟩ _ _ _).mp inner
    exact ih (accepts.of_like ⟨_, hpart⟩ ⟨_, hmember⟩ ⟨_, hfirst⟩ ⟨_, hsecond⟩ hp hm) hfirst
      hsecond (by omega)

theorem IsPlain.accepts (hd : IsPlain destination) (hv : IsPlain value)
    (yes : (destination.subsumes value false).answer imports = true) :
    Accepts ⟨imports, false⟩ destination value :=
  clearSides_clear.accepts hd.concrete.clear hv.concrete.clear yes

/-- Subsumption is transitive on plain types: a type that subsumes a second one subsumes
whatever the second one subsumes, as far as types are not too tall to be compared. -/
theorem subsumes_trans
    (hf : first.isPlainWithin height = true) (hs : second.isPlainWithin otherHeight = true)
    (ht : third.isPlainWithin lastHeight = true) (low : height + lastHeight ≤ comparisonLimit)
    (fits : (first.subsumes second false).answer imports = true)
    (too : (second.subsumes third false).answer imports = true) :
    (first.subsumes third false).answer imports = true := by
  have between : Between ⟨imports, false⟩ first second third :=
    ⟨⟨height, hf⟩, ⟨otherHeight, hs⟩, ⟨lastHeight, ht⟩,
      IsPlain.accepts ⟨height, hf⟩ ⟨otherHeight, hs⟩ fits,
      IsPlain.accepts ⟨otherHeight, hs⟩ ⟨lastHeight, ht⟩ too⟩
  exact between.accepts_trans.subsumesWithin hf ht (by omega)

/-- Through a func type with a union in it, a func type with a readonly type and a union fits
one that has neither, and no parameter. -/
theorem callbacks_subsume :
    let pair := Ty.tuple [.numberLiteral (.finite false 1 0), .numberLiteral (.finite true 1 1)]
    let numbers := Ty.union [.array .number, .nil]
    let listing := Ty.union [.readonly (.array (.union [.string, .number])), .union [.nil]]
    let first := Ty.func [] [⟨"pair", some pair⟩] listing
    let second := Ty.func [] [⟨"numbers", some numbers⟩] numbers
    let third := Ty.func [] [] pair
    let imports : Imports := fun _ _ => none
    (first.subsumes second false).answer imports = true ∧
      (second.subsumes third false).answer imports = true ∧
      (third.subsumes first false).answer imports = false ∧
      (first.subsumes third false).answer imports = true := by
  intro pair numbers listing first second third imports
  obtain ⟨hf, hs, ht, fits, too, no⟩ : first.isPlainWithin 6 = true ∧
      second.isPlainWithin 4 = true ∧ third.isPlainWithin 3 = true ∧
      (first.subsumes second false).answer imports = true ∧
      (second.subsumes third false).answer imports = true ∧
      (third.subsumes first false).answer imports = false := by decide +kernel
  exact ⟨fits, too, no, subsumes_trans hf hs ht (by decide) fits too⟩

end Levels

end ScriptCheck.Ty
