import ScriptCheck.Proofs.Comparison

/-!
# Acceptance without end

A comparison of names that is under way is taken to hold, so subsumption is a way of finding out
whether types are related by some relation that every step of a comparison goes on from: the
greatest such relation is acceptance. Where names mean one thing, a yes of subsumption means
acceptance, and acceptance means a yes unless comparisons nest too deep. Laws of subsumption can
therefore be shown for acceptance, where nothing is under way and nothing is too deep.
-/

namespace ScriptCheck.Ty

open List

variable {view : View} {type destination value left right : Ty}
  {related other : Ty → Ty → Prop} {sub also : Ty → Ty → Inquiry Bool}

/-- How the sides of a comparison are seen. -/
structure View where
  /-- How scripts import each other. -/
  imports : Imports
  /-- Whether type parameters are seen through to their bounds. -/
  throughGenerics : Bool

/-- A side of a comparison as it is seen through names and, where that is asked for, type
parameters. -/
def side (view : View) (type : Ty) : Ty :=
  (type.resolveSide view.throughGenerics).answer view.imports

/-- What comparisons come to corresponds to itself. -/
theorem corresponds_self (own : ∀ part ∈ type.compared, related part part) :
    Corresponds related type type := by
  have all : ∀ parts : List Ty, parts ⊆ type.compared → Forall₂ related parts parts :=
    fun parts inside => forall₂_same.mpr fun part hp => own part (inside hp)
  have slots : ∀ params : List (Slot Ty), params.map Slot.typeOrUnknown ⊆ type.compared →
      Forall₂ (Slot.Corresponds related) params params :=
    fun params inside => forall₂_same.mpr fun slot hs => own _ (inside (mem_map_of_mem hs))
  cases type with
  | union members => exact .union (all _ (by simp [compared])) (all _ (by simp [compared]))
  | tuple elements => exact .tuple (all _ (List.Subset.refl _))
  | object fields =>
    refine .object (forall₂_same.mpr fun field hf => ⟨rfl, rfl, own _ ?_, own _ ?_⟩)
    · exact mem_append_left _ (mem_map_of_mem hf)
    · exact mem_append_right _ (mem_map_of_mem hf)
  | indexer key value => exact .indexer (own _ (by simp [compared])) (own _ (by simp [compared]))
  | func typeParams params result =>
    exact .func _ _ (slots params (by simp [compared])) (own _ (by simp [compared]))
  | proc typeParams params => exact .proc _ _ (slots params (List.Subset.refl _))
  | generic name bound =>
    cases bound with
    | none => exact .free name name
    | some bound => exact .bounded name name (own _ (by simp [compared]))
  | array inner | iterator inner | plan inner | readonly inner =>
    constructor
    exact own inner mem_cons_self
  | literal value => cases value <;> constructor
  | string | number | boolean | nil | unknown | any | escape | named | nominal | store => constructor

/-- A yes to one step stays a yes if more types inside are taken to fit. -/
theorem subsumesStep_mono
    (more : ∀ {part member : Ty}, (sub part member).answer view.imports = true →
      (also part member).answer view.imports = true)
    (yes : (subsumesStep sub destination value).answer view.imports = true) :
    (subsumesStep also destination value).answer view.imports = true := by
  unfold subsumesStep at yes ⊢
  split
  · rfl
  · next apart =>
    rw [if_neg apart] at yes
    have self (type : Ty) : Corresponds Eq type type := corresponds_self fun _ _ => rfl
    refine subsumesByRule_carried (self destination) (self value) ⟨?_, ?_, ?_, ?_⟩ yes
    · rintro _ _ _ _ rfl rfl
      exact more
    · rintro _ _ _ _ rfl rfl
      exact more
    · rintro _ _ - - rfl
      exact more
    · rintro _ _ - - rfl
      exact more

open Classical in
/-- The comparison whose answers a relation gives. -/
noncomputable def asked (related : Ty → Ty → Prop) (destination value : Ty) : Inquiry Bool :=
  return decide (related destination value)

@[simp] theorem answer_asked : (asked related destination value).answer view.imports = true ↔
    related destination value := by
  simp [asked]

/-- One step of comparing two types, as they are seen, is a yes if related types inside them are
taken to fit. -/
def GoesOn (view : View) (related : Ty → Ty → Prop) (destination value : Ty) : Prop :=
  (subsumesStep (asked related) (destination.side view)
    (value.side view)).answer view.imports = true

/-- A step is a yes where the types, as they are seen, are alike or a rule says so. -/
theorem goesOn_iff (hd : destination.side view = left) (hv : value.side view = right) :
    GoesOn view related destination value ↔ left.sameAs right = true ∨
      (subsumesByRule (asked related) left right).answer view.imports = true := by
  rw [GoesOn, hd, hv, subsumesStep]
  split
  · simp_all
  · simp_all

theorem GoesOn.mono (goes : GoesOn view related destination value)
    (more : ∀ {part member}, related part member → other part member) :
    GoesOn view other destination value :=
  subsumesStep_mono (fun yes => answer_asked.mpr (more (answer_asked.mp yes))) goes

/-- The one type accepts the other: they are related by a relation that every step of a
comparison goes on from. -/
def Accepts (view : View) (destination value : Ty) : Prop :=
  ∃ related : Ty → Ty → Prop, related destination value ∧ ∀ {part member}, related part member →
    GoesOn view related part member

theorem Accepts.goesOn (accepts : Accepts view destination value) :
    GoesOn view (Accepts view) destination value := by
  obtain ⟨related, holds, goes⟩ := accepts
  exact (goes holds).mono fun inner => ⟨related, inner, goes⟩

/-- What is related by a relation that every step goes on from, to types that it relates or that
accept each other, is accepted. -/
theorem accepts_of_goesOn (related : Ty → Ty → Prop)
    (goes : ∀ {part member}, related part member → GoesOn view
      (fun part member => related part member ∨ Accepts view part member)
      part member)
    (holds : related destination value) : Accepts view destination value := by
  refine ⟨fun part member => related part member ∨ Accepts view part member,
    .inl holds, fun either => ?_⟩
  rcases either with inner | accepts
  · exact goes inner
  · exact accepts.goesOn.mono .inr

/-- Without seeing through type parameters, a side is what is seen through its name. -/
theorem side_false (imports : Imports) (type : Ty) :
    type.side ⟨imports, false⟩ = type.expand.answer imports := by
  rw [side, resolveSide_false]

theorem accepts_iff_goesOn : Accepts view destination value ↔
    GoesOn view (Accepts view) destination value := by
  refine ⟨Accepts.goesOn, fun goes => ?_⟩
  exact accepts_of_goesOn (GoesOn view (Accepts view)) (fun inner => inner.mono .inr) goes

/-- A family of types that holds what comparing its types comes to, and in which types that
cannot be told apart are seen as types that cannot be told apart: names mean one thing. -/
structure OneMeaning (view : View) (family : Ty → Prop) : Prop where
  /-- It holds what comparisons come to. -/
  compared {type part : Ty} : family type → part ∈ type.compared → family part
  /-- It holds what its types are seen as. -/
  seen {type : Ty} : family type → family (type.side view)
  /-- Types that cannot be told apart are seen as such types. -/
  like {left right : Ty} : family left → family right → Like left right →
    Like (left.side view) (right.side view)

section Family

variable {family : Ty → Prop} (meaning : OneMeaning view family)
include meaning

/-- A family holds both types that comparing two of its types comes to. -/
theorem OneMeaning.asks (asks : Asks destination value part member) (hd : family destination)
    (hv : family value) : family part ∧ family member := by
  cases asks with
  | inner hp hm => exact ⟨meaning.compared hd hp, meaning.compared hv hm⟩
  | swapped hp hm => exact ⟨meaning.compared hv hm, meaning.compared hd hp⟩
  | inLeft hp => exact ⟨meaning.compared hd hp, hv⟩
  | inRight hm => exact ⟨hd, meaning.compared hv hm⟩

/-- A yes to one step is carried over to types of a family that cannot be told apart. -/
theorem OneMeaning.step (hd : family destination) (hv : family value) (hl : family left)
    (hr : family right) (destinations : Like destination left) (values : Like value right)
    (carry : ∀ {part member leftPart rightPart : Ty}, family part → family member →
      family leftPart → family rightPart → Like part leftPart → Like member rightPart →
      (sub part member).answer view.imports = true → (also leftPart rightPart).answer view.imports = true)
    (yes : (subsumesStep sub (destination.side view)
      (value.side view)).answer view.imports = true) : (subsumesStep also (left.side view)
      (right.side view)).answer view.imports = true := by
  refine subsumesStep_like (meaning.like hd hl destinations) (meaning.like hv hr values)
    (fun asks asked => ?_) yes
  obtain ⟨hp, hm⟩ := meaning.asks asks (meaning.seen hd) (meaning.seen hv)
  obtain ⟨hlp, hrp⟩ := meaning.asks asked (meaning.seen hl) (meaning.seen hr)
  exact carry hp hm hlp hrp

/-- What is accepted is so for types that cannot be told apart. -/
theorem Accepts.like (accepts : Accepts view destination value)
    (hd : family destination) (hv : family value) (hl : family left) (hr : family right)
    (destinations : Like destination left) (values : Like value right) :
    Accepts view left right := by
  refine accepts_of_goesOn (fun left right => ∃ destination value,
    (family destination ∧ family value ∧ family left ∧ family right) ∧ Like destination left ∧
      Like value right ∧ Accepts view destination value) ?_
    ⟨destination, value, ⟨hd, hv, hl, hr⟩, destinations, values, accepts⟩
  rintro left right ⟨destination, value, ⟨hd, hv, hl, hr⟩, destinations, values, accepts⟩
  refine meaning.step hd hv hl hr destinations values ?_ accepts.goesOn
  intro part member leftPart rightPart hp hm hlp hrp parts members yes
  exact answer_asked.mpr
    (.inl ⟨part, member, ⟨hp, hm, hlp, hrp⟩, parts, members, answer_asked.mp yes⟩)

end Family

section Pending

/-- Comparisons that are under way inside each other, each of which goes on to a yes with itself
and the earlier ones under way. -/
inductive Underway (view : View) (family : Ty → Prop) : List (Ty × Ty) → Prop
  | none : Underway view family []
  | next {destination value : Ty} {pending : List (Ty × Ty)} {limit : Nat} :
      Underway view family pending → family destination → family value →
      (subsumesStep (subsumesWithin view.throughGenerics limit ((destination, value) :: pending))
        (destination.side view)
        (value.side view)).answer view.imports = true →
      Underway view family ((destination, value) :: pending)

variable {family : Ty → Prop} {pending : List (Ty × Ty)} {limit : Nat}

/-- What is under way goes on to a yes. -/
theorem Underway.exists_step (underway : Underway view family pending) (hp : pair ∈ pending) :
    ∃ limit others, Underway view family others ∧ family pair.1 ∧
      family pair.2 ∧ (subsumesStep (subsumesWithin view.throughGenerics limit others)
        (pair.1.side view)
        (pair.2.side view)).answer view.imports = true := by
  induction underway with
  | none => cases hp
  | next before hd hv yes ih =>
    rcases mem_cons.mp hp with rfl | hp
    · exact ⟨_, _, .next before hd hv yes, hd, hv, yes⟩
    · exact ih hp

/-- A yes goes on to a yes of types that cannot be told apart from the given ones, with other
comparisons under way or the same ones. -/
theorem exists_step_of_subsumesWithin (underway : Underway view family pending)
    (hd : family destination) (hv : family value)
    (yes : (subsumesWithin view.throughGenerics limit pending destination value).answer view.imports = true) :
    ∃ limit others left right, Underway view family others ∧ family left ∧
      family right ∧ Like left destination ∧ Like right value ∧
      (subsumesStep (subsumesWithin view.throughGenerics limit others) (left.side view)
        (right.side view)).answer view.imports = true := by
  cases limit with
  | zero => cases yes
  | succ limit =>
    rw [subsumesWithin] at yes
    split at yes
    · next known =>
      simp only [Bool.and_eq_true, any_eq_true] at known
      obtain ⟨-, pair, hp, same, too⟩ := known
      obtain ⟨limit, others, under, hl, hr, step⟩ := underway.exists_step hp
      exact ⟨limit, others, pair.1, pair.2, under, hl, hr, .of_sameAs same, .of_sameAs too, step⟩
    · rw [Inquiry.answer_bind, Inquiry.answer_bind] at yes
      refine ⟨limit, _, destination, value, ?_, hd, hv, .refl _, .refl _, yes⟩
      split
      · next named =>
        rw [if_pos named] at yes
        exact .next underway hd hv yes
      · exact underway

/-- A yes of subsumption means acceptance where names mean one thing. -/
theorem accepts_of_subsumesWithin (meaning : OneMeaning view family)
    (underway : Underway view family pending) (hd : family destination)
    (hv : family value)
    (yes : (subsumesWithin view.throughGenerics limit pending destination value).answer view.imports = true) :
    Accepts view destination value := by
  refine accepts_of_goesOn (fun destination value => ∃ limit pending left right,
    Underway view family pending ∧
      (family left ∧ family right ∧ family destination ∧ family value) ∧ Like left destination ∧
      Like right value ∧
      (subsumesWithin view.throughGenerics limit pending left right).answer view.imports = true) ?_
    ⟨limit, pending, destination, value, underway, ⟨hd, hv, hd, hv⟩, .refl _, .refl _, yes⟩
  rintro destination value
    ⟨limit, pending, left, right, underway, ⟨hl, hr, hd, hv⟩, lefts, rights, yes⟩
  obtain ⟨limit, others, first, second, under, hf, hs, firsts, seconds, step⟩ :=
    exists_step_of_subsumesWithin underway hl hr yes
  refine meaning.step hf hs hd hv (firsts.trans lefts) (seconds.trans rights) ?_ step
  intro part member leftPart rightPart hp hm hlp hrp parts members yes
  exact answer_asked.mpr
    (.inl ⟨limit, others, part, member, under, ⟨hp, hm, hlp, hrp⟩, parts, members, yes⟩)

end Pending

section Depth

/-- Subsumption within a limit, with the given answer where comparisons nest deeper. -/
def subsumesUpTo (beyond throughGenerics : Bool) : Nat → List (Ty × Ty) → Ty → Ty → Inquiry Bool
  | 0, _, _, _ => return beyond
  | limit + 1, pending, destination, value =>
    let byName := destination.isNamed || value.isNamed
    if byName && pending.any fun pair => pair.1.sameAs destination && pair.2.sameAs value then
      return true
    else do
      let destinationSide ← destination.resolveSide throughGenerics
      let valueSide ← value.resolveSide throughGenerics
      let underWay := if byName then (destination, value) :: pending else pending
      subsumesStep (subsumesUpTo beyond throughGenerics limit underWay) destinationSide valueSide

theorem subsumesUpTo_false (throughGenerics : Bool) (limit : Nat) :
    subsumesUpTo false throughGenerics limit = subsumesWithin throughGenerics limit := by
  induction limit with
  | zero => rfl
  | succ limit ih =>
    funext pending destination value
    rw [subsumesUpTo, subsumesWithin, ih]

/-- Comparing the types does not nest so deep that the limit decides: the answer is the same
whether what lies deeper is taken to fail or to hold. -/
def Shallow (view : View) (destination value : Ty) : Prop :=
  (subsumesUpTo true view.throughGenerics comparisonLimit [] destination value).answer view.imports =
    (subsumesUpTo false view.throughGenerics comparisonLimit [] destination value).answer view.imports

/-- What is accepted is subsumed, if what lies too deep is taken to hold. -/
theorem Accepts.subsumesUpTo (accepts : Accepts view destination value)
    (limit : Nat) (pending : List (Ty × Ty)) :
    (subsumesUpTo true view.throughGenerics limit pending destination value).answer view.imports = true := by
  induction limit generalizing pending destination value with
  | zero => rfl
  | succ limit ih =>
    rw [Ty.subsumesUpTo]
    split
    · rfl
    · rw [Inquiry.answer_bind, Inquiry.answer_bind]
      exact subsumesStep_mono (fun inner => ih (answer_asked.mp inner) _) accepts.goesOn

/-- What is accepted is subsumed, unless comparisons nest too deep. -/
theorem Accepts.subsumes (accepts : Accepts view destination value)
    (shallow : Shallow view destination value) :
    (destination.subsumes value view.throughGenerics).answer view.imports = true := by
  have yes := accepts.subsumesUpTo comparisonLimit []
  rw [shallow, subsumesUpTo_false] at yes
  exact yes

/-- A yes of subsumption means acceptance where names mean one thing. -/
theorem OneMeaning.accepts (meaning : OneMeaning view family) (hd : family destination)
    (hv : family value)
    (yes : (destination.subsumes value view.throughGenerics).answer view.imports = true) :
    Accepts view destination value :=
  accepts_of_subsumesWithin meaning .none hd hv yes

end Depth

end ScriptCheck.Ty
