import ScriptCheck.Proofs.FreeNames
import ScriptCheck.Proofs.Readings
import ScriptCheck.Proofs.Roots
import ScriptCheck.Program

/-!
# Type parameters of aliases

Seeing through a name puts the arguments in the place of the type parameters of its declaration.
Substituting does not go into bounds, though: a type parameter that a signature in the declared
type uses in the bound of a type parameter of its own is left behind. Where no declaration on the
way does so, nothing is left of the type parameters.
-/

namespace ScriptCheck

open List

namespace Ty

/-- A type parameter remains in a type, bounds included, outside all signatures that declare one
of its name. -/
inductive Remains (name : String) : Ty → Prop
  | own (bound : Option Ty) : Remains name (.generic name bound)
  | inside {type part : Ty} : type.declares name = false → part ∈ type.parts → Remains name part →
      Remains name type

/-- A type parameter occurs in a bound that is still there after substituting: the bound of a type
parameter that a signature declares, or its copy where a type parameter occurs that is not
replaced. -/
inductive LeftInBound (name : String) : Bindings → Ty → Prop
  | copy {bindings : Bindings} {other : String} {bound : Ty} : bindings.lookup other = none →
      bound.Remains name → LeftInBound name bindings (.generic other (some bound))
  | signature {bindings : Bindings} {type bound : Ty} : type.declares name = false →
      bound ∈ type.ownBounds → bound.Remains name → LeftInBound name bindings type
  | inside {bindings : Bindings} {type part : Ty} : type.declares name = false →
      part ∈ type.shownParts → LeftInBound name (type.innerBindings bindings) part →
      LeftInBound name bindings type

variable {imports : Imports} {name : String} {type : Ty} {types : List Ty} {bindings : Bindings}

theorem remains_iff (solid : ∀ bound, type ≠ .generic name bound) :
    type.Remains name ↔ type.declares name = false ∧ ∃ part ∈ type.parts, part.Remains name := by
  constructor
  · intro remains
    cases remains with
    | own bound => exact absurd rfl (solid bound)
    | inside clear hp remains => exact ⟨clear, _, hp, remains⟩
  · rintro ⟨clear, part, hp, remains⟩
    exact .inside clear hp remains

theorem remains_union_iff : Remains name (.union types) ↔ ∃ type ∈ types, type.Remains name := by
  rw [remains_iff (by simp)]
  simp [declares, parts]

/-- What occurs in a union occurs in a type that it is put together from. -/
theorem exists_remains_of_unionOf (remains : (unionOf types).Remains name) :
    ∃ type ∈ types, type.Remains name := by
  have flat : ∀ type : Ty, (∃ member ∈ type.flatten, member.Remains name) ↔ type.Remains name :=
    fun _ => exists_mem_flatten_iff fun _ => remains_union_iff
  obtain ⟨member, hm, remains⟩ := (flat _).mpr remains
  rw [flatten_unionOf, flattenList_eq] at hm
  obtain ⟨type, ht, hm⟩ := mem_flatMap.mp (mem_of_mem_distinct hm)
  exact ⟨type, ht, (flat type).mp ⟨member, hm, remains⟩⟩

/-- What occurs after substituting is left in a bound, was free and is not replaced, or occurs
in what is put in. -/
theorem remains_of_substitute (remains : (type.substitute bindings).Remains name) :
    type.LeftInBound name bindings ∨ type.Free name ∧ bindings.lookup name = none ∨
      ∃ other inner, bindings.lookup other = some inner ∧ inner.Remains name := by
  induction type using parts_induction generalizing bindings with
  | step type ih =>
    by_cases fixed : type.isFixed = true
    · have solid : ∀ bound, type.substitute bindings ≠ .generic name bound := by
        cases type with
        | generic | union => cases fixed
        | _ => exact fun _ => Ty.noConfusion
      have shown : type.shownParts = type.openParts := by
        cases type with
        | generic => cases fixed
        | _ => rfl
      obtain ⟨clear, part, hp, remains⟩ := (remains_iff solid).mp remains
      rw [declares_substitute fixed] at clear
      rw [parts_substitute fixed, mem_append, mem_map] at hp
      rcases hp with hb | ⟨part, hp, rfl⟩
      · exact .inl (.signature clear hb remains)
      · rcases ih part (parts_eq type ▸ mem_append_right _ hp) remains with
          left | ⟨free, kept⟩ | ⟨other, inner, found, remains⟩
        · exact .inl (.inside clear (shown ▸ hp) left)
        · rw [lookup_innerBindings, clear] at kept
          exact .inr (.inl ⟨.inside (by simpa using clear) (shown ▸ hp) free, kept⟩)
        · rw [lookup_innerBindings] at found
          split at found
          · cases found
          · exact .inr (.inr ⟨other, inner, found, remains⟩)
    · cases type with
      | generic other bound =>
        rw [substitute] at remains
        cases found : bindings.lookup other with
        | some inner =>
          rw [found] at remains
          exact .inr (.inr ⟨other, inner, found, remains⟩)
        | none =>
          rw [found] at remains
          cases remains with
          | own => exact .inr (.inl ⟨.own bound, found⟩)
          | inside _ hp remains =>
            cases bound with
            | none => cases hp
            | some bound =>
              cases mem_singleton.mp hp
              exact .inl (.copy found remains)
      | union members =>
        have some_ : ∃ member ∈ members, (member.substitute bindings).Remains name := by
          rw [substitute] at remains
          split at remains
          · next empty =>
            rw [isEmpty_iff.mp empty]
            simpa only [substitute_nil] using remains_union_iff.mp remains
          · simpa [substituteList_eq] using exists_remains_of_unionOf remains
        obtain ⟨member, hm, remains⟩ := some_
        rcases ih member hm remains with left | ⟨free, kept⟩ | inner
        · exact .inl (.inside rfl hm left)
        · exact .inr (.inl ⟨shows_union_iff.mpr ⟨member, hm, free⟩, kept⟩)
        · exact .inr (.inr inner)
      | _ => exact absurd rfl fixed

end Ty

section Lowering

namespace Node

variable {name : String} {node child : Node}

theorem typeParamInScope?_of_mem (linked : node.script.Linked) (hc : child ∈ node.children) :
    child.typeParamInScope? name = (node.ownTypeParam? name).or (node.typeParamInScope? name) :=
  typeParamInScope?_of_parent (script_of_mem_children hc ▸ linked) (linked.parent_of_mem rfl hc)

/-- A signature has the type parameters that are declared for it. -/
theorem any_declaredTypeParams {params : List Node}
    (reads : ∀ param, ∃ read busy, parameter param = parameterType read busy param) :
    (params.filterMap (declaredTypeParam? parameter)).any (·.name == name) =
      params.any (·.isTypeParam name) := by
  have each : ∀ param, (declaredTypeParam? parameter param).any (·.name == name) =
      param.isTypeParam name := by
    intro param
    obtain ⟨read, busy, hr⟩ := reads param
    unfold declaredTypeParam? isTypeParam
    rw [hr, parameterType]
    cases param.form with
    | typeParam declared bound => cases busy.contains param <;> simp
    | _ => rfl
  rw [any_filterMap]
  exact congrArg params.any (funext each)

section Step

variable {read : List Node → Node → Ty} {busy : List Node}

/-- What is free in the type of a type expression is a type parameter in scope there, if this
holds of the type expressions in it. -/
theorem inScope_of_free_lowerStep (linked : node.script.Linked)
    (ih : ∀ busy inner, inner.script = node.script → (read busy inner).Free name →
      (inner.typeParamInScope? name).isSome = true)
    (free : (lowerStep read busy node).Free name) : (node.typeParamInScope? name).isSome = true := by
  -- a node that declares no type parameter of the name passes on what is in scope
  have outward {outer : Node} {id : NodeId} (hs : outer.script = node.script)
      (none : outer.ownTypeParam? name = none) (hi : id ∈ outer.form.children)
      (inner : ((outer.sibling id).typeParamInScope? name).isSome = true) :
      (outer.typeParamInScope? name).isSome = true := by
    rwa [typeParamInScope?_of_mem (hs ▸ linked) (mem_map_of_mem hi), none, Option.none_or] at inner
  have plain {outer : Node} (empty : outer.form.typeParams = []) :
      outer.ownTypeParam? name = none := by
    rw [ownTypeParam?, empty]
    rfl
  have lowered := node.lowered_lowerStep read busy
  generalize lowerStep read busy node = type at lowered free
  cases lowered with
  | leaf fixed _ empty =>
    obtain ⟨-, part, hp, -⟩ := (Ty.shows_iff (by rintro _ _ rfl; cases fixed)).mp free
    rw [Ty.parts_eq, append_eq_nil_iff] at empty
    cases empty.2 ▸ hp
  | inner empty hi => exact outward rfl (plain empty) hi (ih _ _ rfl free)
  | union empty all =>
    obtain ⟨type, ht, free⟩ := Ty.shows_unionOf_iff.mp free
    obtain ⟨id, hi, rfl⟩ := all type ht
    exact outward rfl (plain empty) hi (ih _ _ rfl free)
  | @parameter declared _ hp =>
    obtain ⟨holder, -, own⟩ := exists_of_findSome?_eq_some hp
    have declares := find?_some own
    unfold isTypeParam at declares
    unfold parameterType at free
    split at free
    · next same =>
      rw [same, beq_iff_eq] at declares
      obtain rfl : declared = name := by
        rw [← declares]
        split at free <;> exact Ty.shows_generic_iff.mp free
      rw [hp]
      rfl
    · cases free with | inside _ hp _ => cases hp
  | made fixed _ slots inside =>
    obtain ⟨clear, part, hp, free⟩ := (Ty.shows_iff (by rintro _ _ rfl; cases fixed)).mp free
    have none : node.ownTypeParam? name = none := by
      have clear := clear name mem_cons_self
      rw [Ty.declares_eq, slots, any_declaredTypeParams fun _ => ⟨_, _, rfl⟩, any_eq_false] at clear
      exact find?_eq_none.mpr clear
    obtain ⟨id, hi, rfl | ⟨empty, inner, hm, rfl⟩⟩ := inside part hp
    · exact outward rfl none hi (ih _ _ rfl free)
    · exact outward rfl none hi (@outward (node.sibling id) inner rfl (plain empty) hm (ih _ _ rfl free))

end Step

theorem inScope_of_free_lowerWithin (limit : Nat) (busy : List Node) (linked : node.script.Linked)
    (free : (lowerWithin limit busy node).Free name) : (node.typeParamInScope? name).isSome = true := by
  induction limit generalizing busy node with
  | zero => cases free with | inside _ hp _ => cases hp
  | succ limit ih =>
    exact inScope_of_free_lowerStep linked (fun busy _ hs free => ih busy (hs ▸ linked) free) free

/-- What is free in the type that a declaration names is one of its type parameters. -/
theorem any_params_of_free (rooted : node.script.Rooted) (hn : node ∈ node.script.declarations)
    {params : List (Slot Ty)} (binding : node.namedTypeBinding = .type type params)
    (free : type.Free name) : params.any (·.name == name) = true := by
  unfold namedTypeBinding at binding
  split at binding
  · next declared typeParams value nominal exported hf =>
    cases binding
    have inner : (node.sibling value).lower.Free name := by
      cases nominal with
      | false => exact free
      | true =>
        cases free with
        | inside _ hp free => exact mem_singleton.mp hp ▸ free
    have scope := @inScope_of_free_lowerWithin name (node.sibling value) _ _ rooted.toLinked inner
    have hc : node.sibling value ∈ node.children := mem_map_of_mem (by simp [hf, Form.children])
    have top : node.typeParamInScope? name = none := by
      have whole := rooted.isModule_root
      rw [@typeParamInScope?_of_mem name node.script.rootNode node rooted.toLinked hn, typeParamInScope?,
        ancestors_of_no_parent rooted.parent_root, findSome?_nil, Option.or_none, ownTypeParam?]
      cases hr : node.script.rootNode.form with
      | module => rfl
      | _ => simp [hr, Form.isModule] at whole
    rw [typeParamInScope?_of_mem rooted.toLinked hc, top, Option.or_none, ownTypeParam?, hf,
      find?_isSome] at scope
    rw [typeParamSlots, @any_declaredTypeParams name asTypeParameter _ fun _ => ⟨_, _, rfl⟩, any_eq_true]
    exact scope
  · cases binding
    cases free with | inside _ hp _ => cases hp
  · cases binding
    cases free with | inside _ hp _ => cases hp

end Node

end Lowering

namespace Ty

variable {imports : Imports} {name : String} {type : Ty}

/-- A name is seen through once. -/
inductive Unfolds (imports : Imports) : Ty → Ty → Prop
  | name {called : String} {args : List Ty} {origin : Node} {body : Ty} {params : List (Slot Ty)} :
      (origin.resolveIn called .type).answer imports = .ok (.type body params) →
      Unfolds imports (.named called args origin) (body.substitute (argumentBindings params args))

/-- A type, if it is a named one, stands for a declaration of a script that was read from a text,
and the type parameter is neither left in a bound there nor in the bound of a type parameter that
gets no argument. -/
def Clears (imports : Imports) (name : String) (type : Ty) : Prop :=
  ∀ called args origin body params, type = .named called args origin →
    (origin.resolveIn called .type).answer imports = .ok (.type body params) →
    (∃ (declaration : Node) (path : FilePath) (source : String), parse path source = .ok declaration.script ∧
      declaration ∈ declaration.script.declarations ∧
      declaration.namedTypeBinding = .type body params) ∧
    ¬ body.LeftInBound name (argumentBindings params args) ∧
    ∀ param ∈ params.drop args.length, ¬ param.typeOrUnknown.Remains name

/-- Every type parameter gets its argument, or its bound where there are too few. -/
theorem lookup_argumentBindings (params : List (Slot Ty)) (args : List Ty) (name : String) :
    ((argumentBindings params args).lookup name = none → params.any (·.name == name) = false) ∧
      ∀ inner, (argumentBindings params args).lookup name = some inner →
        inner ∈ args ∨ ∃ param ∈ params.drop args.length, param.typeOrUnknown = inner := by
  fun_induction argumentBindings params args with
  | case1 args => simp
  | case2 param params ih | case3 param params arg args ih =>
    rw [lookup_cons]
    cases same : name == param.name with
    | true => simp_all
    | false =>
      have apart : (param.name == name) = false := by rw [← same]; exact BEq.comm
      refine ⟨fun none => by simpa [apart] using ih.1 none, fun inner found => ?_⟩
      rcases ih.2 inner found with ha | ⟨slot, hs, rfl⟩
      · exact .inl (by simp_all)
      · exact .inr ⟨slot, by simp_all, rfl⟩

/-- Seeing through a name leaves nothing of a type parameter that does not occur in the type. -/
theorem Clears.not_remains {after : Ty} (clears : type.Clears imports name) (absent : ¬ type.Remains name)
    (step : Unfolds imports type after) : ¬ after.Remains name := by
  cases step with
  | @name called args origin body params found =>
    obtain ⟨⟨declaration, path, source, read, top, binding⟩, unbounded, bounds⟩ :=
      clears called args origin body params rfl found
    obtain ⟨bound, put⟩ := lookup_argumentBindings params args name
    intro remains
    rcases remains_of_substitute remains with left | ⟨free, kept⟩ | ⟨other, inner, put, remains⟩
    · exact unbounded left
    · have own := Node.any_params_of_free (rooted_of_parse read) top binding free
      rw [bound kept] at own
      cases own
    · rcases (lookup_argumentBindings params args other).2 inner put with ha | ⟨param, hp, rfl⟩
      · exact absent (.inside rfl ha remains)
      · exact bounds param hp remains

theorem not_remains_expandWithin (limit : Nat) (absent : ¬ type.Remains name)
    (clears : ∀ seen, Relation.ReflTransGen (Unfolds imports) type seen → seen.Clears imports name) :
    ¬ ((type.expandWithin limit).answer imports).Remains name := by
  have unknown : ¬ Ty.unknown.Remains name := by
    intro remains
    cases remains with | inside _ hp _ => cases hp
  induction limit generalizing type with
  | zero => exact unknown
  | succ limit ih =>
    cases type with
    | named called args origin =>
      rw [expandWithin, Inquiry.answer_bind]
      cases found : (origin.resolveIn called .type).answer imports with
      | error fault => exact unknown
      | ok binding =>
        cases binding with
        | type body params =>
          have step := @Unfolds.name imports called args origin body params found
          exact ih ((clears _ .refl).not_remains absent step) fun seen later => clears seen (.head step later)
        | _ => exact unknown
    | _ => exact absent

/-- Instantiating an alias leaves nothing of its type parameters behind, if no declaration on the
way uses them in the bounds of type parameters of the signatures in it: a type parameter that is
in no argument does not occur in what the named type stands for, bounds included, outside the
signatures that declare one of its name. -/
theorem expand_named_not_remains {called : String} {args : List Ty} {origin : Node}
    (absent : ∀ arg ∈ args, ¬ arg.Remains name)
    (clears : ∀ seen, Relation.ReflTransGen (Unfolds imports) (.named called args origin) seen →
      seen.Clears imports name) :
    ¬ ((Ty.named called args origin).expand.answer imports).Remains name := by
  refine not_remains_expandWithin _ (fun remains => ?_) clears
  cases remains with
  | inside _ hp remains => exact absent _ hp remains

/-- An alias for a signature with a type parameter of its own, and a use of it. -/
def freeSignature : Reading :=
  .first ⟨"/main.bgl"⟩ "type A<P> = <U>() => P[]\nfunc g(f: A<number>) => f"

/-- Whether the signature was found for the alias. -/
def isFreeSignature : Lookup → Bool
  | .ok (.type (.func [⟨"U", none⟩] [] (.array (.generic "P" none))) [⟨"P", none⟩]) => true
  | _ => false

theorem eq_of_isFreeSignature (hf : isFreeSignature found = true) :
    found = .ok (.type (.func [⟨"U", none⟩] [] (.array (.generic "P" none))) [⟨"P", none⟩]) := by
  unfold isFreeSignature at hf
  split at hf
  · rfl
  · cases hf

/-- Nothing is left of the type parameter of the alias. -/
theorem freeSignature_not_remains :
    let origin := freeSignature.script.node 7
    isFreeSignature ((origin.resolveIn "A" .type).answer .isolated) = true ∧
      ¬ ((Ty.named "A" [.number] origin).expand.answer .isolated).Remains "P" := by
  obtain ⟨faultless, found, declared, top⟩ : freeSignature.fault.isNone = true ∧
      isFreeSignature (((freeSignature.script.node 7).resolveIn "A" .type).answer .isolated) = true ∧
      isFreeSignature (.ok (freeSignature.script.node 5).namedTypeBinding) = true ∧
      freeSignature.script.rootNode.form.children.contains 5 = true := by
    decide +kernel
  have read : ∃ path source, parse path source = .ok freeSignature.script :=
    ⟨_, _, Reading.parse_of_faultless faultless⟩
  -- the script is only evaluated above
  generalize freeSignature.script = script at found declared top read ⊢
  obtain ⟨path, source, read⟩ := read
  refine ⟨found, expand_named_not_remains ?_ ?_⟩
  · intro arg ha remains
    cases mem_singleton.mp ha
    cases remains with | inside _ hp _ => cases hp
  intro seen later called args origin body params named resolved
  cases later.cases_head with
  | inl same =>
    subst same
    cases named
    cases resolved.symm.trans (eq_of_isFreeSignature found)
    refine ⟨⟨script.node 5, path, source, read, mem_map_of_mem (contains_iff_mem.mp top),
      Except.ok.inj (eq_of_isFreeSignature declared)⟩, fun left => ?_, fun _ hp => by cases hp⟩
    -- the result, its element, and the type parameter there have no bound
    cases left with
    | signature _ hb _ => cases hb
    | inside _ hp left =>
      cases mem_singleton.mp hp
      cases left with
      | signature _ hb _ => cases hb
      | inside _ hp left =>
        cases mem_singleton.mp hp
        cases left with
        | signature _ hb _ => cases hb
        | inside _ hp _ => cases hp
  | inr step =>
    obtain ⟨next, ⟨again⟩, later⟩ := step
    cases again.symm.trans (eq_of_isFreeSignature found)
    cases later.cases_head with
    | inl same => exact Ty.noConfusion (same.trans named)
    | inr step =>
      obtain ⟨_, step, -⟩ := step
      cases step

/-- An alias for a signature that bounds its type parameter by that of the alias, and a use. -/
def boundedSignature : Reading :=
  .first ⟨"/main.bgl"⟩ "type A<P> = <U extends P>(u: U) => U\nfunc g(f: A<number>) => f<number>(1)"

/-- Whether a type is a signature with a type parameter that is bounded by another. -/
def isBoundedBy (name : String) : Ty → Bool
  | .func [⟨other, some (.generic bound _)⟩] _ _ => other != name && bound == name
  | _ => false

/-- The type parameter of the alias is left in the bound, although it gets an argument, and a call
with a type argument that fits is rejected for it. -/
theorem boundedSignature_remains :
    let script := boundedSignature.script
    let origin := script.node 9
    (∀ arg ∈ [Ty.number], ¬ arg.Remains "P") ∧
      ((Ty.named "A" [.number] origin).expand.answer .isolated).Remains "P" ∧
      ((script.problems? 20).answer? .isolated).map List.length = some 1 := by
  obtain ⟨bounded, reported⟩ :
      isBoundedBy "P" ((Ty.named "A" [.number] (boundedSignature.script.node 9)).expand.answer
        .isolated) = true ∧
      ((boundedSignature.script.problems? 20).answer? .isolated).map List.length = some 1 := by
    decide +kernel
  refine ⟨fun arg ha remains => ?_, ?_, reported⟩
  · cases mem_singleton.mp ha
    cases remains with | inside _ hp _ => cases hp
  · generalize Inquiry.answer _ _ = type at bounded ⊢
    unfold isBoundedBy at bounded
    split at bounded
    · next other bound _ _ _ =>
      obtain ⟨apart, rfl⟩ : other ≠ "P" ∧ bound = "P" := by simpa using bounded
      exact .inside (by simp [declares, apart]) mem_cons_self (.own _)
    · cases bounded

end Ty

end ScriptCheck
