import ScriptCheck.Proofs.BoundTypes
import ScriptCheck.Proofs.CleanScripts
import ScriptCheck.Proofs.FreeNames
import ScriptCheck.Proofs.ProblemPlaces
import ScriptCheck.Workspace.Source

/-!
# Type parameters stay inside their signature

A signature is left by replacing its type parameters: by their bounds where it is compared as a
value, by what the arguments say where it is called. Its own names are then gone, unless a bound
brings one back: replacing goes once through a type, and a bound may mention other parameters of
the signature.
-/

namespace ScriptCheck

open List

namespace Ty

variable {imports : Imports} {name : String} {type part : Ty} {types : List Ty}
  {typeParams params : List (Slot Ty)} {bindings : Bindings}

/-- A type parameter occurs in a type or in what a name there stands for, declared there or not.
Bounds do not count. -/
inductive Occurs (imports : Imports) (name : String) : Ty → Prop
  | own (bound : Option Ty) : Occurs imports name (.generic name bound)
  | inside {type part : Ty} : part ∈ type.shownParts → Occurs imports name part →
      Occurs imports name type
  | seen {type : Ty} : type.isNamed = true → Occurs imports name (type.expand.answer imports) →
      Occurs imports name type

/-- What is free in a type occurs there. -/
theorem Shows.occurs {hidden : List String} (shows : type.Shows hidden name) :
    type.Occurs imports name := by
  induction shows with
  | own bound => exact .own bound
  | inside _ hp _ ih => exact .inside hp ih

/-- In a type that is neither a name nor a type parameter, a type parameter occurs in a part. -/
theorem occurs_iff (hn : type.isNamed = false) (solid : ∀ other bound, type ≠ .generic other bound) :
    type.Occurs imports name ↔ ∃ part ∈ type.shownParts, part.Occurs imports name := by
  constructor
  · intro occurs
    cases occurs with
    | own bound => exact absurd rfl (solid name bound)
    | inside hp occurs => exact ⟨_, hp, occurs⟩
    | seen named _ => rw [hn] at named; cases named
  · rintro ⟨part, hp, occurs⟩
    exact .inside hp occurs

theorem occurs_union_iff : (Ty.union types).Occurs imports name ↔
    ∃ type ∈ types, type.Occurs imports name := occurs_iff rfl (by simp)

theorem occurs_flatten_iff : (∃ member ∈ type.flatten, member.Occurs imports name) ↔
    type.Occurs imports name := exists_mem_flatten_iff fun _ => occurs_union_iff

/-- What occurs in a union occurs in a type that it is put together from. -/
theorem Occurs.of_unionOf (occurs : (unionOf types).Occurs imports name) :
    ∃ type ∈ types, type.Occurs imports name := by
  obtain ⟨member, hm, occurs⟩ := occurs_flatten_iff.mpr occurs
  rw [flatten_unionOf, flattenList_eq] at hm
  obtain ⟨type, ht, hm⟩ := mem_flatMap.mp (mem_of_mem_distinct hm)
  exact ⟨type, ht, occurs_flatten_iff.mp ⟨member, hm, occurs⟩⟩

/-- What matching looks at in a type has only occurrences of the type. -/
theorem inherited_not_occurs (imports : Imports) (name : String) :
    Inherited imports fun type => ¬ type.Occurs imports name where
  part absent hp occurs := absent (.inside hp occurs)
  rest {type} absent keep occurs := by
    obtain ⟨member, hm, occurs⟩ := occurs_flatten_iff.mpr occurs
    rw [flatten_collapse fun _ hm => isUnion_of_mem_flatten (mem_filter.mp hm).1] at hm
    exact absent (occurs_flatten_iff.mp ⟨member, (mem_filter.mp hm).1, occurs⟩)
  items absent occurs := by
    obtain ⟨item, hi, occurs⟩ := occurs.of_unionOf
    exact absent item hi occurs
  seen {type} absent occurs := by
    cases hn : type.isNamed with
    | true => exact absent (.seen hn occurs)
    | false => exact absent (expand_of_not_named hn ▸ occurs)

/-- Widening brings no type parameters in. -/
theorem Occurs.of_widen (occurs : type.widen.Occurs imports name) : type.Occurs imports name := by
  induction type using parts_induction with
  | step type ih =>
    cases type with
    | literal value =>
      cases value with
      | _ =>
        obtain ⟨_, hp, _⟩ := (occurs_iff rfl (by simp [widen, ofLiteral])).mp occurs
        cases hp
    | union members =>
      rw [widen, widenList_eq] at occurs
      obtain ⟨_, hw, occurs⟩ := occurs.of_unionOf
      obtain ⟨member, hm, rfl⟩ := mem_map.mp hw
      exact .inside hm (ih member hm occurs)
    | array element =>
      obtain ⟨part, hp, occurs⟩ := (occurs_iff rfl (by simp [widen])).mp occurs
      rw [mem_singleton.mp hp] at occurs
      exact .inside mem_cons_self (ih element mem_cons_self occurs)
    | tuple elements =>
      rw [widen, widenList_eq, occurs_iff rfl (by simp)] at occurs
      obtain ⟨_, hp, occurs⟩ := occurs
      obtain ⟨element, he, rfl⟩ := mem_map.mp hp
      exact .inside he (ih element he occurs)
    | object fields =>
      rw [widen, widenFields_eq, occurs_iff rfl (by simp)] at occurs
      obtain ⟨_, hp, occurs⟩ := occurs
      simp only [shownParts, openParts, parts, map_map, mem_map, Function.comp_apply] at hp
      obtain ⟨field, hf, rfl⟩ := hp
      exact .inside (mem_map_of_mem hf) (ih field.type (mem_map_of_mem hf) occurs)
    | _ => exact occurs

/-- After replacing all names of a list by types in which a name is not free, it is not free. -/
theorem not_free_substitute (bound : bindings.lookup name ≠ none)
    (absent : ∀ binding ∈ bindings, ¬ binding.2.Free name) : ¬ (type.substitute bindings).Free name := by
  intro free
  rcases shows_of_free_substitute free with ⟨-, kept⟩ | ⟨other, inner, found, -, inside⟩
  · exact bound kept
  · obtain ⟨_, _, rfl, -⟩ := lookup_eq_some_iff.mp found
    exact absent (other, inner) (by simp) inside

theorem not_free_unknown : ¬ Ty.unknown.Free name := by
  intro free
  obtain ⟨-, _, hp, -⟩ := (shows_iff (by simp)).mp free
  cases hp

/-- A name that the parameters have is bound if each parameter is. -/
theorem lookup_ne_none_of_declared (declared : name ∈ typeParams.map (·.name))
    (keys : bindings.map Prod.fst = typeParams.map (·.name)) : bindings.lookup name ≠ none := by
  rw [← keys] at declared
  obtain ⟨⟨_, inner⟩, hb, rfl⟩ := mem_map.mp declared
  intro absent
  simpa using lookup_eq_none_iff.mp absent _ hb

section Declared

variable (declared : name ∈ typeParams.map (·.name))
  (bounds : ∀ bound ∈ slotTypes typeParams, ¬ bound.Free name)
include declared bounds

/-- Once each type parameter stands for something, one that is in no bound and in nothing that
was found is replaced by types in which it is not free. -/
theorem completeBindings_not_free (before : ∀ binding ∈ bound, ¬ binding.2.Free name) :
    (completeBindings typeParams bound).lookup name ≠ none ∧
      ∀ binding ∈ completeBindings typeParams bound, ¬ binding.2.Free name :=
  ⟨lookup_ne_none_of_declared declared (by simp [completeBindings]),
    forall_mem_completeBindings not_free_unknown bounds before⟩

/-- So do the type arguments that are written, with bounds for those that are missing. -/
theorem writtenBindings_not_free {args : List Ty} (written : ∀ arg ∈ args, ¬ arg.Free name) :
    let bindings := typeParams.zipIdx.map fun row => (row.1.name, (args[row.2]?).getD row.1.typeOrUnknown)
    bindings.lookup name ≠ none ∧ ∀ binding ∈ bindings, ¬ binding.2.Free name := by
  constructor
  · refine lookup_ne_none_of_declared declared ?_
    rw [map_map, ← zipIdx_map_fst 0 typeParams, map_map]
    simp [Function.comp_def]
  · intro binding hb
    obtain ⟨⟨param, index⟩, hr, rfl⟩ := mem_map.mp hb
    dsimp only
    cases ha : args[index]? with
    | some arg => exact written arg (mem_of_getElem? ha)
    | none =>
      have hp := fst_mem_of_mem_zipIdx hr
      cases ht : param.type with
      | none => simpa [Slot.typeOrUnknown, ht] using not_free_unknown
      | some bound =>
        simpa [Slot.typeOrUnknown, ht] using bounds bound (mem_slotTypes.mpr ⟨param, hp, ht⟩)

/-- A type parameter that is in no bound is not free after erasing. -/
theorem not_free_fallbacks : ¬ (type.substitute (fallbacks typeParams)).Free name := by
  obtain ⟨bound, absent⟩ := completeBindings_not_free declared bounds (forall_mem_nil _)
  exact not_free_substitute bound absent

end Declared

end Ty

/-- A type that a call sees for one of its arguments: the one that the argument has by itself
or, for a literal that takes its type from the call, the one that it has where a type without the
name is expected. -/
inductive Call.Sees (imports : Imports) (deeper : Deeper) (situation : Situation) (call : Call)
    (name : String) : Ty → Prop
  | settled {index : Nat} {arg : Node} {type : Ty} : call.args[index]? = some arg →
      arg.needsContext = false → (deeper.argumentType situation call index).answer? imports = some type →
      Sees imports deeper situation call name type
  | literal {arg : Node} {expected type : Ty} : arg ∈ call.args → arg.needsContext = true →
      ¬ expected.Free name →
      (deeper.typeOf (situation.expecting arg expected) arg).answer? imports = some type →
      Sees imports deeper situation call name type

namespace Deeper

open Inference

variable {imports : Imports} {deeper : Deeper} {situation : Situation} {call : Call} {name : String}
  {typeParams params : List (Slot Ty)} {result : Ty}

/-- What the type parameters of a call stand for has a name free only if a type argument has, or
if it occurs in what the call sees for an argument. -/
theorem bindTypeParams_finds (declared : name ∈ typeParams.map (·.name))
    (bounds : ∀ bound ∈ slotTypes typeParams, ¬ bound.Free name)
    (written : ∀ arg ∈ call.typeArgs, ¬ arg.lower.Free name)
    (seen : call.typeArgs = [] → ∀ type, call.Sees imports deeper situation name type →
      ¬ type.Occurs imports name) :
    Finds imports (deeper.bindTypeParams situation call typeParams params true) fun bindings =>
      bindings.lookup name ≠ none ∧ ∀ binding ∈ bindings, ¬ binding.2.Free name := by
  have complete {bound : Bindings} (before : ∀ binding ∈ bound, ¬ binding.2.Occurs imports name) :=
    Ty.completeBindings_not_free declared bounds fun binding hb free => before binding hb free.occurs
  unfold bindTypeParams
  split
  · next none =>
    rw [isEmpty_iff.mp none] at declared
    cases declared
  split
  · have lowered : ∀ type ∈ call.typeArgs.map Node.lower, ¬ type.Free name :=
      forall_mem_map.mpr written
    have found := Ty.writtenBindings_not_free declared bounds lowered
    simp only [getElem?_map] at found
    exact .done found
  · next bare =>
    have seen := seen (by simpa using bare)
    dsimp only
    have matched := (Ty.inherited_not_occurs imports name).matchGenerics (typeParams.map (·.name))
    refine .andThen (.foldlM (fun bound : Bindings => ∀ binding ∈ bound, ¬ binding.2.Occurs imports name)
      nofun fun argument ha bound before => ?_) fun bound before => ?_
    · obtain ⟨ha, context⟩ := mem_filter.mp ha
      have here := (of_mem_genericArguments ha).1
      have argType : Finds imports (deeper.argumentType situation call argument.index)
          fun type => ¬ type.widen.Occurs imports name :=
        fun type found occurs => seen type (.settled here (by simpa using context) found) occurs.of_widen
      exact argType.andThen fun type absent => .lift (matched _ _ _ absent before)
    · rw [if_pos rfl]
      have expected (type : Ty) : ¬ (type.substitute (Ty.completeBindings typeParams bound)).Free name :=
        Ty.not_free_substitute (complete before).1 (complete before).2
      refine .andThen (.foldlM (fun bound : Bindings => ∀ binding ∈ bound, ¬ binding.2.Occurs imports name)
        before fun argument ha bound before => ?_) fun bound before => .done (complete before)
      obtain ⟨ha, context⟩ := mem_filter.mp ha
      have here := mem_of_getElem? (of_mem_genericArguments ha).1
      have argType : Finds imports (deeper.typeOf (situation.expecting argument.arg _) argument.arg)
          fun type => ¬ type.Occurs imports name :=
        fun type found => seen type (.literal here context (expected argument.paramType) found)
      exact argType.andThen fun type absent => .lift (matched _ _ _ absent before)

end Deeper

/-- The type parameters of a signature do not leave it, if they are in no bound: they are not free
after erasing, and one that is free in the result of a call is free in a type argument or, where
none are written, occurs in what the call sees for an argument. -/
theorem typeParam_not_free {name : String} {typeParams params : List (Slot Ty)} {result : Ty}
    (declared : name ∈ typeParams.map (·.name))
    (bounds : ∀ bound ∈ slotTypes typeParams, ¬ bound.Free name) :
    ¬ (Ty.func typeParams params result).eraseGenerics.Free name ∧
    ¬ (Ty.proc typeParams params).eraseGenerics.Free name ∧
    ∀ (imports : Imports) (deeper : Deeper) (situation : Situation) (call : Call) (type : Ty),
      call.subject = .func typeParams params result →
      (deeper.resultType situation call).answer? imports = some type → type.Free name →
      (∃ arg ∈ call.typeArgs, arg.lower.Free name) ∨ (call.typeArgs = [] ∧
        ∃ seen, call.Sees imports deeper situation name seen ∧ seen.Occurs imports name) := by
  have some : typeParams.isEmpty = false := by
    cases typeParams with
    | nil => cases declared
    | cons => rfl
  refine ⟨?_, ?_, ?_⟩
  · rw [Ty.eraseGenerics, some]
    exact Ty.not_free_fallbacks declared bounds
  · rw [Ty.eraseGenerics, some]
    exact Ty.not_free_fallbacks declared bounds
  · intro imports deeper situation call type subject found free
    by_contra absent
    rw [not_or, not_exists] at absent
    have finds : Inference.Finds imports (deeper.resultType situation call) fun type =>
        ¬ type.Free name := by
      unfold Deeper.resultType
      rw [subject]
      refine .andThen (Deeper.bindTypeParams_finds declared bounds ?_ ?_)
        fun bindings both => .done (Ty.not_free_substitute both.1 both.2)
      · exact fun arg ha free => absent.1 arg ⟨ha, free⟩
      · exact fun none type sees occurs => absent.2 ⟨none, type, sees, occurs⟩
    exact finds type found free

/-- A func that is called inside another one whose type parameter has the same name. -/
def relaying : Reading :=
  .first ⟨"/main.bgl"⟩ "func same<T>(x: T) => x\nfunc relay<T>(y: T) => same(y)"

/-- The call gives a `T`, which is the one of its argument. -/
theorem relaying_typeParam :
    let deeper := Deeper.within 20
    ∃ call type, (deeper.call? .idle (relaying.script.node 11)).answer? Imports.isolated =
        some (some call) ∧
      (deeper.resultType .idle call).answer? Imports.isolated = some type ∧ type.Free "T" ∧
      ∃ seen, call.Sees Imports.isolated deeper .idle "T" seen ∧
        seen.Occurs Imports.isolated "T" := by
  have facts : Option.any (fun found => found.any fun call => call.typeArgs.isEmpty &&
      (call.subject.signature?.any fun signature =>
        signature.1.map (·.name) == ["T"] && (slotTypes signature.1).isEmpty) &&
      (((Deeper.within 20).resultType .idle call).answer? Imports.isolated).any
        fun type => type.sameAs (.generic "T" none))
      (((Deeper.within 20).call? .idle (relaying.script.node 11)).answer? Imports.isolated) = true := by
    decide +kernel
  -- the script is only evaluated above
  generalize relaying.script = script at facts ⊢
  generalize Deeper.within 20 = deeper at facts ⊢
  simp only [Option.any_eq_true, Bool.and_eq_true] at facts
  obtain ⟨_, found, call, rfl, ⟨written, ⟨typeParams, params⟩, signed, names, bounds⟩, type, given, same⟩ :=
    facts
  have free : type.Free "T" := by
    cases type with
    | generic name bound =>
      simp only [Ty.sameAs, Bool.and_eq_true, beq_iff_eq] at same
      exact Ty.shows_generic_iff.mpr same.1
    | _ => cases same
  refine ⟨call, type, found, given, free, ?_⟩
  cases subject : call.subject with
  | func declared others result =>
    rw [subject] at signed
    cases signed
    rcases (typeParam_not_free (by simp [beq_iff_eq.mp names])
      (by simp [isEmpty_iff.mp bounds])).2.2 _ _ _ _ _ subject given free with ⟨arg, ha, -⟩ | ⟨-, seen⟩
    · rw [isEmpty_iff.mp written] at ha
      cases ha
    · exact seen
  | _ =>
    simp only [Deeper.resultType, subject] at given
    cases given
    cases same

/-- With a type parameter as the bound of another, it is free after erasing, and in what a call
without arguments gives. -/
theorem typeParam_free_of_bound :
    let typeParams : List (Slot Ty) := [⟨"A", none⟩, ⟨"B", some (.generic "A" none)⟩]
    let signature := Ty.func typeParams [] (.array (.generic "B" none))
    let call : Call := ⟨default, signature, [], [], none⟩
    signature.eraseGenerics.Free "A" ∧ ∃ type,
      (Deeper.silent.resultType .idle call).answer? Imports.isolated = some type ∧ type.Free "A" := by
  refine ⟨.inside (by decide) mem_cons_self (.inside (by decide) mem_cons_self (.own none)),
    _, rfl, .inside (by decide) mem_cons_self (.own none)⟩

end ScriptCheck
