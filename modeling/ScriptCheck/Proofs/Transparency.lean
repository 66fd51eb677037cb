import ScriptCheck.Proofs.Agreement
import ScriptCheck.Program
import ScriptCheck.Workspace.Source
import Mathlib.Data.Nat.Find

/-!
# Names make no difference

Comparing types sees through a name only when it comes to it. Where names are clear, the
answer is the one for the types without names that the two sides stand for. Every comparison
goes down on at least one side, so none that is under way is ever met again, and the limit
is not reached by types that are low enough.
-/

namespace ScriptCheck.Ty

open List

section Comparison

variable {imports : Imports} {roots : List Ty} {destination value full other : Ty}
  {height otherHeight levels : Nat}

/-- Two types that have more levels together than the given number, whatever they are seen
as. -/
structure Taller (imports : Imports) (roots : List Ty) (levels : Nat) (pair : Ty × Ty) : Prop where
  /-- Both are met and stand for types. -/
  paired : ∃ height otherHeight full other,
    Paired imports roots height pair.1 full ∧ Paired imports roots otherHeight pair.2 other
  /-- The levels of these are too many. -/
  lt {height otherHeight : Nat} {full other : Ty} : pair.1.StandsFor imports height full →
    pair.2.StandsFor imports otherHeight other → levels < height + otherHeight

theorem Taller.mono (taller : Taller imports roots levels pair) (hl : fewer ≤ levels) :
    Taller imports roots fewer pair :=
  ⟨taller.paired, fun hf ho => Nat.lt_of_le_of_lt hl (taller.lt hf ho)⟩

/-- Types that are low enough are not written like types that are taller. -/
theorem Taller.not_sameAs (clear : NamedClearly imports roots)
    (taller : Taller imports roots levels pair)
    (hd : Paired imports roots height destination full)
    (hv : Paired imports roots otherHeight value other) (low : height + otherHeight ≤ levels) :
    (pair.1.sameAs destination && pair.2.sameAs value) = false := by
  by_contra both
  obtain ⟨hs, ht⟩ : pair.1.sameAs destination = true ∧ pair.2.sameAs value = true := by
    simpa using both
  obtain ⟨_, _, first, second, hfirst, hsecond⟩ := taller.paired
  have hf := isFullWithin_of_sameAs (sameAs_symm _ _ (sameAs_full clear hfirst hd hs)) hd.stands.1
  have ho := isFullWithin_of_sameAs (sameAs_symm _ _ (sameAs_full clear hsecond hv ht)) hv.stands.1
  have hl := taller.lt ⟨hf, hfirst.stands.2⟩ ⟨ho, hsecond.stands.2⟩
  omega

/-- The levels of two types can be counted such that there are none too many. -/
theorem exists_least (hd : Paired imports roots height destination full)
    (hv : Paired imports roots otherHeight value other) :
    ∃ first second, first + second ≤ height + otherHeight ∧
      Paired imports roots first destination full ∧ Paired imports roots second value other ∧
      ∀ {fewer}, fewer < first + second → Taller imports roots fewer (destination, value) := by
  classical
  let fits := fun levels => ∃ first second, first + second = levels ∧
    full.isFullWithin first = true ∧ other.isFullWithin second = true
  have some : ∃ levels, fits levels := ⟨_, height, otherHeight, rfl, hd.stands.1, hv.stands.1⟩
  obtain ⟨first, second, hsum, hf, ho⟩ := Nat.find_spec some
  refine ⟨first, second, ?_, ⟨hd.met, hf, hd.stands.2⟩, ⟨hv.met, ho, hv.stands.2⟩, ?_⟩
  · rw [hsum]
    exact Nat.find_min' some ⟨height, otherHeight, rfl, hd.stands.1, hv.stands.1⟩
  · intro fewer hl
    refine ⟨⟨_, _, full, other, hd, hv⟩, fun {a b _ _} ha hb => ?_⟩
    have hleast := Nat.find_min' some
      ⟨a, b, rfl, hd.stands.unique ha ▸ ha.1, hv.stands.unique hb ▸ hb.1⟩
    omega

/-- Types without names that are alike fit. -/
theorem subsumesWithin_of_sameAs (hl : left.isNamed = false) (hr : right.isNamed = false)
    (same : left.sameAs right = true) (limit : Nat) (pending : List (Ty × Ty)) :
    (subsumesWithin false (limit + 1) pending left right).answer imports = true := by
  rw [subsumesWithin_succ hl hr, subsumesStep, if_pos same]
  rfl

/-- Types that are low enough fit exactly if what they stand for does, while taller ones are
being compared. -/
theorem subsumesWithin_eq (clear : NamedClearly imports roots)
    (hd : Paired imports roots height destination full)
    (hv : Paired imports roots otherHeight value other) (low : height + otherHeight ≤ levels)
    (enough : levels ≤ limit) (apart : ∀ pair ∈ pending, Taller imports roots levels pair) :
    (subsumesWithin false limit pending destination value).answer imports =
      (subsumesWithin false limit [] full other).answer imports := by
  induction levels using Nat.strongRecOn generalizing limit pending destination value full other
      height otherHeight with
  | ind levels ih =>
    obtain ⟨first, second, hl, hfirst, hsecond, taller⟩ := exists_least hd hv
    obtain ⟨below, replace, rfl, rfl, opened⟩ := hfirst.opened
    obtain ⟨under, change, rfl, rfl, others⟩ := hsecond.opened
    obtain ⟨limit, rfl⟩ : ∃ rest, limit = rest + 1 := ⟨limit - 1, by omega⟩
    have fresh : (pending.any fun pair =>
        pair.1.sameAs destination && pair.2.sameAs value) = false := by
      rw [any_eq_false]
      intro pair hp
      simp [(apart pair hp).not_sameAs clear hd hv low]
    have agree : ∀ underWay : List (Ty × Ty),
        (∀ pair ∈ underWay, Taller imports roots (below + under + 1) pair) →
        Agree imports roots (below + under + 1) (subsumesWithin false limit underWay)
          (subsumesWithin false limit []) := by
      intro underWay tall
      obtain ⟨rest, rfl⟩ : ∃ rest, limit = rest + 1 := ⟨limit - 1, by omega⟩
      exact ⟨fun hl hr hlow => ih _ (by omega) hl hr hlow (by omega) tall,
        fun hl hr same => subsumesWithin_of_sameAs hl hr same rest [],
        subsumesWithin_of_sameAs rfl rfl rfl rest underWay⟩
    have tall : ∀ pair ∈ (if destination.isNamed || value.isNamed then
        (destination, value) :: pending else pending), Taller imports roots (below + under + 1) pair := by
      intro pair hp
      have listed : pair ∈ (destination, value) :: pending := by
        split at hp
        · exact hp
        · exact mem_cons_of_mem _ hp
      rcases mem_cons.mp listed with rfl | hp
      · exact taller (by omega)
      · exact (apart pair hp).mono (by omega)
    have step := subsumesStep_eq clear (agree _ tall) opened others
    rw [subsumesWithin_succ hfirst.isNamed_full hsecond.isNamed_full, subsumesWithin, fresh]
    simp only [Bool.and_false, Bool.false_eq_true, if_false, resolveSide_false, Inquiry.answer_bind,
      step]

/-- Where names are clear, a type subsumes another exactly if the type without names that
it stands for subsumes the one that the other stands for. -/
theorem subsumes_eq_of_standsFor (clear : NamedClearly imports [destination, value])
    (hd : destination.StandsFor imports height full) (hv : value.StandsFor imports otherHeight other)
    (low : height + otherHeight ≤ comparisonLimit) :
    (destination.subsumes value false).answer imports = (full.subsumes other false).answer imports :=
  subsumesWithin_eq clear ⟨.root (by simp), hd⟩ ⟨.root (by simp), hv⟩ low (Nat.le_refl _) (by simp)

end Comparison

section Inspection

variable {imports : Imports} {roots : List Ty} {type : Ty} {levels : Nat}

/-- The types that are met in a type on its first levels. -/
def metWithin (imports : Imports) : Nat → Ty → List Ty
  | 0, type => [type]
  | levels + 1, type =>
    let seen := type.expand.answer imports
    type :: seen :: seen.parts.flatMap (metWithin imports levels)

/-- Whether the levels of a type are not more than the given number once all names in it are
replaced. -/
def endsWithin (imports : Imports) (levels : Nat) (type : Ty) : Bool :=
  (type.expandAll imports levels).isFullWithin levels

/-- Whether a type has each entry once, if it is an object type, and no member that is a union,
if it is a union. -/
def isTidy (imports : Imports) : Ty → Bool
  | object fields => decide (fields.map Field.name).Nodup
  | union members => members.all fun member => !(member.expand.answer imports).isUnion
  | _ => true

/-- Whether two types are written alike or not as what they stand for requires. -/
def agreesWith (imports : Imports) (levels : Nat) (left right : Ty) : Bool :=
  let alike := (left.expandAll imports levels).sameAs (right.expandAll imports levels)
  (!(left.isNamed && left.sameAs right) || alike) &&
    (!(left.isSealed && right.isSealed && alike) || left.sameAs right)

/-- Whether names can be told from what is written in all types that are met on the first
levels of the given ones, with nothing left below. -/
def namesClearly (imports : Imports) (levels : Nat) (roots : List Ty) : Bool :=
  let met := roots.flatMap (metWithin imports levels)
  roots.all (endsWithin imports levels) && met.all fun left =>
    left.endsWithin imports levels && left.isTidy imports && met.all (left.agreesWith imports levels)

theorem standsFor_of_endsWithin (ends : type.endsWithin imports levels = true) :
    type.StandsFor imports levels (type.expandAll imports levels) := ⟨ends, levels, rfl⟩

theorem mem_metWithin_self (levels : Nat) (type : Ty) : type ∈ metWithin imports levels type := by
  cases levels with
  | zero => exact mem_singleton_self type
  | succ levels => exact mem_cons_self

/-- Every type that is met is on the first levels of one of the given types, as long as these
end there, or it is one of those that any comparison may meet. -/
theorem mem_of_met (ends : ∀ root ∈ roots, root.endsWithin imports levels = true)
    (met : Met imports roots type) :
    type ∈ roots.flatMap (metWithin imports levels) ∨ type = .unknown ∨
      ∃ name, type = .stringLiteral name := by
  -- What is met below a type that is met is on the levels that are left at this type.
  have placed : (∃ height full, type.StandsFor imports height full ∧
      ∀ inner ∈ metWithin imports height type, inner ∈ roots.flatMap (metWithin imports levels)) ∨
      type = .unknown ∨ ∃ name, type = .stringLiteral name := by
    induction met with
    | @root type ht =>
      have hs := standsFor_of_endsWithin (ends type ht)
      exact .inl ⟨levels, _, hs, fun inner hi => mem_flatMap.mpr ⟨type, ht, hi⟩⟩
    | @seen type _ ih =>
      rcases ih with ⟨height, full, stands, inside⟩ | rfl | ⟨name, rfl⟩
      · obtain ⟨below, replace, rfl, -, -⟩ := stands.exists_replace
        refine .inl ⟨below + 1, full, stands.expand, fun inner hi => inside inner ?_⟩
        have hn : (type.expand.answer imports).isNamed = false := isNamed_expand type
        rw [metWithin, expand_of_not_named hn] at hi
        rw [metWithin]
        have hm : inner = type.expand.answer imports ∨
            inner ∈ (type.expand.answer imports).parts.flatMap (metWithin imports below) := by
          rcases mem_cons.mp hi with he | hi
          · exact .inl he
          · exact mem_cons.mp hi
        exact mem_cons_of_mem _ (mem_cons.mpr hm)
      · exact .inr (.inl (expand_of_not_named rfl))
      · exact .inr (.inr ⟨name, expand_of_not_named rfl⟩)
    | @part type part _ hn hp ih =>
      rcases ih with ⟨height, full, stands, inside⟩ | rfl | ⟨name, rfl⟩
      · obtain ⟨below, replace, rfl, -, parts⟩ := stands.exists_replace
        rw [expand_of_not_named hn] at parts
        refine .inl ⟨below, _, parts part hp, fun inner hi => inside inner ?_⟩
        rw [metWithin, expand_of_not_named hn]
        have hm := mem_flatMap.mpr ⟨part, hp, hi⟩
        exact mem_cons_of_mem _ (mem_cons_of_mem _ hm)
      · cases hp
      · cases hp
    | unknown => exact .inr (.inl rfl)
    | entryName name => exact .inr (.inr ⟨name, rfl⟩)
  rcases placed with ⟨height, full, -, inside⟩ | other
  · exact .inl (inside type (mem_metWithin_self height type))
  · exact .inr other

/-- Names that are found to be clear are clear. -/
theorem namedClearly_of_namesClearly (clear : namesClearly imports levels roots = true) :
    NamedClearly imports roots := by
  simp only [namesClearly, Bool.and_eq_true, all_eq_true] at clear
  obtain ⟨ends, all⟩ := clear
  have full_eq : ∀ {type full : Ty} {height : Nat},
      type ∈ roots.flatMap (metWithin imports levels) → type.StandsFor imports height full →
      full = type.expandAll imports levels := by
    intro type full height hm stands
    exact stands.unique (standsFor_of_endsWithin (all type hm).1.1)
  constructor
  · intro left right full other height otherHeight hl hr hn same hf ho
    have hleft := (mem_of_met ends hl).resolve_right (by
      rintro (rfl | ⟨name, rfl⟩) <;> cases hn)
    have hnamed : right.isNamed = true := isNamed_of_sameAs same ▸ hn
    have hright := (mem_of_met ends hr).resolve_right (by
      rintro (rfl | ⟨name, rfl⟩) <;> cases hnamed)
    have agrees := (all left hleft).2 right hright
    rw [full_eq hleft hf, full_eq hright ho]
    simpa [agreesWith, hn, same] using agrees
  · intro left right full other height otherHeight hl hr hs ht hf ho alike
    have hleft := (mem_of_met ends hl).resolve_right (by
      rintro (rfl | ⟨name, rfl⟩) <;> cases hs)
    have hright := (mem_of_met ends hr).resolve_right (by
      rintro (rfl | ⟨name, rfl⟩) <;> cases ht)
    have agrees := (all left hleft).2 right hright
    rw [full_eq hleft hf, full_eq hright ho] at alike
    have second := (Bool.and_eq_true_iff.mp agrees).2
    simpa [hs, ht, alike] using second
  · intro fields hm
    have hmet := (mem_of_met ends hm).resolve_right (by
      rintro (he | ⟨name, he⟩) <;> cases he)
    have tidy := (all _ hmet).1.2
    simpa [isTidy] using tidy
  · intro members member hm hmember
    have hmet := (mem_of_met ends hm).resolve_right (by
      rintro (he | ⟨name, he⟩) <;> cases he)
    have tidy := (all _ hmet).1.2
    have each := all_eq_true.mp tidy member hmember
    simpa using each

end Inspection

section Examples

/-- Two scripts, one of which has a generic alias for the other. -/
def pairedAliases : List Script :=
  [(Reading.first ⟨"/main.bgl"⟩ ("import \x7b Pair \x7d from './pair'\ntype Id = number\n" ++
      "func f(x: \x7b a: Pair<Id>, b: Id[] \x7d): \x7b a: [number, number] \x7d => x")).script,
    (Reading.first ⟨"/pair.bgl"⟩ "export type Pair<T> = [T, T]").script]

/-- The type written at a node of the first of some scripts. -/
def writtenAt (scripts : List Script) (id : NodeId) : Ty :=
  ((scripts.headD default).node id).lower

/-- Through an imported alias with an argument that is an alias itself, the parameter of the
function fits its result exactly if the types without names do, and they do. -/
theorem pairedAliases_transparent :
    let imports := (Program.ofScripts pairedAliases).imports
    let destination := writtenAt pairedAliases 16
    let value := writtenAt pairedAliases 10
    namesClearly imports 3 [destination, value] = true ∧
      (value.expandAll imports 3).sameAs value = false ∧
      (destination.subsumes value false).answer imports = true ∧
      (destination.subsumes value false).answer imports =
        ((destination.expandAll imports 3).subsumes (value.expandAll imports 3) false).answer
          imports := by
  intro imports destination value
  obtain ⟨clear, hd, hv, named, fits⟩ : namesClearly imports 3 [destination, value] = true ∧
      destination.endsWithin imports 3 = true ∧ value.endsWithin imports 3 = true ∧
      (value.expandAll imports 3).sameAs value = false ∧
      (destination.subsumes value false).answer imports = true := by decide +kernel
  exact ⟨clear, named, fits, subsumes_eq_of_standsFor (namedClearly_of_namesClearly clear)
    (standsFor_of_endsWithin hd) (standsFor_of_endsWithin hv) (by decide)⟩

/-- A script in which an alias that stands for a union is a member of another union. -/
def aliasAmongMembers : List Script :=
  [(Reading.first ⟨"/main.bgl"⟩ ("type N = number | nil\n" ++
    "func f(x: N | string): number | nil | string => x")).script]

/-- Two scripts that have an alias of the same name each, for different types. -/
def namesakes : List Script :=
  [(Reading.first ⟨"/main.bgl"⟩ ("import \x7b B \x7d from './b'\ntype A = string\n" ++
      "func f(x: B): \x7b a: A \x7d => x")).script,
    (Reading.first ⟨"/b.bgl"⟩ "type A = number\nexport type B = \x7b a: A \x7d").script]

/-- Aliases make a difference in general: an alias among the members of a union hides that all
of them fit, and two aliases with one name hide that what they stand for does not. -/
theorem aliases_not_transparent :
    (let imports := (Program.ofScripts aliasAmongMembers).imports
      let destination := writtenAt aliasAmongMembers 11
      let value := writtenAt aliasAmongMembers 6
      destination.endsWithin imports 2 = true ∧ value.endsWithin imports 3 = true ∧
        (destination.subsumes value false).answer imports = false ∧
        ((destination.expandAll imports 2).subsumes (value.expandAll imports 3) false).answer
          imports = true) ∧
    let imports := (Program.ofScripts namesakes).imports
    let destination := writtenAt namesakes 8
    let value := writtenAt namesakes 4
    destination.endsWithin imports 2 = true ∧ value.endsWithin imports 2 = true ∧
      (destination.subsumes value false).answer imports = true ∧
      ((destination.expandAll imports 2).subsumes (value.expandAll imports 2) false).answer
        imports = false := by
  decide +kernel

end Examples

end ScriptCheck.Ty
