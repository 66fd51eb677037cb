import ScriptCheck.Proofs.Answers
import ScriptCheck.Proofs.TypeShapes

/-!
# Types without names

A type without names is reached from a type by replacing every name in it, on every level,
by what it stands for. Such a type exists where no name leads back to itself, and there is
only one.
-/

namespace ScriptCheck

open List

namespace Ty

variable {imports : Imports} {type full left right : Ty} {height : Nat}

theorem expandWithin_of_not_named (hn : type.isNamed = false) (limit : Nat) :
    type.expandWithin (limit + 1) = pure type := by
  cases type with
  | named => cases hn
  | _ => rfl

/-- A type that is no name is seen as it is. -/
theorem expand_of_not_named (hn : type.isNamed = false) : type.expand.answer imports = type := by
  rw [expand, expansionLimit, expandWithin_of_not_named hn 63]
  rfl

theorem isNamed_expandWithin (limit : Nat) (type : Ty) :
    ((type.expandWithin limit).answer imports).isNamed = false := by
  induction limit generalizing type with
  | zero => rfl
  | succ limit ih =>
    cases hn : type.isNamed with
    | false =>
      rw [expandWithin_of_not_named hn]
      exact hn
    | true =>
      cases type with
      | named name args origin =>
        rw [expandWithin, Inquiry.answer_bind]
        split
        · exact ih _
        · rfl
      | _ => cases hn

/-- What is seen through a name is no name. -/
@[simp] theorem isNamed_expand (type : Ty) : (type.expand.answer imports).isNamed = false :=
  isNamed_expandWithin expansionLimit type

/-- The type with the names on its first levels replaced by what they stand for. -/
def expandAll (imports : Imports) : Nat → Ty → Ty
  | 0, type => type
  | levels + 1, type => (type.expand.answer imports).mapParts (expandAll imports levels)

/-- Whether a type has no names in it and not more than the given number of levels. -/
def isFullWithin : Nat → Ty → Bool
  | 0, _ => false
  | height + 1, type => !type.isNamed && type.parts.all (isFullWithin height)

theorem isFullWithin_succ_iff : type.isFullWithin (height + 1) = true ↔
    type.isNamed = false ∧ ∀ part ∈ type.parts, part.isFullWithin height = true := by
  simp [isFullWithin]

/-- The second type is the first one with all names in it replaced, and has not more than
the given number of levels. -/
def StandsFor (imports : Imports) (height : Nat) (type full : Ty) : Prop :=
  full.isFullWithin height = true ∧ ∃ levels, type.expandAll imports levels = full

/-- Nothing is left to replace in a type without names. -/
theorem expandAll_of_full (hf : type.isFullWithin height = true) (levels : Nat) :
    type.expandAll imports levels = type := by
  induction height generalizing type levels with
  | zero => cases hf
  | succ height ih =>
    obtain ⟨hn, hp⟩ := isFullWithin_succ_iff.mp hf
    cases levels with
    | zero => rfl
    | succ levels =>
      rw [expandAll, expand_of_not_named hn]
      exact (mapParts_congr fun part hm => ih (hp part hm) levels).trans (mapParts_id type)

/-- Once no names are left, replacing names on more levels changes nothing. -/
theorem expandAll_stable (hf : (type.expandAll imports levels).isFullWithin height = true)
    (hm : levels ≤ more) : type.expandAll imports more = type.expandAll imports levels := by
  induction levels generalizing type height more with
  | zero => exact expandAll_of_full hf more
  | succ levels ih =>
    obtain ⟨more, rfl⟩ : ∃ rest, more = rest + 1 := ⟨more - 1, by omega⟩
    cases height with
    | zero => cases hf
    | succ height =>
      obtain ⟨-, hp⟩ := isFullWithin_succ_iff.mp hf
      refine mapParts_congr fun part hm => ih (hp _ ?_) (by omega)
      rw [expandAll, parts_mapParts]
      exact mem_map_of_mem hm

namespace StandsFor

section

variable (stands : type.StandsFor imports height full)
include stands

/-- There is only one type without names that a type stands for. -/
theorem unique (too : type.StandsFor imports otherHeight other) : full = other := by
  obtain ⟨hf, levels, rfl⟩ := stands
  obtain ⟨ho, others, rfl⟩ := too
  rcases Nat.le_total levels others with hl | hl
  · exact (expandAll_stable hf hl).symm
  · exact expandAll_stable ho hl

/-- What is seen through a name stands for the same type as the name. -/
theorem expand : (type.expand.answer imports).StandsFor imports height full := by
  obtain ⟨hf, levels, rfl⟩ := stands
  refine ⟨hf, levels, ?_⟩
  cases levels with
  | zero =>
    cases height with
    | zero => cases hf
    | succ height => exact expand_of_not_named (isFullWithin_succ_iff.mp hf).1
  | succ levels => rw [expandAll, expandAll, expand_of_not_named (isNamed_expand type)]

/-- A type stands for what is seen through it, with each part replaced by what it stands
for. -/
theorem exists_replace : ∃ below replace, height = below + 1 ∧
      full = (type.expand.answer imports).mapParts replace ∧
      ∀ part ∈ (type.expand.answer imports).parts, part.StandsFor imports below (replace part) := by
  obtain ⟨hf, levels, rfl⟩ := stands
  cases height with
  | zero => cases hf
  | succ height =>
    obtain ⟨hn, hp⟩ := isFullWithin_succ_iff.mp hf
    cases levels with
    | zero =>
      rw [expandAll] at hn hp ⊢
      rw [expand_of_not_named hn]
      exact ⟨height, id, rfl, (mapParts_id type).symm, fun part hm => ⟨hp part hm, 0, rfl⟩⟩
    | succ levels =>
      refine ⟨height, _, rfl, rfl, fun part hm => ⟨hp _ ?_, levels, rfl⟩⟩
      rw [expandAll, parts_mapParts]
      exact mem_map_of_mem hm

end

/-- A type without names and parts stands for itself. -/
theorem leaf (hn : type.isNamed = false) (hp : type.parts = []) : type.StandsFor imports 1 type :=
  ⟨isFullWithin_succ_iff.mpr ⟨hn, by simp [hp]⟩, 0, rfl⟩

end StandsFor

theorem isNamed_of_sameAs (same : left.sameAs right = true) : left.isNamed = right.isNamed := by
  cases left <;> cases right <;> first | rfl | cases same

/-- An item of the second of two lists that are related one by one is related to one of the
first. -/
theorem exists_of_mem_right (all : Forall₂ related firsts seconds) (hm : second ∈ seconds) :
    ∃ first ∈ firsts, related first second := by
  induction all with
  | nil => cases hm
  | cons head _ ih =>
    rcases mem_cons.mp hm with rfl | hm
    · exact ⟨_, mem_cons_self, head⟩
    · obtain ⟨first, hf, hr⟩ := ih hm
      exact ⟨first, mem_cons_of_mem _ hf, hr⟩

/-- Types that are alike have equally many levels. -/
theorem isFullWithin_of_sameAs (same : left.sameAs right = true)
    (hf : left.isFullWithin height = true) : right.isFullWithin height = true := by
  induction height generalizing left right with
  | zero => cases hf
  | succ height ih =>
    obtain ⟨hn, hp⟩ := isFullWithin_succ_iff.mp hf
    refine isFullWithin_succ_iff.mpr ⟨isNamed_of_sameAs same ▸ hn, fun part hm => ?_⟩
    obtain ⟨other, ho, hs⟩ := exists_of_mem_right (sameAs_iff.mp same).2 hm
    exact ih hs (hp other ho)

/-- Whether the type is compared as a whole only: a nominal type or a type parameter. -/
def isSealed : Ty → Bool
  | nominal _ _ => true
  | generic _ _ => true
  | _ => false

@[simp] theorem isSealed_mapParts (replace : Ty → Ty) (type : Ty) :
    (type.mapParts replace).isSealed = type.isSealed := by
  cases type <;> rfl

theorem isSealed_of_sameAs (same : left.sameAs right = true) :
    left.isSealed = right.isSealed := by
  cases left <;> cases right <;> first | rfl | cases same

/-- The types that are met when the given ones are compared: their parts, seen through
names on every level, with `unknown` for a missing type and a literal for the name of an
entry. -/
inductive Met (imports : Imports) (roots : List Ty) : Ty → Prop
  | root {type : Ty} : type ∈ roots → Met imports roots type
  | seen {type : Ty} : Met imports roots type → Met imports roots (type.expand.answer imports)
  | part {type part : Ty} :
      Met imports roots type → type.isNamed = false → part ∈ type.parts → Met imports roots part
  | unknown : Met imports roots .unknown
  | entryName (name : String) : Met imports roots (.stringLiteral name)

/-- Names can be told from what is written: among the types that are met, those written
alike are alike, and nothing that tells types apart depends on how they are named. -/
structure NamedClearly (imports : Imports) (roots : List Ty) : Prop where
  /-- References that are written alike stand for types that are alike. -/
  one_meaning {left right full other : Ty} {height otherHeight : Nat} :
    Met imports roots left → Met imports roots right → left.isNamed = true →
      left.sameAs right = true → left.StandsFor imports height full →
      right.StandsFor imports otherHeight other → full.sameAs other = true
  /-- Nominal types and type parameters that stand for types that are alike are written
  alike. -/
  one_spelling {left right full other : Ty} {height otherHeight : Nat} :
    Met imports roots left → Met imports roots right → left.isSealed = true →
      right.isSealed = true → left.StandsFor imports height full →
      right.StandsFor imports otherHeight other → full.sameAs other = true →
      left.sameAs right = true
  /-- No entry of an object type is written twice. -/
  distinct_entries {fields : List (Field Ty)} :
    Met imports roots (.object fields) → (fields.map Field.name).Nodup
  /-- No member of a union is a union, not even by name. -/
  flat_unions {members : List Ty} {member : Ty} :
    Met imports roots (.union members) → member ∈ members →
      (member.expand.answer imports).isUnion = false

/-- A type that is met, with what it stands for. -/
structure Paired (imports : Imports) (roots : List Ty) (height : Nat) (type full : Ty) : Prop where
  /-- The type is met. -/
  met : Met imports roots type
  /-- What it stands for. -/
  stands : type.StandsFor imports height full

/-- A type that is met and is no name, with its parts and what they stand for. -/
structure Opened (imports : Imports) (roots : List Ty) (height : Nat) (type : Ty)
    (replace : Ty → Ty) : Prop where
  /-- The type as a whole. -/
  whole : Paired imports roots (height + 1) type (type.mapParts replace)
  /-- It is no name. -/
  not_named : type.isNamed = false
  /-- Its parts. -/
  parts : ∀ part ∈ type.parts, Paired imports roots height part (replace part)

/-- What is seen through a type that is met can be taken apart. -/
theorem Paired.opened (paired : Paired imports roots height type full) :
    ∃ below replace, height = below + 1 ∧ full = (type.expand.answer imports).mapParts replace ∧
      Opened imports roots below (type.expand.answer imports) replace := by
  obtain ⟨below, replace, rfl, rfl, hp⟩ := paired.stands.exists_replace
  have hn : (type.expand.answer imports).isNamed = false := isNamed_expand type
  exact ⟨below, replace, rfl, rfl, ⟨⟨.seen paired.met, paired.stands.expand⟩, hn,
    fun part hm => ⟨.part (.seen paired.met) hn hm, hp part hm⟩⟩⟩

/-- Types that are written alike stand for types that are alike. -/
theorem sameAs_full (clear : NamedClearly imports roots)
    (hl : Paired imports roots height left full)
    (hr : Paired imports roots otherHeight right other) (same : left.sameAs right = true) :
    full.sameAs other = true := by
  induction height generalizing left right full other otherHeight with
  | zero => cases hl.stands.1
  | succ height ih =>
    cases hn : left.isNamed with
    | true => exact clear.one_meaning hl.met hr.met hn same hl.stands hr.stands
    | false =>
      obtain ⟨below, replace, hh, rfl, opened⟩ := hl.opened
      obtain ⟨under, change, -, rfl, others⟩ := hr.opened
      cases hh
      rw [expand_of_not_named hn] at opened ⊢
      rw [expand_of_not_named (isNamed_of_sameAs same ▸ hn)] at others ⊢
      have hs := sameAs_iff.mp same
      refine sameAs_iff.mpr ⟨by simpa using hs.1, ?_⟩
      rw [parts_mapParts, parts_mapParts, forall₂_map_left_iff, forall₂_map_right_iff]
      exact forall₂_imp_of_mem hs.2 fun first hf second hg =>
        ih (opened.parts first hf) (others.parts second hg)

end Ty

end ScriptCheck
