import ScriptCheck.Proofs.Lookups
import ScriptCheck.Proofs.Moving

/-!
# Questions asked after a change

Where scripts are replaced by others, the questions that were asked about nodes are asked about
the nodes in their place. A question is transferred by the change when its answer is the moved
answer. Which nodes are asked about and which types come up is kept track of on the way, so that
a change need only be harmless for these.
-/

namespace ScriptCheck

open Movable (move)
open List

/-- A change of scripts, and what is asked around it. -/
structure Transplant extends Moving where
  /-- How scripts import each other before the change. -/
  before : Imports
  /-- How scripts import each other after the change. -/
  after : Imports
  /-- Whether what has no answer before the change must have none after it. -/
  exact : Prop
  /-- Nodes whose type expressions are read. -/
  visited : Node → Prop
  /-- What the types that come up refer to. -/
  allowed : Reference → Prop
  /-- Whether all unions in the types that come up are in normal form. -/
  strict : Prop
  /-- Nodes whose types are asked for, in a given situation. -/
  asked : Situation → Node → Prop
  /-- Nodes of which it is asked what is expected of them, in a given situation. -/
  awaited : Situation → Node → Prop
  /-- Situations of the same moment, before and after the change. -/
  together : Situation → Situation → Prop

instance : Coe Transplant Moving := ⟨Transplant.toMoving⟩

/-- The types that come up. -/
abbrev Transplant.Writes (graft : Transplant) (type : Ty) : Prop :=
  type.Formed graft.allowed graft.strict

/-- The types that come up, but that may be unions out of normal form themselves. -/
abbrev Transplant.WritesInside (graft : Transplant) (type : Ty) : Prop :=
  type.FormedInside graft.allowed graft.strict

/-- The second inquiry, made after the change, has the moved answer of the first, which has the
given property. -/
structure Inquiry.Transfers {α : Type} [Movable α] (graft : Transplant)
    (asked again : Inquiry α) (holds : α → Prop) : Prop where
  holds : holds (asked.answer graft.before)
  moved : again.answer graft.after = move graft (asked.answer graft.before)

/-- The second inference, made after the change, reaches the moved answer of the first, which has
the given property. -/
structure Inference.Transfers {α : Type} [Movable α] (graft : Transplant)
    (asked again : Inference α) (holds : α → Prop) : Prop where
  reached : ∀ answer, asked.answer? graft.before = some answer →
    holds answer ∧ again.answer? graft.after = some (move graft answer)
  missed : graft.exact → asked.answer? graft.before = none → again.answer? graft.after = none

section Combinators

variable {α β : Type} [Movable α] [Movable β] {graft : Transplant} [Decidable condition]
  [Decidable condition'] {value moved : α} {start : β}

namespace Inquiry.Transfers

variable {asked again other other' : Inquiry α} {holds : α → Prop} {goal : β → Prop}

theorem pure (hv : holds value) (same : moved = move graft value) :
    Transfers graft (pure value) (pure moved) holds := ⟨hv, same⟩

theorem mono (transfers : Transfers graft asked again holds)
    (weaker : ∀ value, holds value → holds' value) : Transfers graft asked again holds' :=
  ⟨weaker _ transfers.holds, transfers.moved⟩

theorem bind {next next' : α → Inquiry β} (first : Transfers graft asked again holds)
    (then_ : ∀ value, holds value → Transfers graft (next value) (next' (move graft value)) goal) :
    Transfers graft (asked >>= next) (again >>= next') goal := by
  have rest := then_ _ first.holds
  constructor
  · rw [answer_bind]
    exact rest.holds
  · rw [answer_bind, answer_bind, first.moved]
    exact rest.moved

/-- Branches are taken alike where the conditions are the same. -/
theorem ite (same : condition' ↔ condition) (yes : condition → Transfers graft asked again holds)
    (no : ¬condition → Transfers graft other other' holds) :
    Transfers graft (if condition then asked else other)
      (if condition' then again else other') holds := by
  by_cases hc : condition
  · rw [if_pos hc, if_pos (same.mpr hc)]
    exact yes hc
  · rw [if_neg hc, if_neg (mt same.mp hc)]
    exact no hc

section Lists

variable {items : List α}

section

variable {ask ask' : α → Inquiry Bool}
  (asks : ∀ item ∈ items, Transfers graft (ask item) (ask' (move graft item)) fun _ => True)
include asks

theorem anyM : Transfers graft (items.anyM ask) ((items.map (move graft)).anyM ask')
      fun _ => True := by
  refine ⟨trivial, ?_⟩
  rw [answer_anyM, answer_anyM, any_map]
  show items.any _ = items.any _
  rw [Bool.eq_iff_iff, any_eq_true, any_eq_true]
  exact exists_congr fun item => and_congr_right fun hi =>
    iff_of_eq (congrArg (· = true) (asks item hi).moved)

theorem filterM : Transfers graft (items.filterM ask) ((items.map (move graft)).filterM ask')
      fun kept => kept.Sublist items := by
  constructor
  · rw [answer_filterM]
    exact filter_sublist
  · rw [answer_filterM, answer_filterM, filter_map]
    exact congrArg _ (filter_congr fun item hi => (asks item hi).moved)

end

theorem mapM {ask ask' : α → Inquiry β}
    (asks : ∀ item ∈ items, Transfers graft (ask item) (ask' (move graft item)) goal) :
    Transfers graft (items.mapM ask) ((items.map (move graft)).mapM ask')
      fun answers => ∀ answer ∈ answers, goal answer := by
  constructor
  · rw [answer_mapM]
    exact forall_mem_map.mpr fun item hi => (asks item hi).holds
  · rw [answer_mapM, answer_mapM, move_list, map_map, map_map]
    exact map_congr_left fun item hi => (asks item hi).moved

theorem foldlM (hs : goal start) (steps : ∀ state item, goal state → item ∈ items →
      Transfers graft (step state item) (step' (move graft state) (move graft item))
        goal) : Transfers graft (items.foldlM step start)
      ((items.map (move graft)).foldlM step' (move graft start)) goal := by
  induction items generalizing start with
  | nil => exact pure hs rfl
  | cons item rest ih =>
    rw [map_cons, foldlM_cons, foldlM_cons]
    refine (steps start item hs mem_cons_self).bind fun state hs => ih hs ?_
    exact fun state item hs hi => steps state item hs (mem_cons_of_mem _ hi)

end Lists

/-- The first answer is transferred where each question about the same items is. -/
theorem firstAnswer {ask ask' : ι → Inquiry (Option α)} {items : List ι} (asks : ∀ item ∈ items,
      Transfers graft (ask item) (ask' item) fun found => ∀ answer ∈ found, holds answer) :
    Transfers graft (Inquiry.firstAnswer ask items) (Inquiry.firstAnswer ask' items)
      fun found => ∀ answer ∈ found, holds answer := by
  induction items with
  | nil => exact pure (by simp) rfl
  | cons item rest ih =>
    rw [forall_mem_cons] at asks
    refine asks.1.bind fun found hf => ?_
    cases found with
    | none => exact ih asks.2
    | some answer => exact pure hf rfl

end Inquiry.Transfers

namespace Inference.Transfers

variable {asked again other other' : Inference α} {holds : α → Prop} {goal : β → Prop}

theorem pure (hv : holds value) (same : moved = move graft value) :
    Transfers graft (pure value) (pure moved) holds where
  reached answer ha := by
    cases ha
    exact ⟨hv, congrArg some same⟩
  missed _ none := by cases none

theorem lift {asked again : Inquiry α} (transfers : Inquiry.Transfers graft asked again holds) :
    Transfers graft (liftM asked) (liftM again) holds where
  reached answer ha := by
    cases ha
    exact ⟨transfers.holds, congrArg some transfers.moved⟩
  missed _ none := by cases none

theorem bind {next next' : α → Inference β} (first : Transfers graft asked again holds)
    (then_ : ∀ value, holds value → Transfers graft (next value) (next' (move graft value)) goal) :
    Transfers graft (asked >>= next) (again >>= next') goal := by
  cases ha : asked.answer? graft.before with
  | none =>
    constructor
    · intro answer hb
      rw [answer?_bind, ha] at hb
      cases hb
    · intro exact_ _
      rw [answer?_bind, first.missed exact_ ha]
      rfl
  | some value =>
    obtain ⟨hv, moved⟩ := first.reached value ha
    constructor
    · intro answer hb
      rw [answer?_bind, ha] at hb
      rw [answer?_bind, moved]
      exact (then_ value hv).reached answer hb
    · intro exact_ hb
      rw [answer?_bind, ha] at hb
      rw [answer?_bind, moved]
      exact (then_ value hv).missed exact_ hb

/-- What comes to the same answer is transferred alike. -/
theorem of_answers (transfers : Transfers graft asked again holds)
    (before : asked'.answer? graft.before = asked.answer? graft.before)
    (after : again'.answer? graft.after = again.answer? graft.after) :
    Transfers graft asked' again' holds := by
  refine ⟨fun answer ha => ?_, fun exact ha => ?_⟩
  · rw [after]
    exact transfers.reached answer (before ▸ ha)
  · rw [after]
    exact transfers.missed exact (before ▸ ha)

/-- What has no answer is transferred to what has none, and to anything where that is not asked
for. -/
theorem exhausted (missed : graft.exact → again.answer? graft.after = none) :
    Transfers graft .exhausted again holds where
  reached answer ha := by cases ha
  missed exact_ _ := missed exact_

/-- Branches are taken alike where the conditions are the same. -/
theorem ite (same : condition' ↔ condition) (yes : condition → Transfers graft asked again holds)
    (no : ¬condition → Transfers graft other other' holds) :
    Transfers graft (if condition then asked else other)
      (if condition' then again else other') holds := by
  by_cases hc : condition
  · rw [if_pos hc, if_pos (same.mpr hc)]
    exact yes hc
  · rw [if_neg hc, if_neg (mt same.mp hc)]
    exact no hc

theorem mapM {items : List α}
    (asks : ∀ item ∈ items, Transfers graft (ask item) (ask' (move graft item)) goal) :
    Transfers graft (items.mapM ask) ((items.map (move graft)).mapM ask')
      fun answers => ∀ answer ∈ answers, goal answer := by
  induction items with
  | nil => exact pure (by simp) rfl
  | cons item rest ih =>
    rw [forall_mem_cons] at asks
    rw [map_cons, mapM_cons, mapM_cons]
    refine asks.1.bind fun first hf => (ih asks.2).bind fun others ho => pure ?_ rfl
    exact forall_mem_cons.mpr ⟨hf, ho⟩

end Inference.Transfers

end Combinators

end ScriptCheck
