import ScriptCheck.Proofs.Comparison
import ScriptCheck.Proofs.Transplant

/-!
# Comparisons after a change

Types are seen through, compared and matched by way of the names in them. If the names that come
up stand for the same after a change, all this gives the same after it.
-/

namespace ScriptCheck

open Movable (move)
open Inquiry (Transfers)
open List

variable {graft : Transplant} {type : Ty} {destination value : Ty}

/-- The type that a name was found to be, if it is one, has come up. -/
def Transplant.WritesLookup (graft : Transplant) (lookup : Lookup) : Prop :=
  ∀ type params, lookup = .ok (.type type params) →
    graft.Writes type ∧ ∀ bound ∈ slotTypes params, graft.Writes bound

/-- The names of types that come up stand for the same after the change. -/
def Transplant.KeepsTypeNames (graft : Transplant) : Prop :=
  ∀ name origin, graft.allowed (.name name origin) →
    Transfers graft (origin.resolveIn name .type) ((move graft origin).resolveIn name .type)
      graft.WritesLookup

namespace Ty

section Names

variable (names : graft.KeepsTypeNames)

include names

/-- Aliases open to the moved types: by induction on how many may be opened. -/
theorem expandWithin_transfers (limit : Nat) (written : graft.Writes type) :
    Transfers graft (type.expandWithin limit) ((move graft type).expandWithin limit)
      graft.Writes := by
  induction limit generalizing type with
  | zero => exact .pure (by simp) rfl
  | succ limit ih =>
    cases type with
    | named name args origin =>
      have hw := formed_named.mp written
      rw [move_named]
      refine .bind (names name origin hw.1) fun lookup hl => ?_
      match lookup with
      | .ok (.type type params) =>
        have hf := hl type params rfl
        have rest := ih (hf.1.substitute (.argumentBindings hf.2 hw.2))
        rw [← substitute_move, ← argumentBindings_move] at rest
        exact rest
      | .ok (.declared _) | .ok (.parameter _ _) | .ok (.importedModule _) | .ok (.loopItem _)
      | .error _ => exact .pure (by simp) rfl
    | _ => exact .pure written rfl

/-- A type is seen as the moved type after the change. -/
theorem expand_transfers (written : graft.Writes type) :
    Transfers graft type.expand (move graft type).expand graft.Writes :=
  expandWithin_transfers names expansionLimit written

/-- One side of a comparison is seen through its bound alike. -/
theorem resolveSide_transfers (throughGenerics : Bool) (written : graft.Writes type) :
    Transfers graft (type.resolveSide throughGenerics)
      ((move graft type).resolveSide throughGenerics) graft.Writes := by
  refine .bind (expand_transfers names written) fun seen hs => ?_
  cases seen with
  | generic name bound =>
    rw [move_generic]
    refine .ite .rfl (fun _ => ?_) fun _ => .pure hs (move_generic _ name bound).symm
    cases bound with
    | none => exact .pure (by simp) rfl
    | some bound => exact expand_transfers names (formed_generic.mp hs bound rfl)
  | _ => exact .pure hs rfl

end Names

/-- What comparisons of a type come to corresponds to what they come to after the change. -/
theorem corresponds_move (written : graft.Writes type) :
    Corresponds (fun part moved => graft.Writes part ∧ moved = move graft part) type
      (move graft type) := by
  have all {members : List Ty} (hm : ∀ member ∈ members, graft.Writes member) :
      Forall₂ (fun part moved => graft.Writes part ∧ moved = move graft part) members
        (members.map (move graft)) :=
    forall₂_map_right_iff.mpr (forall₂_same.mpr fun _ hp => ⟨hm _ hp, rfl⟩)
  have slots {params : List (Slot Ty)} (hs : ∀ type ∈ slotTypes params, graft.Writes type) :
      Forall₂ (Slot.Corresponds fun part moved =>
        graft.Writes part ∧ moved = move graft part) params
        (params.map (move graft)) :=
    forall₂_map_right_iff.mpr (forall₂_same.mpr fun slot hp =>
      ⟨.typeOrUnknown hs hp, Slot.typeOrUnknown_move graft slot⟩)
  cases type with
  | union members =>
    rw [move_union]
    refine .union (all written.parts) ?_
    rw [flattenList_move]
    exact all (.flattenList fun member hm => (written.parts member hm).inside)
  | tuple elements =>
    rw [move_tuple]
    exact .tuple (all (formed_tuple.mp written))
  | object fields =>
    rw [move_object]
    exact .object (forall₂_map_right_iff.mpr (forall₂_same.mpr fun field hf =>
      ⟨rfl, rfl, ⟨formed_object.mp written field hf, rfl⟩, ⟨formed_literal, rfl⟩⟩))
  | indexer =>
    have hw := formed_indexer.mp written
    exact .indexer ⟨hw.1, rfl⟩ ⟨hw.2, rfl⟩
  | func typeParams params result =>
    have hw := formed_func.mp written
    rw [move_func]
    exact .func _ _ (slots hw.2.1) ⟨hw.2.2, rfl⟩
  | proc typeParams params =>
    rw [move_proc]
    exact .proc _ _ (slots (formed_proc.mp written).2)
  | generic name bound =>
    rw [move_generic]
    cases bound with
    | none => exact .free name name
    | some bound => exact .bounded name name ⟨formed_generic.mp written bound rfl, rfl⟩
  | array => exact .array ⟨formed_array.mp written, rfl⟩
  | iterator => exact .iterator ⟨formed_iterator.mp written, rfl⟩
  | plan => exact .plan ⟨formed_plan.mp written, rfl⟩
  | readonly => exact .readonly ⟨formed_readonly.mp written, rfl⟩
  | literal value => cases value <;> constructor
  | string | number | boolean | nil | unknown | any | escape | named | nominal | store => constructor

/-- One step of a comparison gives the same if the comparisons it asks for do. -/
theorem subsumesStep_transfers
    (subs : ∀ destination value, graft.Writes destination → graft.Writes value →
      Transfers graft (sub destination value)
        (sub' (move graft destination) (move graft value)) fun _ => True)
    (hd : graft.Writes destination) (hv : graft.Writes value) :
    Transfers graft (subsumesStep sub destination value)
      (subsumesStep sub' (move graft destination) (move graft value))
      fun _ => True := by
  unfold subsumesStep
  rw [sameAs_move]
  refine .ite .rfl (fun _ => .pure trivial rfl) fun _ => ⟨trivial, Eq.symm ?_⟩
  refine subsumesByRule_congr (corresponds_move hd) (corresponds_move hv) ⟨?_, ?_, ?_, ?_⟩
  · rintro part _ member _ ⟨hp, rfl⟩ ⟨hm, rfl⟩
    exact (subs part member hp hm).moved.symm
  · rintro part _ member _ ⟨hp, rfl⟩ ⟨hm, rfl⟩
    exact (subs member part hm hp).moved.symm
  · rintro part _ - ⟨hp, rfl⟩
    exact (subs part value hp hv).moved.symm
  · rintro member _ - ⟨hm, rfl⟩
    exact (subs destination member hd hm).moved.symm

section Subsumption

variable (names : graft.KeepsTypeNames)

include names

/-- Comparisons give the same: the pairs under way are moved along with the types. -/
theorem subsumesWithin_transfers (throughGenerics : Bool) (limit : Nat) (pending : List (Ty × Ty))
    (destination value : Ty) (hd : graft.Writes destination) (hv : graft.Writes value) :
    Transfers graft (subsumesWithin throughGenerics limit pending destination value)
      (subsumesWithin throughGenerics limit (pending.map (move graft))
        (move graft destination) (move graft value)) fun _ => True := by
  induction limit generalizing pending destination value with
  | zero => exact .pure trivial rfl
  | succ limit ih =>
    have underWay (byName : Bool) :
        (if byName then (move graft destination, move graft value) ::
            pending.map (move graft) else pending.map (move graft)) =
          (if byName then (destination, value) :: pending else pending).map (move graft) := by
      cases byName <;> rfl
    simp only [subsumesWithin, isNamed_move, any_map, Function.comp_def, move_fst, move_snd,
      sameAs_move, underWay]
    refine .ite .rfl (fun _ => .pure trivial rfl) fun _ => ?_
    refine .bind (resolveSide_transfers names throughGenerics hd) fun destinationSide hd => ?_
    refine .bind (resolveSide_transfers names throughGenerics hv) fun valueSide hv => ?_
    exact subsumesStep_transfers (fun destination value => ih _ destination value) hd hv

/-- A type takes another one exactly if it does after the change. -/
theorem subsumes_transfers (hd : graft.Writes destination) (hv : graft.Writes value)
    (throughGenerics : Bool) : Transfers graft (destination.subsumes value throughGenerics)
      ((move graft destination).subsumes (move graft value) throughGenerics)
      fun _ => True :=
  subsumesWithin_transfers names throughGenerics comparisonLimit [] destination value hd hv

/-- The same members are left when a type is taken away. -/
theorem survives_transfers (hr : graft.Writes removed) (hm : graft.Writes member) :
    Transfers graft (survives removed member)
      (survives (move graft removed) (move graft member)) fun _ => True := by
  have tried : Transfers graft (do return !(← removed.subsumes member false))
      (do return !(← (move graft removed).subsumes (move graft member) false))
      fun _ => True :=
    .bind (subsumes_transfers names hr hm false) fun fits _ => .pure trivial rfl
  cases member with
  | any | unknown => exact .pure trivial rfl
  | _ => exact tried

/-- What is left of a type is moved. -/
theorem subtract_transfers (ht : graft.Writes type) (hr : graft.Writes removed) :
    Transfers graft (type.subtract removed)
      ((move graft type).subtract (move graft removed)) graft.WritesInside := by
  refine .bind (expand_transfers names ht) fun outer ho => ?_
  rw [flatten_move]
  have members : ∀ member ∈ outer.flatten, Transfers graft
      (member.expand >>= fun seen => seen.flatten.filterM (survives removed))
      ((move graft member).expand >>= fun seen =>
        seen.flatten.filterM (survives (move graft removed)))
      fun left => ∀ part ∈ left, graft.Writes part := by
    intro member hm
    refine .bind (expand_transfers names (ho.flatten member hm)) fun seen hs => ?_
    rw [flatten_move]
    have kept := Transfers.filterM fun part hp => survives_transfers names hr (hs.flatten part hp)
    exact kept.mono fun left hl part hp => hs.flatten part (hl.subset hp)
  -- A member may be left twice, so that the members are known to be in normal form, but not the union.
  refine .bind (.mapM members) fun left hl => .pure (.collapse fun part hp => ?_) ?_
  · obtain ⟨parts, hm, hp⟩ := mem_flatten.mp hp
    exact hl parts hm part hp
  · rw [← collapse_move, map_flatten]
    rfl

/-- A member is covered by the others exactly if the moved member is. -/
theorem isCovered_transfers (hs : ∀ row ∈ members, graft.Writes row.1)
    (hm : graft.Writes member.1) :
    Transfers graft (isCovered members member)
      (isCovered (members.map (move graft)) (move graft member)) fun _ => True := by
  refine .anyM fun other ho => .ite .rfl (fun _ => .pure trivial rfl) fun _ => ?_
  refine .bind (subsumes_transfers names (hs other ho) hm false) fun covers _ => ?_
  refine .ite .rfl (fun _ => ?_) fun _ => .pure trivial rfl
  refine .ite .rfl (fun _ => .pure trivial rfl) fun _ => ?_
  exact .bind (subsumes_transfers names hm (hs other ho) false) fun back _ => .pure trivial rfl

/-- The union of moved types is the moved union. -/
theorem distillUnion_transfers (ht : ∀ type ∈ types, graft.WritesInside type) :
    Transfers graft (distillUnion types) (distillUnion (types.map (move graft))) graft.Writes := by
  have union : graft.Writes (unionOf types) := .unionOf ht
  have rows : ∀ row ∈ (unionOf types).flatten.zipIdx, graft.Writes row.1 := fun row hr =>
    union.flatten row.1 (fst_mem_of_mem_zipIdx hr)
  unfold distillUnion
  rw [unionOf_move, flatten_move, zipIdx_move]
  refine .bind (.filterM fun member hm => ?_) fun kept hk => .pure ?_ ?_
  · exact .bind (isCovered_transfers names rows (rows member hm)) fun covered _ => .pure trivial rfl
  · -- What is kept stands in the order of the union.
    have among := hk.map Prod.fst
    rw [zipIdx_map_fst] at among
    exact union.collapse_sublist among
  · rw [← collapse_move, map_map, move_list, map_map]
    rfl

end Subsumption

section Matching

/-- Bindings to types that come up. -/
def BindsWritten (graft : Transplant) (bound : Bindings) : Prop :=
  ∀ binding ∈ bound, graft.Writes binding.2

variable (keeps : graft.KeepsTypeNames) (names : List String)

section Walks

variable {walk walk' : Walk} (walks : ∀ param arg bound,
  graft.Writes param → graft.Writes arg → BindsWritten graft bound →
    Transfers graft (walk param arg bound)
      (walk' (move graft param) (move graft arg) (bound.map (move graft)))
      (BindsWritten graft))

include walks

/-- Pairs are matched one after the other with the moved bindings. -/
theorem walkPairs_transfers (hp : ∀ pair ∈ pairs, graft.Writes pair.1 ∧ graft.Writes pair.2)
    (hb : BindsWritten graft bound) :
    Transfers graft (walkPairs walk pairs bound)
      (walkPairs walk' (pairs.map (move graft)) (bound.map (move graft)))
      (BindsWritten graft) :=
  .foldlM hb fun found pair hf hm => walks pair.1 pair.2 found (hp pair hm).1 (hp pair hm).2 hf

omit walks in
/-- Types that are paired have all come up. -/
theorem zip_written {lefts rights : List Ty} (hl : ∀ type ∈ lefts, graft.Writes type)
    (hr : ∀ type ∈ rights, graft.Writes type) :
    ∀ pair ∈ lefts.zip rights, graft.Writes pair.1 ∧ graft.Writes pair.2 :=
  fun _ hp => (of_mem_zip hp).imp (hl _) (hr _)

include keeps

/-- The one member with type parameters is matched with the moved rest of the argument. -/
theorem matchUnion_transfers (hm : ∀ member ∈ members, graft.Writes member)
    (ha : graft.Writes arg) (hb : BindsWritten graft bound) :
    Transfers graft (matchUnion names walk members arg bound)
      (matchUnion names walk' (members.map (move graft)) (move graft arg)
        (bound.map (move graft))) (BindsWritten graft) := by
  unfold matchUnion
  simp only [filter_map, Function.comp_def, mentions_move, flatten_move]
  have hf : ∀ member ∈ members.filter (·.mentions names), graft.Writes member :=
    fun member hf => hm member (mem_filter.mp hf).1
  generalize members.filter (·.mentions names) = mentioning at hf
  match mentioning with
  | [] | _ :: _ :: _ => exact .pure hb rfl
  | [member] =>
    refine .bind (.filterM fun part hp => ?_) fun rest hr => ?_
    · refine .bind (.anyM fun other ho => ?_) fun covered _ => .pure trivial rfl
      exact subsumes_transfers keeps (hm other (mem_filter.mp ho).1) (ha.flatten part hp) false
    · refine .ite (by rw [move_list, isEmpty_map]) (fun _ => .pure hb rfl) fun _ => ?_
      rw [move_list, collapse_move]
      exact walks member _ bound (hf member mem_cons_self) (ha.collapse_sublist hr) hb

section

variable {bound : Bindings} {param arg : Ty} (hp : graft.Writes param) (ha : graft.Writes arg)
  (hb : BindsWritten graft bound)
include hp ha hb

/-- Types of one shape are matched by their parts. -/
theorem matchShapes_transfers : Transfers graft (matchShapes names walk param arg bound)
      (matchShapes names walk' (move graft param) (move graft arg)
        (bound.map (move graft))) (BindsWritten graft) := by
  fun_cases matchShapes names walk param arg bound
  case case1 members =>
    have transfers := matchUnion_transfers keeps names walks hp.parts ha hb
    rw [move_union]
    cases arg <;> exact transfers
  case case2 => exact walks _ _ bound (formed_array.mp hp) (formed_array.mp ha) hb
  case case3 => exact walks _ _ bound (formed_iterator.mp hp) (formed_iterator.mp ha) hb
  case case4 => exact walks _ _ bound (formed_plan.mp hp) (formed_plan.mp ha) hb
  case case5 => exact walks _ _ bound (formed_readonly.mp hp) (formed_readonly.mp ha) hb
  case case6 inner _ =>
    have transfers := walks inner arg bound (formed_readonly.mp hp) ha hb
    cases arg <;> first | exact transfers | (exfalso; solve_by_elim)
  case case7 inner items none =>
    rw [move_array, move_tuple, matchShapes, isEmpty_map, if_pos none]
    exact .pure hb rfl
  case case8 inner items some =>
    rw [move_array, move_tuple, matchShapes, isEmpty_map, if_neg some, unionOf_move]
    exact walks inner _ bound (formed_array.mp hp) (.unionOf fun item hi =>
      (formed_tuple.mp ha item hi).inside) hb
  case case9 params args =>
    rw [move_tuple, move_tuple, matchShapes, zip_move]
    exact walkPairs_transfers walks (zip_written (formed_tuple.mp hp) (formed_tuple.mp ha)) hb
  case case10 params args =>
    rw [move_object, move_object, matchShapes, fieldPairs_move]
    exact walkPairs_transfers walks
      (Formed.fieldPairs (formed_object.mp hp) (formed_object.mp ha)) hb
  case case11 key value otherKey otherValue =>
    have hp := formed_indexer.mp hp
    have ha := formed_indexer.mp ha
    have pairs : ∀ pair ∈ [(key, otherKey), (value, otherValue)],
        graft.Writes pair.1 ∧ graft.Writes pair.2 := by simp [hp, ha]
    exact walkPairs_transfers walks pairs hb
  case case12 typeParams params result otherTypeParams args other =>
    have hp := formed_func.mp hp
    have ha := formed_func.mp ha
    have pairs : ∀ pair ∈ slotPairs params args ++ [(result, other)],
        graft.Writes pair.1 ∧ graft.Writes pair.2 := by
      rw [forall_mem_append]
      exact ⟨Formed.slotPairs hp.2.1 ha.2.1, by simp [hp.2.2, ha.2.2]⟩
    have transfers := walkPairs_transfers walks pairs hb
    rw [move_func, move_func, matchShapes, slotPairs_move]
    rw [map_append] at transfers
    exact transfers
  case case13 typeParams params otherTypeParams args =>
    rw [move_proc, move_proc, matchShapes, slotPairs_move]
    exact walkPairs_transfers walks
      (Formed.slotPairs (formed_proc.mp hp).2 (formed_proc.mp ha).2) hb
  case case14 =>
    have hp := sameKind_move graft param
    have ha := sameKind_move graft arg
    generalize move graft param = other, move graft arg = given at hp ha ⊢
    fun_cases matchShapes names walk' other given (bound.map (move graft))
    case case14 => exact .pure hb rfl
    all_goals
      exfalso
      first
        | (cases hp; solve_by_elim)
        | (cases hp; cases ha; solve_by_elim)

/-- Aliases are matched by name or opened, as before the change. -/
theorem matchNames_transfers : Transfers graft (matchNames names walk param arg bound)
      (matchNames names walk' (move graft param) (move graft arg)
        (bound.map (move graft))) (BindsWritten graft) := by
  have opening (type : Ty) (ht : graft.Writes type) (next next' : Ty → Inquiry Bindings)
      (nexts : ∀ opened, graft.Writes opened →
        Transfers graft (next opened) (next' (move graft opened)) (BindsWritten graft)) :
      Transfers graft (do
          let opened ← type.expand
          if opened.isOpened then next opened else return bound)
        (do
          let opened ← (move graft type).expand
          if opened.isOpened then next' opened else return bound.map (move graft))
        (BindsWritten graft) :=
    .bind (expand_transfers keeps ht) fun opened ho =>
      .ite (by rw [isOpened_move]) (fun _ => nexts opened ho) fun _ => .pure hb rfl
  fun_cases matchNames names walk param arg bound
  case case1 params _ name args _ =>
    rw [move_named, move_named, matchNames, if_pos rfl, zip_move]
    exact walkPairs_transfers walks (zip_written (formed_named.mp hp).2 (formed_named.mp ha).2) hb
  case case2 name params origin otherName args other differ =>
    have transfers := opening (.named name params origin) hp
      (walk · (.named otherName args other) bound)
      (walk' · (move graft (.named otherName args other)) (bound.map (move graft)))
      fun opened ho => walks opened _ bound ho ha hb
    rw [move_named, move_named] at transfers ⊢
    rw [matchNames, if_neg differ]
    exact transfers
  case case3 name params origin _ =>
    have transfers := opening (.named name params origin) hp (walk · arg bound)
      (walk' · (move graft arg) (bound.map (move graft)))
      fun opened ho => walks opened arg bound ho ha hb
    cases arg <;> first | exact transfers | (exfalso; solve_by_elim)
  case case4 name args origin _ =>
    have transfers := opening (.named name args origin) ha (walk param · bound)
      (walk' (move graft param) · (bound.map (move graft)))
      fun opened ho => walks param opened bound hp ho hb
    cases param <;> first | exact transfers | (exfalso; solve_by_elim)
  case case5 =>
    have transfers := matchShapes_transfers keeps names walks hp ha hb
    have hp := sameKind_move graft param
    have ha := sameKind_move graft arg
    generalize move graft param = other, move graft arg = given at transfers hp ha ⊢
    fun_cases matchNames names walk' other given (bound.map (move graft))
    case case5 => exact transfers
    all_goals
      exfalso
      first
        | (cases hp; solve_by_elim)
        | (cases ha; solve_by_elim)

end

end Walks

include keeps

/-- Matching binds the moved types: by induction on the depth that is left. -/
theorem matchWithin_transfers (limit : Nat) (param arg : Ty) (bound : Bindings)
    (hp : graft.Writes param) (ha : graft.Writes arg)
    (hb : BindsWritten graft bound) :
    Transfers graft (matchWithin names limit param arg bound)
      (matchWithin names limit (move graft param) (move graft arg)
        (bound.map (move graft))) (BindsWritten graft) := by
  induction limit generalizing param arg bound with
  | zero => exact .pure hb rfl
  | succ limit ih =>
    have transfers := matchNames_transfers keeps names ih hp ha hb
    cases param with
    | generic name bound' =>
      rw [move_generic] at transfers ⊢
      exact .ite .rfl (fun _ => .pure (.bindFirst hb ha name) (bindFirst_move bound name arg))
        fun _ => transfers
    | _ => exact transfers

/-- A parameter type is matched with the moved argument type to the moved bindings. -/
theorem matchGenerics_transfers (hp : graft.Writes param) (ha : graft.Writes arg)
    (hb : BindsWritten graft bound) :
    Transfers graft (matchGenerics names param arg bound)
      (matchGenerics names (move graft param) (move graft arg)
        (bound.map (move graft))) (BindsWritten graft) :=
  matchWithin_transfers keeps names (comparisonLimit + 1) param arg bound hp ha hb

end Matching

end Ty

section Operators

variable (names : graft.KeepsTypeNames) {left right : Ty}

include names

/-- An overload whose types stay as they are takes the same operands. -/
theorem Overload.accepts_transfers {overload : Overload}
    (hl : move graft overload.left = overload.left ∧ graft.Writes overload.left)
    (hr : move graft overload.right = overload.right ∧ graft.Writes overload.right)
    (written : graft.Writes left) (other : graft.Writes right) :
    Transfers graft (overload.accepts left right)
      (overload.accepts (move graft left) (move graft right)) fun _ => True := by
  have first := Ty.subsumes_transfers names hl.2 written true
  have second := Ty.subsumes_transfers names hr.2 other true
  rw [hl.1] at first
  rw [hr.1] at second
  exact .bind first fun fits _ => .ite .rfl (fun _ => second) fun _ => .pure trivial rfl

/-- An operation has the moved type, by the first overload that takes the operands. -/
theorem BinaryOperator.operationType?_transfers (operator : BinaryOperator) (hl : graft.Writes left)
    (hr : graft.Writes right) : Transfers graft (operator.operationType? left right)
      (operator.operationType? (move graft left) (move graft right))
      fun found => ∀ type ∈ found, graft.Writes type := by
  -- what operators take and give refers to no node
  have fixed : ∀ overload ∈ operator.overloads,
      (move graft overload.left = overload.left ∧ graft.Writes overload.left) ∧
      (move graft overload.right = overload.right ∧ graft.Writes overload.right) ∧
        move graft overload.result = overload.result ∧ graft.Writes overload.result := by
    cases operator <;> simp [BinaryOperator.overloads]
  refine .firstAnswer fun overload ho => ?_
  obtain ⟨takes, alsoTakes, gives, written⟩ := fixed overload ho
  refine .bind (Overload.accepts_transfers names takes alsoTakes hl hr) fun accepted _ => ?_
  refine .ite .rfl (fun _ => .pure ?_ (congrArg some gives.symm)) fun _ => .pure (by simp) rfl
  rintro type ⟨⟩
  exact written

end Operators

end ScriptCheck
