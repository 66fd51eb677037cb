import ScriptCheck.Proofs.MirroredNames
import ScriptCheck.Proofs.TransferredComparisons

/-!
# An analyzer compares types without a trace

A comparison in the middle of others goes on from the number and the names of those, which is
what a comparison without an analyzer is told. A comparison that is asked for from outside finds
no others under way.
-/

namespace ScriptCheck.Analyzer

variable {guards : Guards}

section Rules

variable {work : Ty → Ty → Asking Bool} {sub : Ty → Ty → Inquiry Bool}
  (same : ∀ destination value, Mirrors guards (work destination value) (sub destination value))
include same

/-- Parameter lists are compared by their types. -/
theorem paramsAccept_mirrors (destination value : List (Slot Ty)) :
    Mirrors guards (Ty.paramsAccept work destination value)
      (Ty.paramsAccept sub destination value) :=
  .ite (.allM _ fun _ _ => same _ _) (.pure _)

/-- Types of one shape are compared by their parts. -/
theorem sameShapeSubsumes_mirrors (destination value : Ty) :
    Mirrors guards (Ty.sameShapeSubsumes work destination value)
      (Ty.sameShapeSubsumes sub destination value) := by
  fun_cases Ty.sameShapeSubsumes sub destination value
  all_goals simp only [Ty.sameShapeSubsumes]
  case case1 => exact (paramsAccept_mirrors same _ _).bind fun _ => .ite (same _ _) (.pure _)
  case case2 => exact paramsAccept_mirrors same _ _
  case case3 | case10 | case11 | case12 => exact same _ _
  case case4 => exact .allM _ fun _ _ => same _ _
  case case5 he =>
    rw [if_pos he]
    exact .allM _ fun _ _ => same _ _
  case case6 he =>
    rw [if_neg he]
    exact .pure _
  case case7 fields =>
    refine .allM _ fun wanted _ => ?_
    cases fields.find? (·.name == wanted.name) with
    | none => exact .pure _
    | some found => exact .ite (same _ _) (.pure _)
  case case8 => exact (same _ _).bind fun _ => .ite (same _ _) (.pure _)
  case case9 => exact .allM _ fun _ _ => (same _ _).bind fun _ => .ite (same _ _) (.pure _)
  case case13 => exact .pure _

/-- Every rule asks for the same comparisons. -/
theorem subsumesByRule_mirrors (destination value : Ty) :
    Mirrors guards (Ty.subsumesByRule work destination value)
      (Ty.subsumesByRule sub destination value) := by
  fun_cases Ty.subsumesByRule sub destination value
  all_goals simp only [Ty.subsumesByRule]
  case case9 => exact .allM _ fun _ _ => .anyM _ fun _ _ => same _ _
  case case10 => exact .anyM _ fun _ _ => same _ _
  case case11 | case12 => exact same _ _
  case case14 => exact .allM _ fun _ _ => same _ _
  case case15 => exact sameShapeSubsumes_mirrors same _ _
  all_goals exact .pure _

/-- One step of a comparison is the same if the comparisons it asks for are. -/
theorem subsumesStep_mirrors (destination value : Ty) :
    Mirrors guards (Ty.subsumesStep work destination value)
      (Ty.subsumesStep sub destination value) :=
  .ite (.pure _) (subsumesByRule_mirrors same destination value)

end Rules

/-- One side of a comparison is seen through its bound alike. -/
theorem resolveSide_mirrors (free : guards.Free) (throughGenerics : Bool) (type : Ty) :
    Mirrors guards (resolveSide throughGenerics type) (type.resolveSide throughGenerics) := by
  refine (expand_mirrors free type).bind fun opened => ?_
  cases opened with
  | generic name bound =>
    refine .ite ?_ (.pure _)
    cases bound with
    | none => exact .pure _
    | some bound => exact expand_mirrors free bound
  | _ => exact .pure _

/-- The two sides of a comparison are seen through and compared one comparison further inside. -/
theorem sides_mirrors (throughGenerics : Bool) (free : guards.Free)
    (same : ∀ destination value, Mirrors { guards with depth := guards.depth + 1 }
      (work destination value) (sub destination value)) (destination value : Ty) :
    Mirrors guards (countedFrom guards.depth do
      let destinationSide ← resolveSide throughGenerics destination
      let valueSide ← resolveSide throughGenerics value
      Ty.subsumesStep work destinationSide valueSide)
    (do
      let destinationSide ← destination.resolveSide throughGenerics
      let valueSide ← value.resolveSide throughGenerics
      Ty.subsumesStep sub destinationSide valueSide) := by
  have freeInside : Guards.Free { guards with depth := guards.depth + 1 } := free
  refine .during rfl ?_
  refine (resolveSide_mirrors freeInside throughGenerics destination).bind fun _ => ?_
  refine (resolveSide_mirrors freeInside throughGenerics value).bind fun _ => ?_
  exact subsumesStep_mirrors same _ _

/-- The comparisons under way are counted from the outermost one, and those left to make down
from the limit. -/
theorem compare_mirrors (throughGenerics : Bool) (limit : Nat) (hf : limit ≤ fuel)
    (free : guards.Free) (hd : guards.depth + limit = comparisonLimit) (destination value : Ty) :
    Mirrors guards (compare throughGenerics (fuel + 1) destination value)
      (Ty.subsumesWithin throughGenerics limit guards.comparing destination value) := by
  induction limit generalizing fuel guards destination value with
  | zero =>
    refine .get ?_
    rw [if_pos (by omega)]
    exact .pure false
  | succ limit ih =>
    obtain ⟨fuel, rfl⟩ : ∃ less, fuel = less + 1 := ⟨fuel - 1, by omega⟩
    have deeper (under : Guards) (free : under.Free) (hu : under.depth = guards.depth)
        (destination value : Ty) :
        Mirrors { under with depth := under.depth + 1 }
          (compare throughGenerics (fuel + 1) destination value)
          (Ty.subsumesWithin throughGenerics limit under.comparing destination value) := by
      have freeInside : Guards.Free { under with depth := under.depth + 1 } := free
      exact ih (Nat.le_of_succ_le_succ hf) freeInside
        (by show under.depth + 1 + limit = _; omega) destination value
    have inside (under : Guards) (free : under.Free) (hu : under.depth = guards.depth) :=
      sides_mirrors throughGenerics free (deeper under free hu) destination value
    refine .get ?_
    rw [if_neg (by omega)]
    refine .ite (.pure true) ?_
    cases destination.isNamed || value.isNamed with
    | true =>
      have named := inside { guards with comparing := (destination, value) :: guards.comparing }
        free rfl
      exact .during rfl named
    | false => exact inside guards free rfl

/-- No comparisons are under way. -/
def AtRest (guards : Guards) : Prop := guards.comparing = [] ∧ guards.depth = 0

variable (free : guards.Free) (rest : AtRest guards)
include free rest

/-- A comparison from outside finds none under way and leaves none. -/
theorem subsumes_mirrors (destination value : Ty) (throughGenerics : Bool) :
    Mirrors guards (subsumes destination value throughGenerics)
      (destination.subsumes value throughGenerics) := by
  have whole := compare_mirrors throughGenerics comparisonLimit (Nat.le_refl _) free
    (by rw [rest.2, Nat.zero_add]) destination value
  rw [rest.1] at whole
  exact whole

/-- Whether a member is left when a type is taken away. -/
theorem survives_mirrors (removed member : Ty) :
    Mirrors guards (survives removed member) (Ty.survives removed member) := by
  unfold survives Ty.survives
  cases member with
  | any => exact .pure _
  | unknown => exact .pure _
  | _ => exact (subsumes_mirrors free rest _ _ _).bind fun _ => .pure _

/-- What is left of a type. -/
theorem subtract_mirrors (type removed : Ty) :
    Mirrors guards (subtract type removed) (type.subtract removed) := by
  refine (expand_mirrors free type).bind fun outer => ?_
  refine (Mirrors.mapM _ fun member _ => ?_).bind fun _ => .pure _
  exact (expand_mirrors free member).bind fun inner =>
    .filterM _ fun part _ => survives_mirrors free rest removed part

/-- Whether a member is covered by the others. -/
theorem isCovered_mirrors (members : List (Ty × Nat)) (member : Ty × Nat) :
    Mirrors guards (isCovered members member) (Ty.isCovered members member) := by
  have covers (left right : Ty) := subsumes_mirrors free rest left right false
  exact .anyM _ fun other _ => .ite (.pure _) <| (covers _ _).bind fun _ =>
    .ite (.ite (.pure _) ((covers _ _).bind fun _ => .pure _)) (.pure _)

/-- The union of types. -/
theorem distillUnion_mirrors (types : List Ty) :
    Mirrors guards (distillUnion types) (Ty.distillUnion types) := by
  refine (Mirrors.filterM _ fun member _ => ?_).bind fun _ => .pure _
  exact (isCovered_mirrors free rest _ _).bind fun _ => .pure _

/-- Whether an overload takes two operands. -/
theorem accepts_mirrors (overload : Overload) (left right : Ty) :
    Mirrors guards (accepts overload left right) (overload.accepts left right) :=
  (subsumes_mirrors free rest _ _ _).bind fun _ => .ite (subsumes_mirrors free rest _ _ _) (.pure _)

/-- The type of an operation. -/
theorem operationType?_mirrors (operator : BinaryOperator) (left right : Ty) :
    Mirrors guards (operationType? operator left right) (operator.operationType? left right) :=
  firstAnswer_mirrors _ fun overload =>
    (accepts_mirrors free rest overload left right).bind fun _ => .ite (.pure _) (.pure _)

section Walks

variable {work : Walk} {walk : Ty.Walk} {names : List String}
  (same : ∀ param arg bound, Mirrors guards (work param arg bound) (walk param arg bound))
include same

omit free rest in
/-- Pairs are matched in the same order. -/
theorem walkPairs_mirrors (pairs : List (Ty × Ty)) (bound : Bindings) :
    Mirrors guards (walkPairs work pairs bound) (Ty.walkPairs walk pairs bound) :=
  .foldlM _ _ fun found pair _ => same pair.1 pair.2 found

/-- The one member with type parameters is matched with the same rest of the argument. -/
theorem matchUnion_mirrors (members : List Ty) (arg : Ty) (bound : Bindings) :
    Mirrors guards (matchUnion names work members arg bound)
      (Ty.matchUnion names walk members arg bound) := by
  have left (others : List Ty) : Mirrors guards
      (arg.flatten.filterM fun part => do
        return !(← others.anyM fun other => subsumes other part false))
      (arg.flatten.filterM fun part => do
        return !(← others.anyM fun other => other.subsumes part false)) :=
    .filterM _ fun _ _ => (Mirrors.anyM _ fun _ _ => subsumes_mirrors free rest _ _ _).bind
      fun _ => .pure _
  unfold matchUnion Ty.matchUnion
  generalize members.filter (·.mentions names) = mentioning
  match mentioning with
  | [member] => exact (left _).bind fun _ => .ite (.pure _) (same _ _ _)
  | [] => exact .pure _
  | _ :: _ :: _ => exact .pure _

/-- Types of one shape are matched by their parts. -/
theorem matchShapes_mirrors (param arg : Ty) (bound : Bindings) :
    Mirrors guards (matchShapes names work param arg bound)
      (Ty.matchShapes names walk param arg bound) := by
  fun_cases Ty.matchShapes names walk param arg bound
  all_goals simp only [matchShapes]
  case case1 => exact matchUnion_mirrors free rest same _ _ _
  case case2 | case3 | case4 | case5 | case6 => exact same _ _ _
  case case7 he =>
    rw [if_pos he]
    exact .pure _
  case case8 he =>
    rw [if_neg he]
    exact same _ _ _
  case case14 => exact .pure _
  all_goals exact walkPairs_mirrors same _ _

/-- Aliases are matched by name or opened alike. -/
theorem matchNames_mirrors (param arg : Ty) (bound : Bindings) :
    Mirrors guards (matchNames names work param arg bound)
      (Ty.matchNames names walk param arg bound) := by
  fun_cases Ty.matchNames names walk param arg bound
  all_goals simp only [matchNames]
  case case1 =>
    rw [if_pos trivial]
    exact walkPairs_mirrors same _ _
  case case2 he =>
    rw [if_neg he]
    exact (expand_mirrors free _).bind fun _ => .ite (same _ _ _) (.pure _)
  case case3 | case4 => exact (expand_mirrors free _).bind fun _ => .ite (same _ _ _) (.pure _)
  case case5 => exact matchShapes_mirrors free rest same _ _ _

end Walks

/-- Types are matched alike: by induction on the depth that is left. -/
theorem matchWithin_mirrors (names : List String) (limit : Nat) (param arg : Ty)
    (bound : Bindings) :
    Mirrors guards (matchWithin names limit param arg bound)
      (Ty.matchWithin names limit param arg bound) := by
  induction limit generalizing param arg bound with
  | zero => exact .pure _
  | succ limit ih =>
    have walked : Mirrors guards (matchNames names (matchWithin names limit) param arg bound)
        (Ty.matchNames names (Ty.matchWithin names limit) param arg bound) :=
      matchNames_mirrors free rest ih param arg bound
    cases param with
    | generic name inner => exact .ite (.pure _) walked
    | _ => exact walked

/-- A parameter type is matched with an argument type to the same bindings. -/
theorem matchGenerics_mirrors (names : List String) (param arg : Ty) (bound : Bindings) :
    Mirrors guards (matchGenerics names param arg bound) (Ty.matchGenerics names param arg bound) :=
  matchWithin_mirrors free rest names _ param arg bound

end ScriptCheck.Analyzer
