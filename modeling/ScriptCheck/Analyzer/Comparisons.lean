import ScriptCheck.Analyzer.Names
import ScriptCheck.Inference.Matching
import ScriptCheck.Inference.Operators

/-!
# An analyzer compares types

A comparison counts how many comparisons are under way inside each other, and a comparison of
names records itself. It ends at once, with nothing recorded, if it nests too deep or is under
way already.
-/

namespace ScriptCheck.Analyzer

/-- One side of a comparison after seeing through names, and through type parameters to their
bounds where that is asked for. -/
def resolveSide (throughGenerics : Bool) (type : Ty) : Asking Ty := do
  match ← expand type with
  | .generic name bound =>
    if throughGenerics then
      match bound with
      | some bound => expand bound
      | none => return .unknown
    else return .generic name bound
  | other => return other

/-- Whether a value of the one type may be used where the other is expected. The comparisons
inside each other are counted and come to an end before `fuel` does. -/
def compare (throughGenerics : Bool) : Nat → Ty → Ty → Asking Bool
  | 0, _, _ => return false
  | fuel + 1, destination, value => do
    let guards ← get
    if comparisonLimit ≤ guards.depth then return false
    else
      let byName := destination.isNamed || value.isNamed
      if byName && guards.comparing.any fun pair =>
          pair.1.sameAs destination && pair.2.sameAs value then return true
      else
        let sides : Asking Bool := countedFrom guards.depth do
          let destinationSide ← resolveSide throughGenerics destination
          let valueSide ← resolveSide throughGenerics value
          Ty.subsumesStep (compare throughGenerics fuel) destinationSide valueSide
        if byName then comparing destination value sides else sides

/-- Whether a value of the one type may be used where the other is expected. -/
def subsumes (destination value : Ty) (throughGenerics : Bool) : Asking Bool :=
  compare throughGenerics (comparisonLimit + 1) destination value

/-- Whether removing a type leaves a union member alone. -/
def survives (removed member : Ty) : Asking Bool := do
  match member with
  | .any => return true
  | .unknown => return true
  | _ => return !(← subsumes removed member false)

/-- The members of a type that another type does not cover. -/
def subtract (type removed : Ty) : Asking Ty := do
  let outer := (← expand type).flatten
  let left ← outer.mapM fun member => do
    (← expand member).flatten.filterM (survives removed)
  return .collapse left.flatten

/-- Whether a member of a union is covered by another. -/
def isCovered (members : List (Ty × Nat)) (member : Ty × Nat) : Asking Bool :=
  members.anyM fun other => do
    if other.2 = member.2 then return false
    else if ← subsumes other.1 member.1 false then
      if other.2 < member.2 then return true
      else return !(← subsumes member.1 other.1 false)
    else return false

/-- The union of types without the members that others cover. -/
def distillUnion (types : List Ty) : Asking Ty := do
  let members := (Ty.unionOf types).flatten.zipIdx
  let kept ← members.filterM fun member => do return !(← isCovered members member)
  return .collapse (kept.map Prod.fst)

/-- Whether an overload accepts two operands. -/
def accepts (overload : Overload) (left right : Ty) : Asking Bool := do
  if ← subsumes overload.left left true then subsumes overload.right right true
  else return false

/-- The type of an operation, if the operator can be applied to the operands. -/
def operationType? (operator : BinaryOperator) (left right : Ty) : Asking (Option Ty) :=
  firstAnswer (fun overload => do
    if ← accepts overload left right then return some overload.result
    else return none) operator.overloads

/-- A walk over two types side by side that adds to the bindings found so far. -/
abbrev Walk := Ty → Ty → Bindings → Asking Bindings

/-- Walks over pairs of types, one after another. -/
def walkPairs (walk : Walk) (pairs : List (Ty × Ty)) (bound : Bindings) : Asking Bindings :=
  pairs.foldlM (fun found pair => walk pair.1 pair.2 found) bound

/-- Matching of a union parameter. -/
def matchUnion (names : List String) (walk : Walk) (members : List Ty) (arg : Ty)
    (bound : Bindings) : Asking Bindings := do
  let concrete := members.filter fun member => !member.mentions names
  match members.filter (·.mentions names) with
  | [member] =>
    let rest ← arg.flatten.filterM fun part => do
      return !(← concrete.anyM fun other => subsumes other part false)
    if rest.isEmpty then return bound else walk member (.collapse rest) bound
  | _ => return bound

/-- Matching of types of which neither is a reference by name. -/
def matchShapes (names : List String) (walk : Walk) (param arg : Ty) (bound : Bindings) :
    Asking Bindings :=
  match param, arg with
  | .union members, arg => matchUnion names walk members arg bound
  | .array param, .array arg => walk param arg bound
  | .iterator param, .iterator arg => walk param arg bound
  | .plan param, .plan arg => walk param arg bound
  | .readonly param, .readonly arg => walk param arg bound
  | .readonly param, arg => walk param arg bound
  | .array param, .tuple items =>
    if items.isEmpty then return bound else walk param (.unionOf items) bound
  | .tuple params, .tuple args => walkPairs walk (params.zip args) bound
  | .object params, .object args => walkPairs walk (Ty.fieldPairs params args) bound
  | .indexer paramKey paramValue, .indexer argKey argValue =>
    walkPairs walk [(paramKey, argKey), (paramValue, argValue)] bound
  | .func _ params paramResult, .func _ args argResult =>
    walkPairs walk (Ty.slotPairs params args ++ [(paramResult, argResult)]) bound
  | .proc _ params, .proc _ args => walkPairs walk (Ty.slotPairs params args) bound
  | _, _ => return bound

/-- Matching of any types other than a type parameter that is looked for. -/
def matchNames (names : List String) (walk : Walk) (param arg : Ty) (bound : Bindings) :
    Asking Bindings := do
  match param, arg with
  | .named paramName paramArgs _, .named argName argArgs _ =>
    if paramName = argName then walkPairs walk (paramArgs.zip argArgs) bound
    else
      let opened ← expand param
      if opened.isOpened then walk opened arg bound else return bound
  | .named _ _ _, _ =>
    let opened ← expand param
    if opened.isOpened then walk opened arg bound else return bound
  | _, .named _ _ _ =>
    let opened ← expand arg
    if opened.isOpened then walk param opened bound else return bound
  | _, _ => matchShapes names walk param arg bound

/-- Matching with at most `limit` walks inside each other. -/
def matchWithin (names : List String) : Nat → Walk
  | 0, _, _, bound => return bound
  | limit + 1, param, arg, bound =>
    let walk := matchWithin names limit
    match param with
    | .generic name _ =>
      if names.contains name then return Ty.bindFirst bound name arg
      else matchNames names walk param arg bound
    | _ => matchNames names walk param arg bound

/-- Adds to the bindings what the argument says about the type parameters named. -/
def matchGenerics (names : List String) : Walk := matchWithin names (comparisonLimit + 1)

end ScriptCheck.Analyzer
