import ScriptCheck.Scope.Resolution

/-!
# Assignability

A destination type subsumes a value type when every value of the latter may be
used where the former is expected. The comparison is structural. Names are seen
through first; a comparison of names that is already under way is taken to hold,
and one that nests too deep is taken to fail.
-/

namespace ScriptCheck

/-- Deepest nesting of comparisons, beyond which the answer is no. -/
def comparisonLimit : Nat := 64

namespace Ty

/-- One side of a comparison after seeing through names, and through type parameters
to their bounds where that is asked for. -/
def resolveSide (throughGenerics : Bool) (type : Ty) : Inquiry Ty := do
  match ← type.expand with
  | .generic name bound =>
    if throughGenerics then
      match bound with
      | some bound => bound.expand
      | none => return .unknown
    else return .generic name bound
  | other => return other

section Rules

-- The rules are the same whoever compares the types inside.
variable {m : Type → Type} [Monad m] (sub : Ty → Ty → m Bool)

/-- Parameters are compared the other way round: each parameter of the value must
accept what the destination passes there. The value may have fewer parameters. -/
def paramsAccept (destination value : List (Slot Ty)) : m Bool :=
  if value.length ≤ destination.length then
    (value.zip destination).allM fun pair => sub pair.1.typeOrUnknown pair.2.typeOrUnknown
  else return false

/-- The rules for types that are neither unions nor readonly, where the two sides
have to be of the same shape. -/
def sameShapeSubsumes (destination value : Ty) : m Bool :=
  match destination, value with
  | .func _ destinationParams destinationResult, .func _ valueParams valueResult => do
    if ← paramsAccept sub destinationParams valueParams then sub destinationResult valueResult
    else return false
  | .proc _ destinationParams, .proc _ valueParams =>
    paramsAccept sub destinationParams valueParams
  | .array destinationElement, .array valueElement => sub destinationElement valueElement
  | .array destinationElement, .tuple valueElements =>
    valueElements.allM (sub destinationElement)
  | .tuple destinationElements, .tuple valueElements =>
    if destinationElements.length = valueElements.length then
      (destinationElements.zip valueElements).allM fun pair => sub pair.1 pair.2
    else return false
  | .object destinationFields, .object valueFields =>
    destinationFields.allM fun wanted =>
      match valueFields.find? (·.name == wanted.name) with
      | some found =>
        if wanted.optional || !found.optional then sub wanted.type found.type else return false
      | none => return wanted.optional
  | .indexer destinationKey destinationValue, .indexer valueKey valueValue => do
    if ← sub destinationKey valueKey then sub destinationValue valueValue else return false
  | .indexer destinationKey destinationValue, .object valueFields =>
    valueFields.allM fun found => do
      if ← sub destinationKey (.stringLiteral found.name) then sub destinationValue found.type
      else return false
  | .iterator destinationInner, .iterator valueInner => sub destinationInner valueInner
  | .plan destinationInner, .plan valueInner => sub destinationInner valueInner
  | destination, .generic _ (some bound) => sub destination bound
  | _, _ => return false

/-- Whether one type subsumes another that is not the same, both seen through names, given
the comparison of the types inside them. The first rule that applies decides. -/
def subsumesByRule (destination value : Ty) : m Bool :=
  match destination, value with
  | .any, _ => return true
  | _, .any => return true
  | .unknown, _ => return true
  | _, .unknown => return false
  | _, .escape => return true
  | .number, .literal (.number _) => return true
  | .string, .literal (.string _) => return true
  | .boolean, .literal (.boolean _) => return true
  | .union targets, .union members =>
    (Ty.flattenList members).allM fun member =>
      (Ty.flattenList targets).anyM fun target => sub target member
  | .union targets, value => targets.anyM fun target => sub target value
  | .readonly destinationInner, .readonly valueInner => sub destinationInner valueInner
  | .readonly destinationInner, value => sub destinationInner value
  | _, .readonly _ => return false
  | destination, .union members => members.allM fun member => sub destination member
  | destination, value => sameShapeSubsumes sub destination value

/-- Whether one type subsumes another, both seen through names, given the comparison of the
types inside them. -/
def subsumesStep (destination value : Ty) : m Bool :=
  if destination.sameAs value then return true else subsumesByRule sub destination value

end Rules

/-- Subsumption with at most `limit` comparisons inside each other. `pending` holds
the comparisons of names that are under way. -/
def subsumesWithin (throughGenerics : Bool) :
    Nat → List (Ty × Ty) → Ty → Ty → Inquiry Bool
  | 0, _, _, _ => return false
  | limit + 1, pending, destination, value =>
    let byName := destination.isNamed || value.isNamed
    if byName && pending.any fun pair => pair.1.sameAs destination && pair.2.sameAs value then
      return true
    else do
      let destinationSide ← destination.resolveSide throughGenerics
      let valueSide ← value.resolveSide throughGenerics
      let underWay := if byName then (destination, value) :: pending else pending
      subsumesStep (subsumesWithin throughGenerics limit underWay)
        destinationSide valueSide

/-- Whether a value of the one type may be used where the other is expected. With
`throughGenerics` a type parameter is compared as its bound. -/
def subsumes (destination value : Ty) (throughGenerics : Bool) :
    Inquiry Bool :=
  subsumesWithin throughGenerics comparisonLimit [] destination value

/-- Whether removing a type leaves a union member alone. What accepts everything is
never removed. -/
def survives (removed member : Ty) : Inquiry Bool := do
  match member with
  | .any => return true
  | .unknown => return true
  | _ => return !(← removed.subsumes member false)

/-- The members of a type that another type does not cover. -/
def subtract (type removed : Ty) : Inquiry Ty := do
  let outer := (← type.expand).flatten
  let left ← outer.mapM fun member => do
    (← member.expand).flatten.filterM (survives removed)
  return .collapse left.flatten

/-- Whether a member of a union is covered by another. Of two members that cover
each other the first one counts as covering. -/
def isCovered (members : List (Ty × Nat)) (member : Ty × Nat) :
    Inquiry Bool :=
  members.anyM fun other => do
    if other.2 = member.2 then return false
    else if ← other.1.subsumes member.1 false then
      if other.2 < member.2 then return true
      else return !(← member.1.subsumes other.1 false)
    else return false

/-- The union of types without the members that others cover. -/
def distillUnion (types : List Ty) : Inquiry Ty := do
  let members := (Ty.unionOf types).flatten.zipIdx
  let kept ← members.filterM fun member => do return !(← isCovered members member)
  return .collapse (kept.map Prod.fst)

end Ty

end ScriptCheck
