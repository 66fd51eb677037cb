import ScriptCheck.Scope.Subsumption

/-!
# Finding type arguments

The type parameters of a call are found by walking the type of a parameter and
the type of its argument side by side. A type parameter is bound to what stands
at its place in the argument, the first time it is met.
-/

namespace ScriptCheck

/-- Binds a name unless it is bound already. -/
def Ty.bindFirst (bound : Bindings) (name : String) (type : Ty) : Bindings :=
  if bound.any (·.1 == name) then bound else bound ++ [(name, type)]

/-- One binding for each type parameter: what was found for it, else its fallback. -/
def Ty.completeBindings (typeParams : List (Slot Ty)) (bound : Bindings) : Bindings :=
  typeParams.map fun param => (param.name, (bound.lookup param.name).getD param.typeOrUnknown)

/-- The pairs of types at the same place in two parameter lists, where both have one. -/
def Ty.slotPairs (params args : List (Slot Ty)) : List (Ty × Ty) :=
  (params.zip args).filterMap fun pair =>
    match pair.1.type, pair.2.type with
    | some param, some arg => some (param, arg)
    | _, _ => none

/-- The pairs of types that two object types give to the same name. -/
def Ty.fieldPairs (params args : List (Field Ty)) : List (Ty × Ty) :=
  params.filterMap fun param =>
    (args.find? (·.name == param.name)).map fun arg => (param.type, arg.type)

/-- Whether walking on makes sense once a name has been seen through. -/
def Ty.isOpened : Ty → Bool
  | named _ _ _ => false
  | unknown => false
  | _ => true

namespace Ty

/-- A walk over two types side by side that adds to the bindings found so far. -/
abbrev Walk := Ty → Ty → Bindings → Inquiry Bindings

/-- Walks over pairs of types, one after another. -/
def walkPairs (walk : Walk) (pairs : List (Ty × Ty)) (bound : Bindings) : Inquiry Bindings :=
  pairs.foldlM (fun found pair => walk pair.1 pair.2 found) bound

/-- A union parameter with a single member that mentions type parameters: that
member is matched with what the other members leave of the argument. -/
def matchUnion (names : List String) (walk : Walk) (members : List Ty)
    (arg : Ty) (bound : Bindings) : Inquiry Bindings := do
  let concrete := members.filter fun member => !member.mentions names
  match members.filter (·.mentions names) with
  | [member] =>
    let rest ← arg.flatten.filterM fun part => do
      return !(← concrete.anyM fun other => other.subsumes part false)
    if rest.isEmpty then return bound else walk member (.collapse rest) bound
  | _ => return bound

/-- Matching of types of which neither is a reference by name. -/
def matchShapes (names : List String) (walk : Walk) (param arg : Ty)
    (bound : Bindings) : Inquiry Bindings :=
  match param, arg with
  | .union members, arg => matchUnion names walk members arg bound
  | .array param, .array arg => walk param arg bound
  | .iterator param, .iterator arg => walk param arg bound
  | .plan param, .plan arg => walk param arg bound
  | .readonly param, .readonly arg => walk param arg bound
  | .readonly param, arg => walk param arg bound
  | .array param, .tuple items =>
    if items.isEmpty then return bound else walk param (.unionOf items) bound
  | .tuple params, .tuple args => walkPairs walk (params.zip args) bound
  | .object params, .object args => walkPairs walk (Ty.fieldPairs params args) bound
  | .indexer paramKey paramValue, .indexer argKey argValue =>
    walkPairs walk [(paramKey, argKey), (paramValue, argValue)] bound
  | .func _ params paramResult, .func _ args argResult =>
    walkPairs walk (Ty.slotPairs params args ++ [(paramResult, argResult)]) bound
  | .proc _ params, .proc _ args => walkPairs walk (Ty.slotPairs params args) bound
  | _, _ => return bound

/-- Matching of any types other than a type parameter that is looked for. Two
references to the same name are matched argument by argument. -/
def matchNames (names : List String) (walk : Walk) (param arg : Ty)
    (bound : Bindings) : Inquiry Bindings := do
  match param, arg with
  | .named paramName paramArgs _, .named argName argArgs _ =>
    if paramName = argName then walkPairs walk (paramArgs.zip argArgs) bound
    else
      let opened ← param.expand
      if opened.isOpened then walk opened arg bound else return bound
  | .named _ _ _, _ =>
    let opened ← param.expand
    if opened.isOpened then walk opened arg bound else return bound
  | _, .named _ _ _ =>
    let opened ← arg.expand
    if opened.isOpened then walk param opened bound else return bound
  | _, _ => matchShapes names walk param arg bound

/-- Matching with at most `limit` walks inside each other. -/
def matchWithin (names : List String) : Nat → Walk
  | 0, _, _, bound => return bound
  | limit + 1, param, arg, bound =>
    let walk := matchWithin names limit
    match param with
    | .generic name _ =>
      if names.contains name then return Ty.bindFirst bound name arg
      else matchNames names walk param arg bound
    | _ => matchNames names walk param arg bound

/-- Adds to the bindings what the argument says about the type parameters named. -/
def matchGenerics (names : List String) : Walk :=
  matchWithin names (comparisonLimit + 1)

end Ty

end ScriptCheck
