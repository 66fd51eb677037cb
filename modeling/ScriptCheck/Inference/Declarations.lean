import ScriptCheck.Inference.Inquirer

/-!
# Types of declarations, properties and indexes
-/

namespace ScriptCheck

namespace Deeper

open Inquirer

variable {m : Type → Type} [Inquirer m]

/-- The type written for a name, else the type of its value. -/
def ascribedOr (deeper : Deeper m) (situation : Situation) (declaration : Node)
    (ascription : Option NodeId) (value : NodeId) : m Ty :=
  match ascription with
  | some id => lowering (declaration.sibling id) pure
  | none => deeper.typeOf situation (declaration.sibling value)

/-- The type written for a name, else the widened type of its first value, for names
whose value can change. -/
def ascribedOrWidened (deeper : Deeper m) (situation : Situation) (declaration : Node)
    (ascription : Option NodeId) (value : NodeId) : m Ty :=
  match ascription with
  | some id => lowering (declaration.sibling id) pure
  | none => do return (← deeper.typeOf situation (declaration.sibling value)).widen

/-- The type a declaration gives its name. A nominal type gives its name to the
function that makes its values. -/
def declarationType (deeper : Deeper m) (situation : Situation) (declaration : Node) :
    m Ty :=
  match declaration.form with
  | .valueDeclaration _ ascription value constant _ =>
    if constant then deeper.ascribedOr situation declaration ascription value
    else deeper.ascribedOrWidened situation declaration ascription value
  | .localDeclaration _ ascription value constant =>
    if constant then deeper.ascribedOr situation declaration ascription value
    else deeper.ascribedOrWidened situation declaration ascription value
  | .inlineConst _ ascription value _ =>
    deeper.ascribedOr situation declaration ascription value
  | .storeMember _ _ ascription value =>
    deeper.ascribedOrWidened situation declaration ascription value
  | .funcDeclaration _ func _ => deeper.typeOf situation (declaration.sibling func)
  | .procDeclaration _ proc _ => deeper.typeOf situation (declaration.sibling proc)
  | .storeDeclaration _ _ _ => return declaration.storeType
  | .typeDeclaration name _ value nominal _ =>
    if nominal then
      lowering (declaration.sibling value) fun inner =>
        return .func [] [⟨"value", some inner⟩] (.nominal name inner)
    else return .unknown
  | _ => return .unknown

/-- Asks a question about every item until one has no answer. -/
def askAll {α β : Type} (ask : α → m (Option β)) : List α → m (Option (List β))
  | [] => return some []
  | item :: rest => do
    match ← ask item with
    | none => return none
    | some first => do
      let others ← askAll ask rest
      return others.map (first :: ·)

/-- The type of a property of an already expanded type. A union has the properties
that all its members have. -/
def propertyType (deeper : Deeper m) (situation : Situation) (type : Ty)
    (name : String) : m (Option Ty) :=
  let length : Option Ty := if name = "length" then some .number else none
  match type with
  | .object fields =>
    return (fields.find? (·.name == name)).map fun field =>
      if field.optional then field.type.orNil else field.type
  | .store _ declaration =>
    match declaration.storeMember? name with
    | some member => do return some (← deeper.declarationType situation member)
    | none => return none
  | .nominal _ inner => return if name = "value" then some inner else none
  | .array _ => return length
  | .tuple _ => return length
  | .string => return length
  | .literal (.string _) => return length
  | .readonly inner => do deeper.property? situation (← expand inner) name
  | .union members =>
    if members.isEmpty then return none
    else do
      let found ← askAll (fun member => do
        deeper.property? situation (← expand member) name) members
      return found.map .unionOf
  | .any => return some .any
  | _ => return none

/-- The type found under a key in an already expanded type. -/
def indexType (deeper : Deeper m) (situation : Situation) (base key : Ty) :
    m (Option Ty) := do
  let key ← expand key
  match base with
  | .object _ =>
    match key with
    | .literal (.string name) => deeper.propertyType situation base name
    | _ => return none
  | .indexer wanted value =>
    return if ← subsumes wanted key false then some value.orNil else none
  | .array element =>
    return if ← subsumes .number key false then some element else none
  | .tuple items =>
    let position : Option Nat :=
      match key with
      | .literal (.number value) => value.toNat?
      | _ => none
    match position with
    | some index => return items[index]?
    | none =>
      return if ← subsumes .number key false then some (.unionOf items) else none
  | .readonly inner => deeper.indexed? situation (← expand inner) key
  | .any => return some .any
  | _ => return none

end Deeper

end ScriptCheck
