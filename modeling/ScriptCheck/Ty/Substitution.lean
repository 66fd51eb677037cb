import ScriptCheck.Ty.Union

/-!
# Type parameters in types

Putting types in the place of type parameters, and asking whether a type
parameter occurs. A func or proc type that declares a parameter of the same name
keeps its own.
-/

namespace ScriptCheck.Ty

mutual

/-- Whether a type parameter with one of the names occurs. Bounds are not searched. -/
def mentions (names : List String) : Ty → Bool
  | generic name _ => names.contains name
  | union members => mentionsList names members
  | tuple elements => mentionsList names elements
  | array element => mentions names element
  | iterator inner => mentions names inner
  | plan inner => mentions names inner
  | readonly inner => mentions names inner
  | object fields => mentionsFields names fields
  | indexer key value => mentions names key || mentions names value
  | func _ params result => mentionsSlots names params || mentions names result
  | proc _ params => mentionsSlots names params
  | named _ args _ => mentionsList names args
  | nominal _ inner => mentions names inner
  | _ => false
termination_by structural type => type

/-- Whether one of the types mentions one of the names. -/
def mentionsList (names : List String) : List Ty → Bool
  | [] => false
  | type :: types => mentions names type || mentionsList names types
termination_by structural types => types

/-- Whether the type of an object entry mentions one of the names. -/
def mentionsFields (names : List String) : List (Field Ty) → Bool
  | [] => false
  | ⟨_, type, _⟩ :: fields => mentions names type || mentionsFields names fields
termination_by structural fields => fields

/-- Whether the type of a parameter mentions one of the names. -/
def mentionsSlots (names : List String) : List (Slot Ty) → Bool
  | [] => false
  | ⟨_, none⟩ :: slots => mentionsSlots names slots
  | ⟨_, some type⟩ :: slots => mentions names type || mentionsSlots names slots
termination_by structural slots => slots

end

/-- The bindings that a signature with the given type parameters leaves alone. -/
def unshadowed (bindings : Bindings) (typeParams : List (Slot Ty)) : Bindings :=
  bindings.filter fun binding => !typeParams.any (·.name == binding.1)

mutual

/-- Puts the bound types in the place of the type parameters. Without bindings the
type stays exactly as it is. -/
def substitute : Ty → Bindings → Ty
  | generic name bound, bindings => (bindings.lookup name).getD (.generic name bound)
  | union members, bindings =>
    if bindings.isEmpty then .union members else unionOf (substituteList members bindings)
  | tuple elements, bindings => .tuple (substituteList elements bindings)
  | array element, bindings => .array (substitute element bindings)
  | iterator inner, bindings => .iterator (substitute inner bindings)
  | plan inner, bindings => .plan (substitute inner bindings)
  | readonly inner, bindings => .readonly (substitute inner bindings)
  | object fields, bindings => .object (substituteFields fields bindings)
  | indexer key value, bindings =>
    .indexer (substitute key bindings) (substitute value bindings)
  | named name args origin, bindings => .named name (substituteList args bindings) origin
  | nominal name inner, bindings => .nominal name (substitute inner bindings)
  | func typeParams params result, bindings =>
    .func typeParams (substituteSlots params (unshadowed bindings typeParams))
      (substitute result (unshadowed bindings typeParams))
  | proc typeParams params, bindings =>
    .proc typeParams (substituteSlots params (unshadowed bindings typeParams))
  | other, _ => other
termination_by structural type => type

/-- Substitutes in every type of a list. -/
def substituteList : List Ty → Bindings → List Ty
  | [], _ => []
  | type :: types, bindings => substitute type bindings :: substituteList types bindings
termination_by structural types => types

/-- Substitutes in the type of every object entry. -/
def substituteFields : List (Field Ty) → Bindings → List (Field Ty)
  | [], _ => []
  | ⟨name, type, optional⟩ :: fields, bindings =>
    ⟨name, substitute type bindings, optional⟩ :: substituteFields fields bindings
termination_by structural fields => fields

/-- Substitutes in the type of every parameter. -/
def substituteSlots : List (Slot Ty) → Bindings → List (Slot Ty)
  | [], _ => []
  | ⟨name, none⟩ :: slots, bindings => ⟨name, none⟩ :: substituteSlots slots bindings
  | ⟨name, some type⟩ :: slots, bindings =>
    ⟨name, some (substitute type bindings)⟩ :: substituteSlots slots bindings
termination_by structural slots => slots

end

/-- Every type parameter with the type it falls back to. -/
def fallbacks (typeParams : List (Slot Ty)) : Bindings :=
  typeParams.map fun param => (param.name, param.typeOrUnknown)

/-- The type without type parameters of its own: each is replaced by its fallback. -/
def eraseGenerics : Ty → Ty
  | func typeParams params result =>
    if typeParams.isEmpty then .func typeParams params result
    else substitute (.func [] params result) (fallbacks typeParams)
  | proc typeParams params =>
    if typeParams.isEmpty then .proc typeParams params
    else substitute (.proc [] params) (fallbacks typeParams)
  | other => other

end ScriptCheck.Ty
