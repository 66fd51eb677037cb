import ScriptCheck.Tree.Script

/-!
# Types

Types are plain values. Where a named type was written takes no part in
comparing it with another, but a store's type is the store declaration itself.
-/

namespace ScriptCheck

/-- An entry of an object type. -/
structure Field (τ : Type) where
  /-- Name of the entry. -/
  name : String
  /-- Type of its value. -/
  type : τ
  /-- Whether the entry may be missing. -/
  optional : Bool

/-- A named place of a signature that may have a type: a parameter with the type
written for it, or a type parameter with its bound. -/
structure Slot (τ : Type) where
  /-- Name of the parameter. -/
  name : String
  /-- Its type or bound, where there is one. -/
  type : Option τ

/-- A type. -/
inductive Ty where
  | string
  | number
  | boolean
  | nil
  /-- What is not known; it accepts every value. -/
  | unknown
  /-- Accepts every value and is accepted everywhere. -/
  | any
  /-- Code of the host language; accepted everywhere. -/
  | escape
  /-- A single value. -/
  | literal (value : Literal)
  /-- Values of any of the members; of none where there are no members. -/
  | union (members : List Ty)
  | array (element : Ty)
  | tuple (elements : List Ty)
  | object (fields : List (Field Ty))
  /-- Objects used as tables. -/
  | indexer (key value : Ty)
  | func (typeParams params : List (Slot Ty)) (result : Ty)
  | proc (typeParams params : List (Slot Ty))
  /-- A type referred to by name and looked up where it was written. -/
  | named (name : String) (args : List Ty) (origin : Node)
  /-- A type of its own, wrapped around another. -/
  | nominal (name : String) (inner : Ty)
  /-- A type parameter inside its scope. -/
  | generic (name : String) (bound : Option Ty)
  | iterator (inner : Ty)
  /-- An effect that has not happened yet. -/
  | plan (inner : Ty)
  | readonly (inner : Ty)
  /-- The single instance of a store. -/
  | store (name : String) (declaration : Node)
deriving Inhabited

/-- Types given to names. -/
abbrev Bindings := List (String × Ty)

/-- The type of a parameter, or the bound a type parameter falls back to; `unknown`
where none is written. -/
def Slot.typeOrUnknown (slot : Slot Ty) : Ty := slot.type.getD .unknown

namespace Ty

/-- Whether nothing is known of the type. -/
def isUnknown : Ty → Bool
  | unknown => true
  | _ => false

/-- Whether the type is a reference by name. -/
def isNamed : Ty → Bool
  | named _ _ _ => true
  | _ => false

mutual

/-- Structural equality. The places where named types were written are ignored. -/
def sameAs : Ty → Ty → Bool
  | string, string => true
  | number, number => true
  | boolean, boolean => true
  | nil, nil => true
  | unknown, unknown => true
  | any, any => true
  | escape, escape => true
  | literal left, literal right => left.equals right
  | union left, union right => sameList left right
  | array left, array right => sameAs left right
  | tuple left, tuple right => sameList left right
  | object left, object right => sameFields left right
  | indexer leftKey leftValue, indexer rightKey rightValue =>
    sameAs leftKey rightKey && sameAs leftValue rightValue
  | func leftTypeParams leftParams leftResult, func rightTypeParams rightParams rightResult =>
    sameSlots leftTypeParams rightTypeParams && sameSlots leftParams rightParams &&
      sameAs leftResult rightResult
  | proc leftTypeParams leftParams, proc rightTypeParams rightParams =>
    sameSlots leftTypeParams rightTypeParams && sameSlots leftParams rightParams
  | named leftName leftArgs _, named rightName rightArgs _ =>
    leftName == rightName && sameList leftArgs rightArgs
  | nominal leftName leftInner, nominal rightName rightInner =>
    leftName == rightName && sameAs leftInner rightInner
  | generic leftName leftBound, generic rightName rightBound =>
    leftName == rightName && sameOption leftBound rightBound
  | iterator left, iterator right => sameAs left right
  | plan left, plan right => sameAs left right
  | readonly left, readonly right => sameAs left right
  | store leftName leftDeclaration, store rightName rightDeclaration =>
    leftName == rightName && leftDeclaration.sameAs rightDeclaration
  | _, _ => false
termination_by structural type => type

/-- Structural equality of lists of types, member by member. -/
def sameList : List Ty → List Ty → Bool
  | [], [] => true
  | left :: lefts, right :: rights => sameAs left right && sameList lefts rights
  | _, _ => false
termination_by structural types => types

/-- Structural equality of object entries, in order. -/
def sameFields : List (Field Ty) → List (Field Ty) → Bool
  | [], [] => true
  | ⟨name, type, optional⟩ :: lefts, right :: rights =>
    name == right.name && sameAs type right.type && optional == right.optional &&
      sameFields lefts rights
  | _, _ => false
termination_by structural fields => fields

/-- Structural equality of parameter lists, names included. -/
def sameSlots : List (Slot Ty) → List (Slot Ty) → Bool
  | [], [] => true
  | ⟨name, type⟩ :: lefts, right :: rights =>
    name == right.name && sameOption type right.type && sameSlots lefts rights
  | _, _ => false
termination_by structural slots => slots

/-- Structural equality of types that may be absent. -/
def sameOption : Option Ty → Option Ty → Bool
  | none, none => true
  | some left, some right => sameAs left right
  | _, _ => false
termination_by structural type => type

end

instance : BEq Ty := ⟨sameAs⟩

/-- The type of a single string. -/
def stringLiteral (value : String) : Ty := .literal (.string value)

/-- The type of a single number. -/
def numberLiteral (value : Number) : Ty := .literal (.number value)

/-- A function of one parameter of which only the type matters. -/
def callback (argument : Ty) : Ty := .func [] [⟨"arg0", some argument⟩] .unknown

/-- The type parameters and parameters of a callable type. -/
def signature? : Ty → Option (List (Slot Ty) × List (Slot Ty))
  | func typeParams params _ => some (typeParams, params)
  | proc typeParams params => some (typeParams, params)
  | _ => none

end Ty

end ScriptCheck
