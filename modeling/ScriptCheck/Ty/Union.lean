import ScriptCheck.Ty.Basic

/-!
# Unions and widening

A union built here has no union among its members, no member twice, and is not a
union at all where a single member is left.
-/

namespace ScriptCheck.Ty

mutual

/-- The members of a union, with the unions among them replaced by their members.
Any other type is its own single member. -/
def flatten : Ty → List Ty
  | union members => flattenList members
  | other => [other]
termination_by structural type => type

/-- The members of all types of a list. -/
def flattenList : List Ty → List Ty
  | [] => []
  | type :: types => flatten type ++ flattenList types
termination_by structural types => types

end

/-- Adds a type to a list that does not hold it yet. -/
def addDistinct (kept : List Ty) (type : Ty) : List Ty :=
  if kept.any (·.sameAs type) then kept else kept ++ [type]

/-- The first occurrence of each type, in order. -/
def distinct (types : List Ty) : List Ty := types.foldl addDistinct []

/-- The only type of a list, or the union of its types. -/
def collapse : List Ty → Ty
  | [type] => type
  | types => .union types

/-- The union of the types of a list. -/
def unionOf (types : List Ty) : Ty := collapse (distinct (flattenList types))

/-- The type or `nil`. -/
def orNil (type : Ty) : Ty := unionOf [type, .nil]

/-- The type of all values of the literal's kind. -/
def ofLiteral : Literal → Ty
  | .number _ => .number
  | .string _ => .string
  | .boolean _ => .boolean

mutual

/-- Replaces literal types by their kind, also inside arrays, tuples, objects and
unions. -/
def widen : Ty → Ty
  | literal value => ofLiteral value
  | union members => unionOf (widenList members)
  | array element => .array (widen element)
  | tuple elements => .tuple (widenList elements)
  | object fields => .object (widenFields fields)
  | other => other
termination_by structural type => type

/-- Widens every type of a list. -/
def widenList : List Ty → List Ty
  | [] => []
  | type :: types => widen type :: widenList types
termination_by structural types => types

/-- Widens the type of every object entry. -/
def widenFields : List (Field Ty) → List (Field Ty)
  | [] => []
  | ⟨name, type, optional⟩ :: fields => ⟨name, widen type, optional⟩ :: widenFields fields
termination_by structural fields => fields

end

end ScriptCheck.Ty
