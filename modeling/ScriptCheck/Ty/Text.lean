import ScriptCheck.Ty.Basic

/-!
# Types as text

Types are shown in the notation they are written in. The union without members
is shown as `never`. The members of a union are shown without parentheses, so that
what a func type or a readonly type ends with seems to go on with the members
behind it.
-/

namespace ScriptCheck.Ty

/-- The opening brace. -/
def openBrace : String := "\x7b"

/-- The closing brace. -/
def closeBrace : String := "\x7d"

/-- Whether the type needs parentheses in front of array brackets. -/
def needsParentheses : Ty → Bool
  | union _ => true
  | func _ _ _ => true
  | proc _ _ => true
  | readonly _ => true
  | _ => false

mutual

/-- How a type is shown. -/
def text : Ty → String
  | string => "string"
  | number => "number"
  | boolean => "boolean"
  | nil => "nil"
  | unknown => "unknown"
  | any => "any"
  | escape => "escape"
  | literal value => value.text
  | union members => if members.isEmpty then "never" else " | ".intercalate (textList members)
  | array element =>
    if needsParentheses element then "(" ++ text element ++ ")[]" else text element ++ "[]"
  | tuple elements => "[" ++ ", ".intercalate (textList elements) ++ "]"
  | object fields =>
    if fields.isEmpty then openBrace ++ closeBrace
    else openBrace ++ " " ++ ", ".intercalate (textFields fields) ++ " " ++ closeBrace
  | indexer key value => openBrace ++ "[" ++ text key ++ "]: " ++ text value ++ closeBrace
  | func typeParams params result =>
    (if typeParams.isEmpty then "" else "<" ++ ", ".intercalate (textBounds typeParams) ++ ">") ++
      "(" ++ ", ".intercalate (textParams params) ++ ") => " ++ text result
  | proc typeParams params =>
    (if typeParams.isEmpty then "" else "<" ++ ", ".intercalate (textBounds typeParams) ++ ">") ++
      "(" ++ ", ".intercalate (textParams params) ++ ") " ++ openBrace ++ closeBrace
  | named name args _ =>
    if args.isEmpty then name else name ++ "<" ++ ", ".intercalate (textList args) ++ ">"
  | nominal name _ => name
  | generic name _ => name
  | store name _ => name
  | iterator inner => "Iterator<" ++ text inner ++ ">"
  | plan inner => "Plan<" ++ text inner ++ ">"
  | readonly inner => "readonly " ++ text inner
termination_by structural type => type

/-- How the types of a list are shown. -/
def textList : List Ty → List String
  | [] => []
  | type :: types => text type :: textList types
termination_by structural types => types

/-- How object entries are shown. -/
def textFields : List (Field Ty) → List String
  | [] => []
  | ⟨name, type, optional⟩ :: fields =>
    (name ++ (if optional then "?" else "") ++ ": " ++ text type) :: textFields fields
termination_by structural fields => fields

/-- How parameters are shown. -/
def textParams : List (Slot Ty) → List String
  | [] => []
  | ⟨name, none⟩ :: slots => name :: textParams slots
  | ⟨name, some type⟩ :: slots => (name ++ ": " ++ text type) :: textParams slots
termination_by structural slots => slots

/-- How type parameters are shown. -/
def textBounds : List (Slot Ty) → List String
  | [] => []
  | ⟨name, none⟩ :: slots => name :: textBounds slots
  | ⟨name, some bound⟩ :: slots => (name ++ " extends " ++ text bound) :: textBounds slots
termination_by structural slots => slots

end

/-- Not every type can be told from the text it is shown as. -/
theorem text_not_injective :
    (union [func [] [] number, string]).text = (func [] [] (union [number, string])).text ∧
      (union [func [] [] number, string]).text = "() => number | string" ∧
      (union [func [] [] number, string]).sameAs (func [] [] (union [number, string])) = false := by
  decide +kernel

end ScriptCheck.Ty
