import ScriptCheck.Text.CodeRange

/-!
# Blank characters

The characters with the Unicode property White_Space. They separate tokens and
mean nothing else.
-/

namespace ScriptCheck.Text

/-- Code points with the property White_Space. -/
def blankRanges : List CodeRange :=
  [⟨0x9, 0xD⟩, ⟨0x20, 0x20⟩, ⟨0x85, 0x85⟩, ⟨0xA0, 0xA0⟩, ⟨0x1680, 0x1680⟩, ⟨0x2000, 0x200A⟩,
    ⟨0x2028, 0x2029⟩, ⟨0x202F, 0x202F⟩, ⟨0x205F, 0x205F⟩, ⟨0x3000, 0x3000⟩]

/-- Whether the character is blank. -/
def isBlank (char : Char) : Bool := inRanges blankRanges char

end ScriptCheck.Text
