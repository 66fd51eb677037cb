/-!
# Ranges of code points

Character classes beyond ASCII are given by sorted lists of code point ranges. A long list is
written down by the distances between its ranges.
-/

namespace ScriptCheck.Text

/-- Inclusive range of code points. -/
structure CodeRange where
  /-- Smallest code point of the range. -/
  first : Nat
  /-- Largest code point of the range. -/
  last : Nat
deriving DecidableEq

/-- Whether the range holds the code point. -/
def CodeRange.holds (range : CodeRange) (code : Nat) : Bool :=
  decide (range.first ≤ code) && decide (code ≤ range.last)

/-- The ranges from a code point on, each given by two numbers: how many code points are skipped
before it, and how many it holds after its first one. -/
def CodeRange.runs : Nat → List Nat → List CodeRange
  | start, skipped :: more :: rest =>
    ⟨start + skipped, start + skipped + more⟩ :: runs (start + skipped + more + 1) rest
  | _, _ => []

/-- Whether some range of the list holds the character's code point. -/
def inRanges (ranges : List CodeRange) (char : Char) : Bool :=
  ranges.any fun range => range.holds char.toNat

end ScriptCheck.Text
