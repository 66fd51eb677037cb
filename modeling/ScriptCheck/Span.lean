/-!
# Byte spans

A span is a half-open range of byte offsets into the UTF-8 text of one source
file. Nothing forces its start to come first: a reversed span has length zero
and contains no offset.
-/

namespace ScriptCheck

/-- Half-open range of byte offsets within one source text. -/
structure Span where
  /-- Offset of the first byte. -/
  start : Nat
  /-- Offset just past the last byte. -/
  stop : Nat
deriving DecidableEq, Inhabited

namespace Span

/-- Smallest span covering both spans. -/
def cover (first second : Span) : Span :=
  ⟨min first.start second.start, max first.stop second.stop⟩

/-- Number of bytes covered; a reversed span covers none. -/
def length (span : Span) : Nat := span.stop - span.start

/-- Whether no byte is covered. -/
def isEmpty (span : Span) : Bool := span.length == 0

/-- Whether the byte at `offset` lies in the span. -/
def contains (span : Span) (offset : Nat) : Bool :=
  decide (span.start ≤ offset) && decide (offset < span.stop)

/-- The span stretched to cover at least one byte, so that it can be underlined. -/
def visible (span : Span) : Span := ⟨span.start, max span.stop (span.start + 1)⟩

/-- Written form, such as `3..7`. -/
def text (span : Span) : String := toString span.start ++ ".." ++ toString span.stop

end Span

end ScriptCheck
