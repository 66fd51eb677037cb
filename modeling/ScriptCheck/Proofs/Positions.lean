import ScriptCheck.Proofs.Tokens
import Mathlib.Data.List.TakeWhile

/-!
# Lines and columns tell offsets apart

Between the characters of a text, lines and columns grow with the offset, and the offset can be
computed from them again: it is found by going past all earlier lines and then past the characters
that come before in the line.
-/

namespace ScriptCheck.Text

open List

/-- The first position comes before the second: on an earlier line, or further left on the same
line. -/
def Position.Before (first second : Position) : Prop :=
  first.line < second.line ∨ first.line = second.line ∧ first.column < second.column

/-- The characters up to a line feed of the given number and with it, counted from one. -/
def throughLine : Nat → List Char → List Char
  | 0, _ => []
  | _ + 1, [] => []
  | lines + 1, char :: chars =>
    char :: if char = '\n' then throughLine lines chars else throughLine (lines + 1) chars

/-- The offset at which a line starts, and the bytes of the characters that come before in it. -/
def Position.offset (position : Position) (chars : List Char) : Nat :=
  let earlier := throughLine (position.line - 1) chars
  byteLength earlier + byteLength ((chars.drop earlier.length).take (position.column - 1))

/-- The characters after the last line feed. -/
def lastLine (chars : List Char) : List Char := (chars.reverse.takeWhile (· ≠ '\n')).reverse

variable {before after : List Char}

theorem lastLine_of_notMem (single : '\n' ∉ chars) : lastLine chars = chars := by
  have all : ∀ other ∈ chars.reverse, decide (other ≠ '\n') = true := by
    intro other ho
    have differs : other ≠ '\n' := fun same => single (same ▸ mem_reverse.mp ho)
    simpa using differs
  rw [lastLine, takeWhile_eq_self_iff.mpr all, reverse_reverse]

theorem lastLine_cons (several : '\n' ∈ chars) : lastLine (char :: chars) = lastLine chars := by
  have stops : (chars.reverse.takeWhile (· ≠ '\n')).length ≠ chars.reverse.length := by
    intro whole
    have all := ( takeWhile_prefix (· ≠ '\n')).eq_of_length whole
    have feed := mem_reverse.mpr several
    rw [← all] at feed
    simpa using mem_takeWhile_imp feed
  rw [lastLine, reverse_cons, takeWhile_append, if_neg stops, lastLine]

/-- A single line behind a line feed is the last one. -/
theorem lastLine_feed (single : '\n' ∉ chars) : lastLine ('\n' :: chars) = chars := by
  have whole := lastLine_of_notMem single
  rw [lastLine, reverse_eq_iff] at whole
  rw [lastLine, reverse_cons, takeWhile_append, whole, if_pos rfl]
  simp

/-- The characters that come before end with what comes before on their last line. -/
theorem throughLine_append_lastLine (before after : List Char) :
    throughLine (before.count '\n') (before ++ after) ++ lastLine before = before := by
  induction before with
  | nil => rw [count_nil, throughLine]; rfl
  | cons char rest ih =>
    by_cases several : '\n' ∈ rest
    · have more : ∃ lines, rest.count '\n' = lines + 1 :=
        Nat.exists_eq_succ_of_ne_zero (Nat.ne_of_gt (count_pos_iff.mpr several))
      rw [lastLine_cons several]
      obtain ⟨lines, hl⟩ := more
      by_cases feed : char = '\n'
      · subst feed
        rw [count_cons_self, cons_append, throughLine, if_pos rfl, cons_append, ih]
      · rw [count_cons_of_ne feed, hl, cons_append, throughLine, if_neg feed, ← hl, cons_append, ih]
    · have none : rest.count '\n' = 0 := count_eq_zero.mpr several
      by_cases feed : char = '\n'
      · subst feed
        rw [count_cons_self, none, cons_append, throughLine, if_pos rfl, throughLine,
          lastLine_feed several, singleton_append]
      · have single : '\n' ∉ char :: rest := by simpa [Ne.symm feed] using several
        rw [count_eq_zero.mpr single, throughLine, lastLine_of_notMem single, nil_append]

/-- The offset is found from the position of what follows the characters before it. -/
theorem offset_positionAfter (before after : List Char) :
    (positionAfter before).offset (before ++ after) = byteLength before := by
  have split := throughLine_append_lastLine before after
  have column : (before.reverse.takeWhile (· ≠ '\n')).length = (lastLine before).length :=
    length_reverse.symm
  simp only [Position.offset, positionAfter, Nat.add_sub_cancel, column]
  generalize throughLine (before.count '\n') (before ++ after) = earlier,
    lastLine before = line at split ⊢
  rw [← split, append_assoc, drop_left, take_left, Lexer.byteLength_append]

/-- With more characters the position moves on. -/
theorem positionAfter_before (filled : after ≠ []) :
    (positionAfter before).Before (positionAfter (before ++ after)) := by
  have counted : (before ++ after).count '\n' = before.count '\n' + after.count '\n' := count_append
  by_cases several : '\n' ∈ after
  · left
    have more : 0 < after.count '\n' := count_pos_iff.mpr several
    simp only [positionAfter, counted]
    omega
  · right
    have same : after.count '\n' = 0 := count_eq_zero.mpr several
    have whole := lastLine_of_notMem several
    rw [lastLine, reverse_eq_iff] at whole
    refine ⟨by simp only [positionAfter, counted, same, Nat.add_zero], ?_⟩
    have longer : 0 < after.length := length_pos_iff.mpr filled
    simp only [positionAfter, reverse_append, takeWhile_append, whole, if_true,
      length_append, length_reverse]
    omega

/-- The characters before a boundary fill the bytes before it. -/
theorem charsBefore?_byteLength (before after : List Char) :
    charsBefore? (byteLength before) (before ++ after) = some before := by
  induction before with
  | nil => rw [byteLength, charsBefore?]
  | cons char rest ih =>
    have hp := char.utf8Size_pos
    rw [byteLength, cons_append, charsBefore?, if_pos (Nat.le_add_right _ _),
      Nat.add_sub_cancel_left, ih]
    · rfl
    · omega

/-- Past the end there are all characters before. -/
theorem charsBefore?_of_le (past : byteLength chars ≤ offset) :
    charsBefore? offset chars = some chars := by
  induction chars generalizing offset with
  | nil => cases offset <;> rfl
  | cons char rest ih =>
    have hp := char.utf8Size_pos
    rw [byteLength] at past
    rw [charsBefore?, if_pos (by omega), ih (by omega)]
    · rfl
    · omega

/-- A boundary has a line and a column. -/
theorem position?_of_isBoundary (boundary : IsBoundary text.toList offset) :
    ∃ position, position? text offset = some position := by
  obtain ⟨before, after, hc, rfl⟩ := boundary
  exact ⟨positionAfter before, by rw [position?, ← hc, charsBefore?_byteLength]; rfl⟩

/-- Offsets between the characters of a text have positions in the same order, and can be computed
from them. Offsets past the end have the position of the end. -/
theorem position?_orders_offsets (text : String) :
    (∀ first second, IsBoundary text.toList first → IsBoundary text.toList second →
      first < second → ∃ position position', position? text first = some position ∧
        position? text second = some position' ∧ position.Before position') ∧
    (∀ offset position, IsBoundary text.toList offset → position? text offset = some position →
      offset = position.offset text.toList) ∧
    ∀ offset, byteLength text.toList ≤ offset →
      position? text offset = position? text (byteLength text.toList) := by
  have found {before after : List Char} (hc : before ++ after = text.toList) :
      position? text (byteLength before) = some (positionAfter before) := by
    rw [position?, ← hc, charsBefore?_byteLength]
    rfl
  refine ⟨?_, ?_, fun offset past => ?_⟩
  · rintro _ _ ⟨before, after, hc, rfl⟩ ⟨before', after', hc', rfl⟩ less
    refine ⟨_, _, found hc, found hc', ?_⟩
    obtain ⟨between, rfl, -⟩ | ⟨between, rfl, -⟩ := append_eq_append_iff.mp (hc.trans hc'.symm)
    · refine positionAfter_before fun empty => ?_
      rw [empty, append_nil] at less
      exact Nat.lt_irrefl _ less
    · rw [Lexer.byteLength_append] at less
      exact absurd less (Nat.not_lt.mpr (Nat.le_add_right _ _))
  · rintro _ position ⟨before, after, hc, rfl⟩ located
    rw [found hc] at located
    cases located
    rw [← hc, offset_positionAfter]
  · rw [position?, position?, charsBefore?_of_le past, charsBefore?_of_le (Nat.le_refl _)]

/-- The positions around the line feed of a text with a character of two bytes. -/
theorem position?_orders_accented :
    (⟨1, 3⟩ : Position).Before ⟨2, 1⟩ ∧ (⟨2, 1⟩ : Position).offset "né\nb".toList = 4 ∧
      position? "né\nb" 9 = some ⟨2, 2⟩ := by
  have split : IsBoundary "né\nb".toList 3 ∧ IsBoundary "né\nb".toList 4 :=
    ⟨⟨['n', 'é'], ['\n', 'b'], by decide, by decide⟩, ⟨['n', 'é', '\n'], ['b'], by decide, by decide⟩⟩
  have here : position? "né\nb" 3 = some ⟨1, 3⟩ ∧ position? "né\nb" 4 = some ⟨2, 1⟩ ∧
      position? "né\nb" (byteLength "né\nb".toList) = some ⟨2, 2⟩ := by decide
  obtain ⟨ordered, computed, past⟩ := position?_orders_offsets "né\nb"
  obtain ⟨position, position', hp, hp', before⟩ := ordered 3 4 split.1 split.2 (by decide)
  cases here.1.symm.trans hp
  cases here.2.1.symm.trans hp'
  exact ⟨before, (computed 4 _ split.2 here.2.1).symm, (past 9 (by decide)).trans here.2.2⟩

end ScriptCheck.Text
