import ScriptCheck.Token.Lexer
import Mathlib.Tactic.SplitIfs

/-!
# Cutting text into tokens comes to an end

What is read at the front of a text and what is left make up the text together. Every token
uses at least one character, so a text is cut up after no more rounds than it has characters,
and every token lies inside the text. What is cut off never counts as the end marker, which is
put behind all tokens once. The tokens follow one another in the text.
-/

namespace ScriptCheck

open List Option

/-- Tokens that end with the end marker and hold it nowhere else. -/
inductive Closed : List Token → Prop where
  /-- Nothing is left but the end marker. -/
  | marker {token : Token} (atEnd : token.kind = .endOfFile) : Closed [token]
  /-- Another token is left before the end. -/
  | cons {token : Token} {rest : List Token} (inside : token.kind ≠ .endOfFile)
      (closed : Closed rest) : Closed (token :: rest)

namespace Closed

theorem length_pos (closed : Closed pending) : 0 < pending.length := by
  cases closed <;> simp

/-- One end marker closes tokens that hold none. -/
theorem of_append {marker : Token} (atEnd : marker.kind = .endOfFile)
    (inside : ∀ token ∈ tokens, token.kind ≠ .endOfFile) : Closed (tokens ++ [marker]) := by
  induction tokens with
  | nil => exact Closed.marker atEnd
  | cons first rest ih =>
    have hr : ∀ token ∈ rest, token.kind ≠ .endOfFile :=
      fun token ht => inside token (mem_cons_of_mem _ ht)
    exact .cons (inside first mem_cons_self) (ih hr)

end Closed

namespace Lexer

/-- A piece and the characters after it make up the characters it was read from. -/
def Piece.Tiles {α : Type} (piece : Piece α) (chars : List Char) : Prop :=
  piece.lexeme ++ piece.rest = chars

variable {chars rest : List Char}

theorem of_after? (found : after? wanted chars = some rest) : wanted ++ rest = chars := by
  induction wanted generalizing chars with
  | nil => simpa [after?] using found.symm
  | cons first more ih =>
    cases chars with
    | nil => cases found
    | cons char chars =>
      rw [after?] at found
      split at found
      · next same => rw [cons_append, ih found, same]
      · cases found

theorem of_through? (found : through? stop chars = some piece) :
    piece.lexeme = piece.value ++ stop ∧ piece.Tiles chars := by
  induction chars generalizing piece with
  | nil =>
    obtain ⟨rest, hr, rfl⟩ := map_eq_some_iff.mp found
    exact ⟨rfl, of_after? hr⟩
  | cons char chars ih =>
    rw [through?] at found
    split at found
    · next rest hr =>
      cases found
      exact ⟨rfl, of_after? hr⟩
    · obtain ⟨inner, hi, rfl⟩ := map_eq_some_iff.mp found
      obtain ⟨lexeme, tiles⟩ := ih hi
      exact ⟨congrArg (char :: ·) lexeme, congrArg (char :: ·) tiles⟩

theorem tiles_of_between? (found : between? start stop chars = some piece) : piece.Tiles chars := by
  unfold between? at found
  split at found
  · cases found
  · next inside hs =>
    obtain ⟨inner, hi, rfl⟩ := map_eq_some_iff.mp found
    have tiles : inner.lexeme ++ inner.rest = inside := (of_through? hi).2
    show start ++ inner.lexeme ++ inner.rest = chars
    rw [append_assoc, tiles, of_after? hs]

theorem nonempty_of_between? (found : between? (first :: more) stop chars = some piece) :
    piece.lexeme ≠ [] := by
  unfold between? at found
  split at found
  · cases found
  · obtain ⟨inner, -, rfl⟩ := map_eq_some_iff.mp found
    exact cons_ne_nil _ _

theorem tiles_of_gapOnce? (found : gapOnce? chars = some piece) : piece.Tiles chars := by
  simp only [gapOnce?] at found
  split at found
  · cases found
    exact takeWhile_append_dropWhile
  · split at found
    · next comment hc =>
      cases found
      show ['/', '/'] ++ comment.takeWhile _ ++ comment.dropWhile _ = chars
      rw [append_assoc, takeWhile_append_dropWhile, of_after? hc]
    · obtain ⟨inner, hi, rfl⟩ := map_eq_some_iff.mp found
      exact tiles_of_between? hi

theorem tiles_gap (limit : Nat) (chars : List Char) : (gap limit chars).Tiles chars := by
  induction limit generalizing chars with
  | zero => rfl
  | succ limit ih =>
    rw [gap]
    split
    · rfl
    · next first hf =>
      have more : (gap limit first.rest).lexeme ++ (gap limit first.rest).rest = first.rest :=
        ih first.rest
      show first.lexeme ++ (gap limit first.rest).lexeme ++ (gap limit first.rest).rest = chars
      rw [append_assoc, more]
      exact tiles_of_gapOnce? hf

/-- A token was read from at least one character. -/
structure Cuts (chars : List Char) (piece : Piece TokenKind) : Prop where
  tiles : piece.Tiles chars
  /-- The token has characters. -/
  nonempty : piece.lexeme ≠ []
  /-- The token is not the end marker. -/
  inside : piece.value ≠ .endOfFile

variable {piece : Piece TokenKind}

theorem cuts_of_escape? (found : escape? chars = some piece) : Cuts chars piece := by
  obtain ⟨inner, hi, rfl⟩ := map_eq_some_iff.mp found
  exact ⟨tiles_of_between? hi, nonempty_of_between? hi, nofun⟩

theorem tiles_fraction (chars : List Char) : (fraction chars).Tiles chars := by
  unfold fraction
  split
  · next more =>
    dsimp only
    split
    · rfl
    · exact congrArg ('.' :: ·) takeWhile_append_dropWhile
  · rfl

theorem tiles_exponent (chars : List Char) : (exponent chars).Tiles chars := by
  unfold exponent
  split
  · rfl
  next letter more =>
  split
  · dsimp only
    split
    · rfl
    · -- the sign is the first of the characters after the letter, if it is one at all
      have sign : (more.take 1).filter (fun char => decide (char = '+' ∨ char = '-')) ++
          more.drop ((more.take 1).filter fun char => decide (char = '+' ∨ char = '-')).length =
            more := by
        cases more with
        | nil => rfl
        | cons char more => by_cases hc : char = '+' ∨ char = '-' <;> simp [hc]
      show letter :: _ ++ _ ++ _ = letter :: more
      rw [append_assoc, takeWhile_append_dropWhile]
      exact congrArg (letter :: ·) sign
  · rfl

theorem cuts_of_number? (found : number? chars = some piece) : Cuts chars piece := by
  simp only [number?] at found
  split at found
  · cases found
  next whole =>
  cases found
  refine ⟨?_, ?_, nofun⟩
  · have places := tiles_fraction (chars.dropWhile Char.isDigit)
    have power := tiles_exponent (fraction (chars.dropWhile Char.isDigit)).rest
    unfold Piece.Tiles at places power ⊢
    rw [append_assoc, power, append_assoc, places, takeWhile_append_dropWhile]
  · intro none
    simp only [append_eq_nil_iff] at none
    exact whole (by simp [none.1.1])

theorem tiles_of_stringTail? {inner : Piece (List Char)}
    (found : stringTail? quote chars = some inner) : inner.Tiles chars := by
  fun_induction stringTail? quote chars generalizing inner with
  | case1 => cases found
  | case2 =>
    cases found
    rfl
  | case3 => cases found
  | case4 _ _ _ ih =>
    obtain ⟨deeper, hd, rfl⟩ := map_eq_some_iff.mp found
    have tiles := ih hd
    exact congrArg (_ :: _ :: ·) tiles
  | case5 _ _ _ _ ih =>
    obtain ⟨deeper, hd, rfl⟩ := map_eq_some_iff.mp found
    have tiles := ih hd
    exact congrArg (_ :: ·) tiles

theorem cuts_of_string? (found : string? chars = some piece) : Cuts chars piece := by
  cases chars with
  | nil => cases found
  | cons quote chars =>
    rw [string?] at found
    split at found
    · obtain ⟨inner, hi, rfl⟩ := map_eq_some_iff.mp found
      have tiles := tiles_of_stringTail? hi
      exact ⟨congrArg (quote :: ·) tiles, nofun, nofun⟩
    · cases found

theorem cuts_of_word? (found : word? chars = some piece) : Cuts chars piece := by
  cases chars with
  | nil => cases found
  | cons first chars =>
    rw [word?] at found
    split at found
    · cases found
      refine ⟨congrArg (first :: ·) takeWhile_append_dropWhile, nofun, ?_⟩
      dsimp only
      split <;> nofun
    · cases found

theorem marks_nonempty : ∀ symbol ∈ marks, symbol.toList ≠ [] := by decide

theorem cuts_of_mark? (found : mark? chars = some piece) : Cuts chars piece := by
  obtain ⟨symbol, hm, hs⟩ := exists_of_findSome?_eq_some found
  obtain ⟨rest, hr, rfl⟩ := map_eq_some_iff.mp hs
  exact ⟨of_after? hr, marks_nonempty symbol hm, nofun⟩

/-- Every token uses up characters. -/
theorem cuts_of_token? (found : token? chars = some piece) : Cuts chars piece := by
  unfold token? at found
  rcases or_eq_some_iff.mp found with hf | ⟨-, found⟩
  · exact cuts_of_escape? hf
  rcases or_eq_some_iff.mp found with hf | ⟨-, found⟩
  · exact cuts_of_number? hf
  rcases or_eq_some_iff.mp found with hf | ⟨-, found⟩
  · exact cuts_of_string? hf
  rcases or_eq_some_iff.mp found with hf | ⟨-, found⟩
  · exact cuts_of_word? hf
  · exact cuts_of_mark? found

theorem Cuts.byteLength_pos (cuts : Cuts chars piece) : 0 < Text.byteLength piece.lexeme := by
  obtain ⟨first, more, filled⟩ := exists_cons_of_ne_nil cuts.nonempty
  rw [filled, Text.byteLength]
  exact Nat.lt_of_lt_of_le first.utf8Size_pos (Nat.le_add_right _ _)

theorem isAstray_fault (first : Char) (chars : List Char) :
    (fault first chars).isAstray = false := by
  unfold fault
  split_ifs <;> rfl

/-- What is wrong with a wide character is the character itself. -/
theorem utf8Size_of_fault (other : fault first chars ≠ .unexpectedCharacter first) :
    first.utf8Size = 1 ∧ ∀ char, fault first chars ≠ .unexpectedCharacter char := by
  unfold fault at other ⊢
  split_ifs at other ⊢ with comment escape quote
  · by_cases hf : '/' = first
    · exact ⟨hf ▸ rfl, nofun⟩
    · simp [after?, hf] at comment
  · by_cases hf : 'j' = first
    · exact ⟨hf ▸ rfl, nofun⟩
    · simp [after?, hf] at escape
  · rw [isQuote, Bool.or_eq_true, beq_iff_eq, beq_iff_eq] at quote
    rcases quote with rfl | rfl
    · exact ⟨rfl, nofun⟩
    · exact ⟨rfl, nofun⟩
  · exact absurd rfl other

theorem byteLength_append (first second : List Char) :
    Text.byteLength (first ++ second) = Text.byteLength first + Text.byteLength second := by
  induction first with
  | nil => simp [Text.byteLength]
  | cons char rest ih => simp only [cons_append, Text.byteLength, ih, Nat.add_assoc]

end Lexer

/-- The span is a range of the first `size` bytes. -/
structure Span.Within (span : Span) (size : Nat) : Prop where
  ordered : span.start ≤ span.stop
  bounded : span.stop ≤ size

/-- The offset falls between two characters of a text, or on one of its ends. -/
def Text.IsBoundary (chars : List Char) (offset : Nat) : Prop :=
  ∃ before after, before ++ after = chars ∧ Text.byteLength before = offset

theorem Text.IsBoundary.behind (split : chars = start ++ (part ++ rest)) :
    IsBoundary chars (byteLength start + byteLength part) :=
  ⟨start ++ part, rest, by rw [split, append_assoc], Lexer.byteLength_append start part⟩

/-- The span is a range of a text and starts between two characters. -/
structure Span.Sits (span : Span) (chars : List Char) : Prop extends
    span.Within (Text.byteLength chars) where
  boundary : Text.IsBoundary chars span.start

/-- The empty range at the front of a text. -/
theorem Span.sits_zero (chars : List Char) : Span.Sits ⟨0, 0⟩ chars where
  ordered := Nat.le_refl 0
  bounded := Nat.zero_le _
  boundary := ⟨[], chars, rfl, rfl⟩

/-- The span is a range of a text that also ends between two characters. -/
structure Span.Whole (span : Span) (chars : List Char) : Prop extends span.Sits chars where
  closing : Text.IsBoundary chars span.stop

theorem Span.whole_zero (chars : List Char) : Span.Whole ⟨0, 0⟩ chars :=
  ⟨sits_zero chars, (sits_zero chars).boundary⟩

/-- Where an error is in a text: at a range of whole characters or, if no token begins with the
character there, at the first byte of that character. -/
inductive SyntaxError.Marks (text : List Char) : SyntaxError → Prop where
  | strange {before after : List Char} {char : Char} (split : before ++ char :: after = text) :
    Marks text ⟨.unexpectedCharacter char, ⟨Text.byteLength before, Text.byteLength before + 1⟩⟩
  | whole {fault : SyntaxFault} {span : Span} (known : ∀ char, fault ≠ .unexpectedCharacter char)
    (whole : span.Whole text) : Marks text ⟨fault, span⟩

/-- A reading that goes astray is at fault nowhere in particular. -/
theorem SyntaxError.Marks.astray {fault : SyntaxFault} (lost : fault.isAstray = true) :
    Marks text ⟨fault, ⟨0, 0⟩⟩ := by
  refine .whole (fun char same => ?_) (Span.whole_zero text)
  rw [same] at lost
  cases lost

/-- The first token has characters, and all of them come before the second token. -/
def Token.Before (first second : Token) : Prop :=
  first.span.start < first.span.stop ∧ first.span.stop ≤ second.span.start

/-- Tokens that follow one another, only the last of which may be empty. -/
structure Token.Orderly (tokens : List Token) : Prop where
  before : tokens.Pairwise Token.Before
  /-- Only the end marker is empty. -/
  filled : ∀ token ∈ tokens, token.kind ≠ .endOfFile → token.span.start < token.span.stop

namespace Lexer

/-- What comes of cutting up a text from an offset on: tokens inside the text that follow one
another, without the end marker, or an error that says something about the text. -/
def CutUp (text : List Char) (offset : Nat) : Except SyntaxError (List Token) → Prop
  | .ok tokens => tokens.Pairwise Token.Before ∧ ∀ token ∈ tokens, token.kind ≠ .endOfFile ∧
      token.span.Whole text ∧ offset ≤ token.span.start ∧ token.span.start < token.span.stop
  | .error error => error.fault.isAstray = false ∧ error.Marks text

/-- A limit beyond the number of characters is never reached. -/
theorem cutUp_tokensFrom (before : List Char) (enough : chars.length < limit) :
    CutUp (before ++ chars) (Text.byteLength before)
      (tokensFrom limit (Text.byteLength before) chars) := by
  induction limit generalizing before chars with
  | zero => omega
  | succ limit ih =>
    rw [tokensFrom]
    have gaps : (gap chars.length chars).lexeme ++ (gap chars.length chars).rest = chars :=
      tiles_gap chars.length chars
    dsimp only
    split
    · exact ⟨.nil, nofun⟩
    next first more hb =>
    rw [hb] at gaps
    have hg := byteLength_append before (gap chars.length chars).lexeme
    have cutting : before ++ chars =
        (before ++ (gap chars.length chars).lexeme) ++ first :: more := by
      rw [append_assoc, gaps]
    have boundary : Text.IsBoundary (before ++ chars)
        (Text.byteLength before + Text.byteLength (gap chars.length chars).lexeme) :=
      ⟨_, _, cutting.symm, hg⟩
    have hs := congrArg Text.byteLength cutting
    rw [byteLength_append _ (first :: more), hg] at hs
    split
    · refine ⟨isAstray_fault first more, ?_⟩
      by_cases wide : fault first more = .unexpectedCharacter first
      · rw [wide, ← hg]
        exact .strange cutting.symm
      · -- comments, escapes and strings are opened by characters of one byte
        obtain ⟨narrow, known⟩ := utf8Size_of_fault wide
        have hw : Text.byteLength (first :: more) = first.utf8Size + Text.byteLength more := rfl
        have next := @Text.IsBoundary.behind _ _ [first] more cutting
        rw [hg, Text.byteLength, narrow] at next
        exact .whole known ⟨⟨⟨Nat.le_succ _, by dsimp only; omega⟩, boundary⟩, next⟩
    next piece found =>
    have cuts := cuts_of_token? found
    have tiles : piece.lexeme ++ piece.rest = first :: more := cuts.tiles
    rw [← tiles] at gaps cutting hs
    have hl := congrArg List.length gaps
    have hp := length_pos_iff.mpr cuts.nonempty
    simp only [length_append] at hl
    rw [byteLength_append piece.lexeme] at hs
    have inner := @ih piece.rest (before ++ (gap chars.length chars).lexeme ++ piece.lexeme)
      (by omega)
    rw [append_assoc _ piece.lexeme, ← cutting, byteLength_append _ piece.lexeme, hg] at inner
    cases hr : tokensFrom limit _ piece.rest with
    | error error =>
      rw [hr] at inner
      exact inner
    | ok tokens =>
      rw [hr] at inner
      have filled := cuts.byteLength_pos
      refine ⟨.cons (fun token ht => ⟨by dsimp only; omega, (inner.2 token ht).2.2.1⟩) inner.1,
        forall_mem_cons.mpr ⟨⟨cuts.inside, ?_, ?_, ?_⟩, fun token ht => ?_⟩⟩
      · exact ⟨⟨⟨Nat.le_add_right _ _, by dsimp only; omega⟩, boundary⟩, hg ▸ .behind cutting⟩
      · exact Nat.le_add_right _ _
      · dsimp only
        omega
      · obtain ⟨marked, sits, later, wide⟩ := inner.2 token ht
        exact ⟨marked, sits, by omega, wide⟩

end Lexer

theorem cutUp_tokens (source : String) : Lexer.CutUp source.toList 0 (Lexer.tokens source.toList) :=
  Lexer.cutUp_tokensFrom [] (Nat.lt_succ_self _)

section

variable (cut : tokenize source = .ok tokens)
include cut

/-- The end marker is put behind what is cut off. -/
theorem cutUp_of_tokenize : ∃ found,
    tokens = found ++
        [⟨.endOfFile, ⟨Text.byteLength source.toList, Text.byteLength source.toList⟩⟩] ∧
      Lexer.CutUp source.toList 0 (.ok found) := by
  have cutUp := cutUp_tokens source
  unfold tokenize at cut
  cases hr : Lexer.tokens source.toList with
  | error error =>
    rw [hr] at cut
    cases cut
  | ok found =>
    rw [hr] at cut cutUp
    cases cut
    exact ⟨found, rfl, cutUp⟩

/-- The tokens of a text are closed by one end marker. -/
theorem closed_of_tokenize : Closed tokens := by
  obtain ⟨found, rfl, cutUp⟩ := cutUp_of_tokenize cut
  exact Closed.of_append rfl fun token ht => (cutUp.2 token ht).1

/-- The tokens of a text cover whole characters of it. -/
theorem whole_of_tokenize : ∀ token ∈ tokens, token.span.Whole source.toList := by
  obtain ⟨found, rfl, cutUp⟩ := cutUp_of_tokenize cut
  intro token ht
  rcases mem_append.mp ht with ht | ht
  · exact (cutUp.2 token ht).2.1
  · cases mem_singleton.mp ht
    have last : Text.IsBoundary source.toList (Text.byteLength source.toList) :=
      ⟨source.toList, [], append_nil _, rfl⟩
    exact ⟨⟨⟨Nat.le_refl _, Nat.le_refl _⟩, last⟩, last⟩

/-- The tokens of a text follow one another. -/
theorem orderly_of_tokenize : Token.Orderly tokens := by
  obtain ⟨found, rfl, cutUp⟩ := cutUp_of_tokenize cut
  refine ⟨pairwise_append.mpr ⟨cutUp.1, pairwise_singleton _ _, fun token ht last hl =>
    ?_⟩, fun token ht inside => ?_⟩
  · cases mem_singleton.mp hl
    obtain ⟨-, sits, -, wide⟩ := cutUp.2 token ht
    exact ⟨wide, sits.bounded⟩
  · rcases mem_append.mp ht with ht | ht
    · exact (cutUp.2 token ht).2.2.2
    · cases mem_singleton.mp ht
      exact absurd rfl inside

end

/-- A text that cannot be cut up is at fault itself, at a place inside it. -/
theorem fault_of_tokenize (cut : tokenize source = .error error) :
    error.fault.isAstray = false ∧ error.Marks source.toList := by
  have cutUp := cutUp_tokens source
  unfold tokenize at cut
  cases hr : Lexer.tokens source.toList with
  | error found =>
    rw [hr] at cut cutUp
    cases cut
    exact cutUp
  | ok found =>
    rw [hr] at cut
    cases cut

end ScriptCheck
