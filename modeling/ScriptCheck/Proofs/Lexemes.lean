import ScriptCheck.Proofs.Tokens

/-!
# Every token stands on its own

What is read at the front of a text depends on the characters that it is read from and on little
else: the text may end anywhere behind them. So the tokens and the gaps between them tile the
text, and each of them, cut out and read alone, is the same token or the same gap again.
-/

namespace ScriptCheck.Lexer

open List Option

variable {α β : Type} {chars kept : List Char}

theorem after?_append (wanted rest : List Char) : after? wanted (wanted ++ rest) = some rest := by
  induction wanted with
  | nil => rfl
  | cons first more ih => rw [cons_append, after?, if_pos rfl, ih]

/-- Characters that are long enough decide whether a list begins as wanted. -/
theorem after?_append_of_le (long : wanted.length ≤ start.length) (more : List Char) :
    after? wanted (start ++ more) = (after? wanted start).map (· ++ more) := by
  induction wanted generalizing start with
  | nil => rfl
  | cons first rest ih =>
    cases start with
    | nil => simp at long
    | cons char start =>
      simp only [cons_append, after?]
      split
      · exact ih (by simpa using long)
      · rfl

theorem after?_none_of_append {wanted start tail : List Char}
    (missing : after? wanted (start ++ tail) = none) : after? wanted start = none := by
  cases found : after? wanted start with
  | none => rfl
  | some rest =>
    rw [← of_after? found, append_assoc, after?_append] at missing
    cases missing

/-- A reader that reads the characters it uses the same way where the text ends behind them, and
finds nothing in the beginning of a text in which it finds nothing. -/
structure Alone (read : List Char → Option (Piece α)) : Prop where
  tiles : ∀ {chars piece}, read chars = some piece → piece.Tiles chars
  again : ∀ {chars piece}, read chars = some piece →
    read piece.lexeme = some ⟨piece.value, piece.lexeme, []⟩
  missing : ∀ {start tail}, read (start ++ tail) = none → read start = none

/-- Readers that are tried one after the other. -/
theorem Alone.or (alone : Alone first) (other : Alone second) :
    Alone fun chars => (first chars).or (second chars) where
  tiles found := by
    rcases or_eq_some_iff.mp found with hf | ⟨-, hs⟩
    · exact alone.tiles hf
    · exact other.tiles hs
  again {chars piece} found := by
    rcases or_eq_some_iff.mp found with hf | ⟨hf, hs⟩
    · rw [alone.again hf, some_or]
    · have tiles : piece.lexeme ++ piece.rest = chars := other.tiles hs
      rw [← tiles] at hf
      rw [alone.missing hf, none_or, other.again hs]
  missing nothing := by
    obtain ⟨hf, hs⟩ := or_eq_none_iff.mp nothing
    rw [alone.missing hf, other.missing hs, or_none]

/-- A reader to which it does not matter what follows the characters that it uses. -/
structure Fixed (read : List Char → Option (Piece α)) : Prop where
  tiles : ∀ {chars piece}, read chars = some piece → piece.Tiles chars
  again : ∀ {chars piece}, read chars = some piece → ∀ more,
    read (piece.lexeme ++ more) = some ⟨piece.value, piece.lexeme, more⟩

namespace Fixed

variable {read : List Char → Option (Piece α)}

theorem map (fixed : Fixed read) (change : α → β) :
    Fixed fun chars => (read chars).map (Piece.map change) where
  tiles found := by
    obtain ⟨piece, hp, rfl⟩ := map_eq_some_iff.mp found
    exact fixed.tiles hp
  again found more := by
    obtain ⟨piece, hp, rfl⟩ := map_eq_some_iff.mp found
    exact map_eq_some_iff.mpr ⟨_, fixed.again hp more, rfl⟩

theorem alone (fixed : Fixed read) : Alone read where
  tiles := fixed.tiles
  again {chars piece} found := by simpa using fixed.again found []
  missing {start tail} nothing := by
    cases found : read start with
    | none => rfl
    | some piece =>
      have tiles : piece.lexeme ++ piece.rest = start := fixed.tiles found
      have again := fixed.again found (piece.rest ++ tail)
      rw [← append_assoc, tiles, nothing] at again
      cases again

end Fixed

theorem through?_append (stop more : List Char) :
    through? stop (stop ++ more) = some ⟨[], stop, more⟩ := by
  have here := after?_append stop more
  cases hc : stop ++ more with
  | nil =>
    rw [hc] at here
    rw [through?, here]
    rfl
  | cons char chars =>
    rw [hc] at here
    rw [through?, here]

/-- The end that is looked for does not start earlier, whatever follows it. -/
theorem fixed_through? (stop : List Char) : Fixed (through? stop) where
  tiles found := (of_through? found).2
  again {chars piece} found more := by
    induction chars generalizing piece with
    | nil =>
      obtain ⟨rest, -, rfl⟩ := map_eq_some_iff.mp found
      exact through?_append stop more
    | cons char chars ih =>
      rw [through?] at found
      split at found
      · cases found
        exact through?_append stop more
      next missing =>
      obtain ⟨inner, hi, rfl⟩ := map_eq_some_iff.mp found
      obtain ⟨lexeme, tiles : inner.lexeme ++ inner.rest = chars⟩ := of_through? hi
      have long : stop.length ≤ (char :: inner.lexeme).length := by
        simp only [lexeme, length_cons, length_append]
        omega
      rw [← tiles, ← cons_append, after?_append_of_le long, map_eq_none_iff] at missing
      rw [cons_append, through?, ← cons_append, after?_append_of_le long, missing, ih hi]
      rfl

theorem fixed_between? (start stop : List Char) : Fixed (between? start stop) where
  tiles := tiles_of_between?
  again {chars piece} found more := by
    unfold between? at found
    split at found
    · cases found
    · obtain ⟨inner, hi, rfl⟩ := map_eq_some_iff.mp found
      rw [between?, append_assoc, after?_append]
      simp only [(fixed_through? stop).again hi more, map_some]

theorem fixed_escape? : Fixed escape? := (fixed_between? _ _).map _

theorem fixed_stringTail? (quote : Char) : Fixed (stringTail? quote) where
  tiles := tiles_of_stringTail?
  again {chars piece} found more := by
    fun_induction stringTail? quote chars generalizing piece with
    | case1 => cases found
    | case2 =>
      cases found
      simp [stringTail?.eq_def]
    | case3 => cases found
    | case4 next chars differ ih =>
      obtain ⟨inner, hi, rfl⟩ := map_eq_some_iff.mp found
      simp [stringTail?.eq_def quote ('\\' :: _), differ, ih hi]
    | case5 char chars differ plain ih =>
      obtain ⟨inner, hi, rfl⟩ := map_eq_some_iff.mp found
      simp [stringTail?.eq_def quote (char :: _), differ, plain, ih hi]

theorem fixed_string? : Fixed string? where
  tiles found := (cuts_of_string? found).tiles
  again {chars piece} found more := by
    cases chars with
    | nil => cases found
    | cons quote chars =>
      rw [string?] at found
      split at found
      · next quotes =>
        obtain ⟨inner, hi, rfl⟩ := map_eq_some_iff.mp found
        simp [string?, quotes, (fixed_stringTail? quote).again hi more]
      · cases found

/-- Characters of a kind are followed by one that is not of the kind. -/
theorem takeWhile_kept (cut : kept <+: chars.dropWhile holds) :
    (chars.takeWhile holds ++ kept).takeWhile holds = chars.takeWhile holds ∧
      (chars.takeWhile holds ++ kept).dropWhile holds = kept := by
  have all : ∀ char ∈ chars.takeWhile holds, holds char = true := all_eq_true.mp all_takeWhile
  have ends : kept.takeWhile holds = [] ∧ kept.dropWhile holds = kept := by
    cases kept with
    | nil => exact ⟨rfl, rfl⟩
    | cons char kept =>
      obtain ⟨more, whole⟩ := cut
      have other : holds char = false := by
        have first := head?_dropWhile_not holds chars
        rw [← whole] at first
        exact first
      simp [other]
  rw [takeWhile_append_of_pos all, dropWhile_append_of_pos all, ends.1, ends.2, append_nil]
  exact ⟨rfl, rfl⟩

theorem isEmpty_of_start (none : (chars.takeWhile holds).isEmpty = true) (cut : kept <+: chars) :
    (kept.takeWhile holds).isEmpty = true := by
  obtain ⟨more, rfl⟩ := cut
  cases kept with
  | nil => rfl
  | cons char kept => cases hc : holds char <;> simp_all

theorem fraction_kept (cut : kept <+: (fraction chars).rest) :
    fraction ((fraction chars).lexeme ++ kept) =
      ⟨(fraction chars).value, (fraction chars).lexeme, kept⟩ := by
  have absent (point : ∀ more, kept = '.' :: more → (more.takeWhile Char.isDigit).isEmpty = true) :
      fraction kept = ⟨[], [], kept⟩ := by
    unfold fraction
    split
    · next more => rw [if_pos (point more rfl)]
    · rfl
  revert cut
  fun_cases fraction chars with
  | case1 more digits none =>
    intro cut
    refine absent fun inner hk => ?_
    rw [hk] at cut
    exact isEmpty_of_start none (cons_prefix_cons.mp cut).2
  | case2 more digits some =>
    intro cut
    obtain ⟨same, after⟩ := takeWhile_kept cut
    rw [cons_append, fraction, same, after]
    exact if_neg some
  | case3 _ other =>
    rintro ⟨more, whole⟩
    refine absent fun inner hk => ?_
    rw [hk] at whole
    exact (other _ whole.symm).elim

/-- A sign is only followed by digits. -/
theorem exponent_alone (chars : List Char) : exponent (exponent chars).lexeme =
    ⟨(exponent chars).value, (exponent chars).lexeme, []⟩ := by
  fun_cases exponent chars with
  | case1 => rfl
  | case2 letter more marked sign unsigned digits none => rfl
  | case3 letter more marked sign unsigned digits some value =>
    have same : ((sign ++ digits).take 1).filter (fun char => char = '+' ∨ char = '-') = sign := by
      rcases more with _ | ⟨first, more⟩
      · rfl
      by_cases signed : first = '+' ∨ first = '-'
      · simp [sign, signed]
      · cases hd : first.isDigit <;> simp [digits, unsigned, sign, signed, hd]
    have all := @takeWhile_kept unsigned [] Char.isDigit nil_prefix
    rw [append_nil] at all
    show exponent (letter :: (sign ++ digits)) = _
    rw [exponent, if_pos marked]
    simp only [same, drop_left, digits, all]
    exact if_neg some
  | case4 => rfl

theorem alone_number? : Alone number? where
  tiles found := (cuts_of_number? found).tiles
  again {chars piece} found := by
    simp only [number?] at found
    split at found
    · cases found
    next whole =>
    cases found
    have places : (fraction (chars.dropWhile Char.isDigit)).lexeme ++ _ = _ := tiles_fraction _
    have power : (exponent (fraction (chars.dropWhile Char.isDigit)).rest).lexeme ++ _ = _ :=
      tiles_exponent _
    have tail : (fraction (chars.dropWhile Char.isDigit)).lexeme ++
        (exponent (fraction (chars.dropWhile Char.isDigit)).rest).lexeme <+:
          chars.dropWhile Char.isDigit := by
      rw [← power, ← append_assoc] at places
      exact ⟨_, places⟩
    obtain ⟨same, after⟩ := takeWhile_kept tail
    rw [append_assoc, number?]
    simp only [same, after, fraction_kept ⟨_, power⟩, exponent_alone]
    rw [if_neg whole, append_assoc]
  missing {start tail} nothing := by
    simp only [number?] at nothing ⊢
    split at nothing
    · next none => exact if_pos (isEmpty_of_start none (prefix_append start tail))
    · cases nothing

theorem alone_word? : Alone word? where
  tiles found := (cuts_of_word? found).tiles
  again {chars piece} found := by
    cases chars with
    | nil => cases found
    | cons first chars =>
      rw [word?] at found
      split at found
      · next starts =>
        cases found
        have all := @takeWhile_kept chars [] continuesWord nil_prefix
        rw [append_nil] at all
        simp only [word?, starts, if_true, all]
      · cases found
  missing {start tail} nothing := by
    cases start with
    | nil => rfl
    | cons first start =>
      rw [cons_append, word?] at nothing
      split at nothing
      · cases nothing
      · next other => exact if_neg other

theorem alone_mark? : Alone mark? where
  tiles found := (cuts_of_mark? found).tiles
  again {chars piece} found := by
    obtain ⟨earlier, symbol, later, listed, hs, none⟩ := findSome?_eq_some_iff.mp found
    obtain ⟨rest, hr, rfl⟩ := map_eq_some_iff.mp hs
    refine findSome?_eq_some_iff.mpr ⟨earlier, symbol, later, listed, ?_, fun other ho => ?_⟩
    · have here := after?_append symbol.toList []
      rw [append_nil] at here
      rw [here, map_some]
    · have missing := map_eq_none_iff.mp (none other ho)
      rw [← of_after? hr] at missing
      rw [after?_none_of_append missing, map_none]
  missing {start tail} nothing := by
    refine findSome?_eq_none_iff.mpr fun symbol hs => ?_
    have missing := map_eq_none_iff.mp (findSome?_eq_none_iff.mp nothing symbol hs)
    rw [after?_none_of_append missing, map_none]

/-- A token that is cut out is read the same way. -/
theorem alone_token? : Alone token? :=
  fixed_escape?.alone.or (alone_number?.or (fixed_string?.alone.or (alone_word?.or alone_mark?)))

section Gaps

variable {piece : Piece Unit}

theorem nonempty_of_gapOnce? (found : gapOnce? chars = some piece) : piece.lexeme ≠ [] := by
  simp only [gapOnce?] at found
  split at found
  · next blanks =>
    cases found
    simpa using blanks
  · split at found
    · cases found
      exact cons_ne_nil _ _
    · obtain ⟨inner, hi, rfl⟩ := map_eq_some_iff.mp found
      exact nonempty_of_between? hi

/-- Blanks or a comment are read the same way if the text ends behind them. -/
theorem gapOnce?_kept (found : gapOnce? chars = some piece) (cut : kept <+: piece.rest) :
    gapOnce? (piece.lexeme ++ kept) = some ⟨(), piece.lexeme, kept⟩ := by
  have whole : piece.lexeme ++ kept <+: chars := by
    obtain ⟨more, rest⟩ := cut
    have tiles : piece.lexeme ++ piece.rest = chars := tiles_of_gapOnce? found
    exact ⟨more, by rw [append_assoc, rest, tiles]⟩
  simp only [gapOnce?] at found
  split at found
  · next blanks =>
    cases found
    obtain ⟨same, after⟩ := takeWhile_kept cut
    simp only [gapOnce?, same, after]
    exact if_pos blanks
  next blanks =>
  have none : ((piece.lexeme ++ kept).takeWhile Text.isBlank).isEmpty = true :=
    isEmpty_of_start (by simpa using blanks) whole
  split at found
  · next comment hc =>
    cases found
    obtain ⟨same, after⟩ := takeWhile_kept cut
    simp only [gapOnce?, none, Bool.not_true, Bool.false_eq_true, if_false]
    rw [append_assoc, after?_append]
    simp only [same, after]
  · next missing =>
    obtain ⟨inner, hi, rfl⟩ := map_eq_some_iff.mp found
    obtain ⟨more, rfl⟩ := whole
    simp only [gapOnce?, none, Bool.not_true, Bool.false_eq_true, if_false,
      after?_none_of_append missing]
    exact map_eq_some_iff.mpr ⟨_, (fixed_between? _ _).again hi kept, rfl⟩

theorem gapOnce?_none_of_append {start tail : List Char} (missing : gapOnce? (start ++ tail) = none) :
    gapOnce? start = none := by
  simp only [gapOnce?] at missing
  split at missing
  · cases missing
  next blanks =>
  have none : (start.takeWhile Text.isBlank).isEmpty = true :=
    isEmpty_of_start (by simpa using blanks) (prefix_append start tail)
  split at missing
  · cases missing
  next line =>
  have block := (fixed_between? _ _).alone.missing (map_eq_none_iff.mp missing)
  simp only [gapOnce?, none, Bool.not_true, Bool.false_eq_true, if_false,
    after?_none_of_append line, block, map_none]

/-- A gap that is cut out is read as a whole. -/
theorem gap_alone (limit : Nat) (chars : List Char)
    (enough : (gap limit chars).lexeme.length ≤ limit') :
    gap limit' (gap limit chars).lexeme = ⟨(), (gap limit chars).lexeme, []⟩ := by
  have nothing (limit : Nat) : gap limit [] = ⟨(), [], []⟩ := by cases limit <;> rfl
  induction limit generalizing chars limit' with
  | zero => exact nothing limit'
  | succ limit ih =>
    rw [gap] at enough ⊢
    split at enough
    · exact nothing limit'
    next first found =>
    have more : (gap limit first.rest).lexeme ++ _ = first.rest := tiles_gap limit first.rest
    have filled := length_pos_iff.mpr (nonempty_of_gapOnce? found)
    simp only [length_append] at enough
    obtain ⟨limit', rfl⟩ : ∃ less, limit' = less + 1 := ⟨limit' - 1, by omega⟩
    simp only [gap, gapOnce?_kept found ⟨_, more⟩, ih first.rest (by omega : _ ≤ limit')]

/-- Behind a gap there is neither a blank nor a comment. -/
theorem gapOnce?_rest_gap (enough : chars.length ≤ limit) :
    gapOnce? (gap limit chars).rest = none := by
  induction limit generalizing chars with
  | zero =>
    obtain rfl := length_eq_zero_iff.mp (Nat.le_zero.mp enough)
    rfl
  | succ limit ih =>
    rw [gap]
    split
    · assumption
    next first found =>
    have tiles : first.lexeme ++ first.rest = chars := tiles_of_gapOnce? found
    have filled := length_pos_iff.mpr (nonempty_of_gapOnce? found)
    have shorter := congrArg List.length tiles
    rw [length_append] at shorter
    exact ih (by omega)

end Gaps

/-- A gap that is cut out has no tokens. -/
theorem tokens_gap (limit : Nat) (chars : List Char) : tokens (gap limit chars).lexeme = .ok [] := by
  rw [tokens, tokensFrom, gap_alone limit chars (Nat.le_refl _)]

/-- A token that is cut out is the only one. -/
theorem tokens_lexeme {piece : Piece TokenKind} (found : token? chars = some piece)
    (here : gapOnce? chars = none) :
    tokens piece.lexeme = .ok [⟨piece.value, ⟨0, Text.byteLength piece.lexeme⟩⟩] := by
  have cuts := cuts_of_token? found
  have tiles : piece.lexeme ++ piece.rest = chars := cuts.tiles
  rw [← tiles] at here
  have read := alone_token?.again found
  obtain ⟨first, more, filled⟩ := exists_cons_of_ne_nil cuts.nonempty
  have front : gap piece.lexeme.length piece.lexeme = ⟨(), [], piece.lexeme⟩ := by
    rw [filled, length_cons, gap, ← filled, gapOnce?_none_of_append here]
  rw [tokens, tokensFrom, front]
  simp only [filled]
  rw [← filled, read]
  simp [filled, tokensFrom, gap, Text.byteLength, Except.map]

end Lexer

/-- The characters that stand in a range of bytes of a text. -/
def Text.Slice (text : List Char) (span : Span) (part : List Char) : Prop :=
  ∃ before after, before ++ part ++ after = text ∧ Text.byteLength before = span.start ∧
    Text.byteLength (before ++ part) = span.stop

/-- The ranges from an offset on that lie between tokens, the last of which ends with the text. -/
def Token.gaps (size : Nat) : Nat → List Token → List Span
  | offset, [] => [⟨offset, size⟩]
  | offset, token :: rest => ⟨offset, token.span.start⟩ :: gaps size token.span.stop rest

/-- The end marker of a text. -/
def Token.marker (size : Nat) : Token := ⟨.endOfFile, ⟨size, size⟩⟩

namespace Lexer

theorem tiled_of_tokensFrom (cut : tokensFrom limit (Text.byteLength before) chars = .ok found) :
    (∀ token ∈ found, ∃ part, Text.Slice (before ++ chars) token.span part ∧
      tokens part = .ok [⟨token.kind, ⟨0, Text.byteLength part⟩⟩]) ∧
    ∀ span ∈ Token.gaps (Text.byteLength (before ++ chars)) (Text.byteLength before) found,
      ∃ part, Text.Slice (before ++ chars) span part ∧ tokens part = .ok [] := by
  induction limit generalizing before chars found with
  | zero => cases cut
  | succ limit ih =>
    have blank : (gap chars.length chars).lexeme ++ (gap chars.length chars).rest = chars :=
      tiles_gap chars.length chars
    have here : gapOnce? (gap chars.length chars).rest = none := gapOnce?_rest_gap (Nat.le_refl _)
    have first : Text.Slice (before ++ chars) ⟨Text.byteLength before,
        Text.byteLength (before ++ (gap chars.length chars).lexeme)⟩
        (gap chars.length chars).lexeme :=
      ⟨before, (gap chars.length chars).rest, by rw [List.append_assoc, blank], rfl, rfl⟩
    rw [tokensFrom] at cut
    dsimp only at cut
    split at cut
    · next ends =>
      cases cut
      refine ⟨List.forall_mem_nil _, List.forall_mem_singleton.mpr ⟨_, ?_, tokens_gap chars.length chars⟩⟩
      rw [ends, List.append_nil] at blank
      rw [blank] at first ⊢
      exact first
    next char more ends =>
    rw [ends] at here blank
    split at cut
    · cases cut
    next piece read =>
    have tiles : piece.lexeme ++ piece.rest = char :: more := (cuts_of_token? read).tiles
    cases rest : tokensFrom limit (Text.byteLength before +
      Text.byteLength (gap chars.length chars).lexeme + Text.byteLength piece.lexeme) piece.rest with
    | error error =>
      rw [rest] at cut
      cases cut
    | ok later =>
    rw [rest] at cut
    cases cut
    rw [← byteLength_append, ← byteLength_append] at rest
    obtain ⟨parts, gaps⟩ := ih rest
    have whole : before ++ (gap chars.length chars).lexeme ++ piece.lexeme ++ piece.rest =
        before ++ chars := by
      rw [List.append_assoc, tiles, List.append_assoc, blank]
    rw [whole] at parts gaps
    rw [byteLength_append before] at first
    rw [byteLength_append _ piece.lexeme, byteLength_append before (gap _ _).lexeme] at gaps
    refine ⟨List.forall_mem_cons.mpr ⟨⟨piece.lexeme, ⟨_, piece.rest, whole, ?_, ?_⟩,
      tokens_lexeme read here⟩, parts⟩, List.forall_mem_cons.mpr ⟨⟨_, first, tokens_gap _ _⟩, gaps⟩⟩
    · exact byteLength_append _ _
    · rw [byteLength_append, byteLength_append]

end Lexer

theorem tokenize_ofList (cut : Lexer.tokens part = .ok found) :
    tokenize (String.ofList part) = .ok (found ++ [Token.marker (Text.byteLength part)]) := by
  simp only [tokenize, String.toList_ofList, cut]
  rfl

/-- Tokens without the end marker that tile a text. -/
structure Tiling (source : String) (found : List Token) : Prop where
  inside : ∀ token ∈ found, token.kind ≠ .endOfFile ∧ token.span.start < token.span.stop
  /-- The tokens follow one another. -/
  ordered : found.Pairwise Token.Before
  /-- A token is the only one of the characters that it stands on. -/
  alone : ∀ token ∈ found, ∃ part, Text.Slice source.toList token.span part ∧
    tokenize (String.ofList part) =
      .ok [⟨token.kind, ⟨0, token.span.length⟩⟩, Token.marker token.span.length]
  /-- There is no token between two of them, before the first and behind the last. -/
  gaps : ∀ span ∈ Token.gaps (Text.byteLength source.toList) 0 found,
    ∃ part, Text.Slice source.toList span part ∧
      tokenize (String.ofList part) = .ok [Token.marker span.length]

/-- The tokens of a text tile it, and end with the only end marker, at the end of the text. -/
theorem tokenize_tiles {source : String} {tokens : List Token}
    (cut : tokenize source = .ok tokens) : ∃ found,
      tokens = found ++ [Token.marker (Text.byteLength source.toList)] ∧ Tiling source found := by
  obtain ⟨found, rfl, ordered, inside⟩ := cutUp_of_tokenize cut
  have length {span : Span} {part : List Char} (slice : Text.Slice source.toList span part) :
      span.length = Text.byteLength part := by
    obtain ⟨before, after, -, start, stop⟩ := slice
    rw [Lexer.byteLength_append] at stop
    rw [Span.length]
    omega
  have read : Lexer.tokens source.toList = .ok found := by
    unfold tokenize at cut
    cases hr : Lexer.tokens source.toList with
    | error error =>
      rw [hr] at cut
      cases cut
    | ok others =>
      rw [hr] at cut
      exact congrArg _ (List.append_cancel_right (Except.ok.inj cut))
  obtain ⟨parts, gaps⟩ := @Lexer.tiled_of_tokensFrom _ [] _ _ read
  refine ⟨found, rfl, fun token ht => ⟨(inside token ht).1, (inside token ht).2.2.2⟩, ordered,
    fun token ht => ?_, fun span hs => ?_⟩
  · obtain ⟨part, slice, alone⟩ := parts token ht
    refine ⟨part, slice, ?_⟩
    rw [length slice]
    exact tokenize_ofList alone
  · obtain ⟨part, slice, alone⟩ := gaps span hs
    refine ⟨part, slice, ?_⟩
    rw [length slice]
    exact tokenize_ofList alone

/-- A range between numbers, with a comment that holds a wide character behind it. -/
theorem rangeWithComment_tiles : ∃ found, tokenize "1..5 // π" = .ok (found ++ [Token.marker 10]) ∧
    found.map Token.kind = [.number (Number.ofParts false ['1'] [] 0), .mark "..",
      .number (Number.ofParts false ['5'] [] 0)] ∧ Tiling "1..5 // π" found := by
  have known : (tokenize "1..5 // π").toOption.map (List.map Token.kind) =
      some [.number (Number.ofParts false ['1'] [] 0), .mark "..",
        .number (Number.ofParts false ['5'] [] 0), .endOfFile] := by decide +kernel
  have size : Text.byteLength "1..5 // π".toList = 10 := by decide +kernel
  cases cut : tokenize "1..5 // π" with
  | error error =>
    rw [cut] at known
    cases known
  | ok tokens =>
    obtain ⟨found, rfl, tiling⟩ := tokenize_tiles cut
    rw [cut, size] at known
    refine ⟨found, by rw [size], ?_, tiling⟩
    have kinds := Option.some.inj known
    rw [List.map_append] at kinds
    exact List.append_inj_left' kinds rfl

end ScriptCheck
