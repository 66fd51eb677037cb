import ScriptCheck.Proofs.Lexemes

/-!
# Texts that are not closed

A string that is not closed is no token, and no other token starts with a quote: the text is
rejected at the quote. A comment or an escape that is not closed is something else at its front
as well, a division sign or an identifier, and the text is read on behind that.
-/

namespace ScriptCheck

/-- Quotes stand in the text only where a backslash escapes them. -/
inductive Escaped (quote : Char) : List Char → Prop where
  | nil : Escaped quote []
  /-- A backslash at the end escapes nothing. -/
  | dangling : Escaped quote ['\\']
  /-- A backslash escapes the character behind it, which may be a quote or a backslash. -/
  | pair (next : Char) {rest : List Char} : Escaped quote rest → Escaped quote ('\\' :: next :: rest)
  | plain {char : Char} {rest : List Char} : char ≠ quote → char ≠ '\\' → Escaped quote rest →
    Escaped quote (char :: rest)

namespace Lexer

variable {char quote : Char} {chars : List Char}

theorem after?_of_ne (differ : first ≠ char) : after? (first :: more) (char :: chars) = none := if_neg differ

theorem between?_of_ne (differ : first ≠ char) :
    between? (first :: more) stop (char :: chars) = none := by
  rw [between?, after?_of_ne differ]

/-- No mark starts with the character. -/
theorem mark?_of_ne (differ : ∀ symbol ∈ marks, symbol.toList.head? ≠ some char) :
    mark? (char :: chars) = none := by
  refine List.findSome?_eq_none_iff.mpr fun symbol hs => ?_
  obtain ⟨first, more, filled⟩ := List.exists_cons_of_ne_nil (marks_nonempty symbol hs)
  have other := differ symbol hs
  rw [filled] at other ⊢
  rw [after?_of_ne fun same => other (congrArg some same), Option.map_none]

/-- What ends a comment or an escape stands in it. -/
theorem through?_eq_none (absent : ¬stop <:+: chars) : through? stop chars = none := by
  cases found : through? stop chars with
  | none => rfl
  | some piece =>
    obtain ⟨lexeme, tiles : piece.lexeme ++ piece.rest = chars⟩ := of_through? found
    rw [lexeme] at tiles
    exact absurd ⟨piece.value, piece.rest, tiles⟩ absent

theorem between?_eq_none (absent : ¬stop <:+: chars) :
    between? start stop (start ++ chars) = none := by
  rw [between?, after?_append]
  simp only [through?_eq_none absent, Option.map_none]

theorem stringTail?_eq_none (differ : quote ≠ '\\') (escaped : Escaped quote chars) :
    stringTail? quote chars = none := by
  induction escaped with
  | nil => rfl
  | dangling => simp [stringTail?.eq_def, differ.symm]
  | pair next _ ih => simp [stringTail?.eq_def quote ('\\' :: _), differ.symm, ih]
  | plain other simple _ ih => simp [stringTail?.eq_def quote (_ :: _), other, simple, ih]

/-- No token starts with the character, and no gap. -/
structure Strange (char : Char) : Prop where
  visible : Text.isBlank char = false
  noDigit : char.isDigit = false
  noWord : startsWord char = false
  noMark : ∀ symbol ∈ marks, symbol.toList.head? ≠ some char
  noComment : '/' ≠ char
  noEscape : 'j' ≠ char

section Cutting

variable (visible : Text.isBlank char = false) (line : after? ['/', '/'] (char :: chars) = none)
  (block : between? ['/', '*'] ['*', '/'] (char :: chars) = none)

include visible line block

theorem gap_front : gap (char :: chars).length (char :: chars) = ⟨(), [], char :: chars⟩ := by
  simp [gap, gapOnce?, visible, line, block]

/-- A text that starts neither with a blank nor with a comment is cut at its front. -/
theorem tokensFrom_front (found : token? (char :: chars) = some piece) :
    tokensFrom (limit + 1) offset (char :: chars) =
      (tokensFrom limit (offset + Text.byteLength piece.lexeme) piece.rest).map
        (⟨piece.value, ⟨offset, offset + Text.byteLength piece.lexeme⟩⟩ :: ·) := by
  rw [tokensFrom, gap_front visible line block]
  simp only [found]
  rfl

theorem tokensFrom_stuck (missing : token? (char :: chars) = none) :
    tokensFrom (limit + 1) offset (char :: chars) =
      .error ⟨fault char chars, ⟨offset, offset + 1⟩⟩ := by
  rw [tokensFrom, gap_front visible line block]
  simp only [missing]
  rfl

end Cutting

namespace Strange

variable (strange : Strange char)

include strange

theorem token? (unclosed : string? (char :: chars) = none) : token? (char :: chars) = none := by
  have escape : escape? (char :: chars) = none := by
    rw [escape?, between?_of_ne strange.noEscape, Option.map_none]
  have number : number? (char :: chars) = none := by simp [number?, strange.noDigit]
  have word : word? (char :: chars) = none := by simp [word?, strange.noWord]
  rw [Lexer.token?, escape, number, unclosed, word, mark?_of_ne strange.noMark]
  rfl

/-- The text is rejected at the character. -/
theorem tokensFrom (unclosed : string? (char :: chars) = none) :
    tokensFrom (limit + 1) offset (char :: chars) =
      .error ⟨if isQuote char then .unterminatedString else .unexpectedCharacter char,
        ⟨offset, offset + 1⟩⟩ := by
  rw [tokensFrom_stuck strange.visible (after?_of_ne strange.noComment)
    (between?_of_ne strange.noComment) (strange.token? unclosed), fault,
    after?_of_ne strange.noComment, after?_of_ne strange.noEscape]
  rfl

end Strange

theorem strange_of_isQuote (quotes : isQuote char = true) : Strange char := by
  rcases Bool.or_eq_true_iff.mp quotes with hq | hq
  · cases eq_of_beq hq
    exact ⟨by decide +kernel, by decide, by decide +kernel, by decide +kernel, by decide, by decide⟩
  · cases eq_of_beq hq
    exact ⟨by decide +kernel, by decide, by decide +kernel, by decide +kernel, by decide, by decide⟩

theorem strange_hash : Strange '#' :=
  ⟨by decide +kernel, by decide, by decide +kernel, by decide +kernel, by decide, by decide⟩

/-- A text in which a string is not closed. -/
theorem tokens_openString (quotes : isQuote quote = true) (escaped : Escaped quote chars) :
    tokens (quote :: chars) = .error ⟨.unterminatedString, ⟨0, 1⟩⟩ := by
  have differ : quote ≠ '\\' := by
    rintro rfl
    cases quotes
  have unclosed : string? (quote :: chars) = none := by
    rw [string?, if_pos quotes, stringTail?_eq_none differ escaped, Option.map_none]
  rw [tokens, List.length_cons, (strange_of_isQuote quotes).tokensFrom unclosed, if_pos quotes]

/-- Behind the word at the front of an escape that is not closed, no token starts. -/
theorem tokens_openEscape (absent : ¬['#', 'j', 's'] <:+: chars) :
    tokens ('j' :: 's' :: '#' :: chars) = .error ⟨.unexpectedCharacter '#', ⟨2, 3⟩⟩ := by
  have word : token? ('j' :: 's' :: '#' :: chars) =
      some ⟨.identifier "js", ['j', 's'], '#' :: chars⟩ := by
    have escape : escape? ('j' :: 's' :: '#' :: chars) = none :=
      Option.map_eq_none_iff.mpr (between?_eq_none absent)
    have number : number? ('j' :: 's' :: '#' :: chars) = none := rfl
    have string : string? ('j' :: 's' :: '#' :: chars) = none := rfl
    have letters : startsWord 'j' = true ∧ continuesWord 's' = true ∧ continuesWord '#' = false ∧
        keywords.contains (String.ofList ['j', 's']) = false := by decide +kernel
    rw [Lexer.token?, escape, number, string, word?, if_pos letters.1]
    simp only [List.takeWhile, List.dropWhile, letters, Option.none_or, Option.some_or]
    rfl
  have hash : string? ('#' :: chars) = none := rfl
  rw [tokens, tokensFrom_front (by decide +kernel) (after?_of_ne (by decide))
    (between?_of_ne (by decide)) word, List.length_cons, strange_hash.tokensFrom hash]
  rfl

/-- A comment that is not closed is read as two marks and what follows them. -/
theorem tokens_openComment (absent : ¬['*', '/'] <:+: chars) :
    tokens ('/' :: '*' :: chars) = (tokensFrom (chars.length + 1) 2 chars).map fun rest =>
      ⟨.mark "/", ⟨0, 1⟩⟩ :: ⟨.mark "*", ⟨1, 2⟩⟩ :: rest := by
  have words : startsWord '/' = false ∧ startsWord '*' = false := by decide +kernel
  have slash : token? ('/' :: '*' :: chars) = some ⟨.mark "/", ['/'], '*' :: chars⟩ := by
    have word : word? ('/' :: '*' :: chars) = none := by simp [word?, words]
    have mark : mark? ('/' :: '*' :: chars) = some ⟨.mark "/", ['/'], '*' :: chars⟩ := by
      simp [mark?, marks, after?]
    rw [token?, word, mark]
    rfl
  have star : token? ('*' :: chars) = some ⟨.mark "*", ['*'], chars⟩ := by
    have word : word? ('*' :: chars) = none := by simp [word?, words]
    have mark : mark? ('*' :: chars) = some ⟨.mark "*", ['*'], chars⟩ := by
      simp [mark?, marks, after?]
    rw [token?, word, mark]
    rfl
  have block : between? ['/', '*'] ['*', '/'] ('/' :: '*' :: chars) = none := between?_eq_none absent
  rw [tokens, tokensFrom_front (by decide +kernel) rfl block slash, List.length_cons,
    tokensFrom_front (by decide +kernel) (after?_of_ne (by decide)) (between?_of_ne (by decide)) star]
  have sizes : Text.byteLength ['/'] = 1 ∧ Text.byteLength ['*'] = 1 := by decide
  simp only [sizes]
  cases tokensFrom (chars.length + 1) 2 chars <;> rfl

end Lexer

/-- A string that is not closed is rejected as such, at its quote. A text that starts like an
escape which is not closed is rejected behind the first two letters, and a text that starts like a
comment which is not closed is two marks followed by whatever stands in the comment. -/
theorem tokenize_open (quote : Char) (text : String) :
    (Lexer.isQuote quote = true → Escaped quote text.toList →
      ∃ error, tokenize (String.singleton quote ++ text) = .error error ∧
        error.message = "unterminated string literal" ∧ error.span = ⟨0, 1⟩) ∧
    (¬['#', 'j', 's'] <:+: text.toList → ∃ error, tokenize ("js#" ++ text) = .error error ∧
      error.message = "unexpected character `#`" ∧ error.span = ⟨2, 3⟩) ∧
    (¬['*', '/'] <:+: text.toList → tokenize ("/*" ++ text) =
      (Lexer.tokensFrom (text.length + 1) 2 text.toList).map fun rest =>
        ⟨.mark "/", ⟨0, 1⟩⟩ :: ⟨.mark "*", ⟨1, 2⟩⟩ :: rest ++
          [⟨.endOfFile, ⟨Text.byteLength text.toList + 2, Text.byteLength text.toList + 2⟩⟩]) := by
  refine ⟨fun quotes escaped => ⟨⟨.unterminatedString, ⟨0, 1⟩⟩, ?_, rfl, rfl⟩,
    fun absent => ⟨⟨.unexpectedCharacter '#', ⟨2, 3⟩⟩, ?_, by decide, rfl⟩, fun absent => ?_⟩
  · have chars : (String.singleton quote ++ text).toList = quote :: text.toList := by simp
    rw [tokenize, chars, Lexer.tokens_openString quotes escaped]
    rfl
  · have chars : ("js#" ++ text).toList = 'j' :: 's' :: '#' :: text.toList := by simp
    rw [tokenize, chars, Lexer.tokens_openEscape absent]
    rfl
  · have chars : ("/*" ++ text).toList = '/' :: '*' :: text.toList := by simp
    have size : Text.byteLength ('/' :: '*' :: text.toList) = Text.byteLength text.toList + 2 := by
      have sizes : '/'.utf8Size = 1 ∧ '*'.utf8Size = 1 := by decide
      simp only [Text.byteLength, sizes]
      omega
    rw [tokenize, chars, Lexer.tokens_openComment absent, size, String.length_toList]
    cases Lexer.tokensFrom (text.length + 1) 2 text.toList <;> rfl

/-- A string with an escaped quote, an escape and a comment, none of them closed. -/
theorem openTexts_tokenize :
    (∃ error, tokenize "'it\\'s" = .error error ∧ error.message = "unterminated string literal" ∧
      error.span = ⟨0, 1⟩) ∧
    (∃ error, tokenize "js#a" = .error error ∧ error.message = "unexpected character `#`" ∧
      error.span = ⟨2, 3⟩) ∧
    tokenize "/*a" = (Lexer.tokensFrom 2 2 ['a']).map fun rest =>
      ⟨.mark "/", ⟨0, 1⟩⟩ :: ⟨.mark "*", ⟨1, 2⟩⟩ :: rest ++ [⟨.endOfFile, ⟨3, 3⟩⟩] := by
  have escaped : Escaped '\'' "it\\'s".toList :=
    .plain (by decide) (by decide) (.plain (by decide) (by decide)
      (.pair '\'' (.plain (by decide) (by decide) .nil)))
  exact ⟨(tokenize_open '\'' "it\\'s").1 (by decide) escaped,
    (tokenize_open '\'' "a").2.1 (by decide), (tokenize_open '\'' "a").2.2 (by decide)⟩

/-- A comment that is not closed is accepted, and an escape that is not closed is rejected for
something else. -/
theorem openComment_accepted :
    (¬∃ error, tokenize "/* a" = .error error ∧ error.message = "unterminated block comment") ∧
    ¬∃ error, tokenize "js# a" = .error error ∧
      error.message = "unterminated escape block, expected `#js`" := by
  constructor
  · rintro ⟨error, failed, -⟩
    have read : (tokenize "/* a").toOption.isSome = true := by decide +kernel
    rw [failed] at read
    cases read
  · rintro ⟨error, failed, message⟩
    have chars : "js# a".toList = 'j' :: 's' :: '#' :: [' ', 'a'] := by decide
    rw [tokenize, chars, Lexer.tokens_openEscape (by decide)] at failed
    cases failed
    exact absurd message (by decide)

end ScriptCheck
