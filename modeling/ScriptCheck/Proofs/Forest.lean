import ScriptCheck.Proofs.Pairings
import ScriptCheck.Proofs.Roots

/-!
# The node table of a script

The table that is left after a reading is a tree with exact links in both directions: children
stand before their parents, no node is listed twice, and the parent recorded for a node is the
one that lists it. Every node covers a range of the text, because it starts where a token starts
and ends where one ends. A syntax error covers a token, or the first byte of what is no token.
-/

namespace ScriptCheck

open List

namespace Reader

variable {α β : Type} {text : List Char}

/-- All tokens that are left and all nodes that were read lie inside the text. -/
structure Bounded (text : List Char) (progress : Progress) : Prop where
  pending : ∀ token ∈ progress.pending, token.span.Whole text
  reached : progress.reached ≤ Text.byteLength text
  sprouts : ∀ sprout ∈ progress.sprouts, sprout.span.Sits text

/-- What comes of a reading lies inside the text, and so does the place of an error. -/
def Bounded.After (text : List Char) : Except SyntaxError (α × Progress) → Prop
  | .ok (_, later) => Bounded text later
  | .error error => error.Marks text

/-- A reader that grows nodes inside the text only, and fails inside it only. -/
def KeepsBounded (text : List Char) (reader : Reader α) : Prop :=
  ∀ surroundings progress, Bounded text progress → Bounded.After text (reader surroundings progress)

namespace KeepsBounded

theorem bind {next : β → Reader α} (keeps : KeepsBounded text first)
    (continues : ∀ value, KeepsBounded text (next value)) : KeepsBounded text (first >>= next) := by
  intro surroundings progress bounded
  have after := keeps surroundings progress bounded
  show Bounded.After text (andThen first next surroundings progress)
  unfold andThen
  split
  · next error hf =>
    rw [hf] at after
    exact after
  · next value later hf =>
    rw [hf] at after
    exact continues value surroundings later after

theorem goAstray (lost : fault.isAstray = true) : KeepsBounded text (goAstray fault : Reader α) :=
  fun _ _ _ => .astray lost

/-- What follows on looking at a token knows that the token lies inside the text. -/
theorem front {next : Token → Reader α}
    (continues : ∀ token, token.span.Whole text → KeepsBounded text (next token)) :
    KeepsBounded text (front >>= next) := by
  intro surroundings progress bounded
  show Bounded.After text (andThen Reader.front next surroundings progress)
  unfold andThen Reader.front
  cases hp : progress.pending with
  | nil => exact .astray rfl
  | cons token rest =>
    exact continues token (bounded.pending token (by simp [hp])) surroundings progress bounded

theorem pure (value : α) : KeepsBounded text (pure value : Reader α) := fun _ _ bounded => bounded

theorem peek : KeepsBounded text peek := front fun _ _ => pure _

/-- A node starts at a token. -/
theorem place {next : Nat → Reader α}
    (continues : ∀ start, Span.Sits ⟨start, start⟩ text → KeepsBounded text (next start)) :
    KeepsBounded text (place >>= next) := by
  intro surroundings progress bounded
  show Bounded.After text (andThen Reader.place next surroundings progress)
  unfold andThen
  cases hp : progress.pending with
  | nil =>
    have astray : Reader.place surroundings progress = .error ⟨.outOfTokens, ⟨0, 0⟩⟩ := by
      simp only [Reader.place, Reader.front, Bind.bind, andThen, hp]
      rfl
    rw [astray]
    exact .astray rfl
  | cons token rest =>
    have found : Reader.place surroundings progress = .ok (token.span.start, progress) := by
      simp only [Reader.place, Reader.front, Bind.bind, andThen, hp]
      rfl
    have sits := bounded.pending token (by simp [hp])
    have empty : Span.Sits ⟨token.span.start, token.span.start⟩ text :=
      ⟨⟨Nat.le_refl _, Nat.le_trans sits.ordered sits.bounded⟩, sits.boundary⟩
    rw [found]
    exact continues token.span.start empty surroundings progress bounded

theorem peekSecond : KeepsBounded text peekSecond := by
  intro surroundings progress bounded
  unfold Reader.peekSecond
  split
  · exact .astray rfl
  · exact bounded
  · exact bounded

theorem advance : KeepsBounded text advance := by
  intro surroundings progress bounded
  unfold Reader.advance
  split
  · exact .astray rfl
  next token rest hp =>
  split
  · exact bounded
  · have inside : ∀ other ∈ token :: rest, other.span.Whole text := hp ▸ bounded.pending
    exact { pending := fun other ho => inside other (mem_cons_of_mem _ ho)
            reached := (inside token mem_cons_self).bounded
            sprouts := bounded.sprouts }

/-- A reading fails at the token that it did not expect. -/
theorem unexpected (wanted : String) : KeepsBounded text (unexpected wanted : Reader α) :=
  front fun _ whole _ _ _ => .whole nofun whole

theorem grow (hs : Span.Sits ⟨start, start⟩ text) (form : Form) :
    KeepsBounded text (grow form start) := by
  intro surroundings progress bounded
  refine ⟨bounded.pending, bounded.reached, fun sprout hm => ?_⟩
  rcases Array.mem_push.mp hm with hm | rfl
  · exact bounded.sprouts sprout hm
  · exact ⟨⟨Nat.le_max_right _ _, Nat.max_le.mpr ⟨bounded.reached, hs.bounded⟩⟩, hs.boundary⟩

theorem attempt (keeps : KeepsBounded text reader) : KeepsBounded text (attempt reader) := by
  intro surroundings progress bounded
  have after := keeps surroundings progress bounded
  unfold Reader.attempt
  split
  · next value later hr =>
    rw [hr] at after
    exact after
  · next error hr =>
    rw [hr] at after
    split
    · exact after
    · exact bounded

end KeepsBounded

/-- Readers that keep inside a text, whatever they are compared with. -/
def insideText (text : List Char) : Pairing where
  pairs := fun reader _ => KeepsBounded text reader
  starts := fun start _ => Span.Sits ⟨start, start⟩ text
  pure := .pure
  bind := .bind
  place := fun continues => .place fun start hs => continues start start hs
  peek := .peek
  peekSecond := .peekSecond
  advance := .advance
  unexpected := .unexpected
  grow := fun hs _ => .grow hs _
  attempt := .attempt
  withProcLiterals := fun _ keeps _ _ bounded => keeps _ _ bounded
  allowsProcLiterals := fun _ _ bounded => bounded
  remaining := fun _ _ bounded => bounded
  goAstray := .goAstray

end Reader

open Reader

/-- All nodes that are read from a text lie inside it, and so does the place of an error. -/
theorem bounded_wholeFile (depth : Nat) (inside : ∀ token ∈ tokens, token.span.Whole text) :
    Bounded.After text
      ((Grammar.nested depth).wholeFile (Text.byteLength text) ⟨true⟩ ⟨tokens, 0, #[]⟩) := by
  have start : Bounded text ⟨tokens, 0, #[]⟩ := ⟨inside, Nat.zero_le _, by simp⟩
  refine KeepsBounded.bind ((insideText text).declarations
    (.nested ((insideText text).operations fun form _ hs => .grow hs form) depth)
    fun form _ hs => .grow hs form) (fun found => ?_) ⟨true⟩ _ start
  intro surroundings progress bounded
  refine ⟨bounded.pending, bounded.reached, fun sprout hm => ?_⟩
  rcases Array.mem_push.mp hm with hm | rfl
  · exact bounded.sprouts sprout hm
  · exact ⟨⟨Nat.zero_le _, Nat.le_refl _⟩, (Span.sits_zero text).boundary⟩

/-- A node table whose links are exact in both directions. -/
structure Script.Forest (script : Script) : Prop where
  /-- Children stand in the table before the node that lists them. -/
  child_lt : ∀ {id : NodeId} {entry : Entry}, script.entries[id]? = some entry →
    ∀ child ∈ entry.form.children, child < id
  /-- No id is listed twice, neither by one node nor by two. -/
  nodup : (script.entries.toList.flatMap fun entry => entry.form.children).Nodup
  /-- The parent that is recorded for a node is the node that lists it. -/
  parent_iff : ∀ child parent : NodeId, script.entries[child]?.bind Entry.parent = some parent ↔
    ∃ entry, script.entries[parent]? = some entry ∧ child ∈ entry.form.children
  /-- The root is the last node. -/
  root_last : script.root + 1 = script.size
  /-- The root has no parent. -/
  parent_root : script.entries[script.root]?.bind Entry.parent = none

section Tables

variable {path : FilePath}

/-- The ids that the rows of a linked table list. -/
theorem flatMap_children_ofSprouts :
    ((Script.ofSprouts path sprouts root).entries.toList.flatMap fun entry => entry.form.children) =
      taken sprouts := by
  have forms : (Script.ofSprouts path sprouts root).entries.toList.map Entry.form =
      sprouts.toList.map Sprout.form := by
    apply ext_getElem <;> simp [Script.ofSprouts]
  calc (Script.ofSprouts path sprouts root).entries.toList.flatMap (·.form.children)
      = ((Script.ofSprouts path sprouts root).entries.toList.map Entry.form).flatMap
          Form.children := by rw [flatMap_map]
    _ = (sprouts.toList.map Sprout.form).flatMap Form.children := by rw [forms]
    _ = taken sprouts := by rw [flatMap_map, taken]

theorem parent_getElem?_ofSprouts (child : NodeId) :
    (Script.ofSprouts path sprouts root).entries[child]?.bind Entry.parent =
      sprouts[child]?.bind fun _ => ((parentsOf sprouts)[child]?).join := by
  rw [getElem?_ofSprouts]
  cases sprouts[child]? <;> rfl

/-- The table of a grove is a forest, if its only loose node comes last. -/
theorem Grove.forest (grove : Grove sprouts [root]) (last : root + 1 = sprouts.size)
    (path : FilePath) : (Script.ofSprouts path sprouts root).Forest where
  child_lt := by
    intro id entry he child hc
    rw [getElem?_ofSprouts] at he
    obtain ⟨sprout, hs, rfl⟩ := Option.map_eq_some_iff.mp he
    exact grove.below id sprout hs child hc
  nodup := by
    rw [flatMap_children_ofSprouts]
    exact (nodup_append.mp grove.distinct).1
  parent_iff := by
    intro child parent
    rw [parent_getElem?_ofSprouts, getElem?_ofSprouts]
    constructor
    · intro hp
      obtain ⟨_, -, hj⟩ := Option.bind_eq_some_iff.mp hp
      obtain ⟨sprout, hs, hc⟩ := Grove.mem_of_parentsOf (Option.join_eq_some_iff.mp hj)
      exact ⟨_, by rw [hs]; rfl, hc⟩
    · rintro ⟨entry, he, hc⟩
      obtain ⟨sprout, hs, rfl⟩ := Option.map_eq_some_iff.mp he
      have hl : child < sprouts.size :=
        Nat.lt_trans (grove.below parent sprout hs child hc) (Array.getElem?_eq_some_iff.mp hs).1
      rw [Array.getElem?_eq_getElem hl, grove.parentsOf_eq hs hc]
      rfl
  root_last := by
    simpa [Script.size, Script.ofSprouts] using last
  parent_root := by
    rw [parent_getElem?_ofSprouts]
    show (sprouts[root]?.bind fun _ => ((parentsOf sprouts)[root]?).join) = none
    rw [grove.parentsOf_loose mem_cons_self]
    cases sprouts[root]? <;> rfl

end Tables

/-- Every node that is read from a text lies inside it and starts between two characters. -/
theorem sits_of_parse (read : parse path source = .ok script) {id : NodeId}
    (he : script.entries[id]? = some entry) : entry.span.Sits source.toList := by
  obtain ⟨tokens, root, progress, cut, run, rfl⟩ := run_of_parse read
  have after := bounded_wholeFile tokens.length (whole_of_tokenize cut)
  rw [run] at after
  rw [getElem?_ofSprouts] at he
  obtain ⟨sprout, hs, rfl⟩ := Option.map_eq_some_iff.mp he
  exact after.sprouts sprout (Array.mem_of_getElem? hs)

/-- A text that is not a script is at fault at a place inside it. -/
theorem marks_of_parse_error (failed : parse path source = .error error) :
    error.Marks source.toList := by
  unfold parse at failed
  split at failed
  · next cut =>
    cases failed
    exact (fault_of_tokenize cut).2
  · next tokens cut =>
    have after := bounded_wholeFile tokens.length (whole_of_tokenize cut)
    unfold Grammar.scriptOf at failed
    split at failed
    · next run =>
      cases failed
      rw [run] at after
      exact after
    · cases failed

section Errors

variable {text before after : List Char} {char : Char} {error : SyntaxError}

/-- The first byte of a character ends between two characters only if it is all of it. -/
theorem Text.isBoundary_succ_iff (split : before ++ char :: after = text) :
    IsBoundary text (byteLength before + 1) ↔ char.utf8Size = 1 := by
  constructor
  · rintro ⟨before', after', split', size⟩
    have wide := char.utf8Size_pos
    obtain ⟨between, rfl, -⟩ | ⟨between, rfl, rest⟩ :=
      append_eq_append_iff.mp (split'.trans split.symm)
    · rw [Lexer.byteLength_append] at size
      omega
    · rw [Lexer.byteLength_append] at size
      cases between with
      | nil =>
        rw [byteLength] at size
        omega
      | cons first more =>
        cases (List.cons.inj rest).1
        rw [byteLength] at size
        omega
  · intro narrow
    have next := @IsBoundary.behind _ _ [char] after split.symm
    rwa [byteLength, narrow] at next

theorem SyntaxError.Marks.sits (marks : error.Marks text) : error.span.Sits text := by
  cases marks with
  | whole _ whole => exact whole.toSits
  | @strange before after char split =>
    have wide := char.utf8Size_pos
    have size := Lexer.byteLength_append before (char :: after)
    rw [split, Text.byteLength] at size
    exact ⟨⟨Nat.le_succ _, by dsimp only; omega⟩, before, _, split, rfl⟩

end Errors

/-- A text that is not a script is at fault at a range of it that starts between two characters.
The range ends between two characters as well, unless the fault is a character of several bytes that
no token begins with: of such a character only the first byte is covered. -/
theorem boundary_of_parse_error {path : FilePath} {source : String} {error : SyntaxError}
    (failed : parse path source = .error error) :
    error.span.Sits source.toList ∧
    (Text.IsBoundary source.toList error.span.stop ↔
      ∀ char, error.fault = .unexpectedCharacter char → char.utf8Size = 1) ∧
    ∀ char, error.fault = .unexpectedCharacter char → ∃ before after,
      before ++ char :: after = source.toList ∧
        error.span = ⟨Text.byteLength before, Text.byteLength before + 1⟩ := by
  have marks := marks_of_parse_error failed
  refine ⟨marks.sits, ?_⟩
  cases marks with
  | strange split =>
    refine ⟨(Text.isBoundary_succ_iff split).trans ⟨?_, fun narrow => narrow _ rfl⟩, ?_⟩
    · rintro narrow _ ⟨⟩
      exact narrow
    · rintro _ ⟨⟩
      exact ⟨_, _, split, rfl⟩
  | whole known whole =>
    exact ⟨iff_of_true whole.closing fun char same => absurd same (known char),
      fun char same => absurd same (known char)⟩

/-- Whether a text fails can be told without the script. -/
theorem parse_error_of_map (failed : (parse path source).map (fun _ => ()) = .error error) :
    parse path source = .error error := by
  cases hr : parse path source with
  | ok script =>
    rw [hr] at failed
    cases failed
  | error found =>
    rw [hr] at failed
    cases failed
    rfl

/-- A parenthesis behind a name of two bytes, where a value is wanted. -/
theorem boundary_of_stray_parenthesis :
    parse ⟨"/main.bgl"⟩ "const é = )" = .error ⟨.expected "an expression" (.mark ")"), ⟨11, 12⟩⟩ ∧
      Text.IsBoundary "const é = )".toList 12 := by
  have failed := @parse_error_of_map ⟨"/main.bgl"⟩ "const é = )"
    ⟨.expected "an expression" (.mark ")"), ⟨11, 12⟩⟩ (by decide +kernel)
  exact ⟨failed, (boundary_of_parse_error failed).2.1.mpr nofun⟩

/-- Of a character of three bytes that no token begins with, the error covers the first byte. -/
theorem strange_character_cut :
    parse ⟨"/main.bgl"⟩ "const é = €" = .error ⟨.unexpectedCharacter '€', ⟨11, 12⟩⟩ ∧
      ¬ Text.IsBoundary "const é = €".toList 12 := by
  refine ⟨parse_error_of_map (by decide +kernel), fun boundary => ?_⟩
  have narrow := (@Text.isBoundary_succ_iff _ "const é = ".toList [] '€' (by decide)).mp boundary
  exact absurd narrow (by decide)

/-- The node table of every text that can be read is a forest with the whole file as its last
node, and every node has a span that lies inside the text. -/
theorem forest_of_parse {path : FilePath} {source : String} {script : Script}
    (read : parse path source = .ok script) :
    script.Forest ∧ ∀ id, id < script.size → ∃ entry, script.entries[id]? = some entry ∧
      entry.span.Within (Text.byteLength source.toList) := by
  constructor
  · obtain ⟨tokens, root, progress, cut, run, rfl⟩ := run_of_parse read
    obtain ⟨sprouts, found, ⟨_, grove, -⟩, rfl, hs⟩ :=
      Grammar.undergrowth_wholeFile (orderly_of_tokenize cut) run
    rw [hs]
    exact (grove.close _).forest (by simp) path
  · intro id hi
    have known := Array.getElem?_eq_getElem hi
    exact ⟨_, known, (sits_of_parse read known).toWithin⟩

/-- A text in which parentheses and angle brackets are tried as other things first. -/
def retried : String := "const x = (f(a) < b)\nfunc g(y: (number)) => y"

theorem retried_forest : ∃ script, parse ⟨"/main.bgl"⟩ retried = .ok script ∧ script.Forest ∧
    ∃ entry, script.entries[0]? = some entry ∧ entry.span.Within 45 := by
  have facts : (parse ⟨"/main.bgl"⟩ retried).toOption.map Script.size = some 14 ∧
      Text.byteLength retried.toList = 45 := by decide +kernel
  cases hr : parse ⟨"/main.bgl"⟩ retried with
  | error error =>
    rw [hr] at facts
    cases facts.1
  | ok script =>
    rw [hr] at facts
    have known : script.size = 14 := Option.some.inj facts.1
    obtain ⟨forest, spans⟩ := forest_of_parse hr
    rw [facts.2] at spans
    exact ⟨script, rfl, forest, spans 0 (by omega)⟩

end ScriptCheck
