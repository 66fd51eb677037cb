import ScriptCheck.Proofs.Headway
import ScriptCheck.Proofs.Pairings

/-!
# Every text is read to an end

A grammar that allows readings to nest `depth` times is deep enough where at most `depth` tokens
are left, because a reading that is nested in another one starts behind a token of the outer one.
So every text is either a script or at fault itself.
-/

namespace ScriptCheck

open Reader

/-- Readings of the grammar that start with at most `depth` tokens left do not go astray, and
each of them consumes a token. -/
structure Grammar.Fits (grammar : Grammar) (depth : Nat) : Prop where
  expression {most : Nat} : most ≤ depth → Consumes most grammar.expression
  unary {most : Nat} : most ≤ depth → Consumes most grammar.unary
  typeExpression {most : Nat} : most ≤ depth → Consumes most grammar.typeExpression
  typeMember {most : Nat} : most ≤ depth → Consumes most grammar.typeMember
  block {most : Nat} : most ≤ depth → Consumes most grammar.block

/-- A grammar is deep enough for as many tokens as it may nest readings. -/
theorem Grammar.Fits.nested (depth : Nat) : (Grammar.nested depth).Fits depth :=
  have followed := Followed.nested (headway_grows _) depth
  ⟨followed.expression, followed.unary, followed.typeExpression, followed.typeMember,
    followed.block⟩

namespace Reader

variable {first first' : Reader α} {next next' : α → Reader β}

/-- An outcome of a reading that has not gone astray. -/
def OnTrack : Except SyntaxError α → Prop
  | .ok _ => True
  | .error error => error.fault.isAstray = false

theorem Lands.onTrack (lands : Lands left outcome) : OnTrack outcome := by
  cases outcome with
  | ok result => trivial
  | error error => exact lands

/-- The second reader does the same as the first wherever that does not go astray. -/
def ReadLike (first second : Reader α) : Prop :=
  ∀ surroundings progress, OnTrack (first surroundings progress) →
    first surroundings progress = second surroundings progress

theorem ReadLike.refl (reader : Reader α) : reader.ReadLike reader := fun _ _ _ => rfl

theorem ReadLike.bind (like : first.ReadLike first')
    (continues : ∀ value, (next value).ReadLike (next' value)) :
    (first >>= next).ReadLike (first' >>= next') := by
  intro surroundings progress track
  change OnTrack (first.andThen next surroundings progress) at track
  show first.andThen next surroundings progress = first'.andThen next' surroundings progress
  unfold andThen at track ⊢
  cases hr : first surroundings progress with
  | error error =>
    rw [hr] at track
    rw [← like surroundings progress (hr ▸ track), hr]
  | ok result =>
    rw [hr] at track
    rw [← like surroundings progress (hr ▸ trivial), hr]
    exact continues _ _ _ track

/-- An attempt hides no reading that has gone astray. -/
theorem ReadLike.attempt (like : first.ReadLike first') :
    (attempt first).ReadLike (Reader.attempt first') := by
  intro surroundings progress track
  unfold Reader.attempt at track ⊢
  cases hr : first surroundings progress with
  | error error =>
    rw [hr] at track
    cases hs : error.fault.isAstray with
    | true => simp [OnTrack, hs] at track
    | false => rw [← like surroundings progress (hr ▸ hs), hr]
  | ok result => rw [← like surroundings progress (hr ▸ trivial), hr]

/-- Readers are compared as far as they do not go astray. -/
def unlessAstray : Pairing where
  pairs := ReadLike
  starts := Eq
  pure := fun value => .refl (Pure.pure value)
  bind := .bind
  place := fun continues => .bind (.refl place) fun start => continues start start rfl
  peek := .refl peek
  peekSecond := .refl peekSecond
  advance := .refl advance
  unexpected := fun wanted => .refl (unexpected wanted)
  grow := fun hs _ => hs ▸ .refl (grow _ _)
  attempt := .attempt
  withProcLiterals := fun _ like _ _ track => like _ _ track
  allowsProcLiterals := .refl allowsProcLiterals
  remaining := .refl remaining
  goAstray := fun _ => .refl (goAstray _)

end Reader

/-- Where texts may nest deeper, what could be read before is read the same way. -/
theorem Grammar.Followed.deeper (hd : depth ≤ depth') :
    Followed unlessAstray.course (Grammar.nested depth) (Grammar.nested depth') depth := by
  induction depth generalizing depth' with
  | zero =>
    have never {most : Nat} {reader : Reader NodeId} :
        unlessAstray.course.one most (goAstray .nestedTooDeeply) reader := nofun
    exact ⟨fun _ => never, fun _ => never, fun _ => never, fun _ => never, fun _ => never⟩
  | succ depth ih =>
    obtain ⟨depth', rfl⟩ : ∃ inner, depth' = inner + 1 := ⟨depth' - 1, by omega⟩
    exact (ih (by omega)).nested_succ (unlessAstray.operations fun _ _ hs => hs ▸ .refl (grow _ _))

/-- A whole file is read without going astray. -/
theorem Grammar.onTrack_wholeFile (closed : Closed tokens) (sourceEnd : Nat) :
    OnTrack ((nested tokens.length).wholeFile sourceEnd ⟨true⟩ ⟨tokens, 0, #[]⟩) := by
  have reads : Reads none tokens.length (nested tokens.length).declarations
      fun _ => tokens.length :=
    (Followed.nested (headway_grows _) _).declarations (headway_grows _) (Nat.le_refl _)
  have whole : Reads none tokens.length ((nested tokens.length).wholeFile sourceEnd)
      fun _ => tokens.length :=
    .bind reads fun _ _ _ closed few _ => ⟨closed, few⟩
  exact (whole _ _ closed (Nat.le_refl _) nofun).onTrack

/-- A text that is no script is at fault itself. -/
theorem isAstray_of_parse (failed : parse path source = .error error) :
    error.fault.isAstray = false := by
  unfold parse at failed
  split at failed
  · next cut =>
    cases failed
    exact (fault_of_tokenize cut).1
  next tokens cut =>
  have track := Grammar.onTrack_wholeFile (closed_of_tokenize cut) (Text.byteLength source.toList)
  unfold Grammar.scriptOf at failed
  split at failed
  · next run =>
    cases failed
    rw [run] at track
    exact track
  · cases failed

/-- Reading a text comes to an end with a script or with a fault of the text. No token behind the
end marker is ever asked for, no loop goes on without consuming a token, and the depth to which
readings may nest is never used up: with more of it, the text is read the same way. -/
theorem parse_onTrack (path : FilePath) (source : String) :
    ((∃ script, parse path source = .ok script) ∨
      ∃ error, parse path source = .error error ∧ error.fault.isAstray = false) ∧
    (∀ depth, (Grammar.nested depth).Fits depth) ∧
    ∀ tokens, tokenize source = .ok tokens → Closed tokens ∧
      ∀ depth, tokens.length ≤ depth → ∀ sourceEnd,
        (Grammar.nested depth).wholeFile sourceEnd ⟨true⟩ ⟨tokens, 0, #[]⟩ =
          (Grammar.nested tokens.length).wholeFile sourceEnd ⟨true⟩ ⟨tokens, 0, #[]⟩ := by
  refine ⟨?_, Grammar.Fits.nested, fun tokens cut => ⟨closed_of_tokenize cut, ?_⟩⟩
  · cases hr : parse path source with
    | ok script => exact .inl ⟨script, rfl⟩
    | error error => exact .inr ⟨error, rfl, isAstray_of_parse hr⟩
  · intro depth hd sourceEnd
    have alike := unlessAstray.declarations (.deeper hd) fun form _ hs => hs ▸ .refl (grow form _)
    have like := ReadLike.bind alike fun found =>
      ReadLike.refl fun _ progress => .ok (progress.sprouts.size,
        { progress with sprouts := progress.sprouts.push ⟨.module found, ⟨0, sourceEnd⟩⟩ })
    exact (like _ _ (Grammar.onTrack_wholeFile (closed_of_tokenize cut) sourceEnd)).symm

/-- A call that is not closed. -/
theorem unclosedCall_onTrack : ∃ tokens, tokenize "const x = f(" = .ok tokens ∧ Closed tokens ∧
    (Grammar.nested 9).wholeFile 12 ⟨true⟩ ⟨tokens, 0, #[]⟩ =
      (Grammar.nested tokens.length).wholeFile 12 ⟨true⟩ ⟨tokens, 0, #[]⟩ := by
  have cut : (tokenize "const x = f(").toOption.map List.length = some 6 := by decide +kernel
  cases ht : tokenize "const x = f(" with
  | error error =>
    rw [ht] at cut
    cases cut
  | ok tokens =>
    rw [ht] at cut
    have hl : tokens.length = 6 := Option.some.inj cut
    obtain ⟨-, -, known⟩ := parse_onTrack ⟨"/main.bgl"⟩ "const x = f("
    obtain ⟨closed, deeper⟩ := known tokens ht
    exact ⟨tokens, rfl, closed, deeper 9 (by omega) 12⟩

end ScriptCheck
