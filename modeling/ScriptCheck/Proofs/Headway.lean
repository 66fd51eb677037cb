import ScriptCheck.Proofs.ReadingCourses
import ScriptCheck.Proofs.Tokens

/-!
# Reading comes to an end

A reading is measured by the tokens that are left. No reader asks for a token behind the end
marker, every turn of a loop that goes on has consumed a token, and every reading inside another
one starts with fewer tokens left than that. So no reading goes astray, and a text is read the
same way however deep texts may nest.
-/

namespace ScriptCheck

namespace Reader

variable {α β σ : Type} {seen : Option TokenKind} {most most' : Nat} {left left' : α → Nat}
  {reader : Reader α} {next : TokenKind → Reader α}

/-- How a reading ends: it has not gone astray, and where it succeeds no more tokens are left
than allowed. -/
def Lands (left : α → Nat) : Except SyntaxError (α × Progress) → Prop
  | .ok (value, later) => Closed later.pending ∧ later.pending.length ≤ left value
  | .error error => error.fault.isAstray = false

/-- A reader does not go astray where at most `most` tokens are left and the one at the front
is known to have been seen; afterwards at most `left` of them are left. -/
def Reads (seen : Option TokenKind) (most : Nat) (reader : Reader α) (left : α → Nat) : Prop :=
  ∀ surroundings progress, Closed progress.pending → progress.pending.length ≤ most →
    (∀ kind ∈ seen, (progress.pending.map Token.kind).head? = some kind) →
      Lands left (reader surroundings progress)

namespace Reads

theorem pure (hl : most ≤ left value) : Reads seen most (pure value) left :=
  fun _ _ closed few _ => ⟨closed, Nat.le_trans few hl⟩

theorem fewer (reads : Reads none most reader left) (hl : ∀ value, left value ≤ left' value) :
    Reads seen most reader left' := by
  intro surroundings progress closed few _
  have lands := reads surroundings progress closed few nofun
  cases hr : reader surroundings progress with
  | error error =>
    rw [hr] at lands
    exact lands
  | ok result =>
    rw [hr] at lands
    exact ⟨lands.1, Nat.le_trans lands.2 (hl _)⟩

/-- A reading that starts with no token, not even the end marker, is never made. -/
theorem of_zero : Reads seen 0 reader left :=
  fun _ _ closed few _ => absurd closed.length_pos (by omega)

theorem bind {next : β → Reader α} (reads : Reads none most first between)
    (continues : ∀ value, Reads none (between value) (next value) left) :
    Reads seen most (first >>= next) left := by
  intro surroundings progress closed few _
  have lands := reads surroundings progress closed few nofun
  show Lands left (first.andThen next surroundings progress)
  unfold andThen
  cases hr : first surroundings progress with
  | error error =>
    rw [hr] at lands
    exact lands
  | ok result =>
    rw [hr] at lands
    exact continues _ surroundings _ lands.1 lands.2 nofun

/-- Looking at the front leaves everything as it is. -/
theorem front {next : Token → Reader α}
    (continues : ∀ token, (∀ kind ∈ seen, token.kind = kind) →
      Reads (some token.kind) most (next token) left) :
    Reads seen most (front >>= next) left := by
  intro surroundings progress closed few known
  show Lands left (Reader.front.andThen next surroundings progress)
  unfold andThen Reader.front
  cases hp : progress.pending with
  | nil =>
    rw [hp] at closed
    cases closed
  | cons token rest =>
    refine continues token (fun kind hk => ?_) surroundings progress closed few ?_
    · simpa [hp] using known kind hk
    · simp [hp]

theorem peek (continues : ∀ kind, Reads (some kind) most (next kind) left) :
    Reads seen most (peek >>= next) left := by
  rw [Reader.peek, bind_assoc]
  exact front fun token _ => continues token.kind

theorem place {next : Nat → Reader α}
    (continues : ∀ {few : Nat}, few ≤ most → ∀ start, Reads seen few (next start) left) :
    Reads seen most (place >>= next) left := by
  rw [Reader.place, bind_assoc]
  refine front fun token known => ?_
  intro surroundings progress closed few ahead
  refine continues few _ surroundings progress closed (Nat.le_refl _) fun kind hk => ?_
  rw [← known kind hk]
  exact ahead _ rfl

theorem peekSecond (continues : ∀ kind, Reads seen most (next kind) left) :
    Reads seen most (peekSecond >>= next) left := by
  intro surroundings progress closed few known
  show Lands left (Reader.peekSecond.andThen next surroundings progress)
  unfold andThen Reader.peekSecond
  split
  · next ht =>
    split at ht
    · next hp =>
      rw [hp] at closed
      cases closed
    · cases ht
    · cases ht
  · next ht =>
    split at ht
    · cases ht
    · cases ht
      exact continues _ surroundings progress closed few known
    · cases ht
      exact continues _ surroundings progress closed few known

/-- A token that is not the end marker is consumed. -/
theorem advance {next : Unit → Reader α} (inside : kind ≠ .endOfFile)
    (continues : Reads none (most - 1) (next ()) left) :
    Reads (some kind) most (advance >>= next) left := by
  intro surroundings progress closed few known
  show Lands left (Reader.advance.andThen next surroundings progress)
  have ahead := known kind rfl
  unfold andThen Reader.advance
  cases hp : progress.pending with
  | nil => simp [hp] at ahead
  | cons token rest =>
    rw [hp] at closed few
    have hk : token.kind ≠ .endOfFile := by simpa [hp] using fun h => inside (by simp_all)
    cases closed with
    | marker atEnd => exact absurd atEnd hk
    | cons _ closed =>
      simp only [hk, if_false]
      exact continues surroundings _ closed (by simp only [List.length_cons] at few ⊢; omega) nofun

/-- Whatever is at the front, there are no more tokens left afterwards. -/
theorem pass : Reads none most Reader.advance fun _ => most := by
  intro surroundings progress closed few _
  unfold Reader.advance
  split
  · next hp =>
    rw [hp] at closed
    cases closed
  next token rest hp =>
  split
  · exact ⟨closed, few⟩
  next hk =>
  rw [hp] at closed few
  cases closed with
  | marker atEnd => exact absurd atEnd hk
  | cons _ closed => exact ⟨closed, Nat.le_of_succ_le few⟩

theorem unexpected (wanted : String) : Reads seen most (unexpected wanted) left :=
  front fun _ _ _ _ _ _ _ => rfl

theorem grow : Reads seen most (grow form start) fun _ => most :=
  fun _ _ closed few _ => ⟨closed, few⟩

/-- Where an attempt fails, the front is as it was. -/
theorem attempt {next : Option β → Reader α} (reads : Reads none most tried between)
    (found : ∀ value, Reads none (between value) (next (some value)) left)
    (missed : Reads seen most (next none) left) :
    Reads seen most (attempt tried >>= next) left := by
  intro surroundings progress closed few known
  have lands := reads surroundings progress closed few nofun
  show Lands left ((Reader.attempt tried).andThen next surroundings progress)
  unfold andThen Reader.attempt
  cases hr : tried surroundings progress with
  | error error =>
    rw [hr] at lands
    have hs : error.fault.isAstray = false := lands
    simp only [hs, Bool.false_eq_true, if_false]
    exact missed surroundings progress closed few known
  | ok result =>
    rw [hr] at lands
    exact found _ surroundings _ lands.1 lands.2 nofun

theorem withProcLiterals (reads : Reads none most reader left) :
    Reads seen most (withProcLiterals allowed reader) left :=
  fun _ _ closed few _ => reads _ _ closed few nofun

theorem allowsProcLiterals : Reads none most Reader.allowsProcLiterals fun _ => most :=
  fun _ _ closed few _ => ⟨closed, few⟩

section

variable {turn : σ → Reader (Turn σ α)}
  (turns : ∀ {few : Nat}, few ≤ most → ∀ state, Reads none few (turn state) (Turn.leaves few))
include turns

/-- A loop whose turns consume a token before they go on ends, whatever its limit, before it
reaches it. -/
theorem loopWithin (limit : Nat) (state : σ) (surroundings : Surroundings) (progress : Progress)
    (closed : Closed progress.pending) (few : progress.pending.length ≤ most)
    (enough : progress.pending.length ≤ limit) :
    Lands (fun _ => most) (loopWithin turn limit state surroundings progress) := by
  induction limit generalizing state progress with
  | zero => exact absurd closed.length_pos (by omega)
  | succ limit ih =>
    have lands := turns few state surroundings progress closed (Nat.le_refl _) nofun
    rw [Reader.loopWithin]
    show Lands _ ((turn state).andThen _ surroundings progress)
    unfold andThen
    cases hr : turn state surroundings progress with
    | error error =>
      rw [hr] at lands
      exact lands
    | ok result =>
      obtain ⟨outcome, later⟩ := result
      rw [hr] at lands
      cases outcome with
      | finished value => exact ⟨lands.1, Nat.le_trans lands.2 few⟩
      | again next =>
        have hl : later.pending.length ≤ progress.pending.length - 1 := lands.2
        have hp := closed.length_pos
        have shorter : later.pending.length < progress.pending.length := by omega
        show Lands _ ((if later.pending.length < progress.pending.length then
          Reader.loopWithin turn limit next else goAstray .stalled) surroundings later)
        rw [if_pos shorter]
        exact ih next later lands.1 (by omega) (by omega)

theorem loop : Reads none most (loop turn start) fun _ => most :=
  fun surroundings progress closed few _ =>
    loopWithin turns _ start surroundings progress closed few (Nat.le_refl _)

end

end Reads

/-- A reader that consumes at least one token of the given number. -/
abbrev Consumes (most : Nat) (reader : Reader α) : Prop := Reads none most reader fun _ => most - 1

/-- Readers that do not go astray, whatever they are compared with. -/
def headwaySteps : Steps where
  reads := fun _ seen most _ reader _ left _ => Reads seen most reader left
  starts := fun _ _ _ => True
  pure := fun _ hl => .pure hl
  fewer := .fewer
  andThen := .bind
  taking := .bind
  place := fun continues => .place fun hf start => continues hf start start trivial
  peek := .peek
  peekSecond := .peekSecond
  advance := .advance
  pass := .pass
  unexpected := .unexpected
  grow := fun _ _ _ _ => .grow
  attempt := .attempt
  withProcLiterals := .withProcLiterals
  allowsProcLiterals := .allowsProcLiterals
  loop := fun _ _ _ turns => .loop turns
  tooDeep := .of_zero

def headway : Course where
  toSteps := headwaySteps
  switch := headwaySteps.switch_of_free fun _ => .pure (Nat.le_refl _)

theorem headway_grows (allowed : Form → Bool) : headway.Grows allowed := fun _ _ _ _ _ _ _ _ => .grow

end Reader

end ScriptCheck
