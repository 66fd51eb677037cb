import ScriptCheck.Proofs.Grove
import ScriptCheck.Proofs.Pairings

/-!
# Readings that are tried

A reader is handed what has been read and hands back more, so a reading that fails leaves nothing
behind. A machine that reads with one state, which it changes as it goes, has to put things back:
after an attempt it goes back to the tokens before it and drops the nodes added since, and around
a part in which proc literals are allowed or not it keeps what was the case before. This is all it
has to do: nodes are only added, and what is allowed is put back also where the part fails.
-/

namespace ScriptCheck.Reader

/-- What a machine changes as it reads. -/
structure State where
  procLiterals : Bool
  progress : Progress

/-- A reading that changes a state, also where it fails. -/
def Machine (α : Type) : Type := State → Except SyntaxError α × State

namespace Machine

/-- A step either changes what has been read or fails. -/
def step (reader : Reader α) : Machine α := fun state =>
  match reader ⟨state.procLiterals⟩ state.progress with
  | .ok (value, later) => (.ok value, { state with progress := later })
  | .error error => (.error error, state)

def andThen (first : Machine α) (next : α → Machine β) : Machine β := fun state =>
  match first state with
  | (.ok value, after) => next value after
  | (.error error, after) => (.error error, after)

/-- After a failure the machine goes back to the tokens before and cuts off the nodes that were
added. -/
def attempt (tried : Machine α) : Machine (Option α) := fun state =>
  match tried state with
  | (.ok value, after) => (.ok (some value), after)
  | (.error error, after) =>
    if error.fault.isAstray then (.error error, after)
    else (.ok none, { after with progress :=
      { state.progress with
        sprouts := after.progress.sprouts.take state.progress.sprouts.size } })

def withProcLiterals (allowed : Bool) (inner : Machine α) : Machine α := fun state =>
  let (result, after) := inner { state with procLiterals := allowed }
  (result, { after with procLiterals := state.procLiterals })

end Machine

/-- The single steps of reading. -/
inductive IsStep : {α : Type} → Reader α → Prop
  | pure {α : Type} (value : α) : IsStep (pure value)
  | place : IsStep place
  | peek : IsStep peek
  | peekSecond : IsStep peekSecond
  | advance : IsStep advance
  | unexpected {α : Type} (wanted : String) : IsStep (unexpected wanted : Reader α)
  | grow (form : Form) (start : Nat) : IsStep (grow form start)
  | allowsProcLiterals : IsStep allowsProcLiterals
  | remaining : IsStep remaining
  | goAstray {α : Type} (fault : SyntaxFault) : IsStep (goAstray fault : Reader α)

/-- The machine goes through the steps of a reader. -/
inductive Enacts : {α : Type} → Machine α → Reader α → Prop
  | step {α : Type} {reader : Reader α} : IsStep reader → Enacts (.step reader) reader
  | andThen {α β : Type} {machine : Machine α} {first : Reader α} {machines : α → Machine β}
      {next : α → Reader β} : Enacts machine first →
      (∀ value, Enacts (machines value) (next value)) →
      Enacts (machine.andThen machines) (first >>= next)
  | attempt {α : Type} {machine : Machine α} {reader : Reader α} : Enacts machine reader →
      Enacts machine.attempt (attempt reader)
  | withProcLiterals {α : Type} {machine : Machine α} {reader : Reader α} (allowed : Bool) :
      Enacts machine reader →
      Enacts (machine.withProcLiterals allowed) (withProcLiterals allowed reader)

/-- What the machine comes to is what the reader comes to. Whether it fails or not, nodes have
only been added and as much is allowed as before. -/
structure Told {α : Type} (state : State) (found : Except SyntaxError (α × Progress))
    (told : Except SyntaxError α × State) : Prop where
  result : told.1 = found.map Prod.fst
  progress : ∀ value later, found = .ok (value, later) → told.2.progress = later
  procLiterals : told.2.procLiterals = state.procLiterals
  added : state.progress.sprouts.toList <+: told.2.progress.sprouts.toList

variable {reader : Reader α}

theorem IsStep.told (step : IsStep reader) (state : State) :
    Told state (reader ⟨state.procLiterals⟩ state.progress) (Machine.step reader state) := by
  unfold Machine.step
  cases run : reader ⟨state.procLiterals⟩ state.progress with
  | error error => exact ⟨rfl, nofun, rfl, List.prefix_rfl⟩
  | ok found =>
    obtain ⟨value, later⟩ := found
    have kept (quiet : reader.Quiet) : state.progress.sprouts.toList <+: later.sprouts.toList :=
      quiet _ _ _ _ run ▸ List.prefix_rfl
    refine ⟨rfl, by rintro _ _ ⟨⟩; rfl, rfl, ?_⟩
    cases step with
    | pure value => exact kept (.pure value)
    | place => exact kept quiet_place
    | peek => exact kept quiet_peek
    | peekSecond => exact kept quiet_peekSecond
    | advance => exact kept quiet_advance
    | unexpected wanted => exact kept (quiet_unexpected wanted)
    | grow form start =>
      cases run
      simp
    | allowsProcLiterals => exact kept quiet_allowsProcLiterals
    | remaining => exact kept .remaining
    | goAstray fault => exact kept (.goAstray fault)

theorem Told.restored (known : Told state found told) :
    told.2.progress.sprouts.take state.progress.sprouts.size = state.progress.sprouts := by
  rw [← Array.toList_inj, Array.take_eq_extract, Array.toList_extract, ← Array.length_toList]
  exact (List.prefix_iff_eq_take.mp known.added).symm

/-- The machine of a reader comes to what the reader comes to. -/
theorem Enacts.told (enacts : Enacts machine reader) (state : State) :
    Told state (reader ⟨state.procLiterals⟩ state.progress) (machine state) := by
  induction enacts generalizing state with
  | step step => exact step.told state
  | @andThen _ _ machine first machines next _ _ ih rest =>
    have before := ih state
    show Told state (first.andThen next _ _) (machine.andThen machines state)
    unfold Reader.andThen Machine.andThen
    generalize machine state = told at before
    obtain ⟨result, after⟩ := told
    generalize first ⟨state.procLiterals⟩ state.progress = found at before
    obtain error | ⟨value, later⟩ := found
    · obtain rfl := before.result
      exact ⟨rfl, nofun, before.procLiterals, before.added⟩
    · obtain rfl := before.result
      have behind := rest value after
      rw [before.progress value later rfl, before.procLiterals] at behind
      exact ⟨behind.result, behind.progress, behind.procLiterals.trans before.procLiterals,
        before.added.trans behind.added⟩
  | @attempt _ machine reader _ ih =>
    have tried := ih state
    unfold Reader.attempt Machine.attempt
    generalize machine state = told at tried
    obtain ⟨result, after⟩ := told
    generalize reader ⟨state.procLiterals⟩ state.progress = found at tried
    obtain error | ⟨value, later⟩ := found
    · obtain rfl := tried.result
      dsimp only [Except.map]
      rw [tried.restored]
      split
      · exact ⟨rfl, nofun, tried.procLiterals, tried.added⟩
      · refine ⟨rfl, ?_, tried.procLiterals, List.prefix_rfl⟩
        rintro _ _ ⟨⟩
        rfl
    · obtain rfl := tried.result
      refine ⟨rfl, ?_, tried.procLiterals, tried.added⟩
      rintro _ _ ⟨⟩
      exact tried.progress value later rfl
  | @withProcLiterals _ machine reader allowed _ ih =>
    have inner := ih { state with procLiterals := allowed }
    exact ⟨inner.result, inner.progress, rfl, inner.added⟩

/-- Where a machine fails, an attempt of it leaves the state as it was. -/
theorem Enacts.attempt_eq (enacts : Enacts machine reader)
    (fails : (machine state).1 = .error error) (plain : error.fault.isAstray = false) :
    machine.attempt state = (.ok none, state) := by
  have tried := enacts.told state
  unfold Machine.attempt
  generalize machine state = told at tried fails
  obtain ⟨result, after⟩ := told
  obtain rfl : result = .error error := fails
  have allowed : after.procLiterals = state.procLiterals := tried.procLiterals
  dsimp only
  rw [plain, tried.restored, allowed]
  rfl

/-- The reader is what a machine goes through. -/
def Enacted {α : Type} (reader : Reader α) : Prop := ∃ machine, Enacts machine reader

theorem Enacted.andThen {next : α → Reader β} (first : Enacted reader)
    (rest : ∀ value, Enacted (next value)) : Enacted (reader >>= next) := by
  obtain ⟨_, first⟩ := first
  choose _ rest using rest
  exact ⟨_, .andThen first rest⟩

/-- All readers of the grammar are made from single steps. -/
def enacting : Pairing where
  pairs := fun reader _ => Enacted reader
  starts := fun _ _ => True
  pure := fun value => ⟨_, .step (.pure value)⟩
  bind := .andThen
  place := fun rest => .andThen ⟨_, .step .place⟩ fun start => rest start start trivial
  peek := ⟨_, .step .peek⟩
  peekSecond := ⟨_, .step .peekSecond⟩
  advance := ⟨_, .step .advance⟩
  unexpected := fun wanted => ⟨_, .step (.unexpected wanted)⟩
  grow := fun _ _ => ⟨_, .step (.grow _ _)⟩
  attempt := fun ⟨_, inner⟩ => ⟨_, .attempt inner⟩
  withProcLiterals := fun allowed ⟨_, inner⟩ => ⟨_, .withProcLiterals allowed inner⟩
  allowsProcLiterals := ⟨_, .step .allowsProcLiterals⟩
  remaining := ⟨_, .step .remaining⟩
  goAstray := fun _ => ⟨_, .step (.goAstray _)⟩

theorem Enacted.isAtMark (mark : String) : Enacted (isAtMark mark) :=
  .andThen enacting.peek fun _ => enacting.pure _

/-- However a machine reads, nodes are only added and as much is allowed as before, whether it
fails or not, and an attempt that fails leaves the state as it was. All readers of the grammar
are read by such machines, and so is what is tried: type arguments before a call, the head of a
function literal and the head of a function type. -/
theorem speculation_leaves_no_trace (depth : Nat) :
    (∀ {α : Type} {machine : Machine α} {reader : Reader α}, Enacts machine reader → ∀ state,
      Told state (reader ⟨state.procLiterals⟩ state.progress) (machine state) ∧
      ∀ error, (machine state).1 = .error error → error.fault.isAstray = false →
        machine.attempt state = (.ok none, state)) ∧
    let grammar := Grammar.nested depth
    Enacted grammar.declarations ∧ Enacted grammar.block ∧ Enacted grammar.expression ∧
      Enacted grammar.unary ∧ Enacted grammar.typeExpression ∧ Enacted grammar.typeMember ∧
      Enacted grammar.lambdaHead ∧
      Enacted (do
        let typeArgs ← grammar.typeArgs
        if ← isAtMark "(" then return typeArgs else unexpected (quoted "(")) ∧
      Enacted (do
        let params ← grammar.params
        if (← isAtMark "=>") || (← isAtMark "\x7b") then return params
        else unexpected (quoted "=>")) := by
  have followed : Grammar.Followed enacting.course (.nested depth) (.nested depth) depth :=
    .nested (enacting.operations fun _ _ _ => ⟨_, .step (.grow _ _)⟩) depth
  have few := Nat.zero_le depth
  refine ⟨fun enacts state => ⟨enacts.told state, fun _ => enacts.attempt_eq⟩,
    enacting.declarations followed fun _ _ _ => ⟨_, .step (.grow _ _)⟩, followed.block few,
    followed.expression few, followed.unary few, followed.typeExpression few,
    followed.typeMember few, followed.lambdaHead (Nat.zero_le _), ?_, ?_⟩
  · refine .andThen (followed.typeArgs (Nat.zero_le _)) fun _ => .andThen (.isAtMark _) fun _ => ?_
    split
    · exact enacting.pure _
    · exact enacting.unexpected _
  · refine .andThen (followed.params (Nat.zero_le _)) fun _ =>
      .andThen (.isAtMark _) fun _ => .andThen (.isAtMark _) fun _ => ?_
    split
    · exact enacting.pure _
    · exact enacting.unexpected _

end ScriptCheck.Reader
