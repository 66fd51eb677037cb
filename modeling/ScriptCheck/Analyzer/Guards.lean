import ScriptCheck.Inference.Basic

/-!
# The guards of an analyzer

An analyzer answers one question after another and keeps, while it does so, a record of what it
is in the middle of. Whatever enters something in the record takes it out again when it is done.
The analysis is the same as the one that hands such things down from question to question.
-/

namespace ScriptCheck

/-- What an analyzer can be in the middle of at a node. -/
inductive Activity where
  /-- The type of the node is being inferred. -/
  | inferring (node : Node)
  /-- The bound of a type parameter is being read. -/
  | reading (param : Node)

/-- Whether two activities are the same at the same node. -/
def Activity.sameAs : Activity → Activity → Bool
  | inferring left, inferring right => left == right
  | reading left, reading right => left == right
  | _, _ => false

instance : BEq Activity := ⟨Activity.sameAs⟩

/-- What an analyzer is in the middle of. -/
structure Guards where
  /-- What is going on at nodes, the latest first. -/
  inProgress : List Activity
  /-- The comparisons of names that are under way, the latest first. -/
  comparing : List (Ty × Ty)
  /-- How many comparisons are under way inside each other. -/
  depth : Nat
  /-- Arguments with the types that their calls expect of them, the latest first. -/
  expectations : List (Node × Ty)

/-- A new analyzer is in the middle of nothing. -/
def Guards.none : Guards := ⟨[], [], 0, []⟩

/-- Work of an analyzer that needs no inference. -/
abbrev Asking := StateT Guards Inquiry

/-- Work of an analyzer. -/
abbrev Analysis := StateT Guards Inference

instance : MonadLift Asking Analysis where
  monadLift asking := fun guards => liftM (asking guards)

namespace Analyzer

variable {m : Type → Type} [Monad m] {α : Type}

/-- Does something between an entry and the removal of the entry. -/
def during (enter leave : Guards → Guards) (work : StateT Guards m α) : StateT Guards m α := do
  modify enter
  let result ← work
  modify leave
  return result

/-- Does something at a node unless it is in progress there already. -/
def guarded (activity : Activity) (fallback : α) (work : StateT Guards m α) :
    StateT Guards m α := do
  if (← get).inProgress.contains activity then return fallback
  else
    during (fun guards => { guards with inProgress := activity :: guards.inProgress })
      (fun guards => { guards with inProgress := guards.inProgress.tail }) work

/-- Does something while a type is expected of a node. -/
def expecting (node : Node) (type : Ty) (work : StateT Guards m α) : StateT Guards m α :=
  during (fun guards => { guards with expectations := (node, type) :: guards.expectations })
    (fun guards => { guards with expectations := guards.expectations.tail }) work

/-- Does something while types are being compared by name. -/
def comparing (destination value : Ty) (work : StateT Guards m α) : StateT Guards m α :=
  during (fun guards => { guards with comparing := (destination, value) :: guards.comparing })
    (fun guards => { guards with comparing := guards.comparing.tail }) work

/-- Does something one comparison further inside, where `depth` comparisons are under way. -/
def countedFrom (depth : Nat) (work : StateT Guards m α) : StateT Guards m α :=
  during (fun guards => { guards with depth := depth + 1 })
    (fun guards => { guards with depth }) work

/-- The latest type recorded as expected of a node. -/
def recorded? (node : Node) : StateT Guards m (Option Ty) := do
  return ((← get).expectations.find? (·.1 == node)).map Prod.snd

end Analyzer

end ScriptCheck
