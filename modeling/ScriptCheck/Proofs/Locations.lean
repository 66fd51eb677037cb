import ScriptCheck.Proofs.Paths

/-!
# Where folded paths lead

Followed from a directory, a path leads to a place in the tree of directories. Folding leaves out
detours only, as long as the path climbs no further than to the parent of the directory that it
starts from. A path that climbs higher loses two steps up at a time.
-/

namespace ScriptCheck

open List

/-- The place that a step leads to, given by the names on the way from the root, the last one
first. The parent of the root is the root. -/
def Step.from (place : List String) : Step → List String
  | .root => []
  | .here => place
  | .up => place.tail
  | .name text => text :: place

/-- The place that steps lead to. -/
def Step.follow (place : List String) (steps : List Step) : List String := steps.foldl Step.from place

/-- How far steps climb above the directory that they start from. Steps from the root do not. -/
def Step.climb : List Step → Nat
  | [] => 0
  | .root :: _ => 0
  | .here :: rest => climb rest
  | .up :: rest => climb rest + 1
  | .name _ :: rest => climb rest - 1

namespace FilePath

/-- The place that a path leads to from a directory. -/
def place (directory : List String) (path : FilePath) : List String :=
  Step.follow directory path.steps

/-- The steps to the file that an import specifier refers to. -/
def importSteps (importer : FilePath) (specifier : String) : List Step :=
  withExtension (joinSteps (parentSteps importer.steps) ⟨specifier⟩)

variable {kept rest steps : List Step} {step : Step} {directory : List String}

theorem follow_append (first second : List Step) : Step.follow directory (first ++ second) =
    Step.follow (Step.follow directory first) second := foldl_append

/-- How far steps climb depends on how far what follows them climbs. -/
theorem climb_append_congr (same : Step.climb rest = Step.climb rest') (first : List Step) :
    Step.climb (first ++ rest) = Step.climb (first ++ rest') := by
  induction first with
  | nil => exact same
  | cons step first ih => cases step <;> simp only [cons_append, Step.climb, ih]

/-- One more step is kept or folded without a change of place, and what is kept climbs no further
than what was written. -/
theorem keepStep_follow (folded : Kept kept) (low : Step.climb (kept.reverse ++ step :: rest) ≤ 1) :
    Step.follow directory (keepStep kept step).reverse =
        Step.from (Step.follow directory kept.reverse) step ∧
      Step.climb ((keepStep kept step).reverse ++ rest) ≤ 1 := by
  have added (other : Step) : Step.follow directory (other :: kept).reverse =
        Step.from (Step.follow directory kept.reverse) other ∧
      (other :: kept).reverse ++ rest = kept.reverse ++ other :: rest := by
    rw [reverse_cons, follow_append, append_assoc]
    exact ⟨rfl, rfl⟩
  have keeps (same : keepStep kept step = step :: kept) : Step.follow directory
        (keepStep kept step).reverse = Step.from (Step.follow directory kept.reverse) step ∧
      Step.climb ((keepStep kept step).reverse ++ rest) ≤ 1 := by
    rw [same, (added step).2]
    exact ⟨(added step).1, low⟩
  cases step with
  | root => exact ⟨rfl, Nat.zero_le 1⟩
  | here =>
    refine ⟨rfl, ?_⟩
    have same := @climb_append_congr (.here :: rest) rest rfl kept.reverse
    rwa [same] at low
  | name text => exact keeps rfl
  | up =>
    cases folded with
    | none => exact keeps rfl
    | root => exact keeps rfl
    | aboveRoot => exact ⟨rfl, Nat.zero_le 1⟩
    | up =>
      -- two steps up in a row climb too far
      simp only [reverse_singleton, singleton_append, Step.climb] at low
      omega
    | @name text below _ _ =>
      rw [reverse_cons, append_assoc] at low
      have same := @climb_append_congr ([.name text] ++ .up :: rest) rest rfl below.reverse
      rw [same] at low
      refine ⟨?_, low⟩
      rw [reverse_cons, follow_append]
      rfl

/-- Folded steps lead to the same place. -/
theorem foldSteps_follow (read : ∀ step ∈ steps, IsRead step) (low : Step.climb steps ≤ 1) :
    Step.follow directory (foldSteps steps) = Step.follow directory steps := by
  have fold : ∀ (steps kept : List Step), (∀ step ∈ steps, IsRead step) → Kept kept →
      Step.climb (kept.reverse ++ steps) ≤ 1 →
      Step.follow directory (steps.foldl keepStep kept).reverse =
        Step.follow (Step.follow directory kept.reverse) steps := by
    intro steps
    induction steps with
    | nil => exact fun _ _ _ _ => rfl
    | cons step rest ih =>
      intro kept read folded low
      obtain ⟨same, lower⟩ := @keepStep_follow _ _ _ directory folded low
      have next := kept_keepStep folded (read step mem_cons_self)
      rw [foldl_cons, ih _ (fun other ho => read other (mem_cons_of_mem _ ho)) next lower, same]
      rfl
  exact fold steps [] read .none low

/-- Folding a path keeps the place it leads to from any directory, if it climbs no higher than to
the parent of the directory. So paths that are folded to the same one lead to the same place, and
specifiers that are found under the same path name the same place. What is folded stays as it is. -/
theorem normalize_keeps_place (directory : List String) :
    (∀ path : FilePath, Step.climb path.steps ≤ 1 →
      path.normalize.place directory = path.place directory) ∧
    (∀ first second : FilePath, Step.climb first.steps ≤ 1 →
      Step.climb second.steps ≤ 1 → (first.normalize == second.normalize) = true →
      first.place directory = second.place directory) ∧
    (∀ (importer : FilePath) (first second : String),
      Step.climb (importSteps importer first) ≤ 1 → Step.climb (importSteps importer second) ≤ 1 →
      (importer.importing first == importer.importing second) = true →
      Step.follow directory (importSteps importer first) =
        Step.follow directory (importSteps importer second)) ∧
    ∀ path : FilePath, path.normalize.normalize = path.normalize := by
  have folded (path : FilePath) (low : Step.climb path.steps ≤ 1) :
      path.normalize.place directory = path.place directory := by
    rw [place, steps_normalize, foldSteps_follow (fun _ => isRead_of_mem_steps) low, place]
  refine ⟨folded, fun first second low low' same => ?_,
    fun importer first second low low' same => ?_, normalize_normalize⟩
  · have steps : first.normalize.steps = second.normalize.steps := eq_of_beq same
    rw [← folded first low, ← folded second low', place, steps, place]
  · have read (specifier : String) := isRead_of_mem_importSteps importer specifier
    have steps : (importer.importing first).steps = (importer.importing second).steps :=
      eq_of_beq same
    unfold importing at steps
    unfold importSteps at low low' ⊢
    rw [steps_ofSteps_foldSteps (read first), steps_ofSteps_foldSteps (read second)] at steps
    rw [← foldSteps_follow (read first) low, ← foldSteps_follow (read second) low']
    exact congrArg (Step.follow directory) steps

/-- A path from the root, one that climbs one level and two specifiers for one file. -/
theorem normalize_keeps_place_nested :
    (⟨"/.."⟩ : FilePath).normalize.place ["home"] = [] ∧
      (⟨"x/../../lib/./a"⟩ : FilePath).normalize.place ["app", "src"] = ["a", "lib", "src"] ∧
      Step.follow [] (importSteps ⟨"/src/main"⟩ "./lib/../a") =
        Step.follow [] (importSteps ⟨"/src/main"⟩ "a.bgl") := by
  have keeps (path : FilePath) (directory : List String) (low : Step.climb path.steps ≤ 1) :=
    (normalize_keeps_place directory).1 path low
  exact ⟨(keeps _ _ (by decide)).trans (by decide), (keeps _ _ (by decide)).trans (by decide),
    (normalize_keeps_place _).2.2.1 _ _ _ (by decide) (by decide) (by decide)⟩

/-- Of two steps up nothing is left, and a path two levels up gets the key of another place. -/
theorem normalize_loses_climbs :
    (⟨"../../a"⟩ : FilePath).normalize = ⟨"a"⟩ ∧ (⟨"../../a"⟩ : FilePath).place ["y", "x"] = ["a"] ∧
      (⟨"a"⟩ : FilePath).place ["y", "x"] = ["a", "y", "x"] := by
  decide

end FilePath

end ScriptCheck
