import ScriptCheck.FilePath
import Mathlib.Tactic.Common

/-!
# Folded paths

A path whose `.` and `..` were folded is read back as the steps it was made of, and has nothing
left to be folded. So a file is found again under the path that its table row shows.
-/

namespace ScriptCheck

open List

/-- A name that stands between slashes as it is, and is neither `.` nor `..`. -/
structure SegmentName (text : String) : Prop where
  nonempty : text.toList ≠ []
  unslashed : '/' ∉ text.toList
  notHere : text ≠ "."
  notUp : text ≠ ".."

/-- Steps that are left of a path by folding, the last one first: names, below them at most one
`..`, and below that at most the root. -/
inductive Kept : List Step → Prop where
  | none : Kept []
  | root : Kept [.root]
  | up : Kept [.up]
  | aboveRoot : Kept [.up, .root]
  | name {text : String} {kept : List Step} (segment : SegmentName text) (below : Kept kept) :
    Kept (.name text :: kept)

namespace FilePath

variable {letters : List Char} {segment : List Char} {path : FilePath} {kept : List Step}
  {steps : List Step} {step : Step}

/-- No letter between slashes is a slash. -/
theorem unslashed_of_mem_segments (hm : segment ∈ segments letters) : '/' ∉ segment := by
  induction letters generalizing segment with
  | nil =>
    rw [segments, mem_singleton] at hm
    simp [hm]
  | cons letter rest ih =>
    rw [segments] at hm
    split at hm
    · rcases mem_cons.mp hm with rfl | hm
      · simp
      · exact ih hm
    · next other =>
      split at hm
      · rw [mem_singleton] at hm
        simpa [hm, eq_comm] using other
      · next first others hs =>
        rcases mem_cons.mp hm with rfl | hm
        · have hf : '/' ∉ first := ih (by simp [hs])
          simpa [hf, eq_comm] using other
        · exact ih (by simp [hs, hm])

/-- Letters without a slash before a slash are the first segment. -/
theorem segments_append_slash (unslashed : '/' ∉ segment) (rest : List Char) :
    segments (segment ++ '/' :: rest) = segment :: segments rest := by
  induction segment with
  | nil => simp [segments]
  | cons letter more ih =>
    simp only [mem_cons, not_or] at unslashed
    rw [cons_append, segments, if_neg (Ne.symm unslashed.1), ih unslashed.2]

/-- Letters without a slash are one segment. -/
theorem segments_unslashed (unslashed : '/' ∉ segment) : segments segment = [segment] := by
  induction segment with
  | nil => rfl
  | cons letter more ih =>
    simp only [mem_cons, not_or] at unslashed
    rw [segments, if_neg (Ne.symm unslashed.1), ih unslashed.2]

/-- Segments with slashes between them are found again. -/
theorem segments_intercalate (unslashed : ∀ segment ∈ first :: others, '/' ∉ segment) :
    segments (['/'].intercalate (first :: others)) = first :: others := by
  induction others generalizing first with
  | nil => simpa using segments_unslashed (unslashed first mem_cons_self)
  | cons second others ih =>
    rw [intercalate_cons_cons, append_assoc, singleton_append,
      segments_append_slash (unslashed first mem_cons_self),
      ih fun segment hs => unslashed segment (mem_cons_of_mem _ hs)]

/-- A segment that is not empty is read as the step that is written like it. -/
theorem kept_ofSegment (below : Kept kept) (unslashed : '/' ∉ segment) (nonempty : segment ≠ []) :
    Kept (keepStep kept (Step.ofSegment (String.ofList segment))) := by
  unfold Step.ofSegment
  split
  · exact below
  next notHere =>
  split
  · cases below with
    | none => exact .up
    | root => exact .aboveRoot
    | up => exact .none
    | aboveRoot => exact .root
    | name _ below => exact below
  next notUp =>
  exact .name ⟨by simpa using nonempty, by simpa using unslashed, notHere, notUp⟩ below

/-- A step that can be read: the root, or what a segment between slashes stands for. -/
def IsRead (step : Step) : Prop :=
  step = .root ∨
    ∃ segment, '/' ∉ segment ∧ segment ≠ [] ∧ step = Step.ofSegment (String.ofList segment)

theorem kept_keepStep (below : Kept kept) (read : IsRead step) : Kept (keepStep kept step) := by
  rcases read with rfl | ⟨segment, unslashed, nonempty, rfl⟩
  · exact .root
  · exact kept_ofSegment below unslashed nonempty

/-- Every step of a path can be read. -/
theorem isRead_of_mem_steps (hm : step ∈ path.steps) : IsRead step := by
  have relative : ∀ step ∈ ((segments path.text.toList).filter fun segment =>
      !segment.isEmpty).map fun segment => Step.ofSegment (String.ofList segment),
      ∃ segment, '/' ∉ segment ∧ segment ≠ [] ∧ step = Step.ofSegment (String.ofList segment) := by
    intro step hs
    obtain ⟨segment, hf, rfl⟩ := mem_map.mp hs
    obtain ⟨hm, hn⟩ := mem_filter.mp hf
    exact ⟨segment, unslashed_of_mem_segments hm, by simpa using hn, rfl⟩
  unfold steps at hm
  dsimp only at hm
  split at hm
  · rcases mem_cons.mp hm with rfl | hm
    · exact .inl rfl
    · exact .inr (relative step (mem_filter.mp hm).1)
  · split at hm
    · cases hm
    · next first rest hr =>
      rw [hr] at relative
      refine .inr (relative step ?_)
      rcases mem_cons.mp hm with rfl | hm
      · exact mem_cons_self
      · exact mem_cons_of_mem _ (mem_filter.mp hm).1

/-- Folding steps that can be read leaves steps without detours. -/
theorem kept_foldl (read : ∀ step ∈ steps, IsRead step) : Kept (steps.foldl keepStep []) :=
  foldlRecOn steps keepStep .none fun _ below step hs => kept_keepStep below (read step hs)

/-- Nothing is left to be folded. -/
theorem foldSteps_reverse (folded : Kept kept) : foldSteps kept.reverse = kept.reverse := by
  have fold : kept.reverse.foldl keepStep [] = kept := by
    induction folded with
    | none => rfl
    | root => rfl
    | up => rfl
    | aboveRoot => rfl
    | name _ _ ih => rw [reverse_cons, foldl_append, ih]; rfl
  rw [foldSteps, fold]

/-- A step that is written between slashes. -/
structure Written (step : Step) : Prop where
  unslashed : '/' ∉ step.text.toList
  nonempty : step.text.toList ≠ []
  ofSegment : Step.ofSegment step.text = step
  notHere : step ≠ .here

theorem Written.up : Written .up := ⟨by decide, by decide, rfl, by decide⟩

theorem Written.name {text : String} (segment : SegmentName text) : Written (.name text) where
  unslashed := segment.unslashed
  nonempty := segment.nonempty
  ofSegment := by
    unfold Step.ofSegment Step.text
    rw [if_neg segment.notHere, if_neg segment.notUp]
  notHere := by nofun

section

variable {written : List Step} (hw : ∀ step ∈ written, Written step)
include hw

/-- The segments of written steps are read as the same steps. -/
theorem named_intercalate :
    ((segments (['/'].intercalate (written.map fun step => step.text.toList))).filter
        fun segment => !segment.isEmpty).map
      (fun segment => Step.ofSegment (String.ofList segment)) = written := by
  cases written with
  | nil => rfl
  | cons first rest =>
    have unslashed : ∀ segment ∈ first.text.toList :: rest.map fun step => step.text.toList,
        '/' ∉ segment := by
      intro segment hs
      rw [← map_cons (f := fun step : Step => step.text.toList)] at hs
      obtain ⟨step, hm, rfl⟩ := mem_map.mp hs
      exact (hw step hm).unslashed
    rw [map_cons, segments_intercalate unslashed,
      ← map_cons (f := fun step : Step => step.text.toList), filter_eq_self.mpr,
      map_map]
    · refine (map_congr_left fun step hm => ?_).trans (map_id _)
      simpa using (hw step hm).ofSegment
    · intro segment hs
      obtain ⟨step, hm, rfl⟩ := mem_map.mp hs
      simpa using (hw step hm).nonempty

/-- Written steps hold no `.`. -/
theorem filter_written : written.filter (· ≠ .here) = written :=
  filter_eq_self.mpr fun step hm => by simpa using (hw step hm).notHere

/-- A path from the root is read back as its steps. -/
theorem steps_ofSteps_root : (ofSteps (.root :: written)).steps = .root :: written := by
  have letters : (ofSteps (.root :: written)).text.toList =
      '/' :: ['/'].intercalate (written.map fun step => step.text.toList) := by
    simp [ofSteps, Function.comp_def]
  unfold steps isAbsolute
  rw [letters, segments, if_pos rfl]
  simp only [head?_cons, beq_self_eq_true, if_true, isEmpty_nil, Bool.not_true,
    Bool.false_eq_true, not_false_eq_true, filter_cons_of_neg, named_intercalate hw]
  rw [filter_written hw]

/-- A path that does not start at the root is read back as its steps. -/
theorem steps_ofSteps_relative : (ofSteps written).steps = written := by
  have letters : (ofSteps written).text.toList =
      ['/'].intercalate (written.map fun step => step.text.toList) := by
    unfold ofSteps
    split
    · next rest => exact absurd (hw .root mem_cons_self).unslashed (by decide)
    · simp [Function.comp_def]
  have relative : (ofSteps written).isAbsolute = false := by
    unfold isAbsolute
    rw [letters]
    cases written with
    | nil => rfl
    | cons first rest =>
      have first_written := hw first mem_cons_self
      cases hl : first.text.toList with
      | nil => exact absurd hl first_written.nonempty
      | cons letter more =>
        have other : letter ≠ '/' := by
          rintro rfl
          exact first_written.unslashed (by simp [hl])
        cases rest <;> simp [hl, intercalate_cons_cons, other]
  unfold steps
  rw [relative, letters]
  simp only [Bool.false_eq_true, if_false, named_intercalate hw]
  cases written with
  | nil => rfl
  | cons first rest =>
    exact congrArg (first :: ·) (filter_written fun step hm => hw step (mem_cons_of_mem _ hm))

end

/-- Steps without detours are written steps behind the root, or written steps alone. -/
theorem reverse_of_kept (folded : Kept kept) :
    ∃ written : List Step, (∀ step ∈ written, Written step) ∧
      (kept.reverse = .root :: written ∨ kept.reverse = written) := by
  induction folded with
  | none => exact ⟨[], by simp, .inr rfl⟩
  | root => exact ⟨[], by simp, .inl rfl⟩
  | up => exact ⟨[.up], by simpa using Written.up, .inr rfl⟩
  | aboveRoot => exact ⟨[.up], by simpa using Written.up, .inl rfl⟩
  | @name text kept segment _ ih =>
    obtain ⟨written, hw, hr⟩ := ih
    refine ⟨written ++ [.name text], ?_, ?_⟩
    · intro step hm
      rcases mem_append.mp hm with hm | hm
      · exact hw step hm
      · cases mem_singleton.mp hm
        exact .name segment
    · rw [reverse_cons]
      rcases hr with hr | hr
      · exact .inl (by rw [hr]; rfl)
      · exact .inr (by rw [hr])

/-- A path that is written from folded steps takes these steps. -/
theorem steps_ofSteps_foldSteps (read : ∀ step ∈ steps, IsRead step) :
    (ofSteps (foldSteps steps)).steps = foldSteps steps := by
  obtain ⟨written, hw, hr⟩ := reverse_of_kept (kept_foldl read)
  unfold foldSteps
  rcases hr with hr | hr
  · rw [hr, steps_ofSteps_root hw]
  · rw [hr, steps_ofSteps_relative hw]

/-- A path that is written from folded steps has nothing to be folded. -/
theorem normalize_ofSteps_foldSteps (read : ∀ step ∈ steps, IsRead step) :
    (ofSteps (foldSteps steps)).normalize = ofSteps (foldSteps steps) := by
  have again : foldSteps (foldSteps steps) = foldSteps steps := foldSteps_reverse (kept_foldl read)
  unfold normalize
  rw [steps_ofSteps_foldSteps read, again]

/-- A folded path takes the steps that folding left. -/
theorem steps_normalize (path : FilePath) : path.normalize.steps = foldSteps path.steps :=
  steps_ofSteps_foldSteps fun _ => isRead_of_mem_steps

/-- Folding a folded path changes nothing. -/
theorem normalize_normalize (path : FilePath) : path.normalize.normalize = path.normalize :=
  normalize_ofSteps_foldSteps fun _ => isRead_of_mem_steps

/-- Folded paths with the same steps are the same. -/
theorem eq_of_beq_folded {first second : FilePath} (hf : first.normalize = first)
    (hs : second.normalize = second) (same : (first == second) = true) : first = second := by
  have steps : first.steps = second.steps := eq_of_beq same
  rw [← hf, ← hs, normalize, normalize, steps]

/-- A name with the extension of sources can be read. -/
theorem isRead_extended (read : IsRead (.name name)) :
    IsRead (.name (name ++ "." ++ sourceExtension)) := by
  obtain ⟨segment, unslashed, -, hs⟩ := read.resolve_left (by simp)
  have named : name = String.ofList segment := by
    unfold Step.ofSegment at hs
    split at hs
    · cases hs
    · split at hs
      · cases hs
      · exact Step.name.inj hs
  refine .inr ⟨segment ++ ".bgl".toList, ?_, by simp, ?_⟩
  · rw [mem_append, not_or]
    exact ⟨unslashed, by decide⟩
  · have long : 4 ≤ (String.ofList (segment ++ ".bgl".toList)).length := by
      have added : ".bgl".toList.length = 4 := by decide
      rw [String.length_ofList, length_append, added]
      exact Nat.le_add_left 4 _
    have whole : name ++ "." ++ sourceExtension = String.ofList (segment ++ ".bgl".toList) := by
      rw [named, String.append_assoc, String.ofList_append, String.ofList_toList]
      rfl
    unfold Step.ofSegment
    rw [if_neg, if_neg, whole]
    · intro same
      rw [same] at long
      exact absurd long (by decide)
    · intro same
      rw [same] at long
      exact absurd long (by decide)

/-- The steps to the file that an import specifier refers to can be read. -/
theorem isRead_of_mem_importSteps (importer : FilePath) (specifier : String) :
    ∀ step ∈ withExtension (joinSteps (parentSteps importer.steps) ⟨specifier⟩), IsRead step := by
  have joined : ∀ step ∈ joinSteps (parentSteps importer.steps) ⟨specifier⟩, IsRead step := by
    have parent : ∀ step ∈ parentSteps importer.steps, IsRead step := by
      intro step hm
      unfold parentSteps at hm
      split at hm
      · cases hm
      · cases hm
      · exact isRead_of_mem_steps ((dropLast_sublist _).subset hm)
    intro step hm
    unfold joinSteps at hm
    split at hm
    · exact isRead_of_mem_steps hm
    · split at hm
      · exact isRead_of_mem_steps hm
      · rcases mem_append.mp hm with hm | hm
        · exact parent step hm
        · exact isRead_of_mem_steps (mem_filter.mp hm).1
  intro step hm
  unfold withExtension at hm
  split at hm
  · next name hl =>
    split at hm
    · exact joined step hm
    · rcases mem_append.mp hm with hm | hm
      · exact joined step ((dropLast_sublist _).subset hm)
      · cases mem_singleton.mp hm
        exact isRead_extended (joined _ (mem_of_getLast? hl))
  · exact joined step hm

/-- The path of an imported file has nothing to be folded. -/
theorem normalize_importing (importer : FilePath) (specifier : String) :
    (importer.importing specifier).normalize = importer.importing specifier :=
  normalize_ofSteps_foldSteps (isRead_of_mem_importSteps importer specifier)

end FilePath

end ScriptCheck
