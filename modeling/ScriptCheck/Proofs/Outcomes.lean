import ScriptCheck.Workspace.Answers
import ScriptCheck.Proofs.Answers
import Mathlib.Tactic.Common

/-!
# What the answer to a question depends on

A question about the script of a source is answered from the scripts of the sources that are
used for it. Whatever other sources hold makes no difference, neither to the answer nor to
which sources are used.
-/

namespace ScriptCheck

open List

namespace Workspace

variable {workspace : Workspace} {disk : Disk} {path : FilePath} {id : SourceId}

/-- The table names each file once. -/
def Distinct (workspace : Workspace) : Prop :=
  workspace.table.Pairwise fun first second => (first.1 == second.1) = false

/-- Every file that can be read from disk is in the table. -/
def Covers (workspace : Workspace) (disk : Disk) : Prop :=
  ∀ file ∈ disk.files, ∀ text, file.2 = .ok text → (workspace.find? file.1).isSome = true

/-- The source in the table that a path leads to, if need be by way of the disk. -/
def lead? (workspace : Workspace) (disk : Disk) (path : FilePath) : Option SourceId :=
  match workspace.find? path.normalize with
  | some id => some id
  | none =>
    match disk.locate path with
    | .ok located => workspace.find? located
    | .error _ => none

/-- The source in the table that a loaded script belongs to. -/
def owner? (workspace : Workspace) (disk : Disk) (path : FilePath) : Option SourceId :=
  match workspace.find? path with
  | some id => some id
  | none => workspace.lead? disk path

/-- Scripts given to sources belong to the files of the sources. -/
def Placed (workspace : Workspace) (scripts : SourceId → Script) : Prop :=
  ∀ row ∈ workspace.table, (scripts row.2).path = row.1

/-- The sources used for a question about a source: itself and the owners of the scripts
that were loaded. -/
def usedFor (workspace : Workspace) (disk : Disk) (id : SourceId) (own : FilePath)
    (paths : List FilePath) : List SourceId :=
  id :: (paths.filter fun path => !(path == own)).filterMap (workspace.owner? disk)

/-- The answer to a question about a source, and the sources used for it, given the script
of each source. -/
def outcome {α : Type} (workspace : Workspace) (disk : Disk) (question : Script → Inquiry α)
    (id : SourceId) (scripts : SourceId → Script) : α × List SourceId :=
  let found := (question (scripts id)).ask (workspace.programOf disk scripts).imports
  (found.answer, workspace.usedFor disk id (scripts id).path found.sources)

/-- What is found in a table that names each file once is the only row for the path. -/
theorem find?_of_mem (distinct : workspace.Distinct) (hr : row ∈ workspace.table)
    (same : (row.1 == path) = true) : workspace.find? path = some row.2 := by
  obtain ⟨earlier, later, cut⟩ := append_of_mem hr
  rw [Distinct, cut, pairwise_append] at distinct
  have found : workspace.table.find? (fun other => other.1 == path) = some row := by
    refine find?_eq_some_iff_append.mpr ⟨same, earlier, later, cut, fun other ho => ?_⟩
    rw [← BEq.congr_right same, distinct.2.2 other ho row mem_cons_self]
    rfl
  rw [find?, found]
  rfl

/-- A source that is found in the table has a row there. -/
theorem mem_of_find? (hf : workspace.find? path = some id) :
    ∃ row ∈ workspace.table, (row.1 == path) = true ∧ row.2 = id := by
  obtain ⟨row, hr, rfl⟩ := Option.map_eq_some_iff.mp hf
  have hp := find?_some hr
  exact ⟨row, mem_of_find?_eq_some hr, hp, rfl⟩

/-- A path leads only to sources in the table. -/
theorem mem_of_lead? (hl : workspace.lead? disk path = some id) :
    ∃ row ∈ workspace.table, row.2 = id := by
  unfold lead? at hl
  split at hl
  · cases hl
    obtain ⟨row, hr, -, he⟩ := mem_of_find? ‹_›
    exact ⟨row, hr, he⟩
  · split at hl
    · obtain ⟨row, hr, -, he⟩ := mem_of_find? hl
      exact ⟨row, hr, he⟩
    · cases hl

/-- No file is left to be opened when the table has all of them. -/
theorem unopened_eq_nil (covers : workspace.Covers disk) : workspace.unopened disk = [] := by
  unfold unopened
  rw [filterMap_eq_nil_iff]
  intro file hf
  split
  · rename_i text hn ht
    have hs := covers file hf text ht
    rw [hn] at hs
    cases hs
  · rfl

/-- A program looks for a path in the table, and for where the path leads to on disk both in the
table and among the other files. -/
theorem find_programOf (workspace : Workspace) (disk : Disk) (scripts : SourceId → Script)
    (path : FilePath) : (workspace.programOf disk scripts).find path =
      match workspace.find? path.normalize with
      | some id => some (scripts id)
      | none =>
        match disk.locate path with
        | .ok located => ((workspace.find? located).map scripts).or
            ((workspace.unopened disk).find? fun script => script.path == located)
        | .error _ => none := by
  have lookup : ∀ wanted : FilePath,
      (((workspace.table.map fun row => (row.1, scripts row.2)).find? fun row =>
        row.1 == wanted).map Prod.snd) = (workspace.find? wanted).map scripts := by
    intro wanted
    rw [find?_map, Option.map_map]
    unfold find?
    rw [Option.map_map]
    rfl
  unfold programOf
  simp only [lookup, find?_append, Option.map_or]
  cases workspace.find? path.normalize with
  | some id => rfl
  | none =>
    cases disk.locate path with
    | error fault => rfl
    | ok located =>
      refine congrArg (Option.or _) ?_
      rw [find?_map, Option.map_map]
      exact Option.map_id'

/-- A program finds the script of the source that a path leads to. -/
theorem find_of_covers (covers : workspace.Covers disk) (scripts : SourceId → Script) :
    (workspace.programOf disk scripts).find path = (workspace.lead? disk path).map scripts := by
  rw [find_programOf, unopened_eq_nil covers]
  unfold lead?
  cases workspace.find? path.normalize with
  | some id => rfl
  | none =>
    cases disk.locate path with
    | ok located => exact Option.or_none
    | error fault => rfl

/-- A question has the same outcome when the sources used for it have the same scripts. -/
theorem outcome_congr {question : Script → Inquiry α} {before after : SourceId → Script}
    (distinct : workspace.Distinct) (covers : workspace.Covers disk)
    (hb : workspace.Placed before) (hid : (own, id) ∈ workspace.table) {answer : α}
    {rows : List (SourceId × Nat)}
    (right : workspace.outcome disk question id before = (answer, rows.map Prod.fst))
    (kept : ∀ row ∈ rows, after row.1 = before row.1) :
    workspace.outcome disk question id after = (answer, rows.map Prod.fst) := by
  have same : ∀ used ∈ (workspace.outcome disk question id before).2, after used = before used := by
    rw [right]
    exact forall_mem_map.mpr kept
  rw [← right]
  have hi : after id = before id := same id mem_cons_self
  have agree : Imports.AgreeOn
      ((question (before id)).ask (workspace.programOf disk before).imports).sources
      (workspace.programOf disk before).imports (workspace.programOf disk after).imports := by
    intro importer specifier
    unfold Program.imports
    rw [find_of_covers covers, find_of_covers covers]
    cases hl : workspace.lead? disk (importer.path.importing specifier) with
    | none => exact .inl rfl
    | some target =>
      by_cases hs : after target = before target
      · exact .inl (congrArg some hs)
      · refine .inr ⟨before target, rfl, ?_⟩
        by_contra hc
        -- A source whose script was loaded is among those used, so its script is the same.
        obtain ⟨loaded, hm, hp⟩ := contains_iff_exists_mem_beq.mp (Bool.not_eq_false _ ▸ hc)
        obtain ⟨row, hr, rfl⟩ := mem_of_lead? hl
        rw [hb row hr] at hp
        by_cases ho : (loaded == (before id).path) = true
        · rw [hb _ hid] at ho
          have hfound := find?_of_mem distinct hr (BEq.trans hp ho)
          rw [find?_of_mem distinct hid (BEq.rfl)] at hfound
          cases hfound
          exact hs hi
        · refine hs (same row.2 (mem_cons_of_mem _ ?_))
          refine mem_filterMap.mpr ⟨loaded, ?_, ?_⟩
          · exact mem_filter.mpr ⟨hm, by simpa using ho⟩
          · unfold owner?
            rw [find?_of_mem distinct hr hp]
  have found := (question (before id)).tracked _ _ agree
  unfold outcome
  rw [hi]
  simp only [found]

end Workspace

end ScriptCheck
