import ScriptCheck.Proofs.Outcomes
import ScriptCheck.Proofs.Readings

/-!
# Reading sources again

Answering a question changes a workspace in two ways: sources are read again, and the answer
is remembered. Reading again changes no text, so no question has another outcome
afterwards.
-/

namespace ScriptCheck

/-- Work goes on from the answer and the workspace that earlier work leaves. -/
theorem Work.run_bind {first : Work α} {next : α → Work β} {before after : Workspace} {answer : α}
    (hf : first.run before = (answer, after)) :
    (first >>= next).run before = (next answer).run after := by
  rw [StateT.run_bind, hf]
  rfl

/-- Looking at the workspace changes nothing. -/
theorem Work.run_get (workspace : Workspace) :
    (get : Work Workspace).run workspace = (workspace, workspace) := rfl

namespace Source

/-- Whether the latest reading is of the current text and has the given version. -/
def UpToDate (source : Source) (version : Nat) : Prop :=
  source.outdated = false ∧ ∃ last, source.reading? = some last ∧ last.version = version

variable {source : Source} {version : Nat}

/-- What was just read is up to date. -/
theorem upToDate_refreshed (source : Source) :
    source.refreshed.UpToDate source.reading.version := ⟨rfl, source.reading, rfl, rfl⟩

namespace UpToDate

/-- What is up to date reads as what was read last. -/
theorem reading_eq (current : source.UpToDate version) :
    source.reading? = some source.reading ∧ source.reading.version = version := by
  obtain ⟨ho, last, hl, hv⟩ := current
  have hr : source.reading = last := by
    unfold reading
    simp [hl, ho]
  rw [hr]
  exact ⟨hl, hv⟩

/-- Reading what is up to date changes nothing. -/
theorem refreshed_eq (current : source.UpToDate version) : source.refreshed = source := by
  have hr := current.reading_eq.1
  have ho := current.1
  unfold refreshed
  rw [← hr, ← ho]

end UpToDate

end Source

namespace Workspace

variable {workspace before after last : Workspace} {disk : Disk} {id other : SourceId}

/-- The script of each source, as its current text says. -/
def scripts (workspace : Workspace) (id : SourceId) : Script :=
  (workspace.source id).reading.script

/-- The workspace after the current text of a source was read. -/
def reread (workspace : Workspace) (id : SourceId) : Workspace :=
  { workspace with sources := workspace.sources.modify id Source.refreshed }

/-- The only source that changes by being read is the source that is read. -/
theorem source_reread (workspace : Workspace) (id other : SourceId) :
    (workspace.reread id).source other =
      if id = other ∧ other < workspace.sources.size then (workspace.source other).refreshed
      else workspace.source other := by
  unfold reread source
  rw [Array.getElem?_modify]
  by_cases hi : id = other
  · by_cases hs : other < workspace.sources.size
    · simp [hi, hs]
    · simp [hi, hs]
  · simp [hi]

/-- The other workspace is the same, except that the given sources were read again. -/
structure Rereads (ids : List SourceId) (before after : Workspace) : Prop where
  table : after.table = before.table
  edits : after.edits = before.edits
  checks : after.checks = before.checks
  types : after.types = before.types
  size : after.sources.size = before.sources.size
  sources : ∀ id, after.source id =
    if id ∈ ids then (before.source id).refreshed else before.source id

namespace Rereads

variable {ids more : List SourceId}

/-- Nothing needs to be read. -/
theorem refl (workspace : Workspace) : Rereads [] workspace workspace :=
  ⟨rfl, rfl, rfl, rfl, rfl, fun _ => rfl⟩

/-- More can be read afterwards. -/
theorem trans (first : Rereads ids before after) (second : Rereads more after last) :
    Rereads (ids ++ more) before last where
  table := second.table.trans first.table
  edits := second.edits.trans first.edits
  checks := second.checks.trans first.checks
  types := second.types.trans first.types
  size := second.size.trans first.size
  sources := by
    intro id
    have again : (before.source id).refreshed.refreshed = (before.source id).refreshed :=
      (Source.upToDate_refreshed _).refreshed_eq
    rw [second.sources, first.sources]
    by_cases hf : id ∈ ids <;> by_cases hs : id ∈ more <;> simp [hf, hs, again]

/-- Reading a single source again. -/
theorem single (hi : id < workspace.sources.size) : Rereads [id] workspace (workspace.reread id) where
  table := rfl
  edits := rfl
  checks := rfl
  types := rfl
  size := Array.size_modify
  sources := by
    intro other
    rw [source_reread]
    by_cases same : id = other
    · simp [← same, hi]
    · simp [same, Ne.symm same]

/-- It does not matter in which order sources are read. -/
theorem congr (rereads : Rereads ids before after) (same : ∀ id, id ∈ more ↔ id ∈ ids) :
    Rereads more before after :=
  { rereads with sources := fun id => by simp only [rereads.sources id, same id] }

variable (rereads : Rereads ids before after)
include rereads

/-- A source was read again or not. -/
theorem source_cases (id : SourceId) : after.source id = before.source id ∨
    after.source id = (before.source id).refreshed := by
  rw [rereads.sources]
  split
  · exact .inr rfl
  · exact .inl rfl

/-- Sources read as before. -/
theorem reading_eq (id : SourceId) : (after.source id).reading = (before.source id).reading := by
  rcases rereads.source_cases id with hs | hs
  · rw [hs]
  · rw [hs, Source.reading_refreshed]

/-- Scripts are as before. -/
theorem scripts_eq : after.scripts = before.scripts := by
  funext id
  unfold scripts
  rw [rereads.reading_eq]

/-- What is wrong with a text is as before. -/
theorem diagnostics_eq (id : SourceId) :
    (after.source id).diagnostics = (before.source id).diagnostics := by
  rcases rereads.source_cases id with hs | hs
  · rw [hs]
  · rw [hs]
    rfl

/-- What was up to date still is. -/
theorem upToDate (current : (before.source id).UpToDate version) :
    (after.source id).UpToDate version := by
  rcases rereads.source_cases id with hs | hs
  · rwa [hs]
  · rwa [hs, current.refreshed_eq]

/-- What was read is up to date. -/
theorem upToDate_of_mem (read : id ∈ ids) :
    (after.source id).UpToDate (before.source id).reading.version := by
  rw [rereads.sources, if_pos read]
  exact Source.upToDate_refreshed _

end Rereads

/-- Workspaces with the same table find the same sources. -/
theorem find?_congr (ht : after.table = before.table) (path : FilePath) :
    after.find? path = before.find? path := by
  unfold find?
  rw [ht]

/-- Workspaces with the same table cover the same files. -/
theorem Covers.congr (covers : before.Covers disk) (ht : after.table = before.table) :
    after.Covers disk := by
  intro file hf text hr
  rw [find?_congr ht]
  exact covers file hf text hr

section

variable (ht : after.table = before.table)
include ht

/-- Paths lead to the same sources by the same table. -/
theorem lead?_congr (path : FilePath) : after.lead? disk path = before.lead? disk path := by
  unfold lead?
  simp only [find?_congr ht]

/-- Scripts are owned by the same sources by the same table. -/
theorem owner?_congr : after.owner? disk = before.owner? disk := by
  funext path
  unfold owner?
  simp only [find?_congr ht, lead?_congr ht]

/-- Workspaces with the same table give the same program to the same scripts. -/
theorem programOf_congr (scripts : SourceId → Script) :
    after.programOf disk scripts = before.programOf disk scripts := by
  unfold programOf unopened
  simp only [find?_congr ht, ht]

/-- Workspaces with the same table give a question the same outcome. -/
theorem outcome_table (scripts : SourceId → Script) :
    after.outcome disk question id scripts = before.outcome disk question id scripts := by
  unfold outcome usedFor
  rw [programOf_congr ht, owner?_congr ht]

end

end Workspace

end ScriptCheck
