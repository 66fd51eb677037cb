import ScriptCheck.Program
import ScriptCheck.Workspace.Disk
import ScriptCheck.Workspace.Source

/-!
# Workspaces

A workspace holds sources by path, and remembers what was found out about them. An
answer is remembered together with the sources it was reached from, and stays good
until one of their scripts changes. A path that named no file leaves no trace in an
answer, so a file that appears there later does not change it.
-/

namespace ScriptCheck

/-- The number of a source in its workspace. -/
abbrev SourceId := Nat

/-- An answer with the versions of the sources it was reached from, in order of use. -/
structure Remembered (α : Type) where
  /-- The answer. -/
  answer : α
  /-- The sources used and their versions then. -/
  used : List (SourceId × Nat)
  /-- How many edits there had been when the answer was last found to be good. -/
  confirmedAt : Nat
  /-- What is told about malformed texts among the sources used. -/
  told : List Diagnostic

/-- Sources and what is known about them. -/
structure Workspace where
  /-- All sources, by number. A source keeps its number. -/
  sources : Array Source
  /-- The sources that can be found by path. -/
  table : List (FilePath × SourceId)
  /-- Remembered diagnostics of sources. -/
  checks : List (SourceId × Remembered (List Diagnostic))
  /-- Remembered types of nodes. -/
  types : List ((SourceId × NodeId) × Remembered Ty)
  /-- How often the text of a source was replaced. -/
  edits : Nat

/-- Work on a workspace. -/
abbrev Work := StateM Workspace

namespace Workspace

/-- A workspace without sources. -/
def empty : Workspace := ⟨#[], [], [], [], 0⟩

/-- The source with a number. -/
def source (workspace : Workspace) (id : SourceId) : Source :=
  (workspace.sources[id]?).getD (.unread ⟨""⟩ "")

/-- The source that is found under a normal path. -/
def find? (workspace : Workspace) (path : FilePath) : Option SourceId :=
  (workspace.table.find? fun row => row.1 == path).map Prod.snd

/-- Adds a new source. -/
def add (path : FilePath) (text : String) : Work SourceId := do
  let workspace ← get
  let id := workspace.sources.size
  set { workspace with
    sources := workspace.sources.push (.unread path text)
    table := workspace.table ++ [(path, id)] }
  return id

/-- Sets the text of the file at a path. A path that is not in the table gets a new
source. -/
def put (path : FilePath) (text : String) : Work SourceId := do
  match (← get).find? path.normalize with
  | some id =>
    modify fun workspace =>
      { workspace with
        sources := workspace.sources.modify id (·.replace text)
        edits := workspace.edits + 1 }
    return id
  | none => add path.normalize text

/-- Takes a path out of the table. What was reached from its source stays good. -/
def remove (path : FilePath) : Work Unit :=
  modify fun workspace =>
    { workspace with table := workspace.table.filter fun row => !(row.1 == path.normalize) }

/-- The source at a path, from the table or else from disk. -/
def openFile (disk : Disk) (path : FilePath) : Work (Except ReadFault SourceId) := do
  let workspace ← get
  match workspace.find? path.normalize with
  | some id => return .ok id
  | none =>
    match disk.locate path with
    | .error fault => return .error ⟨path, fault⟩
    | .ok located =>
      match workspace.find? located with
      | some id => return .ok id
      | none =>
        match disk.read located with
        | .error fault => return .error ⟨located, fault⟩
        | .ok text => return .ok (← add located text)

/-- Reads the current text of a source. -/
def refresh (id : SourceId) : Work Reading := do
  modify fun workspace =>
    { workspace with sources := workspace.sources.modify id Source.refreshed }
  return ((← get).source id).reading

/-- The files on disk that have no source yet, read as scripts. -/
def unopened (workspace : Workspace) (disk : Disk) : List Script :=
  disk.files.filterMap fun file =>
    match workspace.find? file.1, file.2 with
    | none, .ok text => some (Reading.first file.1 text).script
    | _, _ => none

/-- How many questions of inference may be asked inside each other. It does not depend on
the sources, so that answers reached at different times can be compared. -/
def depth : Nat := 1000000

/-- The program of the files in the table and on disk, given the script of each source. A
path that is not in the table is looked for on disk. -/
def programOf (workspace : Workspace) (disk : Disk) (scripts : SourceId → Script) : Program :=
  let opened := workspace.table.map fun row => (row.1, scripts row.2)
  let others := (workspace.unopened disk).map fun script => (script.path, script)
  let lookup (known : List (FilePath × Script)) (path : FilePath) : Option Script :=
    (known.find? fun row => row.1 == path).map Prod.snd
  { find := fun path =>
      match lookup opened path.normalize with
      | some script => some script
      | none =>
        match disk.locate path with
        | .ok located => lookup (opened ++ others) located
        | .error _ => none
    depth := depth }

/-- The scripts that the sources and the files on disk are at the moment. -/
def program (workspace : Workspace) (disk : Disk) : Program :=
  workspace.programOf disk fun id => (workspace.source id).reading.script

end Workspace

end ScriptCheck
