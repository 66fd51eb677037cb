import ScriptCheck.Workspace.Basic

/-!
# Answers about sources

Diagnostics and types are given from memory as long as the scripts they were reached
from are the same. After an edit, an answer from memory is confirmed first: the sources
it was reached from are read again where their text was replaced.
-/

namespace ScriptCheck

/-- What is told about malformed texts along with an answer that is confirmed and not
reached anew. How these are collected is up to the memory that is used. -/
class Collector where
  /-- What is told, given for each source used whether its text was replaced since it was
  last read, and what is wrong with its text. -/
  collect : List (Bool × List Diagnostic) → List Diagnostic
  /-- Nothing is made up. -/
  among : ∀ rows, collect rows ⊆ rows.flatMap Prod.snd

/-- The memory that is used tells all faults if one of them is in a text that has to be
read again, and none of them otherwise. -/
instance : Collector where
  collect rows :=
    if rows.any fun row => row.1 && !row.2.isEmpty then rows.flatMap Prod.snd else []
  among rows := by
    split
    · exact List.Subset.refl _
    · exact List.nil_subset _

namespace Workspace

/-- Whether each of the sources used has the version it had. -/
def isCurrent (workspace : Workspace) (used : List (SourceId × Nat)) : Bool :=
  used.all fun row => (workspace.source row.1).reading.version == row.2

/-- Confirms an answer: the sources used are read again. -/
def confirm [Collector] {α : Type} (remembered : Remembered α) : Work (Remembered α) := do
  let workspace ← get
  let rows := remembered.used.map fun row =>
    ((workspace.source row.1).outdated, (workspace.source row.1).diagnostics)
  let _ ← (remembered.used.map Prod.fst).mapM refresh
  return { remembered with confirmedAt := workspace.edits, told := Collector.collect rows }

/-- An answer from memory if it is still good, else a new one. -/
def fromMemory [Collector] {α : Type} (known : Option (Remembered α))
    (ask : Work (Remembered α)) : Work (Remembered α) := do
  let workspace ← get
  match known with
  | none => ask
  | some remembered =>
    if remembered.confirmedAt = workspace.edits then return remembered
    else if workspace.isCurrent remembered.used then confirm remembered
    else ask

/-- The source that a script was loaded from, by the path of the script. -/
def origin? (disk : Disk) (path : FilePath) : Work (Option SourceId) := do
  match (← get).find? path with
  | some id => return some id
  | none => return (← openFile disk path).toOption

/-- Reads a source that an answer was reached from. -/
def use (disk : Disk) (path : FilePath) : Work (List (SourceId × Reading)) := do
  match ← origin? disk path with
  | some id => return [(id, ← refresh id)]
  | none => return []

/-- Remembers an answer with the sources it was reached from: the source asked about,
and those consulted on the way. -/
def reached {α : Type} (disk : Disk) (id : SourceId) (answer : α) (paths : List FilePath) :
    Work (Remembered α) := do
  let own ← refresh id
  let others ← (paths.filter fun path => !(path == own.script.path)).mapM (use disk)
  let used := (id, own) :: others.flatten
  let workspace ← get
  return { answer := answer
           used := used.map fun row => (row.1, row.2.version)
           confirmedAt := workspace.edits
           told := used.flatMap fun row => (workspace.source row.1).diagnostics }

/-- Asks a question about the script of a source anew. -/
def inquire {α : Type} (disk : Disk) (id : SourceId) (question : Script → Inquiry α) :
    Work (Remembered α) := do
  let reading ← refresh id
  let found := (question reading.script).ask ((← get).program disk).imports
  reached disk id found.answer found.sources

/-- What the rules find in a script. -/
def brokenRules (script : Script) : Inquiry (List Diagnostic) := do
  let found ← (script.problems? depth).run
  return (found.getD []).map (Diagnostic.ofProblem script.path)

/-- The type of a node of a script. What is not a node of the script is `unknown`. -/
def nodeType (nodeId : NodeId) (script : Script) : Inquiry Ty := do
  if script.contains nodeId then
    return (← ((script.node nodeId).infer? depth true).run).getD .unknown
  else return .unknown

/-- The diagnostics of a source: what checking found, and what is told about malformed
texts among the sources used. -/
def check [Collector] (disk : Disk) (id : SourceId) : Work (List Diagnostic) := do
  let remembered ← fromMemory ((← get).checks.lookup id) (inquire disk id brokenRules)
  modify fun workspace =>
    { workspace with checks := (id, remembered) :: workspace.checks.filter (·.1 != id) }
  return remembered.answer ++ remembered.told

/-- The type of a node of a source. -/
def typeOf [Collector] (disk : Disk) (id : SourceId) (nodeId : NodeId) : Work Ty := do
  let key := (id, nodeId)
  let remembered ← fromMemory ((← get).types.lookup key) (inquire disk id (nodeType nodeId))
  modify fun workspace =>
    { workspace with types := (key, remembered) :: workspace.types.filter (·.1 != key) }
  return remembered.answer

end Workspace

end ScriptCheck
