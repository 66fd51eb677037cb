import ScriptCheck.Excerpt
import ScriptCheck.Workspace.Answers

/-!
# Reports

Diagnostics are written in a short form, one line each, or with the line of text they
point into, underlined. A report on several files says everything once.
-/

namespace ScriptCheck

/-- The forms a diagnostic is written in. -/
inductive ReportFormat where
  /-- The line of text, underlined. -/
  | human
  /-- One line. -/
  | short
deriving DecidableEq

/-- What a report says, and its totals. -/
structure Report where
  /-- How many files were checked. -/
  files : Nat
  /-- How many problems were found. -/
  errors : Nat
  /-- The text of the report. -/
  output : String

namespace Diagnostic

/-- A diagnostic and its place on one line. -/
def short? (diagnostic : Diagnostic) (text : String) : Option String := do
  let position ← Text.position? text diagnostic.span.start
  return diagnostic.path.text ++ ":" ++ toString position.line ++ ":" ++
    toString position.column ++ ": " ++ diagnostic.kind.code ++ ": " ++ diagnostic.message ++ "\n"

/-- A diagnostic under its title, with an excerpt of the text. -/
def human? (diagnostic : Diagnostic) (text : String) : Option String := do
  let excerpt ← Excerpt.ofSpan? text diagnostic.span
  let title := "[" ++ diagnostic.kind.code ++ "] Error: " ++ diagnostic.message
  let lines := title :: excerpt.render diagnostic.path.text diagnostic.message
  return String.join (lines.map fun line => line ++ "\n")

/-- A diagnostic in the given form. There is none when its span is not one of the text. -/
def render? (diagnostic : Diagnostic) (format : ReportFormat) (text : String) : Option String :=
  match format with
  | .human => diagnostic.human? text
  | .short => diagnostic.short? text

end Diagnostic

/-- A report in the making: the diagnostics written so far and the report on them. -/
structure ReportDraft where
  /-- What was said already. -/
  said : List Diagnostic
  /-- The report so far. -/
  report : Report

namespace Workspace

/-- The text of the file at a path, or no text if it cannot be read. -/
def textAt (disk : Disk) (path : FilePath) : Work String := do
  match ← openFile disk path with
  | .ok id => return ((← get).source id).text
  | .error _ => return ""

/-- Adds a diagnostic to a report unless it was said before. The report fails with a
diagnostic that cannot be written. -/
def say (disk : Disk) (format : ReportFormat) (draft : ReportDraft) (diagnostic : Diagnostic) :
    ExceptT Diagnostic Work ReportDraft := do
  if draft.said.contains diagnostic then return draft
  else
    match diagnostic.render? format (← textAt disk diagnostic.path) with
    | none => throw diagnostic
    | some text =>
      let report := draft.report
      return ⟨draft.said ++ [diagnostic],
        { report with errors := report.errors + 1, output := report.output ++ text }⟩

/-- Adds a file to a report. A file that cannot be read counts as an error. -/
def reportFile [Collector] (disk : Disk) (format : ReportFormat) (draft : ReportDraft) (path : FilePath) :
    ExceptT Diagnostic Work ReportDraft := do
  let report := draft.report
  match ← openFile disk path with
  | .error fault =>
    let text := "error: " ++ fault.message ++ "\n"
    return { draft with
      report := { report with errors := report.errors + 1, output := report.output ++ text } }
  | .ok id =>
    let counted := { draft with report := { report with files := report.files + 1 } }
    (← check disk id).foldlM (say disk format) counted

/-- Checks files and reports on them. -/
def reportFiles [Collector] (disk : Disk) (format : ReportFormat) (paths : List FilePath) :
    ExceptT Diagnostic Work Report := do
  let draft ← paths.foldlM (reportFile disk format) ⟨[], ⟨0, 0, ""⟩⟩
  return draft.report

end Workspace

end ScriptCheck
