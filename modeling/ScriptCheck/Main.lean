import ScriptCheck.Report

/-!
# The command line

`check [--format human|short] FILE...` checks files and the scripts they import. The
files are read first, as far as imports lead, and the report is made from what was read.
-/

namespace ScriptCheck

/-- What the command line asks for. -/
structure Arguments where
  /-- The form of the report. -/
  format : ReportFormat
  /-- The files to check. -/
  files : List FilePath

namespace Arguments

/-- Reads the arguments after the command. -/
def read? : List String → Option Arguments
  | [] => some ⟨.human, []⟩
  | "--format" :: "human" :: rest => (read? rest).map fun read => { read with format := .human }
  | "--format" :: "short" :: rest => (read? rest).map fun read => { read with format := .short }
  | "--format=human" :: rest => (read? rest).map fun read => { read with format := .human }
  | "--format=short" :: rest => (read? rest).map fun read => { read with format := .short }
  | file :: rest =>
    if file.startsWith "--" then none
    else (read? rest).map fun read => { read with files := ⟨file⟩ :: read.files }

/-- Reads the whole command line. At least one file is needed. -/
def ofCommand? : List String → Option Arguments
  | "check" :: rest => (read? rest).filter fun read => !read.files.isEmpty
  | _ => none

end Arguments

/-- The paths that a script imports from. -/
def Script.importedPaths (script : Script) : List FilePath :=
  script.declarations.filterMap fun declaration =>
    match declaration.form with
    | .importNames specifier _ => some (script.path.importing specifier)
    | .importAll specifier _ => some (script.path.importing specifier)
    | _ => none

/-- What was found on disk so far. -/
structure Survey where
  /-- Where paths lead. -/
  located : List (FilePath × Except DiskFault FilePath)
  /-- The files read. -/
  files : List (FilePath × Except DiskFault String)

namespace Survey

/-- The disk as far as it was looked at. -/
def disk (survey : Survey) : Disk where
  locate := fun path =>
    match survey.located.find? fun row => row.1.text == path.text with
    | some row => row.2
    | none => .error .missing
  files := survey.files

/-- The fault behind a failed operation. -/
def faultOf : IO.Error → DiskFault
  | .noFileOrDirectory _ code _ => if code = 20 then .notDirectory else .missing
  | .noSuchThing _ code _ => if code = 20 then .notDirectory else .missing
  | .permissionDenied _ _ _ => .denied
  | .inappropriateType _ code _ => if code = 20 then .notDirectory else .isDirectory
  | .otherError code _ => if code = 20 then .notDirectory else .isDirectory
  | .invalidArgument _ code _ => if code = 36 then .nameTooLong else .isDirectory
  | .userError _ => .notText
  | _ => .isDirectory

/-- Runs an operation on a path and keeps its fault. -/
def attempt {α : Type} (path : FilePath) (action : String → IO α) : IO (Except DiskFault α) := do
  if path.text.contains '\x00' then return .error .nulCharacter
  try
    return .ok (← action path.text)
  catch error =>
    return .error (faultOf error)

/-- Looks at a path and then, if it leads to a new file, at what that file imports. -/
partial def visit (survey : Survey) (path : FilePath) : IO Survey := do
  if survey.located.any fun row => row.1.text == path.text then return survey
  else
    let found ← attempt path fun text => do
      return (⟨(← IO.FS.realPath text).toString⟩ : FilePath)
    let located := { survey with located := (path, found) :: survey.located }
    match found with
    | .error _ => return located
    | .ok real =>
      if located.files.any fun file => file.1 == real then return located
      else
        let contents ← attempt real fun text => IO.FS.readFile text
        let read := { located with files := (real, contents) :: located.files }
        match contents with
        | .error _ => return read
        | .ok text => (Reading.first real text).script.importedPaths.foldlM visit read

end Survey

/-- Checks the files given on the command line. -/
def run (args : List String) : IO UInt32 := do
  match Arguments.ofCommand? args with
  | none =>
    IO.eprintln "usage: check [--format human|short] FILE..."
    return 2
  | some arguments =>
    let survey ← arguments.files.foldlM Survey.visit ⟨[], []⟩
    let work := Workspace.reportFiles survey.disk arguments.format arguments.files
    match (work.run.run .empty).1 with
    | .error diagnostic =>
      IO.eprintln ("no place to point at: " ++ diagnostic.message)
      return 101
    | .ok report =>
      IO.print report.output
      if report.errors = 0 then return 0
      else
        IO.eprintln
          (toString report.errors ++ " error(s) in " ++ toString report.files ++ " file(s)")
        return 1

end ScriptCheck

/-- Entry point of the command line. -/
def main (args : List String) : IO UInt32 := ScriptCheck.run args
