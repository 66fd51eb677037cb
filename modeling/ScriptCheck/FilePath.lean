/-!
# File paths

A path is kept as it was written and understood as a list of steps. Repeated
slashes, a trailing slash and every `.` but a leading one are no steps, so two
spellings of the same steps are the same path.
-/

namespace ScriptCheck

/-- One step of a path. -/
inductive Step where
  /-- The root directory. -/
  | root
  /-- The current directory, written `.`. -/
  | here
  /-- The parent directory, written `..`. -/
  | up
  /-- A named entry of a directory. -/
  | name (text : String)
deriving DecidableEq

/-- A path as written. -/
structure FilePath where
  /-- The written form. -/
  text : String
deriving DecidableEq, Inhabited

/-- The step a segment between slashes stands for. -/
def Step.ofSegment (segment : String) : Step :=
  if segment = "." then .here else if segment = ".." then .up else .name segment

/-- Written form of a single step. -/
def Step.text : Step → String
  | .root => "/"
  | .here => "."
  | .up => ".."
  | .name text => text

namespace FilePath

/-- The extension given to imports that are written without one. -/
def sourceExtension : String := "bgl"

/-- Whether the path starts at the root directory. -/
def isAbsolute (path : FilePath) : Bool := path.text.toList.head? == some '/'

/-- The letters between slashes. -/
def segments : List Char → List (List Char)
  | [] => [[]]
  | letter :: rest =>
    if letter = '/' then [] :: segments rest
    else
      match segments rest with
      | [] => [[letter]]
      | first :: others => (letter :: first) :: others

/-- The steps of a path. -/
def steps (path : FilePath) : List Step :=
  let named := (segments path.text.toList).filter fun segment => !segment.isEmpty
  let relative := named.map fun segment => Step.ofSegment (String.ofList segment)
  if path.isAbsolute then .root :: relative.filter (· ≠ .here)
  else
    match relative with
    | [] => []
    | first :: rest => first :: rest.filter (· ≠ .here)

/-- Whether two paths take the same steps. -/
def sameAs (left right : FilePath) : Bool := left.steps == right.steps

instance : BEq FilePath := ⟨sameAs⟩

/-- The path that takes the given steps. -/
def ofSteps : List Step → FilePath
  | .root :: rest => ⟨"/" ++ "/".intercalate (rest.map Step.text)⟩
  | steps => ⟨"/".intercalate (steps.map Step.text)⟩

/-- Adds a step to the steps kept so far, last one first. A `..` takes away the
last step kept, and is itself kept where there is none to take away. -/
def keepStep (kept : List Step) : Step → List Step
  | .here => kept
  | .root => [.root]
  | .name text => .name text :: kept
  | .up =>
    match kept with
    | [] => [.up]
    | .root :: rest => .up :: .root :: rest
    | _ :: rest => rest

/-- The steps left after folding `.` and `..`, without asking the file system. -/
def foldSteps (steps : List Step) : List Step := (steps.foldl keepStep []).reverse

/-- The path with `.` and `..` folded. -/
def normalize (path : FilePath) : FilePath := ofSteps (foldSteps path.steps)

/-- Steps of the directory that holds the entry the steps lead to. -/
def parentSteps (steps : List Step) : List Step :=
  match steps.getLast? with
  | none => []
  | some .root => []
  | some _ => steps.dropLast

/-- Whether a file name has an extension: a dot that is not its first character. -/
def hasExtension (name : String) : Bool := (name.toList.drop 1).contains '.'

/-- Gives the last step the source extension if it names a file without one. -/
def withExtension (steps : List Step) : List Step :=
  match steps.getLast? with
  | some (.name name) =>
    if hasExtension name then steps
    else steps.dropLast ++ [.name (name ++ "." ++ sourceExtension)]
  | _ => steps

/-- Follows the steps of `path` starting from a directory. -/
def joinSteps (directory : List Step) (path : FilePath) : List Step :=
  if path.isAbsolute then path.steps
  else if directory.isEmpty then path.steps
  else directory ++ path.steps.filter (· ≠ .here)

/-- The file an import specifier written in the file `importer` refers to. -/
def importing (importer : FilePath) (specifier : String) : FilePath :=
  ofSteps (foldSteps (withExtension (joinSteps (parentSteps importer.steps) ⟨specifier⟩)))

end FilePath

end ScriptCheck
