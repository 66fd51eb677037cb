import ScriptCheck.Workspace.Disk

/-!
# Directories and files in memory

A volume is a tree of directories and files. A path leads through it step by step, so
that it can be refused even if its normal form names a file.
-/

namespace ScriptCheck

/-- Directories and files, each by its steps from the root. -/
structure Volume where
  /-- The directories. -/
  directories : List (List String)
  /-- The files, with their contents. -/
  files : List (List String × String)

namespace Volume

/-- Nothing but the root. -/
def empty : Volume := ⟨[[]], []⟩

/-- Whether the steps lead to a file. -/
def hasFile (volume : Volume) (steps : List String) : Bool :=
  volume.files.any fun file => file.1 == steps

/-- Whether the steps lead to a directory. -/
def hasDirectory (volume : Volume) (steps : List String) : Bool :=
  volume.directories.contains steps

/-- The segments of a path as they are written. -/
def segments (path : FilePath) : List String := path.text.splitOn "/"

/-- The longest name that a file or directory can have, in bytes. -/
def longestName : Nat := 255

/-- Follows the segments of a path from a directory. A file can only be the end. -/
def follow (volume : Volume) : List String → List String → Except DiskFault (List String)
  | here, [] =>
    if volume.hasDirectory here || volume.hasFile here then .ok here else .error .missing
  | here, segment :: rest =>
    if volume.hasFile here then .error .notDirectory
    else if !volume.hasDirectory here then .error .missing
    else if segment = "" || segment = "." then volume.follow here rest
    else if segment = ".." then volume.follow here.dropLast rest
    else if longestName < segment.utf8ByteSize then .error .nameTooLong
    else volume.follow (here ++ [segment]) rest

/-- The steps to what a path names. Relative paths start at the root. -/
def locate (volume : Volume) (path : FilePath) : Except DiskFault (List String) :=
  if path.text.contains '\x00' then .error .nulCharacter
  else if path.text = "" then .error .missing
  else volume.follow [] (segments path)

/-- Adds a directory unless something is there. -/
def addDirectory (volume : Volume) (steps : List String) : Volume :=
  if volume.hasDirectory steps || volume.hasFile steps then volume
  else { volume with directories := steps :: volume.directories }

/-- Goes along the segments of a path from a directory, and adds the directories that are
missing. The result is the volume and the steps to where the path leads. -/
def enter (volume : Volume) : List String → List String → Volume × List String
  | here, [] => (volume, here)
  | here, segment :: rest =>
    if segment = "" || segment = "." then volume.enter here rest
    else if segment = ".." then volume.enter here.dropLast rest
    else (volume.addDirectory (here ++ [segment])).enter (here ++ [segment]) rest

/-- Adds a directory and all that lead to it. -/
def makeDirectory (volume : Volume) (path : FilePath) : Volume :=
  (volume.enter [] (segments path)).1

/-- Puts a file at the given steps, in place of a file that is there. A directory stays. -/
def putFile (volume : Volume) (steps : List String) (text : String) : Volume :=
  if volume.hasDirectory steps then volume
  else { volume with files := (steps, text) :: volume.files.filter fun file => file.1 != steps }

/-- Writes a file, and adds the directories that lead to it. Nothing is written below a
file, or without a name. -/
def write (volume : Volume) (path : FilePath) (text : String) : Volume :=
  let above := volume.enter [] (segments path).dropLast
  match (segments path).getLast? with
  | none | some "" | some "." | some ".." => volume
  | some name =>
    if above.1.hasDirectory above.2 then above.1.putFile (above.2 ++ [name]) text else above.1

/-- The absolute path with the given steps. -/
def pathOf (steps : List String) : FilePath := ⟨"/" ++ "/".intercalate steps⟩

/-- The volume as a disk to read from. -/
def disk (volume : Volume) : Disk where
  locate := fun path => (volume.locate path).map pathOf
  files := volume.files.map fun file => (pathOf file.1, .ok file.2)

end Volume

/-- A disk without any file. -/
def Disk.bare : Disk := Volume.empty.disk

end ScriptCheck
