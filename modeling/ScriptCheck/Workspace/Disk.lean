import ScriptCheck.FilePath

/-!
# Files on disk

A disk is seen as a set of files by absolute path, and a way to find where other paths
lead. Reading a file fails for one of a few reasons.
-/

namespace ScriptCheck

/-- Why a file cannot be read. -/
inductive DiskFault where
  /-- The path holds a NUL character, which no name can have. -/
  | nulCharacter
  /-- Nothing is there. -/
  | missing
  /-- A step of the path goes into something that is not a directory. -/
  | notDirectory
  /-- The path is that of a directory. -/
  | isDirectory
  /-- A name in the path is longer than any name can be. -/
  | nameTooLong
  /-- Reading is not allowed. -/
  | denied
  /-- The contents are not text. -/
  | notText
deriving DecidableEq

/-- How the operating system words a fault. -/
def DiskFault.message : DiskFault → String
  | nulCharacter => "file name contained an unexpected NUL byte"
  | missing => "No such file or directory (os error 2)"
  | notDirectory => "Not a directory (os error 20)"
  | isDirectory => "Is a directory (os error 21)"
  | nameTooLong => "File name too long (os error 36)"
  | denied => "Permission denied (os error 13)"
  | notText => "stream did not contain valid UTF-8"

/-- A path that cannot be read, and why. -/
structure ReadFault where
  /-- The path that was tried. -/
  path : FilePath
  /-- What went wrong. -/
  fault : DiskFault

/-- What a user is told about a path that cannot be read. -/
def ReadFault.message (fault : ReadFault) : String :=
  "cannot read '" ++ fault.path.text ++ "': " ++ fault.fault.message

/-- The files that can be read from disk. -/
structure Disk where
  /-- The absolute path that a path leads to, without detours. -/
  locate : FilePath → Except DiskFault FilePath
  /-- The files by absolute path, with their contents. -/
  files : List (FilePath × Except DiskFault String)

namespace Disk

/-- The contents of the file at an absolute path. What is there and is no file is a
directory. -/
def read (disk : Disk) (path : FilePath) : Except DiskFault String :=
  match disk.files.find? fun file => file.1 == path with
  | some file => file.2
  | none => .error .isDirectory

end Disk

end ScriptCheck
