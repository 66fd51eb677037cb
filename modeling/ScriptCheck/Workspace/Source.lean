import ScriptCheck.Diagnostic
import ScriptCheck.Grammar.Declarations

/-!
# Sources and their readings

A source is a file with a text that can be replaced. It is read as a script when
somebody needs the script, and the reading has a new version only if the script is not
the same as before.
-/

namespace ScriptCheck

/-- What came out of reading the text of a source. -/
structure Reading where
  /-- The script, without declarations if the text is not a script. -/
  script : Script
  /-- What is wrong with the text. -/
  fault : Option SyntaxError
  /-- How often the script has changed. -/
  version : Nat

/-- A text read as the first version of a script. -/
def Reading.first (path : FilePath) (text : String) : Reading :=
  match parse path text with
  | .ok script => ⟨script, none, 0⟩
  | .error error => ⟨.empty path, some error, 0⟩

/-- A text read after an earlier reading. The version stays if the script does. -/
def Reading.next (previous : Reading) (path : FilePath) (text : String) : Reading :=
  let reading := first path text
  let same := reading.script.sameAs previous.script
  { reading with version := if same then previous.version else previous.version + 1 }

/-- A file whose text can be replaced. -/
structure Source where
  /-- The path of the file. -/
  path : FilePath
  /-- The text of the file. -/
  text : String
  /-- The latest reading, if there was one. -/
  reading? : Option Reading
  /-- Whether the text was replaced since the latest reading. -/
  outdated : Bool

namespace Source

/-- A file that nobody has read yet. -/
def unread (path : FilePath) (text : String) : Source := ⟨path, text, none, true⟩

/-- The file with another text. -/
def replace (source : Source) (text : String) : Source :=
  { source with text := text, outdated := true }

/-- What the current text reads as. -/
def reading (source : Source) : Reading :=
  match source.reading? with
  | none => .first source.path source.text
  | some previous =>
    if source.outdated then previous.next source.path source.text else previous

/-- The file with its current text read. -/
def refreshed (source : Source) : Source :=
  { source with reading? := some source.reading, outdated := false }

/-- What is wrong with the current text. -/
def diagnostics (source : Source) : List Diagnostic :=
  (source.reading.fault.map (Diagnostic.ofSyntaxError source.path)).toList

end Source

end ScriptCheck
