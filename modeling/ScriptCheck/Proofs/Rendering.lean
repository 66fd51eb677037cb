import ScriptCheck.Proofs.Forest
import ScriptCheck.Proofs.FreshAnswers
import ScriptCheck.Proofs.Paths
import ScriptCheck.Proofs.Positions
import ScriptCheck.Proofs.ProblemPlaces
import ScriptCheck.Report

/-!
# Every diagnostic can be shown

A diagnostic names a file that can be opened under the path it shows, and its span is a range of
the text of that file that starts between two characters. So the line and the column of its start
are always defined, whatever characters the text is made of.
-/

namespace ScriptCheck

open List

/-- A node of a script that stands in for a text covers no bytes. -/
theorem Script.span_empty (path : FilePath) (id : NodeId) :
    (Node.mk (Script.empty path) id).span = ⟨0, 0⟩ := by
  cases id with
  | zero => rfl
  | succ id => rfl

/-- No rule finds anything in a script that stands in for a text. -/
theorem Script.problems?_empty (path : FilePath) (depth : Nat) (imports : Imports) :
    ((Script.empty path).problems? depth).answer? imports = some [] := rfl

/-- Whatever a text is read as, its nodes lie inside it and start between two characters. -/
theorem Reading.sits_first (path : FilePath) (text : String) (id : NodeId) :
    (Node.mk (Reading.first path text).script id).span.Sits text.toList := by
  unfold first
  split
  · next script read =>
    unfold Node.span Node.entry
    cases he : script.entries[id]? with
    | none => exact Span.sits_zero _
    | some entry => exact sits_of_parse read he
  · rw [Script.span_empty]
    exact Span.sits_zero _

/-- A diagnostic that can be shown in a text: its span is a range of the text and its start has
a line and a column. -/
structure Diagnostic.Shows (diagnostic : Diagnostic) (text : String) : Prop where
  sits : diagnostic.span.Sits text.toList
  position : ∃ position, Text.position? text diagnostic.span.start = some position
  short : ∃ line, diagnostic.short? text = some line

variable {diagnostic : Diagnostic}

theorem Diagnostic.Shows.of_sits (sits : diagnostic.span.Sits text.toList) :
    diagnostic.Shows text := by
  obtain ⟨position, hp⟩ := Text.position?_of_isBoundary sits.boundary
  exact ⟨sits, ⟨position, hp⟩, _, by rw [short?, hp]; rfl⟩

/-- A diagnostic about a source: it says that the text is no script and why, or it points at a
node of the script that the text is read as. -/
inductive Diagnostic.About (source : Source) : Phase → Diagnostic → Prop where
  | malformed {error : SyntaxError} (failed : parse source.path source.text = .error error) :
    About source .parsing (.ofSyntaxError source.path error)
  | broken {script : Script} {node : NodeId} {fault : Fault}
    (read : parse source.path source.text = .ok script) :
    About source .checking (.ofProblem source.path ⟨script.node node, fault⟩)

variable {source : Source} {phase : Phase}

/-- What is said about a source can be shown in its text. -/
theorem Diagnostic.About.shows (about : diagnostic.About source phase) :
    diagnostic.Shows source.text := by
  refine .of_sits ?_
  cases about with
  | malformed failed => exact (marks_of_parse_error failed).sits
  | @broken script node fault read =>
    have sits := Reading.sits_first source.path source.text node
    unfold Reading.first at sits
    rw [read] at sits
    exact sits

/-- What the rules find in the script of a source is about its nodes. -/
theorem Diagnostic.about_of_problem
    (hp : problem ∈ (((Reading.first source.path source.text).script.problems?
      depth).answer? imports).getD []) :
    (Diagnostic.ofProblem source.path problem).About source .checking := by
  cases ha : ((Reading.first source.path source.text).script.problems? depth).answer? imports with
  | none =>
    rw [ha] at hp
    cases hp
  | some problems =>
    rw [ha] at hp
    have hn : problem.node.script = (Reading.first source.path source.text).script :=
      Script.problems?_finds _ problems ha problem hp
    obtain ⟨⟨script, node⟩, fault⟩ := problem
    dsimp only at hn
    subst hn
    unfold Reading.first at ha ⊢
    cases read : parse source.path source.text with
    | ok script => exact .broken read
    | error error =>
      -- no rule finds anything in the script that stands in for the text
      rw [read] at ha
      simp only [Script.problems?_empty] at ha
      cases ha
      cases hp

/-- What is wrong with the text of a source is about that text. -/
theorem Diagnostic.about_of_fault
    (hf : (Reading.first source.path source.text).fault = some error) :
    (Diagnostic.ofSyntaxError source.path error).About source .parsing := by
  unfold Reading.first at hf
  split at hf
  · cases hf
  · next failed =>
    cases hf
    exact .malformed failed

/-- What is said about a source shows its path. -/
theorem Diagnostic.About.path_eq (about : diagnostic.About source phase) :
    diagnostic.path = source.path := by
  cases about <;> rfl

namespace Workspace

variable {workspace before after : Workspace} {disk : Disk} {id : SourceId}
  {texts : List (FilePath × String)} {own : FilePath}

/-- A workspace whose sources nobody has read or checked yet. -/
structure Untouched (workspace : Workspace) : Prop where
  checks : workspace.checks = []
  unread : ∀ id, (workspace.source id).reading? = none

/-- Putting a text reads nothing. -/
theorem Untouched.put (untouched : workspace.Untouched) (path : FilePath) (text : String) :
    ((put path text).run workspace).2.Untouched := by
  rw [run_put]
  cases workspace.find? path.normalize with
  | some changed =>
    refine ⟨untouched.checks, fun id => ?_⟩
    rw [source_replaced]
    split
    · exact untouched.unread id
    · exact untouched.unread id
  | none =>
    refine ⟨untouched.checks, fun id => ?_⟩
    rw [source_added]
    split
    · rfl
    · exact untouched.unread id

/-- Nothing was read of a workspace that was only filled. -/
theorem untouched_holding (texts : List (FilePath × String)) : (holding texts).Untouched :=
  foldlRecOn texts _ ⟨rfl, fun _ => rfl⟩ fun _ untouched row _ => untouched.put row.1 row.2

/-- A source that was never read is read as what its text says. -/
theorem Untouched.reading_eq (untouched : workspace.Untouched) (id : SourceId) :
    (workspace.source id).reading =
      .first (workspace.source id).path (workspace.source id).text := by
  unfold Source.reading
  rw [untouched.unread id]

/-- What is said about a source that was read again was said about it before. -/
theorem Rereads.about (rereads : Rereads ids before after)
    (about : diagnostic.About (before.source id) phase) :
    diagnostic.About (after.source id) phase := by
  have same : (after.source id).path = (before.source id).path ∧
      (after.source id).text = (before.source id).text := by
    rcases rereads.source_cases id with hs | hs <;> (rw [hs]; exact ⟨rfl, rfl⟩)
  cases about with
  | malformed failed =>
    rw [← same.1, ← same.2] at failed
    rw [← same.1]
    exact .malformed failed
  | broken read =>
    rw [← same.1, ← same.2] at read
    rw [← same.1]
    exact .broken read

end Workspace

end ScriptCheck
