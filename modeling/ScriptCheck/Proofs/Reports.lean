import ScriptCheck.Proofs.Loading
import ScriptCheck.Proofs.Rendering
import Mathlib.Data.List.Perm.Basic

/-!
# Reports do not depend on the order of files

A report counts the files that can be read, and tells what is wrong with each of them and which
files cannot be read. Whatever is found more than once is told once. So the order in which files
are given makes a difference only to the order of the lines, as long as every path leads to the
file that its folded form names.
-/

namespace ScriptCheck

open List

/-- Diagnostics at folded paths that say the same are the same. -/
theorem Diagnostic.eq_of_beq_folded {first second : Diagnostic}
    (hf : first.path.normalize = first.path) (hs : second.path.normalize = second.path)
    (same : (first == second) = true) : first = second := by
  have parts : first.sameAs second = true := same
  simp only [sameAs, Bool.and_eq_true, beq_iff_eq] at parts
  obtain ⟨⟨⟨path, message⟩, span⟩, kind⟩ := parts
  obtain ⟨firstPath, _, _, _⟩ := first
  obtain ⟨secondPath, _, _, _⟩ := second
  cases FilePath.eq_of_beq_folded hf hs path
  cases message
  cases span
  cases kind
  rfl

namespace Workspace

variable {workspace origin : Workspace} {disk : Disk} {path : FilePath} {before after : Workspace}
  {paths : List FilePath}

/-- What a check of the file at a path answers: why it cannot be read, or what there is to tell. -/
def answerAt (workspace : Workspace) (disk : Disk) (path : FilePath) :
    Except ReadFault (List Diagnostic) :=
  (workspace.fileAt disk path).map (workspace.tellings disk)

/-- The line that tells a diagnostic. -/
def lineAt (workspace : Workspace) (disk : Disk) (diagnostic : Diagnostic) : Option String :=
  (workspace.fileAt disk diagnostic.path).toOption.bind fun file => diagnostic.short? file.2

theorem short?_of_lineAt (hl : workspace.lineAt disk diagnostic = some line) : diagnostic.short?
      (((workspace.fileAt disk diagnostic.path).toOption.map Prod.snd).getD "") = some line := by
  obtain ⟨file, hf, hl⟩ := Option.bind_eq_some_iff.mp hl
  rw [hf]
  exact hl

/-- The text at a path is that of the file that the path leads to. -/
theorem Tidy.run_textAt (tidy : workspace.Tidy) (orderly : disk.Orderly) (path : FilePath) :
    ∃ after, (textAt disk path).run workspace =
        (((workspace.fileAt disk path).toOption.map Prod.snd).getD "", after) ∧
      Loads disk workspace after := by
  obtain ⟨answer, after, ho, loads, file, -⟩ := tidy.run_openFile orderly path
  refine ⟨after, ?_, loads⟩
  unfold textAt
  rw [Work.run_bind ho, ← file]
  cases answer with
  | error fault => rfl
  | ok id => rfl

/-- Everything that is told about a file can be shown in the file that it is about. -/
theorem Tidy.shown_of_mem_tellings (tidy : workspace.Tidy) (orderly : disk.Orderly)
    (hf : workspace.fileAt disk path = .ok file) (hd : diagnostic ∈ workspace.tellings disk file) :
    diagnostic.path.normalize = diagnostic.path ∧
      ∃ line, workspace.lineAt disk diagnostic = some line := by
  have shown : ∀ {file : FilePath × String} {path : FilePath} {phase : Phase},
      workspace.fileAt disk path = .ok file →
      diagnostic.About (.unread file.1 file.2) phase →
      diagnostic.path.normalize = diagnostic.path ∧
        ∃ line, workspace.lineAt disk diagnostic = some line := by
    intro file path phase hf about
    obtain ⟨line, hl⟩ := about.shows.short
    have own : diagnostic.path = file.1 := about.path_eq
    rw [own]
    refine ⟨(tidy.fileAt_own orderly hf).1, line, ?_⟩
    unfold lineAt
    rw [own, (tidy.fileAt_own orderly hf).2]
    exact hl
  rcases mem_append.mp hd with hd | hd
  · obtain ⟨problem, hp, rfl⟩ := mem_map.mp hd
    have path : (scriptOf file).path = file.1 := Reading.path_first _ _
    have about : (Diagnostic.ofProblem (scriptOf file).path problem).About
        (.unread file.1 file.2) .checking := by
      rw [path]
      exact Diagnostic.about_of_problem hp
    exact shown hf about
  · obtain ⟨other, ho, hm⟩ := mem_flatMap.mp hd
    have found : ∃ wanted, workspace.fileAt disk wanted = .ok other := by
      rcases mem_cons.mp ho with rfl | ho
      · exact ⟨path, hf⟩
      · obtain ⟨wanted, -, hw⟩ := mem_filterMap.mp ho
        refine ⟨wanted, ?_⟩
        cases ha : workspace.fileAt disk wanted with
        | error fault =>
          rw [ha] at hw
          cases hw
        | ok another =>
          rw [ha] at hw
          cases hw
          rfl
    obtain ⟨wanted, hw⟩ := found
    unfold faultsOfFile at hm
    rw [Option.mem_toList, Option.map_eq_some_iff] at hm
    obtain ⟨error, he, rfl⟩ := hm
    have about : (Diagnostic.ofSyntaxError other.1 error).About (.unread other.1 other.2) .parsing :=
      Diagnostic.about_of_fault he
    exact shown hw about

/-- Why files cannot be read, of the answers of some checks. -/
def faultsIn (answers : List (Except ReadFault (List Diagnostic))) : List ReadFault :=
  answers.filterMap fun
    | .error fault => some fault
    | .ok _ => none

/-- All diagnostics of the answers of some checks. -/
def toldIn (answers : List (Except ReadFault (List Diagnostic))) : List Diagnostic :=
  answers.flatMap fun
    | .error _ => []
    | .ok diagnostics => diagnostics

/-- The line that tells that a file cannot be read. -/
def faultLine (fault : ReadFault) : String := "error: " ++ fault.message ++ "\n"

/-- A report in the making that has counted files, told faults and told each of some diagnostics
once. Diagnostics that say the same are the same among those that it has told. -/
structure Tally (line : Diagnostic → Option String) (files : Nat) (faults : List ReadFault)
    (told : List Diagnostic) (draft : ReportDraft) : Prop where
  files : draft.report.files = files
  errors : draft.report.errors = draft.said.length + faults.length
  lines : ∃ lines, draft.report.output = String.join lines ∧ (lines.map some).Perm
    (draft.said.map line ++ faults.map fun fault => some (faultLine fault))
  nodup : draft.said.Nodup
  said : ∀ diagnostic, diagnostic ∈ draft.said ↔ diagnostic ∈ told
  folded : ∀ diagnostic ∈ told, diagnostic.path.normalize = diagnostic.path

namespace Tally

variable {line : Diagnostic → Option String} {files : Nat} {faults : List ReadFault}
  {told : List Diagnostic} {draft : ReportDraft} {diagnostic : Diagnostic}

theorem empty (line : Diagnostic → Option String) : Tally line 0 [] [] ⟨[], ⟨0, 0, ""⟩⟩ where
  files := rfl
  errors := rfl
  lines := ⟨[], rfl, .refl _⟩
  nodup := .nil
  said := fun _ => .rfl
  folded := nofun

section

variable (tally : Tally line files faults told draft)
include tally

theorem contains_said (folded : diagnostic.path.normalize = diagnostic.path) :
    draft.said.contains diagnostic = true ↔ diagnostic ∈ draft.said := by
  rw [contains_iff_exists_mem_beq]
  constructor
  · rintro ⟨other, ho, same⟩
    have place := tally.folded other ((tally.said other).mp ho)
    exact Diagnostic.eq_of_beq_folded folded place same ▸ ho
  · intro hm
    refine ⟨diagnostic, hm, ?_⟩
    show diagnostic.sameAs diagnostic = true
    simp [Diagnostic.sameAs]

/-- What was said already is not said again. -/
theorem again (hm : diagnostic ∈ draft.said) :
    Tally line files faults (told ++ [diagnostic]) draft where
  files := tally.files
  errors := tally.errors
  lines := tally.lines
  nodup := tally.nodup
  said := by
    intro other
    rw [tally.said, mem_append, mem_singleton]
    refine ⟨.inl, fun ho => ho.elim id ?_⟩
    rintro rfl
    exact (tally.said other).mp hm
  folded := by
    have known := tally.folded diagnostic ((tally.said diagnostic).mp hm)
    exact forall_mem_append.mpr ⟨tally.folded, forall_mem_singleton.mpr known⟩

/-- What is new is said, in a line of its own. -/
theorem say (hm : diagnostic ∉ draft.said) (folded : diagnostic.path.normalize = diagnostic.path)
    (shown : line diagnostic = some text) :
    Tally line files faults (told ++ [diagnostic]) ⟨draft.said ++ [diagnostic],
      { draft.report with
        errors := draft.report.errors + 1, output := draft.report.output ++ text }⟩ where
  files := tally.files
  errors := by
    have counted := tally.errors
    simp only [length_append, length_singleton]
    omega
  lines := by
    obtain ⟨lines, output, perm⟩ := tally.lines
    refine ⟨lines ++ [text], ?_, ?_⟩
    · rw [String.join_append, ← output]
      simp
    · rw [map_append, map_append, map_singleton, map_singleton, shown, append_assoc]
      exact (perm.append_right _).trans (by
        rw [append_assoc]
        exact (perm_append_comm).append_left _)
  nodup := by
    refine nodup_append.mpr ⟨tally.nodup, nodup_singleton _, ?_⟩
    rintro other ho _ hs rfl
    exact hm (mem_singleton.mp hs ▸ ho)
  said := by
    intro other
    rw [mem_append, mem_append, tally.said]
  folded := forall_mem_append.mpr ⟨tally.folded, forall_mem_singleton.mpr folded⟩

/-- A file that cannot be read is told and counted as an error. -/
theorem fault (fault : ReadFault) :
    Tally line files (faults ++ [fault]) told { draft with report := { draft.report with
      errors := draft.report.errors + 1, output := draft.report.output ++ faultLine fault } } where
  files := tally.files
  errors := by
    have counted := tally.errors
    simp only [length_append, length_singleton]
    omega
  lines := by
    obtain ⟨lines, output, perm⟩ := tally.lines
    refine ⟨lines ++ [faultLine fault], ?_, ?_⟩
    · rw [String.join_append, ← output]
      simp
    · rw [map_append, map_append, ← append_assoc]
      exact perm.append_right _
  nodup := tally.nodup
  said := tally.said
  folded := tally.folded

/-- A file that can be read is counted. -/
theorem file : Tally line (files + 1) faults told
      { draft with report := { draft.report with files := draft.report.files + 1 } } :=
  ⟨congrArg (· + 1) tally.files, tally.errors, tally.lines, tally.nodup, tally.said, tally.folded⟩

end

end Tally

/-- A report goes on from where earlier work on it, which has not failed, ends. -/
theorem run_report_bind {first : ExceptT Diagnostic Work α} {next : α → ExceptT Diagnostic Work β}
    (hf : first.run.run before = (.ok answer, after)) :
    (first >>= next).run.run before = (next answer).run.run after := by
  rw [ExceptT.run_bind, StateT.run_bind, hf]
  rfl

theorem run_report_lift {first : Work α} {next : α → ExceptT Diagnostic Work β}
    (hf : first.run before = (answer, after)) :
    ((liftM first : ExceptT Diagnostic Work α) >>= next).run.run before =
      (next answer).run.run after := by
  refine run_report_bind ?_
  show (Except.ok <$> first : Work (Except Diagnostic α)).run before = _
  rw [StateT.run_map, hf]
  rfl

section Loop

/-- A steady workspace in which straight paths lead to the files that they lead to at first. -/
structure Agrees (origin : Workspace) (disk : Disk) (workspace : Workspace) : Prop extends
    Steady workspace disk where
  fileAt : ∀ path, disk.Straight path → workspace.fileAt disk path = origin.fileAt disk path

variable (orderly : disk.Orderly) (tidy : origin.Tidy) {files : Nat} {faults : List ReadFault}
  {told : List Diagnostic} {draft : ReportDraft}
include orderly tidy

omit tidy in
theorem Agrees.loads {after : Workspace} (agrees : origin.Agrees disk workspace)
    (loads : Loads disk workspace after) : origin.Agrees disk after where
  toSteady := agrees.toSteady.loads orderly loads
  fileAt := fun path straight => (loads.fileAt path straight).trans (agrees.fileAt path straight)

omit tidy in
/-- Saying a diagnostic that can be shown does not fail. -/
theorem run_say (agrees : origin.Agrees disk workspace) {diagnostic : Diagnostic}
    (tally : Tally (origin.lineAt disk) files faults told draft)
    (folded : diagnostic.path.normalize = diagnostic.path)
    (shown : ∃ line, origin.lineAt disk diagnostic = some line) :
    ∃ said after, (say disk .short draft diagnostic).run.run workspace = (.ok said, after) ∧
      origin.Agrees disk after ∧
      Tally (origin.lineAt disk) files faults (told ++ [diagnostic]) said := by
  obtain ⟨line, hl⟩ := shown
  unfold say
  by_cases hm : diagnostic ∈ draft.said
  · rw [if_pos ((tally.contains_said folded).mpr hm)]
    exact ⟨draft, workspace, rfl, agrees, tally.again hm⟩
  · rw [if_neg (mt (tally.contains_said folded).mp hm)]
    obtain ⟨after, ht, loads⟩ := agrees.run_textAt orderly diagnostic.path
    rw [run_report_lift ht, agrees.fileAt _ (orderly.straight folded)]
    rw [show diagnostic.render? .short _ = some line from short?_of_lineAt hl]
    exact ⟨_, after, rfl, agrees.loads orderly loads, tally.say hm folded hl⟩

section

variable (agrees : origin.Agrees disk workspace)
  (tally : Tally (origin.lineAt disk) files faults told draft)
include agrees tally

omit tidy in
/-- Diagnostics that can be shown are said one after another. -/
theorem run_says {diagnostics : List Diagnostic}
    (shown : ∀ diagnostic ∈ diagnostics, diagnostic.path.normalize = diagnostic.path ∧
      ∃ line, origin.lineAt disk diagnostic = some line) : ∃ said after,
      (diagnostics.foldlM (say disk .short) draft).run.run workspace = (.ok said, after) ∧
      origin.Agrees disk after ∧
      Tally (origin.lineAt disk) files faults (told ++ diagnostics) said := by
  induction diagnostics generalizing workspace told draft with
  | nil => exact ⟨draft, workspace, rfl, agrees, by simpa using tally⟩
  | cons diagnostic rest ih =>
    obtain ⟨⟨folded, line⟩, others⟩ := forall_mem_cons.mp shown
    obtain ⟨said, middle, hs, agreed, counted⟩ := run_say orderly agrees tally folded line
    obtain ⟨whole, after, hw, last, all⟩ := ih agreed counted others
    refine ⟨whole, after, ?_, last, by simpa using all⟩
    rw [foldlM_cons, run_report_bind hs]
    exact hw

/-- A file adds to a report what a check of it answers. -/
theorem run_reportFile [Collector] (straight : disk.Straight path) :
    ∃ said after, (reportFile disk .short draft path).run.run workspace = (.ok said, after) ∧
      origin.Agrees disk after ∧
      Tally (origin.lineAt disk) (files + [origin.answerAt disk path].countP Except.isOk)
        (faults ++ faultsIn [origin.answerAt disk path])
        (told ++ toldIn [origin.answerAt disk path]) said := by
  obtain ⟨answer, opened, ho, loads, file, listed⟩ := agrees.run_openFile orderly path
  have agreed := agrees.loads orderly loads
  rw [agrees.fileAt path straight] at file
  unfold reportFile answerAt
  dsimp only
  rw [run_report_lift ho, ← file]
  cases answer with
  | error fault => exact ⟨_, opened, rfl, agreed, (append_nil told).symm ▸ tally.fault fault⟩
  | ok id =>
    obtain ⟨own, hid⟩ := listed id rfl
    obtain ⟨checked, hc, steady, same⟩ := agreed.run_check orderly hid
    have tellings := tellings_congr orderly agreed.fileAt tidy (opened.fileOf id)
    rw [tellings] at hc
    have shown : ∀ diagnostic ∈ origin.tellings disk (opened.fileOf id),
        diagnostic.path.normalize = diagnostic.path ∧
          ∃ line, origin.lineAt disk diagnostic = some line :=
      fun diagnostic hd => tidy.shown_of_mem_tellings orderly file.symm hd
    have later : origin.Agrees disk checked :=
      ⟨steady, fun path straight => (same path straight).trans (agreed.fileAt path straight)⟩
    obtain ⟨said, after, hs, last, all⟩ := run_says orderly later tally.file shown
    refine ⟨said, after, ?_, last,
      by simpa [faultsIn, toldIn, Except.map, Except.isOk, Except.toBool] using all⟩
    dsimp only
    rw [run_report_lift hc]
    exact hs

/-- Files add to a report, one after another, what a check of each of them answers. -/
theorem run_reportFile_each [Collector] (straight : ∀ path ∈ paths, disk.Straight path) : ∃ said after,
      (paths.foldlM (reportFile disk .short) draft).run.run workspace = (.ok said, after) ∧
      origin.Agrees disk after ∧
      Tally (origin.lineAt disk) (files + (paths.map (origin.answerAt disk)).countP Except.isOk)
        (faults ++ faultsIn (paths.map (origin.answerAt disk)))
        (told ++ toldIn (paths.map (origin.answerAt disk))) said := by
  induction paths generalizing workspace files faults told draft with
  | nil => exact ⟨draft, workspace, rfl, agrees, by simpa [faultsIn, toldIn] using tally⟩
  | cons path rest ih =>
    obtain ⟨own, others⟩ := forall_mem_cons.mp straight
    obtain ⟨said, middle, hs, agreed, counted⟩ := run_reportFile orderly tidy agrees tally own
    obtain ⟨whole, after, hw, last, all⟩ := ih agreed counted others
    refine ⟨whole, after, ?_, last, ?_⟩
    · rw [foldlM_cons, run_report_bind hs]
      exact hw
    · simp only [faultsIn, toldIn, Nat.add_assoc, append_assoc, ← countP_append,
        ← filterMap_append, ← flatMap_append] at all
      exact all

end

end Loop

/-- The line that a report tells a diagnostic by. -/
def reportLine? (workspace : Workspace) (disk : Disk) (diagnostic : Diagnostic) : Option String :=
  diagnostic.short? ((textAt disk diagnostic.path).run workspace).1

theorem Tidy.reportLine?_eq (tidy : workspace.Tidy) (orderly : disk.Orderly)
    (hl : workspace.lineAt disk diagnostic = some line) :
    workspace.reportLine? disk diagnostic = some line := by
  obtain ⟨after, ht, -⟩ := tidy.run_textAt orderly diagnostic.path
  unfold reportLine?
  rw [ht]
  exact short?_of_lineAt hl

/-- A check of the file at a path, before anything else is done, answers with everything that
there is to tell. -/
theorem Steady.run_checkFile [Collector] (steady : workspace.Steady disk) (orderly : disk.Orderly)
    (path : FilePath) : ((checkFile disk path).run workspace).1 = workspace.answerAt disk path := by
  obtain ⟨answer, opened, ho, loads, file, listed⟩ := steady.run_openFile orderly path
  unfold checkFile atFile answerAt
  rw [Work.run_bind ho, ← file]
  cases answer with
  | error fault => rfl
  | ok id =>
    obtain ⟨own, hid⟩ := listed id rfl
    obtain ⟨checked, hc, -, -⟩ := (steady.loads orderly loads).run_check orderly hid
    dsimp only
    rw [Work.run_bind hc, tellings_congr orderly loads.fileAt steady.toTidy]
    rfl

/-- A report as it has to be, given the line of each diagnostic and what a check of each file
answers: the files that can be read are counted, every diagnostic is told once, and the errors
are the diagnostics and the files that cannot be read. -/
structure Tells (line : Diagnostic → Option String)
    (answers : List (Except ReadFault (List Diagnostic))) (report : Report) (lines : List String) :
    Prop where
  files : report.files = answers.countP Except.isOk
  output : report.output = String.join lines
  errors : ∃ said : List Diagnostic, said.Nodup ∧
    (∀ diagnostic, diagnostic ∈ said ↔ ∃ told, .ok told ∈ answers ∧ diagnostic ∈ told) ∧
    report.errors = said.length + (faultsIn answers).length ∧
    (lines.map some).Perm
      (said.map line ++ (faultsIn answers).map fun fault => some (faultLine fault))

theorem mem_toldIn :
    diagnostic ∈ toldIn answers ↔ ∃ told, .ok told ∈ answers ∧ diagnostic ∈ told := by
  unfold toldIn
  rw [mem_flatMap]
  constructor
  · rintro ⟨answer, ha, hd⟩
    cases answer with
    | error fault => cases hd
    | ok told => exact ⟨told, ha, hd⟩
  · rintro ⟨told, ha, hd⟩
    exact ⟨.ok told, ha, hd⟩

/-- A report on straight paths is made without fail, and it is as it has to be. -/
theorem Steady.run_reportFiles [Collector] (steady : workspace.Steady disk) (orderly : disk.Orderly)
    (straight : ∀ path ∈ paths, disk.Straight path) : ∃ report lines after,
      (reportFiles disk .short paths).run.run workspace = (.ok report, after) ∧
      after.Steady disk ∧ Tells (workspace.reportLine? disk)
        (paths.map fun path => ((checkFile disk path).run workspace).1) report lines := by
  have agrees : workspace.Agrees disk workspace := ⟨steady, fun _ _ => rfl⟩
  obtain ⟨draft, after, hr, agreed, tally⟩ :=
    run_reportFile_each orderly steady.toTidy agrees (.empty _) straight
  simp only [Nat.zero_add, nil_append] at tally
  have answers : (paths.map fun path => ((checkFile disk path).run workspace).1) =
      paths.map (workspace.answerAt disk) :=
    map_congr_left fun path _ => steady.run_checkFile orderly path
  obtain ⟨lines, output, perm⟩ := tally.lines
  refine ⟨draft.report, lines, after, ?_, agreed.toSteady, ?_⟩
  · unfold reportFiles
    rw [run_report_bind hr]
    rfl
  · rw [answers]
    refine ⟨tally.files, output, draft.said, tally.nodup, ?_, tally.errors, ?_⟩
    · exact fun diagnostic => (tally.said diagnostic).trans mem_toldIn
    · have same : draft.said.map (workspace.reportLine? disk) =
          draft.said.map (workspace.lineAt disk) := by
        refine map_congr_left fun diagnostic hd => ?_
        -- the line of each diagnostic that was said is among the lines of the report
        have written : workspace.lineAt disk diagnostic ∈ lines.map some :=
          perm.mem_iff.mpr (mem_append_left _ (mem_map_of_mem hd))
        obtain ⟨line, -, hl⟩ := mem_map.mp written
        exact (steady.reportLine?_eq orderly hl.symm).trans hl
      rw [same]
      exact perm

/-- Reports on the same answers in another order count the same, and have the same lines in
another order. -/
theorem Tells.perm (tells : Tells line answers report lines)
    (again : Tells line reordered other others) (perm : reordered.Perm answers) :
    other.files = report.files ∧ other.errors = report.errors ∧ others.Perm lines := by
  obtain ⟨said, nodup, mem, errors, written⟩ := tells.errors
  obtain ⟨saidAgain, nodupAgain, memAgain, errorsAgain, writtenAgain⟩ := again.errors
  have same : saidAgain.Perm said := by
    refine (perm_ext_iff_of_nodup nodupAgain nodup).mpr fun diagnostic => ?_
    rw [mem, memAgain]
    simp only [perm.mem_iff]
  have faults : (faultsIn reordered).Perm (faultsIn answers) := perm.filterMap _
  refine ⟨?_, ?_, ?_⟩
  · rw [again.files, tells.files]
    exact perm.countP_eq _
  · rw [errorsAgain, errors, same.length_eq, faults.length_eq]
  · have all := writtenAgain.trans (((same.map line).append (faults.map _)).trans written.symm)
    simpa using all.filterMap id

/-- The order in which files are given makes a difference only to the order of the lines of a
short report, as long as every path leads to the file that its folded form names. A report is
made without fail. It counts the files that can be read, tells each diagnostic once, and its
errors are the diagnostics and the files that cannot be read. -/
theorem reportFiles_in_any_order [Collector] (orderly : disk.Orderly) (steady : workspace.Steady disk)
    {paths reordered : List FilePath} (straight : ∀ path ∈ paths, disk.Straight path)
    (perm : reordered.Perm paths) :
    ∃ report lines after other others final,
      (reportFiles disk .short paths).run.run workspace = (.ok report, after) ∧
      (reportFiles disk .short reordered).run.run workspace = (.ok other, final) ∧
      after.Steady disk ∧ final.Steady disk ∧
      Tells (workspace.reportLine? disk)
        (paths.map fun path => ((checkFile disk path).run workspace).1) report lines ∧
      other.files = report.files ∧ other.errors = report.errors ∧
      other.output = String.join others ∧ others.Perm lines := by
  obtain ⟨report, lines, after, hr, steadyAfter, tells⟩ := steady.run_reportFiles orderly straight
  obtain ⟨other, others, final, ho, steadyFinal, again⟩ := steady.run_reportFiles orderly
    fun path hm => straight path (perm.mem_iff.mp hm)
  exact ⟨report, lines, after, other, others, final, hr, ho, steadyAfter, steadyFinal, tells,
    (tells.perm again (perm.map _)).1, (tells.perm again (perm.map _)).2.1, again.output,
    (tells.perm again (perm.map _)).2.2⟩

/-- A workspace that was only filled is steady. -/
theorem steady_holding (disk : Disk) (texts : List (FilePath × String)) :
    (holding texts).Steady disk := by
  have holds := holds_holding texts
  have untouched := untouched_holding texts
  refine ⟨⟨holds.distinctTable, holds.seated, ?_, ?_, ?_⟩, ?_⟩
  · intro row hr
    obtain ⟨hi, hp⟩ := holds.of_mem_table hr
    rw [← hp, FilePath.normalize_normalize]
  · exact fun id => congrArg Reading.script (untouched.reading_eq id)
  · intro id
    unfold Source.diagnostics
    rw [untouched.reading_eq]
    rfl
  · rw [untouched.checks]
    exact nofun

end Workspace

/-- A disk with the given files, each of which is found under the path it is listed with and under
no other. -/
def Disk.listing (files : List (FilePath × String)) : Disk where
  locate := fun path =>
    if files.any fun file => decide (file.1 = path) then .ok path else .error .missing
  files := files.map fun file => (file.1, .ok file.2)

/-- A disk with files that are listed once, under folded paths, is in order. -/
theorem Disk.orderly_listing {files : List (FilePath × String)}
    (folded : ∀ file ∈ files, file.1.normalize = file.1)
    (once : files.Pairwise fun first second => (first.1 == second.1) = false) :
    (listing files).Orderly := by
  have located : ∀ {path located}, (listing files).locate path = .ok located →
      (files.any fun file => decide (file.1 = located)) = true ∧ path = located := by
    intro path located hl
    unfold listing at hl
    dsimp only at hl
    split at hl
    · next listed =>
      cases hl
      exact ⟨listed, rfl⟩
    · cases hl
  refine ⟨?_, ?_, ?_, ?_⟩
  · intro path place hl
    obtain ⟨file, hm, same⟩ := any_eq_true.mp (located hl).1
    exact of_decide_eq_true same ▸ folded file hm
  · intro path place hl
    obtain ⟨-, rfl⟩ := located hl
    exact hl
  · exact forall_mem_map.mpr folded
  · exact pairwise_map.mpr once

namespace Workspace

/-- A file that breaks a rule and imports a file that is no script. -/
def sharedFault : Disk :=
  .listing [(⟨"/a.bgl"⟩, "import './b' as b\nconst c: string = 1"), (⟨"/b.bgl"⟩, "const")]

theorem sharedFault_in_any_order :
    ∃ report lines after other others final,
      (reportFiles sharedFault .short [⟨"/a.bgl"⟩, ⟨"/c.bgl"⟩, ⟨"/b.bgl"⟩, ⟨"/a.bgl"⟩]).run.run
        (holding []) = (.ok report, after) ∧
      (reportFiles sharedFault .short [⟨"/b.bgl"⟩, ⟨"/a.bgl"⟩, ⟨"/a.bgl"⟩, ⟨"/c.bgl"⟩]).run.run
        (holding []) = (.ok other, final) ∧
      (report.files, report.errors) = (3, 3) ∧ (other.files, other.errors) = (3, 3) ∧
      report.output = String.join lines ∧ other.output = String.join others ∧
      others.Perm lines := by
  have counted : ((reportFiles sharedFault .short
      [⟨"/a.bgl"⟩, ⟨"/c.bgl"⟩, ⟨"/b.bgl"⟩, ⟨"/a.bgl"⟩]).run.run (holding [])).1.toOption.map
        (fun report => (report.files, report.errors)) = some (3, 3) := by decide +kernel
  have orderly : sharedFault.Orderly := Disk.orderly_listing (by decide +kernel) (by decide +kernel)
  have straight : ∀ path ∈ [⟨"/a.bgl"⟩, ⟨"/c.bgl"⟩, ⟨"/b.bgl"⟩, ⟨"/a.bgl"⟩],
      sharedFault.Straight path := by
    have folded : ∀ path ∈ [(⟨"/a.bgl"⟩ : FilePath), ⟨"/c.bgl"⟩, ⟨"/b.bgl"⟩, ⟨"/a.bgl"⟩],
        path.normalize = path := by decide +kernel
    exact fun path hm => orderly.straight (folded path hm)
  have reordered : [(⟨"/b.bgl"⟩ : FilePath), ⟨"/a.bgl"⟩, ⟨"/a.bgl"⟩, ⟨"/c.bgl"⟩].Perm
      [⟨"/a.bgl"⟩, ⟨"/c.bgl"⟩, ⟨"/b.bgl"⟩, ⟨"/a.bgl"⟩] := by decide +kernel
  obtain ⟨report, lines, after, other, others, final, hr, ho, -, -, tells, files, errors, output,
    perm⟩ := reportFiles_in_any_order orderly (steady_holding sharedFault []) straight reordered
  rw [hr] at counted
  have totals : (report.files, report.errors) = (3, 3) := Option.some.inj counted
  refine ⟨report, lines, after, other, others, final, hr, ho, totals, ?_, tells.output, output, perm⟩
  rw [files, errors]
  exact totals

/-- A path with a detour over nothing is not found on disk, but once the file that its folded form
names was loaded, it leads to that file. So it matters which of the two paths comes first. -/
theorem report_depends_on_order :
    let disk := Disk.listing [(⟨"/a.bgl"⟩, "const x: string = 1")]
    let totals := fun paths : List FilePath =>
      ((reportFiles disk .short paths).run.run (holding [])).1.toOption.map fun report =>
        (report.files, report.errors)
    totals [⟨"/a.bgl"⟩, ⟨"/nosuch/../a.bgl"⟩] = some (2, 1) ∧
      totals [⟨"/nosuch/../a.bgl"⟩, ⟨"/a.bgl"⟩] = some (1, 2) := by
  decide +kernel

end Workspace

end ScriptCheck
