import ScriptCheck.Proofs.Paths
import ScriptCheck.Proofs.Sessions
import Mathlib.Data.List.Basic

/-!
# Files that are loaded when they are needed

A file is taken from the table or, if it is not there, read from disk and put into the table. On a
disk in order this changes nothing about the files that paths lead to, as long as a path leads to
the file that its folded form names.
-/

namespace ScriptCheck

open List

/-- A disk in order: located paths are folded and lead to themselves, and each file is listed
once, under a folded path. -/
structure Disk.Orderly (disk : Disk) : Prop where
  folded : ∀ {path located}, disk.locate path = .ok located → located.normalize = located
  settled : ∀ {path located}, disk.locate path = .ok located → disk.locate located = .ok located
  files : ∀ file ∈ disk.files, file.1.normalize = file.1
  once : disk.files.Pairwise fun first second => (first.1 == second.1) = false

/-- If the folded form of a path names a file that can be read, the path leads to that file. -/
def Disk.Straight (disk : Disk) (path : FilePath) : Prop :=
  ∀ located text, disk.locate located = .ok located → disk.read located = .ok text →
    (path.normalize == located) = true → disk.locate path = .ok located

/-- Folded paths are straight. -/
theorem Disk.Orderly.straight {disk : Disk} (orderly : disk.Orderly)
    (folded : path.normalize = path) : disk.Straight path := by
  intro located text self _ same
  rw [folded] at same
  obtain rfl := FilePath.eq_of_beq_folded folded (orderly.folded self) same
  exact self

/-- The script that a file with a path and a text is read as. -/
def scriptOf (file : FilePath × String) : Script := (Reading.first file.1 file.2).script

/-- What is wrong with the text of a file. -/
def faultsOfFile (file : FilePath × String) : List Diagnostic :=
  ((Reading.first file.1 file.2).fault.map (Diagnostic.ofSyntaxError file.1)).toList

namespace Workspace

variable {workspace before after last : Workspace} {disk : Disk} {path located : FilePath}
  {text : String} {id : SourceId} {remembered : Remembered (List Diagnostic)} {own : FilePath}

/-- The path and the text of a source. -/
def fileOf (workspace : Workspace) (id : SourceId) : FilePath × String :=
  ((workspace.source id).path, (workspace.source id).text)

/-- The file that a path leads to, in the table or on disk. -/
def fileAt (workspace : Workspace) (disk : Disk) (path : FilePath) :
    Except ReadFault (FilePath × String) :=
  match workspace.find? path.normalize with
  | some id => .ok (workspace.fileOf id)
  | none =>
    match disk.locate path with
    | .error fault => .error ⟨path, fault⟩
    | .ok located =>
      match workspace.find? located with
      | some id => .ok (workspace.fileOf id)
      | none =>
        match disk.read located with
        | .error fault => .error ⟨located, fault⟩
        | .ok text => .ok (located, text)

/-- A workspace whose table names each file once, under its folded path, and whose sources are
read as their texts say. -/
structure Tidy (workspace : Workspace) : Prop where
  distinct : workspace.Distinct
  seated : workspace.Seated
  folded : ∀ row ∈ workspace.table, row.1.normalize = row.1
  script : ∀ id, (workspace.source id).reading.script = scriptOf (workspace.fileOf id)
  diagnostics : ∀ id, (workspace.source id).diagnostics = faultsOfFile (workspace.fileOf id)

/-- Nothing has changed from one workspace to the other, except that files were loaded from disk
and sources were read. -/
structure Loads (disk : Disk) (before after : Workspace) : Prop where
  tidy : after.Tidy
  edits : after.edits = before.edits
  checks : after.checks = before.checks
  kept : ∀ row ∈ before.table, row ∈ after.table ∧ after.fileOf row.2 = before.fileOf row.2
  fileAt : ∀ path, disk.Straight path → after.fileAt disk path = before.fileAt disk path

namespace Loads

theorem refl (tidy : workspace.Tidy) : Loads disk workspace workspace where
  tidy := tidy
  edits := rfl
  checks := rfl
  kept := fun _ hr => ⟨hr, rfl⟩
  fileAt := fun _ _ => rfl

theorem trans (first : Loads disk before after) (second : Loads disk after last) :
    Loads disk before last where
  tidy := second.tidy
  edits := second.edits.trans first.edits
  checks := second.checks.trans first.checks
  kept := by
    intro row hr
    obtain ⟨hm, hf⟩ := first.kept row hr
    obtain ⟨hl, hs⟩ := second.kept row hm
    exact ⟨hl, hs.trans hf⟩
  fileAt := fun path straight => (second.fileAt path straight).trans (first.fileAt path straight)

/-- Reading a source loads nothing. -/
theorem reread (tidy : workspace.Tidy) (hid : (own, id) ∈ workspace.table) :
    Loads disk workspace (workspace.reread id) := by
  have reads := Rereads.single (tidy.seated _ hid).1
  have files : ∀ other, (workspace.reread id).fileOf other = workspace.fileOf other := by
    intro other
    unfold fileOf
    rcases reads.source_cases other with hs | hs
    · rw [hs]
    · rw [hs]
      rfl
  refine ⟨⟨tidy.distinct, tidy.seated.rereads reads, tidy.folded, ?_, ?_⟩, rfl, rfl,
    fun row hr => ⟨hr, files row.2⟩, fun path _ => ?_⟩
  · intro other
    rw [reads.reading_eq, files, tidy.script]
  · intro other
    rw [files, reads.diagnostics_eq, tidy.diagnostics]
  · unfold Workspace.fileAt
    simp only [find?_congr reads.table, files]

end Loads

/-- A new file comes after the others in the table. -/
theorem find?_added (workspace : Workspace) (located : FilePath) (text : String) (path : FilePath) :
    (workspace.added located text).find? path =
      (workspace.find? path).or (if located == path then some workspace.sources.size else none) := by
  unfold find? added
  rw [find?_append]
  cases workspace.table.find? fun row => row.1 == path with
  | some row => rfl
  | none =>
    cases hl : located == path with
    | true => simp [hl]
    | false => simp [hl]

theorem Tidy.fileOf_added (tidy : workspace.Tidy) (located : FilePath) (text : String)
    (hr : row ∈ workspace.table) :
    (workspace.added located text).fileOf row.2 = workspace.fileOf row.2 := by
  have known := (tidy.seated row hr).1
  unfold fileOf
  rw [source_added, if_neg (Nat.ne_of_lt known)]

theorem fileOf_added_new (workspace : Workspace) (located : FilePath) (text : String) :
    (workspace.added located text).fileOf workspace.sources.size = (located, text) := by
  unfold fileOf
  rw [source_added, if_pos rfl]
  rfl

/-- A file that is added under a folded path leaves a workspace tidy. -/
theorem Tidy.added (tidy : workspace.Tidy) (folded : located.normalize = located)
    (unknown : workspace.find? located = none) : (workspace.added located text).Tidy := by
  have apart : ∀ row ∈ workspace.table, (row.1 == located) = false := by
    unfold find? at unknown
    rw [Option.map_eq_none_iff, find?_eq_none] at unknown
    exact fun row hr => by simpa using unknown row hr
  refine ⟨?_, ?_, ?_, ?_, ?_⟩
  · refine pairwise_append.mpr ⟨tidy.distinct, pairwise_singleton _ _, ?_⟩
    intro row hr other ho
    cases mem_singleton.mp ho
    exact apart row hr
  · intro row hr
    rcases mem_append.mp hr with hr | hr
    · obtain ⟨known, hp⟩ := tidy.seated row hr
      refine ⟨by simpa [Workspace.added] using Nat.lt_succ_of_lt known, ?_⟩
      rw [source_added, if_neg (Nat.ne_of_lt known), hp]
    · cases mem_singleton.mp hr
      refine ⟨by simp [Workspace.added], ?_⟩
      rw [source_added, if_pos rfl]
      rfl
  · intro row hr
    rcases mem_append.mp hr with hr | hr
    · exact tidy.folded row hr
    · cases mem_singleton.mp hr
      exact folded
  -- the new source is not read yet, and the others are what they were
  all_goals
    intro id
    unfold fileOf
    rw [source_added]
    split
    · rfl
  · exact tidy.script id
  · exact tidy.diagnostics id

/-- Loading a file from disk changes no file that a straight path leads to. -/
theorem Tidy.fileAt_added (tidy : workspace.Tidy) (orderly : disk.Orderly)
    (self : disk.locate located = .ok located) (unknown : workspace.find? located = none)
    (read : disk.read located = .ok text) (straight : disk.Straight path) :
    (workspace.added located text).fileAt disk path = workspace.fileAt disk path := by
  have found : ∀ {wanted id}, workspace.find? wanted = some id →
      (workspace.added located text).fileOf id = workspace.fileOf id := by
    intro wanted id hf
    obtain ⟨row, hr, -, rfl⟩ := mem_of_find? hf
    exact tidy.fileOf_added located text hr
  unfold fileAt
  simp only [find?_added]
  cases hf : workspace.find? path.normalize with
  | some id => exact congrArg Except.ok (found hf)
  | none =>
    cases same : located == path.normalize with
    | true =>
      rw [straight located text self read (BEq.symm same)]
      simp only [Option.none_or, if_true, unknown, read]
      exact congrArg Except.ok (fileOf_added_new workspace located text)
    | false =>
      cases hl : disk.locate path with
      | error fault => rfl
      | ok other =>
        simp only [Option.none_or, Bool.false_eq_true, if_false]
        cases ho : workspace.find? other with
        | some id => exact congrArg Except.ok (found ho)
        | none =>
          cases again : located == other with
          | true =>
            obtain rfl := FilePath.eq_of_beq_folded (orderly.folded self) (orderly.folded hl) again
            simp only [Option.none_or, if_true, read]
            exact congrArg Except.ok (fileOf_added_new workspace located text)
          | false => rfl

/-- Opening a file gives the source of the file that the path leads to, which may be loaded for
it. -/
theorem Tidy.run_openFile (tidy : workspace.Tidy) (orderly : disk.Orderly) (path : FilePath) :
    ∃ answer after, (openFile disk path).run workspace = (answer, after) ∧
      Loads disk workspace after ∧ answer.map after.fileOf = workspace.fileAt disk path ∧
      ∀ id, answer = .ok id → ∃ own, (own, id) ∈ after.table := by
  have listed : ∀ {wanted id}, workspace.find? wanted = some id →
      ∃ own, (own, id) ∈ workspace.table := by
    intro wanted id hf
    obtain ⟨row, hr, -, rfl⟩ := mem_of_find? hf
    exact ⟨row.1, hr⟩
  unfold openFile fileAt
  rw [Work.run_bind (Work.run_get workspace)]
  cases hf : workspace.find? path.normalize with
  | some id => exact ⟨.ok id, workspace, rfl, .refl tidy, rfl, fun _ ho => by cases ho; exact listed hf⟩
  | none =>
    cases hl : disk.locate path with
    | error fault => exact ⟨.error ⟨path, fault⟩, workspace, rfl, .refl tidy, rfl, nofun⟩
    | ok located =>
      cases hn : workspace.find? located with
      | some id =>
        refine ⟨.ok id, workspace, by simp only [hn]; rfl, .refl tidy, by simp only [hn]; rfl, ?_⟩
        intro _ ho
        cases ho
        exact listed hn
      | none =>
        cases hr : disk.read located with
        | error fault =>
          exact ⟨.error ⟨located, fault⟩, workspace, by simp only [hn, hr]; rfl, .refl tidy,
            by simp only [hn, hr]; rfl, nofun⟩
        | ok text =>
          have loads : Loads disk workspace (workspace.added located text) :=
            { tidy := tidy.added (orderly.folded hl) hn
              edits := rfl
              checks := rfl
              kept := fun row hm => ⟨mem_append_left _ hm, tidy.fileOf_added located text hm⟩
              fileAt := fun _ straight =>
                tidy.fileAt_added orderly (orderly.settled hl) hn hr straight }
          refine ⟨.ok workspace.sources.size, workspace.added located text,
            by simp only [hn, hr]; rfl, loads, ?_, ?_⟩
          · simp only [hn, hr]
            exact congrArg Except.ok (fileOf_added_new workspace located text)
          · intro _ ho
            cases ho
            exact ⟨located, mem_append_right _ mem_cons_self⟩

/-- The file that a path leads to has a folded path, and its own path leads to it. -/
theorem Tidy.fileAt_own (tidy : workspace.Tidy) (orderly : disk.Orderly)
    (hf : workspace.fileAt disk path = .ok file) :
    file.1.normalize = file.1 ∧ workspace.fileAt disk file.1 = .ok file := by
  have known : ∀ {wanted id}, workspace.find? wanted = some id →
      (workspace.fileOf id).1.normalize = (workspace.fileOf id).1 ∧
        workspace.fileAt disk (workspace.fileOf id).1 = .ok (workspace.fileOf id) := by
    intro wanted id hf
    obtain ⟨row, hr, -, rfl⟩ := mem_of_find? hf
    have own : (workspace.fileOf row.2).1 = row.1 := (tidy.seated row hr).2
    unfold fileAt
    rw [own, tidy.folded row hr, find?_of_mem tidy.distinct hr BEq.rfl]
    exact ⟨rfl, rfl⟩
  unfold fileAt at hf
  split at hf
  · next found =>
    cases hf
    exact known found
  · split at hf
    · cases hf
    · next located hl =>
      split at hf
      · next found =>
        cases hf
        exact known found
      · next unknown =>
        split at hf
        · cases hf
        · next read =>
          cases hf
          unfold fileAt
          simp only [orderly.folded hl, unknown, orderly.settled hl, read, and_self]

/-- The files on disk that are not in the table are found there as they are read. -/
theorem find?_unopened (orderly : disk.Orderly) (unknown : workspace.find? located = none)
    (folded : located.normalize = located) :
    ((workspace.unopened disk).find? fun script => script.path == located) =
      ((disk.read located).toOption.map fun text => scriptOf (located, text)) := by
  have search : ∀ files : List (FilePath × Except DiskFault String),
      (∀ file ∈ files, file.1.normalize = file.1) →
      files.Pairwise (fun first second => (first.1 == second.1) = false) →
      ((workspace.unopened { disk with files }).find? fun script => script.path == located) =
        (files.find? fun file => file.1 == located).bind fun file =>
          file.2.toOption.map fun text => scriptOf (located, text) := by
    intro files
    induction files with
    | nil => exact fun _ _ => rfl
    | cons file rest ih =>
      intro named apart
      obtain ⟨own, others⟩ := forall_mem_cons.mp named
      obtain ⟨first, later⟩ := pairwise_cons.mp apart
      have rest := ih others later
      rw [unopened] at rest ⊢
      rw [filterMap_cons, find?_cons]
      cases same : file.1 == located with
      | true =>
        obtain rfl := FilePath.eq_of_beq_folded own folded same
        rw [unknown]
        cases content : file.2 with
        | ok text =>
          simp only [find?_cons, Reading.path_first, same, Option.bind_some, content]
          rfl
        | error fault =>
          -- the file is not listed again
          rw [rest, find?_eq_none.mpr fun other ho => ?_]
          · simp only [Option.bind_none, Option.bind_some, content]
            rfl
          · rw [BEq.comm, first other ho]
            exact Bool.false_ne_true
      | false =>
        rw [← rest]
        split
        · rfl
        · next script hs =>
          split at hs
          · cases hs
            rw [find?_cons, Reading.path_first, same]
          · cases hs
  refine (search disk.files orderly.files orderly.once).trans ?_
  unfold Disk.read
  cases disk.files.find? fun file => file.1 == located with
  | none => rfl
  | some file => rfl

/-- How scripts import each other when every file is read as its text says. -/
def loading (workspace : Workspace) (disk : Disk) : Imports := fun importer specifier =>
  (workspace.fileAt disk (importer.path.importing specifier)).toOption.map scriptOf

/-- The program of a tidy workspace has the scripts of the files that paths lead to. -/
theorem Tidy.imports_program (tidy : workspace.Tidy) (orderly : disk.Orderly) :
    (workspace.program disk).imports = workspace.loading disk := by
  have scripts : workspace.program disk =
      workspace.programOf disk fun id => scriptOf (workspace.fileOf id) :=
    congrArg (workspace.programOf disk) (funext tidy.script)
  funext importer specifier
  unfold Program.imports loading
  generalize importer.path.importing specifier = path
  rw [scripts, find_programOf]
  unfold fileAt
  cases workspace.find? path.normalize with
  | some id => rfl
  | none =>
    cases hl : disk.locate path with
    | error fault => rfl
    | ok located =>
      cases hn : workspace.find? located with
      | some id =>
        simp only [hn]
        rfl
      | none =>
        simp only [hn, Option.map_none, Option.none_or,
          find?_unopened orderly hn (orderly.folded hl)]
        cases disk.read located with
        | error fault => rfl
        | ok text => rfl

/-- The files that are used to check a file: the file itself and the others that are loaded. -/
def filesFor (workspace : Workspace) (disk : Disk) (file : FilePath × String) :
    List (FilePath × String) :=
  let sources := ((brokenRules (scriptOf file)).ask (workspace.loading disk)).sources
  file :: (sources.filter fun path => !(path == file.1)).filterMap fun path =>
    (workspace.fileAt disk path).toOption

/-- What there is to tell about a file: the rules that are broken in it, and what is wrong with
the texts that are used to check it. -/
def tellings (workspace : Workspace) (disk : Disk) (file : FilePath × String) : List Diagnostic :=
  (brokenRules (scriptOf file)).answer (workspace.loading disk) ++
    (workspace.filesFor disk file).flatMap faultsOfFile

/-- The paths of loaded scripts are folded. -/
theorem Tidy.folded_of_mem_sources (tidy : workspace.Tidy) (orderly : disk.Orderly)
    {inquiry : Inquiry α} (hm : path ∈ (inquiry.ask (workspace.loading disk)).sources) :
    path.normalize = path := by
  obtain ⟨importer, specifier, target, found, rfl⟩ := inquiry.loaded _ path hm
  obtain ⟨file, hf, rfl⟩ := Option.map_eq_some_iff.mp found
  unfold scriptOf
  rw [Reading.path_first]
  cases ha : workspace.fileAt disk (importer.path.importing specifier) with
  | error fault =>
    rw [ha] at hf
    cases hf
  | ok other =>
    rw [ha] at hf
    cases hf
    exact (tidy.fileAt_own orderly ha).1

section Same

variable (orderly : disk.Orderly)
  (same : ∀ path, disk.Straight path → after.fileAt disk path = before.fileAt disk path)
include orderly same

/-- Where straight paths lead to the same files, scripts import each other in the same way. -/
theorem loading_congr : after.loading disk = before.loading disk := by
  funext importer specifier
  unfold loading
  rw [same _ (orderly.straight (FilePath.normalize_importing _ _))]

/-- Where straight paths lead to the same files, the same files are used to check a file. -/
theorem filesFor_congr (tidy : before.Tidy) (file : FilePath × String) :
    after.filesFor disk file = before.filesFor disk file := by
  unfold filesFor
  rw [loading_congr orderly same]
  refine congrArg (file :: ·) (filterMap_congr fun path hm => ?_)
  rw [same path (orderly.straight (tidy.folded_of_mem_sources orderly (mem_filter.mp hm).1))]

/-- Where straight paths lead to the same files, there is the same to tell about a file. -/
theorem tellings_congr (tidy : before.Tidy) (file : FilePath × String) :
    after.tellings disk file = before.tellings disk file := by
  unfold tellings
  rw [loading_congr orderly same, filesFor_congr orderly same tidy]

end Same

/-- What a remembered check has to be for it to be told in full: it was confirmed since the last
edit, and tells about every malformed text that it was reached from. -/
structure Complete (workspace : Workspace) (disk : Disk) (id : SourceId)
    (remembered : Remembered (List Diagnostic)) : Prop where
  listed : ∃ own, (own, id) ∈ workspace.table
  confirmed : remembered.confirmedAt = workspace.edits
  answer : remembered.answer =
    (brokenRules (scriptOf (workspace.fileOf id))).answer (workspace.loading disk)
  known : ∀ row ∈ remembered.used, ∃ own, (own, row.1) ∈ workspace.table
  used : (remembered.used.map fun row => workspace.fileOf row.1) =
    workspace.filesFor disk (workspace.fileOf id)
  told : remembered.told = (workspace.filesFor disk (workspace.fileOf id)).flatMap faultsOfFile

/-- A check that is complete stays so when files are loaded. -/
theorem Complete.loads (complete : before.Complete disk id remembered) (orderly : disk.Orderly)
    (tidy : before.Tidy) (loads : Loads disk before after) : after.Complete disk id remembered := by
  obtain ⟨own, hid⟩ := complete.listed
  have file : after.fileOf id = before.fileOf id := (loads.kept _ hid).2
  have files := filesFor_congr orderly loads.fileAt tidy (before.fileOf id)
  have kept : ∀ row ∈ remembered.used, (∃ own, (own, row.1) ∈ after.table) ∧
      after.fileOf row.1 = before.fileOf row.1 := by
    intro row hr
    obtain ⟨path, hp⟩ := complete.known row hr
    exact ⟨⟨path, (loads.kept _ hp).1⟩, (loads.kept _ hp).2⟩
  refine ⟨⟨own, (loads.kept _ hid).1⟩, complete.confirmed.trans loads.edits.symm, ?_,
    fun row hr => (kept row hr).1, ?_, ?_⟩
  · rw [file, loading_congr orderly loads.fileAt]
    exact complete.answer
  · rw [file, files, ← complete.used]
    exact map_congr_left fun row hr => (kept row hr).2
  · rw [file, files]
    exact complete.told

/-- A complete check tells what there is to tell. -/
theorem Complete.tellings (complete : workspace.Complete disk id remembered) :
    remembered.answer ++ remembered.told = workspace.tellings disk (workspace.fileOf id) := by
  rw [Workspace.tellings, ← complete.answer, ← complete.told]

/-- The sources of loaded scripts are read one after another, and loaded where they are not in
the table. -/
theorem Tidy.run_uses (tidy : workspace.Tidy) (orderly : disk.Orderly) {paths : List FilePath}
    (folded : ∀ path ∈ paths, path.normalize = path) :
    ∃ used after, (paths.mapM (use disk)).run workspace = (used, after) ∧
      Loads disk workspace after ∧
      (∀ row ∈ used.flatten, ∃ own, (own, row.1) ∈ after.table) ∧
      (used.flatten.map fun row => after.fileOf row.1) =
        paths.filterMap fun path => (workspace.fileAt disk path).toOption := by
  induction paths generalizing workspace with
  | nil => exact ⟨[], workspace, rfl, .refl tidy, by simp, rfl⟩
  | cons path rest ih =>
    obtain ⟨own, others⟩ := forall_mem_cons.mp folded
    have step : ∃ first middle, (use disk path).run workspace = (first, middle) ∧
        Loads disk workspace middle ∧
        (∀ row ∈ first, ∃ own, (own, row.1) ∈ middle.table) ∧
        (first.map fun row => middle.fileOf row.1) =
          (workspace.fileAt disk path).toOption.toList := by
      obtain ⟨answer, opened, ho, loads, file, listed⟩ := tidy.run_openFile orderly path
      have origin : (origin? disk path).run workspace = (answer.toOption, opened) := by
        unfold origin?
        rw [Work.run_bind (Work.run_get workspace)]
        cases hf : workspace.find? path with
        | none =>
          simp only
          rw [Work.run_bind ho]
          rfl
        | some id =>
          unfold openFile at ho
          rw [Work.run_bind (Work.run_get workspace), own, hf] at ho
          cases ho
          rfl
      unfold use
      rw [Work.run_bind origin, ← file]
      cases answer with
      | error fault => exact ⟨[], opened, rfl, loads, by simp, rfl⟩
      | ok id =>
        obtain ⟨name, hid⟩ := listed id rfl
        have reads : Loads disk opened (opened.reread id) := .reread loads.tidy hid
        refine ⟨[(id, (opened.source id).reading)], opened.reread id, ?_, loads.trans reads, ?_, ?_⟩
        · exact Work.run_bind (run_refresh opened id)
        · exact forall_mem_singleton.mpr ⟨name, (reads.kept _ hid).1⟩
        · exact congrArg (· :: []) (reads.kept _ hid).2
    obtain ⟨first, middle, hf, loads, rows, files⟩ := step
    obtain ⟨used, after, hu, more, later, filesLater⟩ := ih loads.tidy others
    refine ⟨first :: used, after, ?_, loads.trans more, ?_, ?_⟩
    · rw [mapM_cons, Work.run_bind hf, Work.run_bind hu]
      rfl
    · refine forall_mem_append.mpr ⟨fun row hr => ?_, later⟩
      obtain ⟨name, hid⟩ := rows row hr
      exact ⟨name, (more.kept _ hid).1⟩
    · have kept : (first.map fun row => after.fileOf row.1) =
          first.map fun row => middle.fileOf row.1 := by
        refine map_congr_left fun row hr => ?_
        obtain ⟨name, hid⟩ := rows row hr
        exact (more.kept _ hid).2
      have same : (rest.filterMap fun path => (middle.fileAt disk path).toOption) =
          rest.filterMap fun path => (workspace.fileAt disk path).toOption := by
        refine filterMap_congr fun path hm => ?_
        rw [loads.fileAt path (orderly.straight (others path hm))]
      rw [flatten_cons, map_append, kept, files, filesLater, same, filterMap_cons]
      cases (workspace.fileAt disk path).toOption with
      | none => rfl
      | some file => rfl

/-- A check that is made anew is complete. -/
theorem Tidy.run_inquire (tidy : workspace.Tidy) (orderly : disk.Orderly)
    (hid : (own, id) ∈ workspace.table) :
    ∃ remembered after, (inquire disk id brokenRules).run workspace = (remembered, after) ∧
      Loads disk workspace after ∧ after.Complete disk id remembered := by
  have first : Loads disk workspace (workspace.reread id) := .reread tidy hid
  have reads := first.trans (.reread first.tidy (first.kept _ hid).1)
  have file : ((workspace.reread id).reread id).fileOf id = workspace.fileOf id :=
    (reads.kept _ hid).2
  have imports : ((workspace.reread id).program disk).imports = workspace.loading disk :=
    (first.tidy.imports_program orderly).trans (loading_congr orderly first.fileAt)
  have script : (workspace.source id).reading.script = scriptOf (workspace.fileOf id) :=
    tidy.script id
  have path : (scriptOf (workspace.fileOf id)).path = (workspace.fileOf id).1 :=
    Reading.path_first _ _
  unfold inquire reached
  rw [Work.run_bind (run_refresh workspace id), Work.run_bind (Work.run_get _), imports,
    Work.run_bind (run_refresh _ id), (Rereads.single (tidy.seated _ hid).1).reading_eq, script,
    path]
  have folded : ∀ path ∈ ((brokenRules (scriptOf (workspace.fileOf id))).ask
      (workspace.loading disk)).sources.filter fun path => !(path == (workspace.fileOf id).1),
      path.normalize = path :=
    fun path hm => tidy.folded_of_mem_sources orderly (mem_filter.mp hm).1
  obtain ⟨used, after, hu, more, rows, files⟩ := reads.tidy.run_uses orderly folded
  rw [Work.run_bind hu, Work.run_bind (Work.run_get after)]
  have loads := reads.trans more
  obtain ⟨listed, same⟩ := loads.kept _ hid
  have filesFor := filesFor_congr orderly loads.fileAt tidy (workspace.fileOf id)
  have usedFiles : (((id, (workspace.source id).reading) :: used.flatten).map fun row =>
      after.fileOf row.1) = after.filesFor disk (after.fileOf id) := by
    rw [same, filesFor, map_cons, files, same]
    refine congrArg (workspace.fileOf id :: ·) (filterMap_congr fun path hm => ?_)
    rw [reads.fileAt path (orderly.straight (folded path hm))]
  refine ⟨_, after, rfl, loads, ⟨own, listed⟩, rfl, ?_, ?_, ?_, ?_⟩
  · rw [same, loading_congr orderly loads.fileAt]
    rfl
  · exact forall_mem_map.mpr (forall_mem_cons.mpr ⟨⟨own, listed⟩, rows⟩)
  · rw [map_map]
    exact usedFiles
  · rw [← usedFiles, flatMap_map]
    simp only [loads.tidy.diagnostics]

/-- A tidy workspace in which every check that is remembered is complete. -/
structure Steady (workspace : Workspace) (disk : Disk) : Prop extends Tidy workspace where
  checks : ∀ entry ∈ workspace.checks, workspace.Complete disk entry.1 entry.2

/-- Loading files leaves a workspace steady. -/
theorem Steady.loads (steady : before.Steady disk) (orderly : disk.Orderly)
    (loads : Loads disk before after) : after.Steady disk where
  toTidy := loads.tidy
  checks := by
    rw [loads.checks]
    exact fun entry he => (steady.checks entry he).loads orderly steady.toTidy loads

/-- Whether a check is complete does not depend on the other checks that are remembered. -/
theorem Complete.remember (complete : workspace.Complete disk id remembered)
    (checks : List (SourceId × Remembered (List Diagnostic))) :
    { workspace with checks := checks }.Complete disk id remembered :=
  ⟨complete.listed, complete.confirmed, complete.answer, complete.known, complete.used,
    complete.told⟩

/-- A check tells everything that there is to tell about a source, and leaves the workspace
steady, with the same files. -/
theorem Steady.run_check [Collector] (steady : workspace.Steady disk) (orderly : disk.Orderly)
    (hid : (own, id) ∈ workspace.table) : ∃ after, (check disk id).run workspace =
        (workspace.tellings disk (workspace.fileOf id), after) ∧ after.Steady disk ∧
      ∀ path, disk.Straight path → after.fileAt disk path = workspace.fileAt disk path := by
  have memory : ∃ remembered middle,
      (fromMemory (workspace.checks.lookup id) (inquire disk id brokenRules)).run workspace =
        (remembered, middle) ∧ Loads disk workspace middle ∧
      middle.Complete disk id remembered := by
    unfold fromMemory
    rw [Work.run_bind (Work.run_get workspace)]
    cases hl : workspace.checks.lookup id with
    | none => exact steady.run_inquire orderly hid
    | some remembered =>
      have complete : workspace.Complete disk id remembered :=
        steady.checks _ (mem_of_lookup hl)
      refine ⟨remembered, workspace, ?_, .refl steady.toTidy, complete⟩
      simp only [complete.confirmed, if_true]
      rfl
  obtain ⟨remembered, middle, hm, loads, complete⟩ := memory
  have later := steady.loads orderly loads
  refine ⟨{ middle with checks := (id, remembered) :: middle.checks.filter (·.1 != id) }, ?_, ?_,
    loads.fileAt⟩
  · unfold check
    rw [Work.run_bind (Work.run_get workspace), Work.run_bind hm]
    have told := complete.tellings
    rw [(loads.kept _ hid).2, tellings_congr orderly loads.fileAt steady.toTidy] at told
    exact congrArg (·, _) told
  · refine ⟨⟨later.distinct, later.seated, later.folded, later.script, later.diagnostics⟩,
      fun entry he => ?_⟩
    rcases mem_cons.mp he with rfl | he
    · exact complete.remember _
    · exact (later.checks entry (mem_filter.mp he).1).remember _

end Workspace

end ScriptCheck
