import Mathlib.Data.List.Forall2
import ScriptCheck.Proofs.Sessions
import ScriptCheck.Workspace.Volume

/-!
# Answers of sessions and fresh answers

Whatever was put and asked before, a session answers with the tree, the type and the broken
rules that a workspace with the same texts gives when it is asked for the first time. It tells
what is wrong with malformed texts as that workspace does when a file is checked for the first
time, and when a script that the last check used has been read as another one since then. If texts
were put and no such script has changed, it is up to the memory which faults are told.
-/

namespace ScriptCheck

open List

namespace Workspace

/-- Asks about the file at a path. -/
def atFile {α : Type} (disk : Disk) (path : FilePath) (ask : SourceId → Work α) :
    Work (Except ReadFault α) := do
  match ← openFile disk path with
  | .error fault => return .error fault
  | .ok id => return .ok (← ask id)

/-- The diagnostics of the file at a path. -/
def checkFile [Collector] (disk : Disk) (path : FilePath) : Work (Except ReadFault (List Diagnostic)) :=
  atFile disk path (check disk)

/-- The type of a node of the file at a path. -/
def typeInFile [Collector] (disk : Disk) (path : FilePath) (nodeId : NodeId) :
    Work (Except ReadFault Ty) :=
  atFile disk path fun id => typeOf disk id nodeId

/-- The script that the file at a path is read as. -/
def scriptOfFile (disk : Disk) (path : FilePath) : Work (Except ReadFault Script) :=
  atFile disk path fun id => do return (← refresh id).script

variable {workspace : Workspace} {before after : Workspace} {disk : Disk} {path : FilePath}
  {id : SourceId} {texts : List (FilePath × String)}

/-- A question about a file is asked of the source that the file is opened as. -/
theorem run_atFile (covers : workspace.Covers disk) (ask : SourceId → Work α) :
    (atFile disk path ask).run workspace =
      match workspace.opening disk path with
      | .error fault => (.error fault, workspace)
      | .ok id => (.ok ((ask id).run workspace).1, ((ask id).run workspace).2) := by
  unfold atFile
  rw [Work.run_bind (run_openFile covers path).1]
  cases workspace.opening disk path with
  | error fault => rfl
  | ok id => rfl

/-- A file is opened as a source of the table. -/
theorem mem_of_opening (covers : workspace.Covers disk)
    (ho : workspace.opening disk path = .ok id) : ∃ own, (own, id) ∈ workspace.table := by
  have hl := (run_openFile covers path).2
  rw [ho] at hl
  obtain ⟨row, hr, rfl⟩ := mem_of_lead? hl.symm
  exact ⟨row.1, hr⟩

/-- Reading sources again changes no text. -/
theorem Holds.rereads (holds : before.Holds texts) (rereads : Rereads ids before after) :
    after.Holds texts where
  distinct := holds.distinct
  table := rereads.table.trans holds.table
  size := rereads.size.trans holds.size
  source := by
    intro index hi
    rcases rereads.source_cases index with hs | hs <;> (rw [hs]; exact holds.source index hi)

/-- Workspaces with the same texts read each source as the same script. -/
theorem Holds.same (first : before.Holds texts) (second : after.Holds texts) :
    after.table = before.table ∧ ∀ id, (after.source id).path = (before.source id).path ∧
      (after.source id).text = (before.source id).text := by
  refine ⟨second.table.trans first.table.symm, fun id => ?_⟩
  by_cases hi : id < texts.length
  · obtain ⟨hp, ht⟩ := first.source id hi
    rw [hp, ht]
    exact second.source id hi
  · unfold Workspace.source
    have hn := Nat.le_of_not_lt hi
    rw [Array.getElem?_eq_none (second.size ▸ hn), Array.getElem?_eq_none (first.size ▸ hn)]
    exact ⟨rfl, rfl⟩

/-- What the rules find is not about malformed texts. -/
theorem phase_of_brokenRules {scripts : SourceId → Script}
    (hd : diagnostic ∈ (workspace.outcome disk brokenRules id scripts).1) :
    diagnostic.phase = .checking := by
  obtain ⟨problem, -, rfl⟩ := mem_map.mp hd
  have hk : problem.fault.kind ≠ .malformed := by
    cases problem.fault <;> simp [Fault.kind]
  unfold Diagnostic.phase Diagnostic.ofProblem
  rw [if_neg hk]

/-- The sources used for a question about the file at a path. -/
def usedAt {α : Type} (workspace : Workspace) (disk : Disk) (question : Script → Inquiry α)
    (path : FilePath) : List SourceId :=
  match workspace.opening disk path with
  | .ok id => (workspace.outcome disk question id workspace.scripts).2
  | .error _ => []

/-- What is stored in a memory under one key changes nothing under the others. -/
theorem lookup_stored [BEq κ] [LawfulBEq κ] (memory : List (κ × β)) (value : β)
    (apart : other ≠ key) :
    ((key, value) :: memory.filter (·.1 != key)).lookup other = memory.lookup other := by
  rw [lookup_cons, beq_false_of_ne apart]
  induction memory with
  | nil => rfl
  | cons row rest ih =>
    rw [filter_cons]
    by_cases same : row.1 = key
    · rw [if_neg (by simp [same]), lookup_cons, same, beq_false_of_ne apart]
      exact ih
    · rw [if_pos (by simp [same]), lookup_cons, lookup_cons]
      cases other == row.1 with
      | true => rfl
      | false => exact ih

end Workspace

/-- What can be done in a session. -/
inductive Act where
  /-- Sets the text of a file. -/
  | put (path : FilePath) (text : String)
  /-- Opens a file. -/
  | input (path : FilePath)
  /-- Asks for the diagnostics of a file. -/
  | check (path : FilePath)
  /-- Asks for the type of a node. -/
  | typeOf (path : FilePath) (nodeId : NodeId)
  /-- Asks for the script of a file. -/
  | tree (path : FilePath)

namespace Act

open Workspace

/-- What is done to the workspace. -/
def run [Collector] (disk : Disk) : Act → Work Unit
  | put path text => do let _ ← Workspace.put path text
  | input path => do let _ ← openFile disk path
  | check path => do let _ ← checkFile disk path
  | typeOf path nodeId => do let _ ← typeInFile disk path nodeId
  | tree path => do let _ ← scriptOfFile disk path

/-- The workspace afterwards. -/
def after [Collector] (disk : Disk) (workspace : Workspace) (act : Act) : Workspace :=
  ((act.run disk).run workspace).2

/-- The texts afterwards. -/
def texts (texts : List (FilePath × String)) : Act → List (FilePath × String)
  | put path text => putText texts path text
  | _ => texts

/-- The sources that are read for it. -/
def reads (disk : Disk) (workspace : Workspace) : Act → List SourceId
  | check path => workspace.usedAt disk brokenRules path
  | typeOf path nodeId => workspace.usedAt disk (nodeType nodeId) path
  | tree path => (workspace.opening disk path).toOption.toList
  | _ => []

variable [Collector] {disk : Disk} {workspace : Workspace}

/-- A text that is put for a known file replaces the text of its source. -/
theorem after_put {id : SourceId} (known : workspace.find? path.normalize = some id) :
    (put path text).after disk workspace = workspace.replaced id text := by
  show ((Workspace.put path text).run workspace).2 = _
  rw [run_put, known]

/-- A question reads sources and remembers its answer. Of the checks that are remembered, only that
of the file that is checked is another one afterwards. -/
theorem asked (act : Act) (valid : workspace.Valid disk)
    (question : ∀ path text, act ≠ .put path text) : ∃ middle checks types,
      act.after disk workspace = { middle with checks := checks, types := types } ∧
      Rereads (act.reads disk workspace) workspace middle ∧
      { middle with checks := checks, types := types }.Valid disk ∧
      ∀ id, (∀ path, act = .check path → workspace.opening disk path ≠ .ok id) →
        checks.lookup id = workspace.checks.lookup id := by
  cases act with
  | put path text => exact absurd rfl (question path text)
  | input path =>
    exact ⟨workspace, _, _, congrArg Prod.snd (run_openFile valid.covers path).1, .refl _, valid,
      fun _ _ => rfl⟩
  | check path =>
    have ran : (Act.check path).after disk workspace =
        ((checkFile disk path).run workspace).2 := rfl
    rw [ran, checkFile, run_atFile valid.covers, reads, usedAt]
    cases ho : workspace.opening disk path with
    | error fault => exact ⟨workspace, _, _, rfl, .refl _, valid, fun _ _ => rfl⟩
    | ok id =>
      obtain ⟨own, hid⟩ := mem_of_opening valid.covers ho
      obtain ⟨remembered, middle, hr, found, -⟩ := run_check valid hid
      have checked := valid.check hid
      dsimp only
      rw [hr] at checked ⊢
      refine ⟨middle, _, middle.types, rfl, found.outcome ▸ found.rereads, checked, ?_⟩
      intro other away
      rw [lookup_stored, found.rereads.checks]
      exact fun same => away path rfl (same ▸ ho)
  | typeOf path nodeId =>
    have ran : (Act.typeOf path nodeId).after disk workspace =
        ((typeInFile disk path nodeId).run workspace).2 := rfl
    rw [ran, typeInFile, run_atFile valid.covers, reads, usedAt]
    cases ho : workspace.opening disk path with
    | error fault => exact ⟨workspace, _, _, rfl, .refl _, valid, fun _ _ => rfl⟩
    | ok id =>
      obtain ⟨own, hid⟩ := mem_of_opening valid.covers ho
      obtain ⟨remembered, middle, hr, found⟩ := run_typeOf valid hid nodeId
      have typed : ((Workspace.typeOf disk id nodeId).run workspace).2.Valid disk := valid.typeOf hid
      dsimp only
      rw [hr] at typed ⊢
      exact ⟨middle, middle.checks, _, rfl, found.outcome ▸ found.rereads, typed,
        fun _ _ => congrArg _ found.rereads.checks⟩
  | tree path =>
    have ran : (Act.tree path).after disk workspace =
        ((scriptOfFile disk path).run workspace).2 := rfl
    rw [ran, scriptOfFile, run_atFile valid.covers, reads]
    cases ho : workspace.opening disk path with
    | error fault => exact ⟨workspace, _, _, rfl, .refl _, valid, fun _ _ => rfl⟩
    | ok id =>
      obtain ⟨own, hid⟩ := mem_of_opening valid.covers ho
      have read := Rereads.single (valid.seated _ hid).1
      exact ⟨workspace.reread id, _, _, rfl, read, valid.rereads read, fun _ _ => rfl⟩

/-- Nothing that is done makes a workspace invalid or changes its table, as long as only
texts of known files are put. -/
theorem kept (act : Act) (valid : workspace.Valid disk) (holds : workspace.Holds held)
    (known : ∀ path text, act = .put path text →
      (workspace.find? path.normalize).isSome = true ∧ Plain text) :
    (act.after disk workspace).Valid disk ∧ (act.after disk workspace).Holds (act.texts held) ∧
      (act.after disk workspace).table = workspace.table := by
  by_cases put : ∃ path text, act = .put path text
  · obtain ⟨path, text, rfl⟩ := put
    obtain ⟨hf, plain⟩ := known path text rfl
    obtain ⟨id, hid⟩ := Option.isSome_iff_exists.mp hf
    refine ⟨?_, holds.put path text, ?_⟩
    · exact after_put hid ▸ valid.replaced id plain
    · rw [after_put hid]
      rfl
  · obtain ⟨middle, checks, types, hr, rereads, valid', -⟩ :=
      asked act valid fun path text same => put ⟨path, text, same⟩
    have reads := holds.rereads rereads
    have texts : act.texts held = held := by
      cases act with
      | put path text => exact absurd ⟨path, text, rfl⟩ put
      | _ => rfl
    rw [hr, texts]
    exact ⟨valid', ⟨reads.distinct, reads.table, reads.size, reads.source⟩, rereads.table⟩

end Act

/-- A session: files are put, and then texts of these files are replaced and questions are
asked in any order. No file of the disk is left out, and the literal type `-0` is nowhere
written. -/
structure Session (disk : Disk) where
  /-- The files put first. A file may be put again. -/
  files : List (FilePath × String)
  /-- What is done then. -/
  acts : List Act
  /-- Every file that can be read is put. -/
  covers : (Workspace.holding files).Covers disk
  /-- No file is put for the first time after that. -/
  known : ∀ path text, .put path text ∈ acts →
    ((Workspace.holding files).find? path.normalize).isSome = true
  /-- The first texts do not hold the literal type `-0`. -/
  plainFiles : ∀ row ∈ files, Plain row.2
  /-- The texts put later do not hold the literal type `-0`. -/
  plainActs : ∀ path text, .put path text ∈ acts → Plain text

namespace Session

variable {disk : Disk}

/-- The workspace at the end of a session. -/
def workspace [Collector] (session : Session disk) : Workspace :=
  session.acts.foldl (Act.after disk) (.holding session.files)

/-- The texts at the end of a session. -/
def texts (session : Session disk) : List (FilePath × String) :=
  session.acts.foldl Act.texts (session.files.foldl (fun held row => putText held row.1 row.2) [])

/-- A workspace with the texts at the end of the session, of which nothing was asked. -/
def fresh (session : Session disk) : Workspace := .holding session.texts

/-- The session up to a point. -/
def cut (session : Session disk) (count : Nat) : Session disk where
  files := session.files
  acts := session.acts.take count
  covers := session.covers
  known path text hm := session.known path text (mem_of_mem_take hm)
  plainFiles := session.plainFiles
  plainActs path text hm := session.plainActs path text (mem_of_mem_take hm)

section Answers

variable [Collector]

section

variable (session : Session disk)
include session

/-- At the end of a session its workspace is valid and holds the texts of the session, with the
table it had at first. -/
theorem valid_workspace : session.workspace.Valid disk ∧ session.workspace.Holds session.texts ∧
    session.workspace.table = (Workspace.holding session.files).table := by
  refine foldl_rel (r := fun (workspace : Workspace) held => workspace.Valid disk ∧
    workspace.Holds held ∧ workspace.table = (Workspace.holding session.files).table)
    ⟨Workspace.valid_holding session.plainFiles session.covers,
      Workspace.holds_holding session.files, rfl⟩ ?_
  rintro act ha workspace held ⟨valid, holds, table⟩
  obtain ⟨validNext, holdsNext, same⟩ := act.kept valid holds fun path text hp => by
    rw [Workspace.find?_congr table]
    exact ⟨session.known path text (hp ▸ ha), session.plainActs path text (hp ▸ ha)⟩
  exact ⟨validNext, holdsNext, same.trans table⟩

/-- The fresh workspace is valid, holds the texts of the session and was not asked
anything. -/
theorem valid_fresh :
    session.fresh.Valid disk ∧ session.fresh.Holds session.texts ∧ session.fresh.Unasked := by
  obtain ⟨valid, holds, -⟩ := session.valid_workspace
  have plain : ∀ row ∈ session.texts, Plain row.2 := by
    intro row hr
    obtain ⟨index, hi, rfl⟩ := getElem_of_mem hr
    have hs := (valid.sound index).plain
    unfold Source.scripted Script.hasNegativeZero at hs
    rw [(holds.source index hi).2, Reading.entries_first _ ⟨""⟩] at hs
    exact hs
  have fresh : session.fresh.Holds session.texts := by
    have filled := Workspace.holds_holding session.texts
    rwa [DistinctTexts.foldl_putText (by simpa using holds.distinct), nil_append] at filled
  refine ⟨Workspace.valid_holding plain ?_, fresh, Workspace.unasked_holding plain⟩
  exact valid.covers.congr (holds.same fresh).1

/-- The session and the fresh workspace read every source as the same script with the same
fault. -/
theorem fresh_reads : session.fresh.table = session.workspace.table ∧
      session.fresh.scripts = session.workspace.scripts ∧
      ∀ id, (session.fresh.source id).diagnostics = (session.workspace.source id).diagnostics := by
  obtain ⟨valid, holds, -⟩ := session.valid_workspace
  obtain ⟨validFresh, holdsFresh, -⟩ := session.valid_fresh
  obtain ⟨table, same⟩ := holds.same holdsFresh
  refine ⟨table, ?_, ?_⟩
  · funext id
    obtain ⟨hp, ht⟩ := same id
    unfold Workspace.scripts
    rw [(valid.sound id).reading_eq.1, (validFresh.sound id).reading_eq.1]
    unfold Source.scripted
    rw [hp, ht]
  · intro id
    obtain ⟨hp, ht⟩ := same id
    unfold Source.diagnostics
    rw [(valid.sound id).reading_eq.2, (validFresh.sound id).reading_eq.2, hp, ht]

/-- A question has the same outcome in the session and in the fresh workspace. -/
theorem fresh_outcome (question : Script → Inquiry α) (id : SourceId) :
    session.fresh.outcome disk question id session.fresh.scripts =
      session.workspace.outcome disk question id session.workspace.scripts := by
  obtain ⟨table, scripts, -⟩ := session.fresh_reads
  rw [Workspace.outcome_table table, scripts]

/-- Files are opened alike in the session and in the fresh workspace. -/
theorem fresh_opening (path : FilePath) :
    session.fresh.opening disk path = session.workspace.opening disk path :=
  Workspace.opening_congr session.valid_workspace.1.covers session.fresh_reads.1

end

section

variable {own path : FilePath} {id : SourceId}

open Workspace

/-- A source is read as the script that it is read as in the fresh workspace. -/
theorem refresh_fresh (session : Session disk) (id : SourceId) :
    ((refresh id).run session.workspace).1.script = ((refresh id).run session.fresh).1.script := by
  obtain ⟨-, scripts, -⟩ := session.fresh_reads
  rw [run_refresh, run_refresh]
  exact (congrFun scripts id).symm

/-- A node has the type that it has in the fresh workspace. -/
theorem typeOf_fresh (session : Session disk) (hid : (own, id) ∈ session.workspace.table)
    (nodeId : NodeId) :
    ((typeOf disk id nodeId).run session.workspace).1 =
      ((typeOf disk id nodeId).run session.fresh).1 := by
  obtain ⟨table, -, -⟩ := session.fresh_reads
  obtain ⟨remembered, _, hr, found⟩ := run_typeOf session.valid_workspace.1 hid nodeId
  obtain ⟨renewed, _, hn, foundFresh⟩ := run_typeOf session.valid_fresh.1 (table ▸ hid) nodeId
  have same := foundFresh.outcome.symm.trans
    ((session.fresh_outcome (nodeType nodeId) id).trans found.outcome)
  rw [hr, hn]
  exact (congrArg Prod.fst same).symm

/-- A check answers with the broken rules that the fresh workspace answers with, where the faults
of all texts used are told. -/
theorem check_fresh (session : Session disk) (hid : (own, id) ∈ session.workspace.table) :
    ∃ remembered middle, ((check disk id).run session.workspace).1 =
        remembered.answer ++ remembered.told ∧
      Found disk brokenRules id session.workspace middle remembered ∧
      Recalled session.workspace (session.workspace.checks.lookup id) remembered ∧
      ((check disk id).run session.fresh).1 =
        remembered.answer ++ session.workspace.faultsOf (remembered.used.map Prod.fst) := by
  obtain ⟨validFresh, -, unasked⟩ := session.valid_fresh
  obtain ⟨table, -, faults⟩ := session.fresh_reads
  obtain ⟨remembered, middle, hr, found, recalled⟩ := run_check session.valid_workspace.1 hid
  obtain ⟨renewed, _, hn, foundFresh, recalledFresh⟩ := run_check validFresh (table ▸ hid)
  have same := foundFresh.outcome.symm.trans
    ((session.fresh_outcome brokenRules id).trans found.outcome)
  obtain ⟨answer, used⟩ := Prod.mk.inj same
  have told : renewed.told = session.workspace.faultsOf (remembered.used.map Prod.fst) := by
    rw [unasked.checks] at recalledFresh
    cases recalledFresh with
    | renewed _ told =>
      rw [told, used, faultsOf, faultsOf]
      simp only [faults]
  refine ⟨remembered, middle, congrArg Prod.fst hr, found, recalled, ?_⟩
  rw [hn, answer, told]

end

section History

open Workspace

/-- The text of a source is put at some point. -/
def PutsAt (session : Session disk) (index : Nat) (id : SourceId) : Prop :=
  ∃ path text, session.acts[index]? = some (.put path text) ∧
    session.workspace.find? path.normalize = some id

/-- A source is read for what is asked at some point. -/
def ReadsAt (session : Session disk) (index : Nat) (id : SourceId) : Prop :=
  ∃ act, session.acts[index]? = some act ∧ id ∈ act.reads disk (session.cut index).workspace

/-- A source is checked at some point. -/
def ChecksAt (session : Session disk) (index : Nat) (id : SourceId) : Prop :=
  ∃ path, session.acts[index]? = some (.check path) ∧ session.workspace.opening disk path = .ok id

/-- Before some point the text of a source was put, and the source was not read since. -/
def StaleAt (session : Session disk) (index : Nat) (id : SourceId) : Prop :=
  ∃ put < index, session.PutsAt put id ∧
    ∀ later, put < later → later < index → ¬ session.ReadsAt later id

/-- A source was put and is read as another script than before. -/
def DiffersAt (session : Session disk) (first index : Nat) (id : SourceId) : Prop :=
  session.StaleAt index id ∧ ((session.cut index).workspace.scripts id).sameAs
    ((session.cut first).workspace.scripts id) = false

/-- A source was read as another script since some point, or it is another one at the end. -/
def ChangedSince (session : Session disk) (first : Nat) (id : SourceId) : Prop :=
  ∃ index, first < index ∧ (session.ReadsAt index id ∨ index = session.acts.length) ∧
    session.DiffersAt first index id

variable (session : Session disk) {index first : Nat} {act : Act} {id : SourceId}

theorem workspace_length : (session.cut session.acts.length).workspace = session.workspace :=
  congrArg (List.foldl (Act.after disk) _) take_length

theorem workspace_succ (ha : session.acts[index]? = some act) :
    (session.cut (index + 1)).workspace = act.after disk (session.cut index).workspace := by
  have acts : session.acts.take (index + 1) = session.acts.take index ++ [act] := by
    rw [take_add_one, ha, Option.toList_some]
  exact (congrArg (List.foldl (Act.after disk) _) acts).trans foldl_append

theorem table_cut (index : Nat) : (session.cut index).workspace.table = session.workspace.table :=
  (session.cut index).valid_workspace.2.2.trans session.valid_workspace.2.2.symm

theorem opening_cut (index : Nat) (path : FilePath) :
    (session.cut index).workspace.opening disk path = session.workspace.opening disk path :=
  opening_congr session.valid_workspace.1.covers (session.table_cut index)

/-- What is done at some point either puts the text of a known source, or it reads sources and
remembers an answer. -/
theorem act_cases (ha : session.acts[index]? = some act) :
    (∃ path text id, act = .put path text ∧ session.workspace.find? path.normalize = some id ∧
      (session.cut (index + 1)).workspace = (session.cut index).workspace.replaced id text) ∨
    (∀ path text, act ≠ .put path text) ∧ ∃ middle checks types,
      (session.cut (index + 1)).workspace = { middle with checks := checks, types := types } ∧
      Rereads (act.reads disk (session.cut index).workspace) (session.cut index).workspace middle ∧
      ∀ id, ¬ session.ChecksAt index id →
        checks.lookup id = (session.cut index).workspace.checks.lookup id := by
  rw [session.workspace_succ ha]
  by_cases put : ∃ path text, act = .put path text
  · obtain ⟨path, text, rfl⟩ := put
    have first := session.known path text (mem_of_getElem? ha)
    rw [← find?_congr session.valid_workspace.2.2, Option.isSome_iff_exists] at first
    obtain ⟨id, hf⟩ := first
    refine .inl ⟨path, text, id, rfl, hf, Act.after_put ?_⟩
    rw [find?_congr (session.table_cut index), hf]
  · have question : ∀ path text, act ≠ .put path text := fun path text same => put ⟨path, text, same⟩
    obtain ⟨middle, checks, types, hr, rereads, -, others⟩ :=
      act.asked (session.cut index).valid_workspace.1 question
    refine .inr ⟨question, middle, checks, types, hr, rereads, fun id unchecked => others id ?_⟩
    rintro path rfl opened
    exact unchecked ⟨path, ha, session.opening_cut index path ▸ opened⟩

/-- At each point a source gets another text, is read, or stays as it is. -/
theorem source_succ (ha : session.acts[index]? = some act) (id : SourceId) :
    (session.PutsAt index id ∧ ¬ session.ReadsAt index id ∧ ∃ text,
      (session.cut (index + 1)).workspace.source id =
        ((session.cut index).workspace.source id).replace text) ∨
    (¬ session.PutsAt index id ∧ session.ReadsAt index id ∧
      (session.cut (index + 1)).workspace.source id =
        ((session.cut index).workspace.source id).refreshed) ∨
    ¬ session.PutsAt index id ∧ ¬ session.ReadsAt index id ∧
      (session.cut (index + 1)).workspace.source id = (session.cut index).workspace.source id := by
  have reads : session.ReadsAt index id ↔ id ∈ act.reads disk (session.cut index).workspace := by
    unfold ReadsAt
    simp [ha]
  rcases session.act_cases ha with ⟨path, text, changed, rfl, hf, hr⟩ |
    ⟨question, middle, checks, types, hr, rereads, -⟩
  · have puts : session.PutsAt index id ↔ changed = id := by
      unfold PutsAt
      simp [ha, hf]
    have unread : ¬ session.ReadsAt index id := by
      rw [reads]
      exact not_mem_nil
    rw [puts, hr, source_replaced]
    by_cases same : changed = id
    · obtain ⟨row, hm, -, rfl⟩ := mem_of_find? (hf ▸ same ▸ rfl :
        session.workspace.find? path.normalize = some id)
      have seated := ((session.cut index).valid_workspace.1.seated row
        (session.table_cut index ▸ hm)).1
      exact .inl ⟨same, unread, text, if_pos ⟨same, seated⟩⟩
    · exact .inr (.inr ⟨same, unread, if_neg fun both => same both.1⟩)
  · have quiet : ¬ session.PutsAt index id := by
      rintro ⟨path, text, hp, -⟩
      exact question path text (Option.some.inj (ha.symm.trans hp))
    have source : (session.cut (index + 1)).workspace.source id = middle.source id := by
      rw [hr]
      rfl
    rw [source, rereads.sources, reads]
    by_cases read : id ∈ act.reads disk (session.cut index).workspace
    · exact .inr (.inl ⟨quiet, read, if_pos read⟩)
    · exact .inr (.inr ⟨quiet, read, if_neg read⟩)

theorem staleAt_succ : session.StaleAt (index + 1) id ↔
    session.PutsAt index id ∨ session.StaleAt index id ∧ ¬ session.ReadsAt index id := by
  constructor
  · rintro ⟨put, before, puts, unread⟩
    rcases Nat.lt_succ_iff_lt_or_eq.mp before with earlier | rfl
    · refine .inr ⟨⟨put, earlier, puts, fun later after hl => unread later after (by omega)⟩, ?_⟩
      exact unread index earlier (Nat.lt_succ_self _)
    · exact .inl puts
  · rintro (puts | ⟨⟨put, before, puts, unread⟩, quiet⟩)
    · exact ⟨index, Nat.lt_succ_self _, puts, fun later after hl => by omega⟩
    · refine ⟨put, by omega, puts, fun later after hl => ?_⟩
      rcases Nat.lt_succ_iff_lt_or_eq.mp hl with earlier | rfl
      · exact unread later after earlier
      · exact quiet

/-- Since a source was read, its text is outdated exactly if it was put and not read again, and
the version stays exactly as long as it was not read as another script. -/
theorem reading_since (reads : session.ReadsAt first id) (later : first < index)
    (known : index ≤ session.acts.length) :
    (((session.cut index).workspace.source id).outdated = true ↔ session.StaleAt index id) ∧
    ∃ last, ((session.cut index).workspace.source id).reading? = some last ∧
      Source.Follows ((session.cut first).workspace.source id).reading last
        (∀ middle, first < middle → middle < index → session.ReadsAt middle id →
          ¬ session.DiffersAt first middle id) := by
  -- the session goes on from the point after the source was read
  induction later with
  | refl =>
    have ⟨act, ha, _⟩ := reads
    rcases session.source_succ ha id with ⟨-, unread, -⟩ | ⟨quiet, -, source⟩ | ⟨-, unread, -⟩
    · exact absurd reads unread
    · rw [source, staleAt_succ]
      refine ⟨by simp [Source.refreshed, quiet, reads], _, rfl, Nat.le_refl _, ?_, fun _ => rfl⟩
      exact ⟨fun _ middle after before => by omega, fun _ => rfl⟩
    · exact absurd reads unread
  | @step index later ih =>
    have after : first < index := later
    obtain ⟨outdated, last, hl, follows⟩ := ih (by omega)
    have more (unread : ¬ session.ReadsAt index id) :
        (∀ middle, first < middle → middle < index + 1 → session.ReadsAt middle id →
          ¬ session.DiffersAt first middle id) ↔
        ∀ middle, first < middle → middle < index → session.ReadsAt middle id →
          ¬ session.DiffersAt first middle id := by
      refine ⟨fun all middle after before => all middle after (by omega), ?_⟩
      intro all middle after before read
      rcases Nat.lt_succ_iff_lt_or_eq.mp before with earlier | rfl
      · exact all middle after earlier read
      · exact absurd read unread
    have ha := getElem?_eq_getElem (show index < session.acts.length by omega)
    rcases session.source_succ ha id with ⟨puts, unread, text, source⟩ |
      ⟨quiet, read, source⟩ | ⟨quiet, unread, source⟩
    · rw [source, staleAt_succ, more unread]
      exact ⟨by simp [Source.replace, puts], last, hl, follows⟩
    · rw [source, staleAt_succ]
      refine ⟨by simp [Source.refreshed, quiet, read], _, rfl, ?_⟩
      have next := follows.reading ((session.cut index).valid_workspace.1.sound id) hl
      refine ⟨next.le, next.version.trans ?_, next.script⟩
      rw [outdated]
      constructor
      · rintro ⟨all, same⟩ middle after before read
        rcases Nat.lt_succ_iff_lt_or_eq.mp before with earlier | rfl
        · exact all middle after earlier read
        · exact same
      · intro all
        exact ⟨fun middle after before => all middle after (by omega),
          all index after (Nat.lt_succ_self _) read⟩
    · rw [source, staleAt_succ, more unread]
      exact ⟨by simp [quiet, unread, outdated], last, hl, follows⟩

/-- A source that was read has its version at the end exactly if it has not changed since. -/
theorem version_eq_iff (reads : session.ReadsAt first id) :
    (session.workspace.source id).reading.version =
        ((session.cut first).workspace.source id).reading.version ↔
      ¬ session.ChangedSince first id := by
  have ⟨_, ha, _⟩ := reads
  have before : first < session.acts.length := (List.getElem?_eq_some_iff.mp ha).1
  obtain ⟨outdated, last, hl, follows⟩ := session.reading_since reads before (Nat.le_refl _)
  have next := follows.reading ((session.cut _).valid_workspace.1.sound id) hl
  have version := next.version
  rw [outdated, session.workspace_length] at version
  rw [version]
  constructor
  · rintro ⟨all, same⟩ ⟨index, after, read | rfl, differs⟩
    · have ⟨_, hi, _⟩ := read
      exact all index after (List.getElem?_eq_some_iff.mp hi).1 read differs
    · refine same (session.workspace_length ▸ differs)
  · intro unchanged
    refine ⟨fun index after _ read differs => unchanged ⟨index, after, .inl read, differs⟩, ?_⟩
    intro differs
    refine unchanged ⟨_, before, .inr rfl, ?_⟩
    unfold DiffersAt
    rwa [session.workspace_length]

/-- What is remembered of a source stays until it is checked again, and edits are counted. -/
theorem memory_since (later : first ≤ index) (known : index ≤ session.acts.length) :
    ((∀ middle, first ≤ middle → ¬ session.ChecksAt middle id) →
      (session.cut index).workspace.checks.lookup id =
        (session.cut first).workspace.checks.lookup id) ∧
    (session.cut first).workspace.edits ≤ (session.cut index).workspace.edits ∧
    ((session.cut first).workspace.edits = (session.cut index).workspace.edits ↔
      ∀ middle path text, first ≤ middle → middle < index →
        session.acts[middle]? ≠ some (.put path text)) := by
  induction later with
  | refl => exact ⟨fun _ => rfl, Nat.le_refl _, by simp; omega⟩
  | @step index later ih =>
    obtain ⟨lookup, le, count⟩ := ih (by omega)
    have ha := getElem?_eq_getElem (show index < session.acts.length by omega)
    rcases session.act_cases ha with ⟨path, text, changed, put, -, hr⟩ |
      ⟨question, middle, checks, types, hr, rereads, others⟩
    · rw [put] at ha
      rw [hr]
      refine ⟨lookup, Nat.le_succ_of_le le, ⟨fun same => ?_, fun none => ?_⟩⟩
      · exact absurd same (Nat.ne_of_lt (Nat.lt_succ_of_le le))
      · exact absurd ha (none index path text later (Nat.lt_succ_self _))
    · rw [hr]
      refine ⟨fun unchecked => ?_, rereads.edits ▸ le, ?_⟩
      · exact (others id (unchecked index later)).trans (lookup unchecked)
      · show _ = middle.edits ↔ _
        rw [rereads.edits, count]
        constructor
        · intro none middle path text after before put
          rcases Nat.lt_succ_iff_lt_or_eq.mp before with earlier | rfl
          · exact none middle path text after earlier put
          · exact question path text (Option.some.inj (ha.symm.trans put))
        · exact fun none middle path text after before =>
            none middle path text after (Nat.lt_succ_of_lt before)

/-- What a check answers, at the end of a session. -/
def answer (session : Session disk) (path : FilePath) : Except ReadFault (List Diagnostic) :=
  ((checkFile disk path).run session.workspace).1

/-- What a check answers in the fresh workspace. -/
def freshAnswer (session : Session disk) (path : FilePath) : Except ReadFault (List Diagnostic) :=
  ((checkFile disk path).run session.fresh).1

/-- The sources used for a check of a source at some point. -/
def usedAt (session : Session disk) (index : Nat) (id : SourceId) : List SourceId :=
  ((session.cut index).workspace.outcome disk brokenRules id (session.cut index).workspace.scripts).2

/-- The last check of a source is remembered with its answer and the sources used. It was confirmed
at the last edit exactly if nothing was put since then, and it is still good exactly if no source
used has changed. -/
theorem remembered_since (checks : session.ChecksAt first id)
    (last : ∀ index, first < index → ¬ session.ChecksAt index id) : ∃ remembered,
    session.workspace.checks.lookup id = some remembered ∧
      ((check disk id).run (session.cut first).workspace).1 = remembered.answer ++ remembered.told ∧
      remembered.used.map Prod.fst = session.usedAt first id ∧
      (remembered.confirmedAt = session.workspace.edits ↔ ∀ index path text, first < index →
        session.acts[index]? ≠ some (.put path text)) ∧
      (session.workspace.isCurrent remembered.used = true ↔
        ∀ used ∈ session.usedAt first id, ¬ session.ChangedSince first used) ∧
      ∀ used ∈ session.usedAt first id, (session.workspace.source used).outdated = true ↔
        session.StaleAt session.acts.length used := by
  obtain ⟨path, ha, ho⟩ := checks
  have before : first < session.acts.length := (List.getElem?_eq_some_iff.mp ha).1
  obtain ⟨valid, -, -⟩ := (session.cut first).valid_workspace
  rw [← session.opening_cut first] at ho
  obtain ⟨own, hid⟩ := mem_of_opening valid.covers ho
  obtain ⟨remembered, middle, hr, found, -⟩ := run_check valid hid
  have after : (session.cut (first + 1)).workspace =
      { middle with checks := (id, remembered) :: middle.checks.filter (·.1 != id) } := by
    rw [session.workspace_succ ha]
    show ((checkFile disk path).run _).2 = _
    rw [checkFile, run_atFile valid.covers, ho]
    exact congrArg Prod.snd hr
  have used : remembered.used.map Prod.fst = session.usedAt first id :=
    (congrArg Prod.snd found.outcome).symm
  have reads : ∀ other ∈ session.usedAt first id, session.ReadsAt first other := by
    intro other listed
    refine ⟨_, ha, ?_⟩
    rw [Act.reads, Workspace.usedAt, ho]
    exact listed
  obtain ⟨kept, -, edits⟩ := @memory_since _ _ session _ _ id before (Nat.le_refl _)
  rw [session.workspace_length, after] at kept edits
  refine ⟨remembered, (kept last).trans (by simp), by rw [hr], used, ?_, ?_, fun other listed => ?_⟩
  · rw [found.confirmedAt, ← found.rereads.edits, edits]
    refine ⟨fun none index path text after put => ?_, fun none index path text after _ =>
      none index path text after⟩
    exact none index path text after (List.getElem?_eq_some_iff.mp put).1 put
  · rw [isCurrent, all_eq_true, ← used, forall_mem_map]
    refine forall₂_congr fun row hrow => ?_
    have listed : row.1 ∈ remembered.used.map Prod.fst := mem_map_of_mem hrow
    rw [beq_iff_eq, ← found.versions row hrow]
    exact session.version_eq_iff (reads _ (used ▸ listed))
  · have outdated := (session.reading_since (reads other listed) before (Nat.le_refl _)).1
    rwa [session.workspace_length] at outdated

/-- Whatever was done in a session, a file has the script, the types and the broken rules that it
has in a fresh workspace with the same texts. All of its diagnostics are as in the fresh workspace
if it was not checked before, or if a source that the last check used was put and read as another
script since then. If nothing was put since the last check, they are what they were. If texts were
put and no source used has changed, the memory collects the faults that are told from those of the
sources used, given which of them were put and not read since. -/
theorem answers_of_fresh (path : FilePath) :
    ((scriptOfFile disk path).run session.workspace).1 =
        ((scriptOfFile disk path).run session.fresh).1 ∧
    (∀ nodeId, ((typeInFile disk path nodeId).run session.workspace).1 =
        ((typeInFile disk path nodeId).run session.fresh).1) ∧
    (session.answer path).map (List.filter (·.phase == .checking)) =
        (session.freshAnswer path).map (List.filter (·.phase == .checking)) ∧
    ((∀ id, session.workspace.opening disk path = .ok id → ∀ index, ¬ session.ChecksAt index id) →
      session.answer path = session.freshAnswer path) ∧
    ∀ id first, session.workspace.opening disk path = .ok id → session.ChecksAt first id →
      (∀ index, first < index → ¬ session.ChecksAt index id) →
      ((∀ index path text, first < index → session.acts[index]? ≠ some (.put path text)) →
        session.answer path = (session.cut first).answer path) ∧
      ((∃ used ∈ session.usedAt first id, session.ChangedSince first used) →
        session.answer path = session.freshAnswer path) ∧
      ((∃ index path text, first < index ∧ session.acts[index]? = some (.put path text)) →
        (∀ used ∈ session.usedAt first id, ¬ session.ChangedSince first used) →
        ∃ rules rows, Forall₂ (fun used row =>
            (row.1 = true ↔ session.StaleAt session.acts.length used) ∧
              row.2 = (session.workspace.source used).diagnostics) (session.usedAt first id) rows ∧
          session.freshAnswer path = .ok (rules ++ rows.flatMap Prod.snd) ∧
          session.answer path = .ok (rules ++ Collector.collect rows)) := by
  have covers := session.valid_workspace.1.covers
  have coversFresh := session.valid_fresh.1.covers
  unfold answer freshAnswer scriptOfFile typeInFile checkFile
  simp only [run_atFile covers, run_atFile coversFresh, session.fresh_opening path,
    run_atFile (session.cut _).valid_workspace.1.covers, session.opening_cut]
  cases ho : session.workspace.opening disk path with
  | error fault => exact ⟨rfl, fun _ => rfl, rfl, fun _ => rfl, fun _ _ opened => by cases opened⟩
  | ok id =>
    dsimp only
    obtain ⟨own, hid⟩ := mem_of_opening covers ho
    obtain ⟨remembered, middle, told, found, recalled, fresh⟩ := session.check_fresh hid
    have answer : (session.workspace.outcome disk brokenRules id session.workspace.scripts).1 =
        remembered.answer := congrArg Prod.fst found.outcome
    have rules : ∀ diagnostic ∈ remembered.answer, diagnostic.phase = .checking :=
      answer ▸ fun _ => phase_of_brokenRules
    have only (faults : List Diagnostic) (all : ∀ diagnostic ∈ faults, diagnostic.phase = .parsing) :
        (remembered.answer ++ faults).filter (·.phase == .checking) = remembered.answer := by
      rw [filter_append, filter_eq_self.mpr (by simpa using rules),
        filter_eq_nil_iff.mpr fun diagnostic hd => by simp [all diagnostic hd],
        append_nil]
    refine ⟨congrArg Except.ok (session.refresh_fresh id),
      fun nodeId => congrArg Except.ok (session.typeOf_fresh hid nodeId), ?_, fun never => ?_, ?_⟩
    · simp only [Except.map, told, fresh, only _ found.phases, only _ fun _ => phase_of_faultsOf]
    · have unknown : session.workspace.checks.lookup id = none := by
        have start := (session.memory_since (Nat.zero_le _) (Nat.le_refl _)).1
          fun index _ => never id rfl index
        rw [session.workspace_length] at start
        rw [start]
        show (holding session.files).checks.lookup id = none
        rw [(unasked_holding session.plainFiles).checks]
        rfl
      rw [unknown] at recalled
      cases recalled with
      | renewed _ all => rw [told, fresh, all]
    · intro _ first opened checks last
      cases opened
      obtain ⟨old, lookup, answer, used, noEdit, current, stale⟩ :=
        session.remembered_since checks last
      rw [lookup] at recalled
      refine ⟨fun none => ?_, fun changed => ?_, fun put unchanged => ?_⟩
      · cases recalled with
        | kept _ => rw [told, answer]
        | confirmed edited _ => exact absurd (noEdit.mpr none) edited
        | renewed edited _ => exact absurd (noEdit.mpr none) (edited old rfl).1
      · have outdated : session.workspace.isCurrent old.used ≠ true := by
          intro good
          obtain ⟨id, hu, changed⟩ := changed
          exact current.mp good id hu changed
        cases recalled with
        | kept _ =>
          refine absurd (all_eq_true.mpr fun row hrow => ?_) outdated
          exact beq_iff_eq.mpr (found.versions row hrow)
        | confirmed _ good => exact absurd good outdated
        | renewed _ all => rw [told, fresh, all]
      · obtain ⟨index, path, text, after, put⟩ := put
        cases recalled with
        | kept same => exact absurd put (noEdit.mp same index path text after)
        | renewed edited _ => cases (current.mpr unchanged).symm.trans (edited old rfl).2
        | confirmed _ _ =>
          refine ⟨old.answer, _, ?_, ?_, congrArg Except.ok told⟩
          · rw [← used, forall₂_map_left_iff, forall₂_map_right_iff, forall₂_same]
            intro row hrow
            have listed : row.1 ∈ old.used.map Prod.fst := mem_map_of_mem hrow
            exact ⟨stale row.1 (used ▸ listed), rfl⟩
          · rw [fresh, faultsOf, flatMap_map, flatMap_map]

end History

end Answers

section

open Workspace

/-- Two files, of which the first is checked before the text of the second is replaced. -/
def checkThenEdit (main side : FilePath × String) (text : String)
    (known : ((holding [main, side]).find? side.1.normalize).isSome = true)
    (plain : ∀ written ∈ [main.2, side.2, text], Plain written) : Session .bare where
  files := [main, side]
  acts := [.check main.1, .put side.1 text]
  covers := fun file hf => nomatch hf
  known := by
    intro path written hm
    simp only [mem_cons, Act.put.injEq, reduceCtorEq, not_mem_nil, or_false, false_or] at hm
    obtain ⟨rfl, rfl⟩ := hm
    exact known
  plainFiles := by
    simp only [forall_mem_cons] at plain ⊢
    exact ⟨plain.1, plain.2.1, by simp⟩
  plainActs := by
    intro path written hm
    simp only [mem_cons, Act.put.injEq, reduceCtorEq, not_mem_nil, or_false, false_or] at hm
    obtain ⟨rfl, rfl⟩ := hm
    exact plain written (by simp)

/-- A session in which an imported file becomes malformed. -/
def importBroken : Session .bare :=
  checkThenEdit (⟨"/a.bgl"⟩, "import './b' as b\nconst c = b.x") (⟨"/b.bgl"⟩, "export const x = 1")
    "const" (by decide +kernel) (by unfold Plain; decide +kernel)

/-- A malformed import that is another script than the one the last check used is told as in a
fresh workspace. -/
theorem importBroken_answers :
    ((checkFile .bare ⟨"/a.bgl"⟩).run importBroken.workspace).1 =
        ((checkFile .bare ⟨"/a.bgl"⟩).run importBroken.fresh).1 ∧
      ((checkFile .bare ⟨"/a.bgl"⟩).run importBroken.fresh).1.toOption.map List.length =
        some 2 := by
  obtain ⟨opened, put, used, differs, count⟩ :
      (importBroken.workspace.opening .bare ⟨"/a.bgl"⟩).toOption = some 0 ∧
      importBroken.workspace.find? (⟨"/b.bgl"⟩ : FilePath).normalize = some 1 ∧
      (importBroken.usedAt 0 0).contains 1 = true ∧
      ((importBroken.cut 2).workspace.scripts 1).sameAs
        ((importBroken.cut 0).workspace.scripts 1) = false ∧
      ((checkFile .bare ⟨"/a.bgl"⟩).run importBroken.fresh).1.toOption.map List.length =
        some 2 := by decide +kernel
  have found : importBroken.workspace.opening .bare ⟨"/a.bgl"⟩ = .ok 0 := by
    cases he : importBroken.workspace.opening .bare ⟨"/a.bgl"⟩ with
    | error fault =>
      rw [he] at opened
      cases opened
    | ok id =>
      rw [he] at opened
      exact congrArg Except.ok (Option.some.inj opened)
  have stale : importBroken.StaleAt 2 1 :=
    ⟨1, by decide, ⟨_, _, rfl, put⟩, fun later after before => by omega⟩
  have last : ∀ index, 0 < index → ¬ importBroken.ChecksAt index 0 := by
    rintro (_ | _ | index) after ⟨path, checks, -⟩
    · exact absurd after (Nat.lt_irrefl 0)
    · cases checks
    · cases checks
  have changed : importBroken.ChangedSince 0 1 := ⟨2, by decide, .inr rfl, stale, differs⟩
  exact ⟨((importBroken.answers_of_fresh ⟨"/a.bgl"⟩).2.2.2.2 0 0 found ⟨_, rfl, found⟩ last).2.1
    ⟨1, contains_iff_mem.mp used, changed⟩, count⟩

/-- A session in which a file that is malformed stays as it is and another one changes. -/
def neighbourEdited : Session .bare :=
  checkThenEdit (⟨"/a.bgl"⟩, "const") (⟨"/b.bgl"⟩, "") " " (by decide +kernel)
    (by unfold Plain; decide +kernel)

/-- The fault of a malformed file is not told any more after another file has changed. -/
theorem neighbourEdited_fault_lost :
    ((checkFile .bare ⟨"/a.bgl"⟩).run neighbourEdited.workspace).1 ≠
      ((checkFile .bare ⟨"/a.bgl"⟩).run neighbourEdited.fresh).1 := by
  obtain ⟨told, freshTold⟩ :
      ((checkFile .bare ⟨"/a.bgl"⟩).run neighbourEdited.workspace).1.toOption.map List.length =
          some 0 ∧
        ((checkFile .bare ⟨"/a.bgl"⟩).run neighbourEdited.fresh).1.toOption.map List.length =
          some 1 := by decide +kernel
  intro same
  rw [same, freshTold] at told
  cases told

end

end Session

end ScriptCheck
