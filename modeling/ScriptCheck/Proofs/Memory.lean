import ScriptCheck.Proofs.Rereading

/-!
# Answers from memory

An answer that is remembered was right for the scripts that its sources had when they were
last read. As long as each of them still has the version it had then, it is right.
-/

namespace ScriptCheck

open List

namespace Workspace

variable {workspace before after : Workspace} {disk : Disk} {path : FilePath} {id : SourceId}
  {question : Script → Inquiry α} {remembered : Remembered α} {ids : List SourceId}

/-- Every row of the table is for a source of the workspace, under the path of the source. -/
def Seated (workspace : Workspace) : Prop :=
  ∀ row ∈ workspace.table, row.2 < workspace.sources.size ∧ (workspace.source row.2).path = row.1

/-- Sources stay under their paths when they are read. -/
theorem Seated.rereads (seated : before.Seated) (rereads : Rereads ids before after) :
    after.Seated := by
  intro row hr
  rw [rereads.table] at hr
  obtain ⟨hs, hp⟩ := seated row hr
  refine ⟨rereads.size ▸ hs, ?_⟩
  rcases rereads.source_cases row.2 with he | he <;> (rw [he]; exact hp)

/-- Reading a source gives what its current text says. -/
theorem run_refresh (workspace : Workspace) (id : SourceId) :
    (refresh id).run workspace = ((workspace.source id).reading, workspace.reread id) := by
  show (((workspace.reread id).source id).reading, workspace.reread id) = _
  rw [source_reread]
  split <;> rfl

/-- Sources are read one after another. -/
theorem run_refreshes (known : ∀ id ∈ ids, id < workspace.sources.size) :
    ∃ readings after, (ids.mapM refresh).run workspace = (readings, after) ∧
      Rereads ids workspace after := by
  induction ids generalizing workspace with
  | nil => exact ⟨[], workspace, rfl, .refl _⟩
  | cons id rest ih =>
    obtain ⟨first, others⟩ := forall_mem_cons.mp known
    have reads := Rereads.single first
    obtain ⟨readings, after, hr, more⟩ := ih fun id hi => reads.size ▸ others id hi
    refine ⟨(workspace.source id).reading :: readings, after, ?_, reads.trans more⟩
    rw [mapM_cons, Work.run_bind (run_refresh workspace id), Work.run_bind hr]
    rfl

/-- Paths with the same steps are found alike. -/
theorem find?_beq (same : (first == second) = true) :
    workspace.find? first = workspace.find? second := by
  have hs : first.steps = second.steps := eq_of_beq same
  have he : (fun row : FilePath × SourceId => row.1 == first) = fun row => row.1 == second := by
    funext row
    show (row.1.steps == first.steps) = (row.1.steps == second.steps)
    rw [hs]
  unfold find?
  rw [he]

/-- A file that is not in the table cannot be read from disk. -/
theorem Covers.read (covers : workspace.Covers disk) (hn : workspace.find? path = none)
    (text : String) : disk.read path ≠ .ok text := by
  intro hr
  unfold Disk.read at hr
  split at hr
  · rename_i file hf
    have same := find?_some hf
    have hs := covers file (mem_of_find?_eq_some hf) text hr
    rw [find?_beq same, hn] at hs
    cases hs
  · cases hr

/-- What opening a file answers. -/
def opening (workspace : Workspace) (disk : Disk) (path : FilePath) : Except ReadFault SourceId :=
  ((openFile disk path).run workspace).1

/-- Opening a file adds nothing to a table that has all files. -/
theorem run_openFile (covers : workspace.Covers disk) (path : FilePath) :
    (openFile disk path).run workspace = (workspace.opening disk path, workspace) ∧
      (workspace.opening disk path).toOption = workspace.lead? disk path := by
  have cases : ∃ answer, (openFile disk path).run workspace = (answer, workspace) ∧
      answer.toOption = workspace.lead? disk path := by
    unfold openFile lead?
    rw [Work.run_bind (Work.run_get workspace)]
    cases workspace.find? path.normalize with
    | some id => exact ⟨.ok id, rfl, rfl⟩
    | none =>
      cases disk.locate path with
      | error fault => exact ⟨.error ⟨path, fault⟩, rfl, rfl⟩
      | ok located =>
        cases hf : workspace.find? located with
        | some id => exact ⟨.ok id, by simp only [hf]; rfl, hf.symm⟩
        | none =>
          cases hr : disk.read located with
          | error fault => exact ⟨.error ⟨located, fault⟩, by simp only [hf, hr]; rfl, hf.symm⟩
          | ok text => exact absurd hr (covers.read hf text)
  obtain ⟨answer, hr, hl⟩ := cases
  unfold opening
  rw [hr]
  exact ⟨rfl, hl⟩

/-- Files are opened alike by the same table. -/
theorem opening_congr (covers : before.Covers disk) (ht : after.table = before.table) :
    after.opening disk path = before.opening disk path := by
  unfold opening openFile
  rw [Work.run_bind (Work.run_get after), Work.run_bind (Work.run_get before)]
  simp only [find?_congr ht]
  cases before.find? path.normalize with
  | some id => rfl
  | none =>
    cases disk.locate path with
    | error fault => rfl
    | ok located =>
      cases hf : before.find? located with
      | some id =>
        simp only [hf]
        rfl
      | none =>
        cases hr : disk.read located with
        | error fault =>
          simp only [hf, hr]
          rfl
        | ok text => exact absurd hr (covers.read hf text)

/-- Looking for the owner of a script changes nothing. -/
theorem run_origin? (covers : workspace.Covers disk) :
    (origin? disk path).run workspace = (workspace.owner? disk path, workspace) := by
  unfold origin? owner?
  rw [Work.run_bind (Work.run_get workspace)]
  cases workspace.find? path with
  | some id => rfl
  | none =>
    obtain ⟨hr, hl⟩ := run_openFile covers path
    simp only
    rw [Work.run_bind hr]
    exact congrArg (·, workspace) hl

/-- The sources of loaded scripts are in the workspace. -/
theorem Seated.owner?_lt (seated : workspace.Seated) (ho : workspace.owner? disk path = some id) :
    id < workspace.sources.size := by
  unfold owner? at ho
  split at ho
  · cases ho
    obtain ⟨row, hr, -, rfl⟩ := mem_of_find? ‹_›
    exact (seated row hr).1
  · obtain ⟨row, hr, rfl⟩ := mem_of_lead? ho
    exact (seated row hr).1

/-- The sources of a list of loaded scripts are read one after another. -/
theorem run_uses (covers : workspace.Covers disk) (seated : workspace.Seated)
    (paths : List FilePath) :
    ∃ used after, (paths.mapM (use disk)).run workspace = (used, after) ∧
      Rereads (used.flatten.map Prod.fst) workspace after ∧
      used.flatten.map Prod.fst = paths.filterMap (workspace.owner? disk) ∧
      ∀ row ∈ used.flatten, row.2 = (workspace.source row.1).reading := by
  induction paths generalizing workspace with
  | nil => exact ⟨[], workspace, rfl, .refl _, rfl, by simp⟩
  | cons path rest ih =>
    have step : ∃ first middle, (use disk path).run workspace = (first, middle) ∧
        Rereads (first.map Prod.fst) workspace middle ∧
        first.map Prod.fst = (workspace.owner? disk path).toList ∧
        ∀ row ∈ first, row.2 = (workspace.source row.1).reading := by
      unfold use
      rw [Work.run_bind (run_origin? covers)]
      cases ho : workspace.owner? disk path with
      | none => exact ⟨[], workspace, rfl, .refl _, rfl, by simp⟩
      | some id =>
        refine ⟨[(id, (workspace.source id).reading)], workspace.reread id,
          Work.run_bind (run_refresh workspace id), .single (seated.owner?_lt ho), rfl, ?_⟩
        exact forall_mem_singleton.mpr rfl
    obtain ⟨first, middle, hf, reads, hids, hrows⟩ := step
    obtain ⟨others, after, ho, more, hmore, hlater⟩ :=
      ih (covers.congr reads.table) (seated.rereads reads)
    refine ⟨first :: others, after, ?_, ?_, ?_, ?_⟩
    · rw [mapM_cons, Work.run_bind hf, Work.run_bind ho]
      rfl
    · rw [flatten_cons, map_append]
      exact reads.trans more
    · rw [flatten_cons, map_append, hids, hmore, owner?_congr reads.table]
      cases ho : workspace.owner? disk path <;> simp [ho]
    · refine forall_mem_append.mpr ⟨hrows, fun row hr => ?_⟩
      rw [← reads.reading_eq]
      exact hlater row hr

/-- What is wrong with the texts of the given sources. -/
def faultsOf (workspace : Workspace) (ids : List SourceId) : List Diagnostic :=
  ids.flatMap fun id => (workspace.source id).diagnostics

/-- What is wrong with texts is found by reading them. -/
theorem phase_of_faultsOf (hd : diagnostic ∈ workspace.faultsOf ids) :
    diagnostic.phase = .parsing := by
  obtain ⟨id, -, hm⟩ := mem_flatMap.mp hd
  unfold Source.diagnostics at hm
  rw [Option.mem_toList, Option.map_eq_some_iff] at hm
  obtain ⟨error, -, rfl⟩ := hm
  rfl

/-- What is wrong with texts is as before. -/
theorem Rereads.faultsOf_eq (rereads : Rereads ids before after) : after.faultsOf = before.faultsOf := by
  funext ids
  unfold faultsOf
  simp only [rereads.diagnostics_eq]

/-- An answer as it is right after it was found or confirmed: it is what the current scripts
give, and the sources used for it were read with the versions noted. -/
structure Found (disk : Disk) (question : Script → Inquiry α) (id : SourceId)
    (before after : Workspace) (remembered : Remembered α) : Prop where
  rereads : Rereads (remembered.used.map Prod.fst) before after
  confirmedAt : remembered.confirmedAt = before.edits
  outcome : before.outcome disk question id before.scripts =
    (remembered.answer, remembered.used.map Prod.fst)
  versions : ∀ row ∈ remembered.used, (before.source row.1).reading.version = row.2
  phases : ∀ diagnostic ∈ remembered.told, diagnostic.phase = .parsing

theorem Found.upToDate (found : Found disk question id before after remembered)
    (hr : row ∈ remembered.used) : (after.source row.1).UpToDate row.2 :=
  found.versions row hr ▸ found.rereads.upToDate_of_mem (mem_map_of_mem hr)

/-- Asking anew finds the answer, and tells of every malformed text. -/
theorem run_inquire (question : Script → Inquiry α) (covers : workspace.Covers disk)
    (seated : workspace.Seated) (hi : id < workspace.sources.size) :
    ∃ remembered after, (inquire disk id question).run workspace = (remembered, after) ∧
      Found disk question id workspace after remembered ∧
      remembered.told = workspace.faultsOf (remembered.used.map Prod.fst) := by
  have reads := Rereads.single hi
  have again := Rereads.single (reads.size ▸ hi)
  have both := reads.trans again
  have hprogram : (workspace.reread id).program disk =
      workspace.programOf disk workspace.scripts := by
    unfold program
    rw [programOf_congr reads.table]
    exact congrArg (workspace.programOf disk) reads.scripts_eq
  unfold inquire reached
  rw [Work.run_bind (run_refresh workspace id), Work.run_bind (Work.run_get _), hprogram,
    Work.run_bind (run_refresh _ id), reads.reading_eq]
  obtain ⟨used, after, hu, more, hids, hrows⟩ := run_uses (covers.congr both.table)
    (seated.rereads both)
    ((((question (workspace.source id).reading.script).ask
      (workspace.programOf disk workspace.scripts).imports).sources).filter fun path =>
        !(path == (workspace.source id).reading.script.path))
  rw [Work.run_bind hu, Work.run_bind (Work.run_get after)]
  have every := both.trans more
  have told : (((id, (workspace.source id).reading) :: used.flatten).flatMap fun row =>
      (after.source row.1).diagnostics) = workspace.faultsOf (id :: used.flatten.map Prod.fst) := by
    rw [← every.faultsOf_eq, faultsOf, flatMap_cons, flatMap_cons, flatMap_map]
  refine ⟨_, after, rfl, ⟨?_, every.edits, ?_, ?_, ?_⟩, ?_⟩
  · refine every.congr fun other => ?_
    simp
  · unfold outcome usedFor
    simp only [map_cons, map_map, ← owner?_congr both.table]
    exact congrArg (fun ids => (_, id :: ids)) hids.symm
  · refine forall_mem_map.mpr (forall_mem_cons.mpr ⟨rfl, fun pair hp => ?_⟩)
    rw [hrows pair hp, both.reading_eq]
  · intro diagnostic hd
    exact phase_of_faultsOf (told ▸ hd)
  · rw [map_map]
    exact told

/-- The script of each source as it was last read, or its current one if it never was. -/
def latestScripts (workspace : Workspace) (id : SourceId) : Script :=
  match (workspace.source id).reading? with
  | some last => last.script
  | none => (workspace.source id).scripted

/-- A remembered answer is right if each source used was last read with the version noted.
Versions never go down, and right after an edit-free time they are all as noted. -/
structure Trusty (workspace : Workspace) (disk : Disk) (question : Script → Inquiry α)
    (id : SourceId) (remembered : Remembered α) : Prop where
  read : ∀ row ∈ remembered.used, ∃ last,
    (workspace.source row.1).reading? = some last ∧ row.2 ≤ last.version
  right : (∀ row ∈ remembered.used, ∀ last,
      (workspace.source row.1).reading? = some last → last.version = row.2) →
    workspace.outcome disk question id workspace.latestScripts =
      (remembered.answer, remembered.used.map Prod.fst)
  confirmed : remembered.confirmedAt ≤ workspace.edits
  upToDate : remembered.confirmedAt = workspace.edits →
    ∀ row ∈ remembered.used, (workspace.source row.1).UpToDate row.2
  phases : ∀ diagnostic ∈ remembered.told, diagnostic.phase = .parsing

/-- A workspace whose files are in order. -/
structure Orderly (workspace : Workspace) (disk : Disk) : Prop where
  distinct : workspace.Distinct
  covers : workspace.Covers disk
  seated : workspace.Seated
  sound : ∀ id, (workspace.source id).Sound

namespace Orderly

/-- The current scripts belong to their files. -/
theorem placed (orderly : workspace.Orderly disk) : workspace.Placed workspace.scripts := by
  intro row hr
  unfold scripts
  rw [(orderly.sound row.2).reading_eq.1]
  exact (Reading.path_first _ _).trans (orderly.seated row hr).2

/-- The scripts last read belong to their files. -/
theorem placed_latest (orderly : workspace.Orderly disk) :
    workspace.Placed workspace.latestScripts := by
  intro row hr
  unfold latestScripts
  cases hl : (workspace.source row.2).reading? with
  | none => exact (Reading.path_first _ _).trans (orderly.seated row hr).2
  | some last => exact ((orderly.sound row.2).latest hl).1.trans (orderly.seated row hr).2

/-- Files stay in order when they are read. -/
theorem rereads (orderly : before.Orderly disk) (rereads : Rereads ids before after) :
    after.Orderly disk where
  distinct := by
    unfold Distinct
    rw [rereads.table]
    exact orderly.distinct
  covers := orderly.covers.congr rereads.table
  seated := orderly.seated.rereads rereads
  sound := by
    intro id
    rcases rereads.source_cases id with hs | hs
    · rw [hs]
      exact orderly.sound id
    · rw [hs]
      exact (orderly.sound id).refreshed

end Orderly

/-- A source that was last read as some version is in the workspace. -/
theorem lt_size_of_reading? (hl : (workspace.source id).reading? = some last) :
    id < workspace.sources.size := by
  by_contra hn
  unfold source at hl
  rw [Array.getElem?_eq_none (Nat.le_of_not_lt hn)] at hl
  cases hl

/-- What was just found can be trusted. -/
theorem Found.trusty (found : Found disk question id before after remembered)
    (orderly : before.Orderly disk) (hid : (own, id) ∈ before.table) :
    after.Trusty disk question id remembered where
  read := by
    intro row hr
    obtain ⟨-, last, hl, hv⟩ := found.upToDate hr
    exact ⟨last, hl, Nat.le_of_eq hv.symm⟩
  right := by
    intro _
    rw [outcome_table found.rereads.table]
    refine outcome_congr orderly.distinct orderly.covers orderly.placed hid found.outcome ?_
    intro row hr
    unfold latestScripts
    rw [(found.upToDate hr).reading_eq.1, ← found.rereads.scripts_eq]
    rfl
  confirmed := Nat.le_of_eq (found.confirmedAt.trans found.rereads.edits.symm)
  upToDate := fun _ _ hr => found.upToDate hr
  phases := found.phases

/-- A trusted answer stays so when sources are read again. -/
theorem Trusty.rereads (trusty : before.Trusty disk question id remembered)
    (orderly : before.Orderly disk) (hid : (own, id) ∈ before.table)
    (rereads : Rereads ids before after) : after.Trusty disk question id remembered := by
  -- Each source used keeps its latest reading, or has a reading that is the same or newer.
  have later : ∀ row ∈ remembered.used, ∃ old new,
      (before.source row.1).reading? = some old ∧ (after.source row.1).reading? = some new ∧
        row.2 ≤ old.version ∧
        ((new.version = old.version ∧ new.script = old.script) ∨ new.version = old.version + 1) := by
    intro row hr
    obtain ⟨old, ho, hv⟩ := trusty.read row hr
    rcases rereads.source_cases row.1 with hs | hs
    · exact ⟨old, old, ho, by rw [hs, ho], hv, .inl ⟨rfl, rfl⟩⟩
    · exact ⟨old, _, ho, by rw [hs]; rfl, hv, (orderly.sound row.1).version_reading ho⟩
  refine ⟨?_, ?_, ?_, ?_, trusty.phases⟩
  · intro row hr
    obtain ⟨old, new, -, hn, hv, hs⟩ := later row hr
    refine ⟨new, hn, ?_⟩
    rcases hs with ⟨he, -⟩ | he <;> omega
  · intro same
    have kept : ∀ row ∈ remembered.used, ∃ old,
        (before.source row.1).reading? = some old ∧ old.version = row.2 ∧
          after.latestScripts row.1 = before.latestScripts row.1 := by
      intro row hr
      obtain ⟨old, new, ho, hn, hv, hs⟩ := later row hr
      have he := same row hr new hn
      rcases hs with ⟨hver, hscript⟩ | hver
      · refine ⟨old, ho, hver.symm.trans he, ?_⟩
        unfold latestScripts
        rw [ho, hn]
        exact hscript
      · omega
    have right := trusty.right (by
      intro row hr last hl
      obtain ⟨old, ho, hv, -⟩ := kept row hr
      rw [ho] at hl
      cases hl
      exact hv)
    rw [outcome_table rereads.table]
    refine outcome_congr orderly.distinct orderly.covers orderly.placed_latest hid right ?_
    intro row hr
    obtain ⟨-, -, -, hs⟩ := kept row hr
    exact hs
  · rw [rereads.edits]
    exact trusty.confirmed
  · intro he row hr
    rw [rereads.edits] at he
    exact rereads.upToDate (trusty.upToDate he row hr)

/-- A trusted answer whose sources are up to date is what the current scripts give. -/
theorem Trusty.outcome_eq (trusty : workspace.Trusty disk question id remembered)
    (orderly : workspace.Orderly disk) (hid : (own, id) ∈ workspace.table)
    (current : ∀ row ∈ remembered.used, (workspace.source row.1).UpToDate row.2) :
    workspace.outcome disk question id workspace.scripts =
      (remembered.answer, remembered.used.map Prod.fst) := by
  have right := trusty.right (by
    intro row hr last hl
    obtain ⟨hread, hv⟩ := (current row hr).reading_eq
    rw [hread] at hl
    cases hl
    exact hv)
  refine outcome_congr orderly.distinct orderly.covers orderly.placed_latest hid right ?_
  intro row hr
  unfold latestScripts
  rw [(current row hr).reading_eq.1]
  rfl

/-- How an answer is given, with what is told about malformed texts: as it is remembered if there
was no edit since, confirmed if the scripts used are the same, or else found anew. -/
inductive Recalled [Collector] (workspace : Workspace) :
    Option (Remembered α) → Remembered α → Prop where
  | kept {remembered : Remembered α} : remembered.confirmedAt = workspace.edits →
    Recalled workspace (some remembered) remembered
  | confirmed {remembered : Remembered α} : remembered.confirmedAt ≠ workspace.edits →
    workspace.isCurrent remembered.used = true →
    Recalled workspace (some remembered)
      { remembered with
        confirmedAt := workspace.edits
        told := Collector.collect (remembered.used.map fun row =>
          ((workspace.source row.1).outdated, (workspace.source row.1).diagnostics)) }
  | renewed {known : Option (Remembered α)} {remembered : Remembered α} :
    (∀ old ∈ known, old.confirmedAt ≠ workspace.edits ∧ workspace.isCurrent old.used = false) →
    remembered.told = workspace.faultsOf (remembered.used.map Prod.fst) →
    Recalled workspace known remembered

/-- A question is answered rightly from memory. -/
theorem run_fromMemory [Collector] (orderly : workspace.Orderly disk)
    (hid : (own, id) ∈ workspace.table) (trusty : ∀ remembered, known = some remembered →
      workspace.Trusty disk question id remembered) : ∃ remembered after,
      (fromMemory known (inquire disk id question)).run workspace = (remembered, after) ∧
      Found disk question id workspace after remembered ∧ Recalled workspace known remembered := by
  obtain ⟨fresh, last, hr, found, told⟩ := run_inquire question
    orderly.covers orderly.seated (orderly.seated _ hid).1
  unfold fromMemory
  rw [Work.run_bind (Work.run_get workspace)]
  cases known with
  | none => exact ⟨fresh, last, hr, found, .renewed (fun _ ho => by cases ho) told⟩
  | some remembered =>
    have good := trusty remembered rfl
    by_cases he : remembered.confirmedAt = workspace.edits
    · have current := good.upToDate he
      have unchanged : Rereads (remembered.used.map Prod.fst) workspace workspace := by
        refine ⟨rfl, rfl, rfl, rfl, rfl, fun id => ?_⟩
        split
        · next used =>
          obtain ⟨row, hr, rfl⟩ := mem_map.mp used
          exact (current row hr).refreshed_eq.symm
        · rfl
      simp only [he, if_true]
      exact ⟨remembered, workspace, rfl, ⟨unchanged, he, good.outcome_eq orderly hid current,
        fun row hr => (current row hr).reading_eq.2, good.phases⟩, .kept he⟩
    · simp only [he, if_false]
      cases hc : workspace.isCurrent remembered.used with
      | false =>
        refine ⟨fresh, last, hr, found, .renewed (fun old ho => ?_) told⟩
        cases ho
        exact ⟨he, hc⟩
      | true =>
        have versions : ∀ row ∈ remembered.used, (workspace.source row.1).reading.version = row.2 :=
          fun row hr => eq_of_beq (all_eq_true.mp hc row hr)
        have seated : ∀ id ∈ remembered.used.map Prod.fst, id < workspace.sources.size := by
          refine forall_mem_map.mpr fun row hr => ?_
          obtain ⟨last, hl, -⟩ := good.read row hr
          exact lt_size_of_reading? hl
        obtain ⟨readings, after, hs, reads⟩ := run_refreshes seated
        simp only [if_true]
        unfold confirm
        rw [Work.run_bind (Work.run_get workspace), Work.run_bind hs]
        refine ⟨_, after, rfl, ⟨reads, rfl, ?_, versions, ?_⟩, .confirmed he hc⟩
        · rw [← reads.scripts_eq, ← outcome_table reads.table]
          exact (good.rereads orderly hid reads).outcome_eq (orderly.rereads reads)
            (reads.table ▸ hid) fun row hr =>
              versions row hr ▸ reads.upToDate_of_mem (mem_map_of_mem hr)
        · intro diagnostic hd
          obtain ⟨row, hr, hd⟩ := mem_flatMap.mp (Collector.among _ hd)
          obtain ⟨used, hu, rfl⟩ := mem_map.mp hr
          exact phase_of_faultsOf (mem_flatMap.mpr ⟨used.1, mem_map_of_mem hu, hd⟩)

end Workspace

end ScriptCheck
