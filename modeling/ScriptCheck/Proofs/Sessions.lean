import ScriptCheck.Proofs.Memory

/-!
# Sessions

A session puts files into a workspace, replaces their texts and asks questions in between.
Its answers are compared with those of a workspace that is filled with the current texts and
asked for the first time.
-/

namespace ScriptCheck

open List

/-- The literal type `-0` is not written in a text. -/
def Plain (text : String) : Prop := (Reading.first ⟨""⟩ text).script.hasNegativeZero = false

/-- The nodes read from a text do not depend on where the text is. -/
theorem Reading.entries_first (left right : FilePath) (text : String) :
    (Reading.first left text).script.entries = (Reading.first right text).script.entries := by
  unfold first parse Grammar.scriptOf
  cases tokenize text with
  | error _ => rfl
  | ok tokens =>
    simp only
    cases Grammar.wholeFile (Grammar.nested tokens.length) (Text.byteLength text.toList) ⟨true⟩
        ⟨tokens, 0, #[]⟩ with
    | error _ => rfl
    | ok result => rfl

variable {text : String}

/-- A text without `-0` is read as a script without `-0` everywhere. -/
theorem Plain.first (plain : Plain text) (path : FilePath) :
    (Reading.first path text).script.hasNegativeZero = false := by
  unfold Script.hasNegativeZero
  rw [Reading.entries_first path ⟨""⟩]
  exact plain

/-- Sets the text of a file among texts that are listed by path. A new file comes last. -/
def putText (texts : List (FilePath × String)) (path : FilePath) (text : String) :
    List (FilePath × String) :=
  if texts.any fun row => row.1.normalize == path.normalize then
    texts.map fun row => if row.1.normalize == path.normalize then (row.1, text) else row
  else texts ++ [(path, text)]

/-- Texts that are listed once for each file. -/
def DistinctTexts (texts : List (FilePath × String)) : Prop :=
  texts.Pairwise fun first second => (first.1.normalize == second.1.normalize) = false

/-- Setting a text keeps files listed once. -/
theorem DistinctTexts.putText (distinct : DistinctTexts texts) (path : FilePath) (text : String) :
    DistinctTexts (putText texts path text) := by
  unfold ScriptCheck.putText
  split
  · have hp : ∀ row : FilePath × String,
        (if row.1.normalize == path.normalize then (row.1, text) else row).1 = row.1 := by
      intro row
      split <;> rfl
    unfold DistinctTexts
    rw [pairwise_map]
    simp only [hp]
    exact distinct
  · rename_i hn
    unfold DistinctTexts
    rw [pairwise_append]
    refine ⟨distinct, pairwise_singleton _ _, ?_⟩
    intro row hr other ho
    rw [mem_singleton] at ho
    subst ho
    simpa using (any_eq_false.mp (Bool.not_eq_true _ ▸ hn)) row hr

/-- Texts that are listed once for each file are kept by setting one after another. -/
theorem DistinctTexts.foldl_putText (distinct : DistinctTexts (known ++ texts)) :
    texts.foldl (fun held row => ScriptCheck.putText held row.1 row.2) known = known ++ texts := by
  induction texts generalizing known with
  | nil => simp
  | cons row rest ih =>
    have hn : (known.any fun other => other.1.normalize == row.1.normalize) = false := by
      rw [any_eq_false]
      intro other ho
      have hd := (pairwise_append.mp distinct).2.2 other ho row mem_cons_self
      rw [hd]
      exact Bool.false_ne_true
    have hp : ScriptCheck.putText known row.1 row.2 = known ++ [row] := by
      unfold ScriptCheck.putText
      rw [hn]
      rfl
    rw [foldl_cons, hp, ih (by simpa using distinct)]
    simp

namespace Workspace

variable {workspace before after : Workspace} {disk : Disk} {path : FilePath} {id : SourceId}
  {texts : List (FilePath × String)}

/-- A workspace whose files are in order and whose memory can be trusted. -/
structure Valid (workspace : Workspace) (disk : Disk) : Prop extends Orderly workspace disk where
  checks : ∀ entry ∈ workspace.checks, (∃ own, (own, entry.1) ∈ workspace.table) ∧
    workspace.Trusty disk brokenRules entry.1 entry.2
  types : ∀ entry ∈ workspace.types, (∃ own, (own, entry.1.1) ∈ workspace.table) ∧
    workspace.Trusty disk (nodeType entry.1.2) entry.1.1 entry.2

/-- Whether an answer can be trusted does not depend on what else is remembered. -/
theorem Trusty.congr (trusty : before.Trusty disk question id remembered)
    (hs : after.sources = before.sources) (ht : after.table = before.table)
    (he : after.edits = before.edits) : after.Trusty disk question id remembered := by
  obtain ⟨sources, table, checks, types, edits⟩ := after
  obtain rfl := hs
  obtain rfl := ht
  obtain rfl := he
  exact ⟨trusty.read, trusty.right, trusty.confirmed, trusty.upToDate, trusty.phases⟩

/-- Reading sources again leaves a workspace valid. -/
theorem Valid.rereads (valid : before.Valid disk) (rereads : Rereads ids before after) :
    after.Valid disk where
  toOrderly := valid.toOrderly.rereads rereads
  checks := by
    rw [rereads.checks, rereads.table]
    intro entry he
    obtain ⟨⟨own, hid⟩, trusty⟩ := valid.checks entry he
    exact ⟨⟨own, hid⟩, trusty.rereads valid.toOrderly hid rereads⟩
  types := by
    rw [rereads.types, rereads.table]
    intro entry he
    obtain ⟨⟨own, hid⟩, trusty⟩ := valid.types entry he
    exact ⟨⟨own, hid⟩, trusty.rereads valid.toOrderly hid rereads⟩

/-- A workspace is valid with any memory that can be trusted. -/
theorem Valid.remember (valid : workspace.Valid disk)
    {checks : List (SourceId × Remembered (List Diagnostic))}
    {types : List ((SourceId × NodeId) × Remembered Ty)}
    (hc : ∀ entry ∈ checks, (∃ own, (own, entry.1) ∈ workspace.table) ∧
      workspace.Trusty disk brokenRules entry.1 entry.2)
    (ht : ∀ entry ∈ types, (∃ own, (own, entry.1.1) ∈ workspace.table) ∧
      workspace.Trusty disk (nodeType entry.1.2) entry.1.1 entry.2) :
    { workspace with checks := checks, types := types }.Valid disk :=
  ⟨⟨valid.distinct, valid.covers, valid.seated, valid.sound⟩,
    fun entry he => ⟨(hc entry he).1, (hc entry he).2.congr rfl rfl rfl⟩,
    fun entry he => ⟨(ht entry he).1, (ht entry he).2.congr rfl rfl rfl⟩⟩

/-- What is looked up in a memory is in it. -/
theorem mem_of_lookup [BEq κ] [LawfulBEq κ] {memory : List (κ × β)} {key : κ} {value : β}
    (hl : memory.lookup key = some value) : (key, value) ∈ memory := by
  obtain ⟨earlier, later, hm, -⟩ := lookup_eq_some_iff.mp hl
  rw [hm]
  exact mem_append_right _ mem_cons_self

section

variable [Collector] (valid : workspace.Valid disk) (hid : (own, id) ∈ workspace.table)
include valid hid

/-- A check answers with what the rules find and what is told about malformed texts. -/
theorem run_check : ∃ remembered middle,
      (check disk id).run workspace = (remembered.answer ++ remembered.told,
        { middle with checks := (id, remembered) :: middle.checks.filter (·.1 != id) }) ∧
      Found disk brokenRules id workspace middle remembered ∧
      Recalled workspace (workspace.checks.lookup id) remembered := by
  obtain ⟨remembered, middle, hr, found, recalled⟩ := run_fromMemory valid.toOrderly hid
    (fun remembered hl => (valid.checks _ (mem_of_lookup hl)).2)
  refine ⟨remembered, middle, ?_, found, recalled⟩
  unfold check
  rw [Work.run_bind (Work.run_get workspace), Work.run_bind hr]
  rfl

/-- A check leaves a workspace valid. -/
theorem Valid.check : ((check disk id).run workspace).2.Valid disk := by
  obtain ⟨remembered, middle, hr, found, -⟩ := run_check valid hid
  have kept := valid.rereads found.rereads
  rw [hr]
  refine kept.remember (forall_mem_cons.mpr ⟨?_, fun entry he => ?_⟩) kept.types
  · exact ⟨⟨own, found.rereads.table ▸ hid⟩, found.trusty valid.toOrderly hid⟩
  · exact kept.checks entry (mem_filter.mp he).1

/-- The type of a node is answered with what its script gives. -/
theorem run_typeOf (nodeId : NodeId) : ∃ remembered middle,
      (typeOf disk id nodeId).run workspace = (remembered.answer,
        { middle with
          types := ((id, nodeId), remembered) :: middle.types.filter (·.1 != (id, nodeId)) }) ∧
      Found disk (nodeType nodeId) id workspace middle remembered := by
  have trusty : ∀ remembered, workspace.types.lookup (id, nodeId) = some remembered →
      workspace.Trusty disk (nodeType nodeId) id remembered :=
    fun remembered hl => (valid.types _ (mem_of_lookup hl)).2
  obtain ⟨remembered, middle, hr, found, -⟩ := run_fromMemory valid.toOrderly hid trusty
  refine ⟨remembered, middle, ?_, found⟩
  unfold typeOf
  rw [Work.run_bind (Work.run_get workspace), Work.run_bind hr]
  rfl

/-- Asking for a type leaves a workspace valid. -/
theorem Valid.typeOf : ((typeOf disk id nodeId).run workspace).2.Valid disk := by
  obtain ⟨remembered, middle, hr, found⟩ := run_typeOf valid hid nodeId
  have kept := valid.rereads found.rereads
  rw [hr]
  refine kept.remember kept.checks (forall_mem_cons.mpr ⟨?_, fun entry he => ?_⟩)
  · exact ⟨⟨own, found.rereads.table ▸ hid⟩, found.trusty valid.toOrderly hid⟩
  · exact kept.types entry (mem_filter.mp he).1

end

/-- The workspace after the text of a source was replaced. -/
def replaced (workspace : Workspace) (id : SourceId) (text : String) : Workspace :=
  { workspace with
    sources := workspace.sources.modify id (·.replace text)
    edits := workspace.edits + 1 }

/-- The only source that changes by a new text is the source that gets it. -/
theorem source_replaced (workspace : Workspace) (id : SourceId) (text : String) (other : SourceId) :
    (workspace.replaced id text).source other =
      if id = other ∧ other < workspace.sources.size then (workspace.source other).replace text
      else workspace.source other := by
  unfold replaced source
  rw [Array.getElem?_modify]
  by_cases hi : id = other
  · by_cases hs : other < workspace.sources.size
    · simp [hi, hs]
    · simp [hi, hs]
  · simp [hi]

/-- A new text changes neither the path nor the latest reading of a source. -/
theorem source_replaced_eq (workspace : Workspace) (id : SourceId) (text : String)
    (other : SourceId) :
    ((workspace.replaced id text).source other).path = (workspace.source other).path ∧
      ((workspace.replaced id text).source other).reading? = (workspace.source other).reading? := by
  rw [source_replaced]
  split <;> exact ⟨rfl, rfl⟩

/-- A trusted answer stays so when the text of a source is replaced: it has to be confirmed
before it is given again. -/
theorem Trusty.replaced (trusty : workspace.Trusty disk question id remembered)
    (orderly : workspace.Orderly disk) (hid : (own, id) ∈ workspace.table) (changed : SourceId)
    (text : String) : (workspace.replaced changed text).Trusty disk question id remembered := by
  have same := fun other => (source_replaced_eq workspace changed text other).2
  refine ⟨?_, ?_, ?_, ?_, trusty.phases⟩
  · intro row hr
    rw [same]
    exact trusty.read row hr
  · intro versions
    have right := trusty.right (by
      intro row hr last hl
      exact versions row hr last (by rw [same, hl]))
    have table : (workspace.replaced changed text).table = workspace.table := rfl
    rw [outcome_table table]
    refine outcome_congr orderly.distinct orderly.covers orderly.placed_latest hid right ?_
    intro row hr
    obtain ⟨last, hl, -⟩ := trusty.read row hr
    unfold latestScripts
    rw [same, hl]
  · exact Nat.le_succ_of_le trusty.confirmed
  · intro he
    have hc := trusty.confirmed
    have hs : (workspace.replaced changed text).edits = workspace.edits + 1 := rfl
    omega

/-- A new text without `-0` leaves a workspace valid. -/
theorem Valid.replaced (valid : workspace.Valid disk) (changed : SourceId) (plain : Plain text) :
    (workspace.replaced changed text).Valid disk := by
  have hpath := fun other => (source_replaced_eq workspace changed text other).1
  refine ⟨⟨valid.distinct, valid.covers, ?_, ?_⟩, ?_, ?_⟩
  · intro row hr
    obtain ⟨hs, hp⟩ := valid.seated row hr
    refine ⟨?_, (hpath row.2).trans hp⟩
    unfold Workspace.replaced
    rwa [Array.size_modify]
  · intro other
    rw [source_replaced]
    split
    · exact (valid.sound other).replace (plain.first _)
    · exact valid.sound other
  · intro entry he
    obtain ⟨⟨own, hid⟩, trusty⟩ := valid.checks entry he
    exact ⟨⟨own, hid⟩, trusty.replaced valid.toOrderly hid changed text⟩
  · intro entry he
    obtain ⟨⟨own, hid⟩, trusty⟩ := valid.types entry he
    exact ⟨⟨own, hid⟩, trusty.replaced valid.toOrderly hid changed text⟩

/-- The files of a workspace are those of a list of texts, in the same order. -/
structure Holds (workspace : Workspace) (texts : List (FilePath × String)) : Prop where
  distinct : DistinctTexts texts
  table : workspace.table = texts.zipIdx.map fun row => (row.1.1.normalize, row.2)
  size : workspace.sources.size = texts.length
  source : ∀ index (hi : index < texts.length),
    (workspace.source index).path = texts[index].1.normalize ∧
      (workspace.source index).text = texts[index].2

namespace Holds

/-- There are no files at first. -/
theorem empty : Workspace.empty.Holds [] where
  distinct := List.Pairwise.nil
  table := rfl
  size := rfl
  source := fun index hi => absurd hi (Nat.not_lt_zero index)

section

variable (holds : workspace.Holds texts)
include holds

/-- Each row of the table is for one of the texts. -/
theorem of_mem_table (hr : row ∈ workspace.table) :
    ∃ hi : row.2 < texts.length, texts[row.2].1.normalize = row.1 := by
  rw [holds.table] at hr
  obtain ⟨indexed, hm, rfl⟩ := List.mem_map.mp hr
  obtain ⟨text, index⟩ := indexed
  have hg := List.mem_zipIdx_iff_getElem?.mp hm
  obtain ⟨hi, he⟩ := List.getElem?_eq_some_iff.mp hg
  exact ⟨hi, by rw [he]⟩

/-- Each text has its row in the table. -/
theorem mem_table (hi : index < texts.length) :
    (texts[index].1.normalize, index) ∈ workspace.table := by
  rw [holds.table]
  refine mem_map.mpr ⟨(texts[index], index), ?_, rfl⟩
  exact mem_zipIdx_iff_getElem?.mpr (getElem?_eq_getElem hi)

/-- The table names each file once. -/
theorem distinctTable : workspace.Distinct := by
  have names : workspace.table.map Prod.fst = texts.map fun row => row.1.normalize := by
    rw [holds.table, map_map]
    conv_rhs => rw [← zipIdx_map_fst 0 texts, map_map]
    rfl
  have apart : (workspace.table.map Prod.fst).Pairwise fun first second =>
      (first == second) = false := by
    rw [names, pairwise_map]
    exact holds.distinct
  exact pairwise_map.mp apart

/-- Every row of the table is for a source of the workspace. -/
theorem seated : workspace.Seated := by
  intro row hr
  obtain ⟨hi, hp⟩ := holds.of_mem_table hr
  exact ⟨holds.size ▸ hi, (holds.source row.2 hi).1.trans hp⟩

/-- A file is not found exactly when no text is listed for it. -/
theorem find?_eq_none :
    workspace.find? path = none ↔ (texts.any fun row => row.1.normalize == path) = false := by
  unfold find?
  rw [Option.map_eq_none_iff, List.find?_eq_none, List.any_eq_false]
  constructor
  · intro hn row hr
    obtain ⟨index, hi, rfl⟩ := getElem_of_mem hr
    have hrow := hn (texts[index].1.normalize, index) (holds.mem_table hi)
    exact hrow
  · intro hn row hr
    obtain ⟨hi, hp⟩ := holds.of_mem_table hr
    rw [← hp]
    exact hn _ (getElem_mem hi)

end

end Holds

/-- The workspace with a new source. -/
def added (workspace : Workspace) (path : FilePath) (text : String) : Workspace :=
  { workspace with
    sources := workspace.sources.push (.unread path text)
    table := workspace.table ++ [(path, workspace.sources.size)] }

/-- A new source comes after the others. -/
theorem source_added (workspace : Workspace) (path : FilePath) (text : String) (other : SourceId) :
    (workspace.added path text).source other =
      if other = workspace.sources.size then .unread path text else workspace.source other := by
  unfold added source
  rw [Array.getElem?_push]
  split <;> rfl

/-- Putting a text replaces the text of the file if the table has it, and adds the file
otherwise. -/
theorem run_put (workspace : Workspace) (path : FilePath) (text : String) :
    ((put path text).run workspace).2 =
      match workspace.find? path.normalize with
      | some id => workspace.replaced id text
      | none => workspace.added path.normalize text := by
  unfold put
  rw [Work.run_bind (Work.run_get workspace)]
  cases workspace.find? path.normalize with
  | some id => rfl
  | none => rfl

/-- Putting a text into a workspace sets it among the texts that the workspace holds. -/
theorem Holds.put (holds : workspace.Holds texts) (path : FilePath) (text : String) :
    ((put path text).run workspace).2.Holds (putText texts path text) := by
  rw [run_put]
  cases hf : workspace.find? path.normalize with
  | some id =>
    obtain ⟨row, hr, hp, rfl⟩ := mem_of_find? hf
    obtain ⟨hi, he⟩ := holds.of_mem_table hr
    have known : (texts.any fun row => row.1.normalize == path.normalize) = true := by
      by_contra hn
      rw [holds.find?_eq_none.mpr (Bool.not_eq_true _ ▸ hn)] at hf
      cases hf
    have hput : putText texts path text = texts.map fun row =>
        if row.1.normalize == path.normalize then (row.1, text) else row := by
      unfold putText
      rw [if_pos known]
    have hdistinct := holds.distinct.putText path text
    rw [hput] at hdistinct ⊢
    refine ⟨hdistinct, ?_, ?_, ?_⟩
    · rw [zipIdx_map, map_map]
      refine holds.table.trans (map_congr_left fun indexed _ => ?_)
      simp only [Function.comp_def, Prod.map]
      split <;> rfl
    · simpa [replaced] using holds.size
    · intro index hl
      have hx : index < texts.length := by simpa using hl
      obtain ⟨hpath, htext⟩ := holds.source index hx
      rw [source_replaced, getElem_map]
      by_cases hs : row.2 = index
      · subst hs
        rw [if_pos ⟨rfl, holds.size ▸ hx⟩, if_pos (he ▸ hp)]
        exact ⟨hpath, rfl⟩
      · have hn : ¬ (texts[index].1.normalize == path.normalize) = true := by
          intro same
          have hfound := find?_of_mem holds.distinctTable (holds.mem_table hx) same
          rw [hf] at hfound
          exact hs (Option.some.inj hfound)
        rw [if_neg (fun hc => hs hc.1), if_neg hn]
        exact ⟨hpath, htext⟩
  | none =>
    have unknown := holds.find?_eq_none.mp hf
    have hput : putText texts path text = texts ++ [(path, text)] := by
      unfold putText
      rw [unknown]
      rfl
    have hdistinct := holds.distinct.putText path text
    rw [hput] at hdistinct ⊢
    refine ⟨hdistinct, ?_, ?_, ?_⟩
    · simp [added, holds.table, holds.size, zipIdx_append]
    · simp [added, holds.size]
    · intro index hl
      rw [length_append, length_singleton] at hl
      rw [source_added, holds.size]
      by_cases hx : index < texts.length
      · rw [if_neg (Nat.ne_of_lt hx), getElem_append_left hx]
        exact holds.source index hx
      · have hlast : index = texts.length := by omega
        subst hlast
        rw [if_pos rfl, getElem_concat_length rfl]
        exact ⟨rfl, rfl⟩

/-- The workspace that holds the given texts and was not asked anything. -/
def holding (texts : List (FilePath × String)) : Workspace :=
  texts.foldl (fun workspace row => ((put row.1 row.2).run workspace).2) empty

/-- A workspace that remembers nothing, with sound sources. -/
structure Unasked (workspace : Workspace) : Prop where
  checks : workspace.checks = []
  types : workspace.types = []
  sound : ∀ id, (workspace.source id).Sound

/-- Nothing was asked of a workspace without sources. -/
theorem unasked_empty : empty.Unasked where
  checks := rfl
  types := rfl
  sound := by
    intro id
    have blank : Plain "" := by
      unfold Plain
      decide +kernel
    exact Source.sound_unread blank

/-- Putting a text without `-0` asks nothing. -/
theorem Unasked.put (unasked : workspace.Unasked) (path : FilePath) (plain : Plain text) :
    ((put path text).run workspace).2.Unasked := by
  rw [run_put]
  cases workspace.find? path.normalize with
  | some changed =>
    refine ⟨unasked.checks, unasked.types, fun id => ?_⟩
    rw [source_replaced]
    split
    · exact (unasked.sound id).replace (plain.first _)
    · exact unasked.sound id
  | none =>
    refine ⟨unasked.checks, unasked.types, fun id => ?_⟩
    rw [source_added]
    split
    · exact Source.sound_unread (plain.first _)
    · exact unasked.sound id

/-- A workspace that was only filled holds the texts it was filled with, each file with its
latest text. -/
theorem holds_holding (texts : List (FilePath × String)) :
    (holding texts).Holds (texts.foldl (fun held row => putText held row.1 row.2) []) :=
  foldl_rel .empty fun row _ _ _ holds => holds.put row.1 row.2

/-- Nothing was asked of a workspace that was only filled. -/
theorem unasked_holding (plain : ∀ row ∈ texts, Plain row.2) : (holding texts).Unasked :=
  foldlRecOn texts _ unasked_empty fun _ unasked row hr => unasked.put row.1 (plain row hr)

/-- A workspace that was only filled is valid if it has all files that can be read. -/
theorem valid_holding (plain : ∀ row ∈ texts, Plain row.2)
    (covers : (holding texts).Covers disk) : (holding texts).Valid disk := by
  have unasked := unasked_holding plain
  have holds := holds_holding texts
  refine ⟨⟨holds.distinctTable, covers, holds.seated, unasked.sound⟩, ?_, ?_⟩
  · rw [unasked.checks]
    simp
  · rw [unasked.types]
    simp

end Workspace

end ScriptCheck
