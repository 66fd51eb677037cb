import ScriptCheck.Proofs.CleanScripts
import ScriptCheck.Proofs.Gathering

/-!
# Scripts are trees

Every reading of the grammar hands back the nodes that it completes, and each of them is
taken by the node around it. So in a script that was read from a text children come before
their parents, and a node is the parent of exactly its children.
-/

namespace ScriptCheck

open List

/-- The node of a whole file comes last and takes all declarations that were read before. -/
theorem Grammar.undergrowth_wholeFile (orderly : Token.Orderly tokens)
    (run : (nested tokens.length).wholeFile sourceEnd ⟨true⟩ ⟨tokens, 0, #[]⟩ = .ok (root, later)) :
    ∃ sprouts found, (∃ stop, Undergrowth tokens sprouts found ∧ Strip sprouts 0 found stop) ∧
      root = sprouts.size ∧ later.sprouts = sprouts.push ⟨.module found, ⟨0, sourceEnd⟩⟩ := by
  obtain ⟨between, found, hf, hn⟩ := Reader.bind_ok run
  cases hn
  have gathers : Reader.Gathers tokens none none tokens.length [] (nested tokens.length).declarations
      (fun _ => tokens.length) id := by
    have operations : (Reader.gathering tokens).Grows Form.isOperation :=
      fun _ _ _ _ _ operation opens passed =>
        .grow opens rfl (Form.isModule_of_isOperation operation) passed
    exact (Followed.nested operations _).declarations
      (fun _ _ _ _ _ store opens passed => .grow opens rfl (Form.isModule_of_isStore store) passed)
      (Nat.le_refl _)
  have begun : Plot tokens tokens.length ⟨tokens, 0, #[]⟩ 0 [] [] :=
    { Undergrowth.empty, Cursor.begin orderly with
      few := Nat.le_refl _
      strip := .nil
      ahead := fun _ _ => Nat.zero_le _ }
  obtain ⟨plot, -⟩ := gathers _ _ _ _ _ [] hf begun nofun nofun
  exact ⟨between.sprouts, found, ⟨_, plot.toUndergrowth, plot.strip⟩, rfl, rfl⟩

section Parents

variable {known : Array (Option NodeId)} {child parent found : NodeId} {rows : List (Sprout × Nat)}
  {children : List NodeId}

/-- A recorded parent was recorded before, or is the one that adopts. -/
theorem parent_of_adopt (hp : (adopt known parent children)[child]? = some (some found)) :
    known[child]? = some (some found) ∨ found = parent ∧ child ∈ children := by
  induction children generalizing known with
  | nil => exact .inl hp
  | cons first rest ih =>
    rcases ih hp with hk | ⟨hf, hm⟩
    · rw [Array.getElem?_setIfInBounds] at hk
      split at hk
      · next he =>
        split at hk
        · cases hk
          exact .inr ⟨rfl, he ▸ mem_cons_self⟩
        · cases hk
      · exact .inl hk
    · exact .inr ⟨hf, mem_cons_of_mem _ hm⟩

theorem size_adopt (known : Array (Option NodeId)) (parent : NodeId) (children : List NodeId) :
    (adopt known parent children).size = known.size := by
  induction children generalizing known with
  | nil => rfl
  | cons first rest ih => exact (ih _).trans (Array.size_setIfInBounds ..)

/-- A child that is adopted, or had a parent before, has one afterwards. -/
theorem parent_adopt (hc : child < known.size)
    (hm : (∃ found, known[child]? = some (some found)) ∨ child ∈ children) :
    ∃ found, (adopt known parent children)[child]? = some (some found) := by
  induction children generalizing known with
  | nil => simpa [adopt] using hm
  | cons first rest ih =>
    refine ih (by simpa using hc) ?_
    by_cases he : first = child
    · exact .inl ⟨parent, by simp [he, hc]⟩
    · rcases hm with ⟨found, hf⟩ | hm
      · exact .inl ⟨found, by simpa [Array.getElem?_setIfInBounds, he] using hf⟩
      · exact .inr ((mem_cons.mp hm).resolve_left (Ne.symm he))

/-- The rows of a table that is being linked. -/
abbrev adoptRow (known : Array (Option NodeId)) (row : Sprout × Nat) : Array (Option NodeId) :=
  adopt known row.2 row.1.form.children

theorem parent_of_rows (hp : (rows.foldl adoptRow known)[child]? = some (some found)) :
    known[child]? = some (some found) ∨ ∃ row ∈ rows, row.2 = found ∧ child ∈ row.1.form.children := by
  induction rows generalizing known with
  | nil => exact .inl hp
  | cons first rest ih =>
    rcases ih hp with hk | ⟨row, hr, hf⟩
    · rcases parent_of_adopt hk with hk | ⟨rfl, hc⟩
      · exact .inl hk
      · exact .inr ⟨first, mem_cons_self, rfl, hc⟩
    · exact .inr ⟨row, mem_cons_of_mem _ hr, hf⟩

theorem parent_rows (hc : child < known.size)
    (hm : (∃ found, known[child]? = some (some found)) ∨
      ∃ row ∈ rows, child ∈ row.1.form.children) :
    ∃ found, (rows.foldl adoptRow known)[child]? = some (some found) := by
  induction rows generalizing known with
  | nil => simpa using hm
  | cons first rest ih =>
    refine ih (by rwa [size_adopt]) ?_
    rcases hm with hf | ⟨row, hr, hm⟩
    · exact .inl (parent_adopt hc (.inl hf))
    · rcases mem_cons.mp hr with rfl | hr
      · exact .inl (parent_adopt hc (.inr hm))
      · exact .inr ⟨row, hr, hm⟩

end Parents

namespace Grove

variable {sprouts : Array Sprout} {loose : List NodeId} {child parent : NodeId} {sprout : Sprout}

/-- A node is the child of one row only. -/
theorem parent_unique (grove : Grove sprouts loose) (hs : sprouts[parent]? = some sprout)
    (hc : child ∈ sprout.form.children) (hr : sprouts[other]? = some row)
    (ho : child ∈ row.form.children) : other = parent := by
  have hd : (taken sprouts).Nodup := (nodup_append.mp grove.distinct).1
  have hp := (nodup_flatMap.mp hd).2
  rw [pairwise_iff_getElem] at hp
  obtain ⟨hl, rfl⟩ := Array.getElem?_eq_some_iff.mp hs
  obtain ⟨hk, rfl⟩ := Array.getElem?_eq_some_iff.mp hr
  rcases Nat.lt_trichotomy other parent with hlt | he | hlt
  · exact absurd hc (hp other parent (by simpa using hk) (by simpa using hl) hlt
      (by simpa using ho))
  · exact he
  · exact absurd ho (hp parent other (by simpa using hl) (by simpa using hk) hlt
      (by simpa using hc))

/-- A recorded parent names the node as its child. -/
theorem mem_of_parentsOf (hp : (parentsOf sprouts)[child]? = some (some parent)) :
    ∃ sprout, sprouts[parent]? = some sprout ∧ child ∈ sprout.form.children := by
  rcases parent_of_rows hp with hk | ⟨row, hr, rfl, hc⟩
  · simp [Array.getElem?_replicate] at hk
  · refine ⟨row.1, ?_, hc⟩
    have hz := mem_zipIdx_iff_getElem?.mp hr
    simpa using hz

/-- The parent that is recorded for a node is the row that names it as a child. -/
theorem parentsOf_eq (grove : Grove sprouts loose) (hs : sprouts[parent]? = some sprout)
    (hc : child ∈ sprout.form.children) : (parentsOf sprouts)[child]? = some (some parent) := by
  obtain ⟨hl, he⟩ := Array.getElem?_eq_some_iff.mp hs
  have hlt : child < sprouts.size := Nat.lt_trans (grove.below parent sprout hs child hc) hl
  have hrow : (sprout, parent) ∈ sprouts.toList.zipIdx :=
    mem_zipIdx_iff_getElem?.mpr (by simpa using hs)
  obtain ⟨found, hf⟩ : ∃ found, (parentsOf sprouts)[child]? = some (some found) :=
    parent_rows (by simpa using hlt) (.inr ⟨_, hrow, hc⟩)
  obtain ⟨row, hr, ho⟩ := mem_of_parentsOf hf
  rw [← grove.parent_unique hs hc hr ho]
  exact hf

end Grove

/-- A script whose nodes form a tree: every node is the parent of its children and of no
other node, and children come before their parents. -/
structure Script.Linked (script : Script) : Prop where
  /-- The children of a node have it as their parent. -/
  parent_of_mem : ∀ {node child : Node}, node.script = script → child ∈ node.children →
    child.parent = some node
  /-- A node comes before its parent. -/
  id_lt_parent : ∀ {node parent : Node}, node.script = script → node.parent = some parent →
    node.id < parent.id

section Linking

variable {sprouts : Array Sprout} {path : FilePath} {root id : NodeId}

/-- The rows of a linked table. -/
theorem getElem?_ofSprouts : (Script.ofSprouts path sprouts root).entries[id]? =
    sprouts[id]?.map fun sprout => ⟨sprout.form, sprout.span, ((parentsOf sprouts)[id]?).join⟩ := by
  simp [Script.ofSprouts]

/-- The children of a node are those of its row. -/
theorem row_of_mem_children
    (hc : child ∈ (Node.mk (Script.ofSprouts path sprouts root) id).children) :
    ∃ sprout, sprouts[id]? = some sprout ∧ child.id ∈ sprout.form.children := by
  obtain ⟨inner, hi, rfl⟩ := mem_map.mp hc
  rw [Node.form, Node.entry, getElem?_ofSprouts] at hi
  cases hs : sprouts[id]? with
  | none =>
    rw [hs] at hi
    cases hi
  | some sprout =>
    rw [hs] at hi
    exact ⟨sprout, rfl, hi⟩

/-- The parent of a node is the one recorded for it. -/
theorem parent_ofSprouts : (Node.mk (Script.ofSprouts path sprouts root) id).parent =
    (sprouts[id]?.bind fun _ => ((parentsOf sprouts)[id]?).join).map
      (Node.mk (Script.ofSprouts path sprouts root)) := by
  rw [Node.parent, Node.entry, getElem?_ofSprouts]
  cases sprouts[id]? with
  | none => rfl
  | some sprout => rfl

/-- The nodes of a script that was made from an orderly table form a tree. -/
theorem Grove.linked (grove : Grove sprouts loose) (path : FilePath) (root : NodeId) :
    (Script.ofSprouts path sprouts root).Linked where
  parent_of_mem := by
    rintro ⟨script, id⟩ ⟨other, inner⟩ rfl hc
    obtain rfl : other = _ := Node.script_of_mem_children hc
    obtain ⟨sprout, hs, hm⟩ := row_of_mem_children hc
    have hl : inner < sprouts.size :=
      Nat.lt_trans (grove.below id sprout hs inner hm) (Array.getElem?_eq_some_iff.mp hs).1
    rw [parent_ofSprouts, grove.parentsOf_eq hs hm, Array.getElem?_eq_getElem hl]
    rfl
  id_lt_parent := by
    rintro ⟨script, id⟩ parent rfl hp
    rw [parent_ofSprouts] at hp
    obtain ⟨found, hf, rfl⟩ := Option.map_eq_some_iff.mp hp
    obtain ⟨_, -, hj⟩ := Option.bind_eq_some_iff.mp hf
    obtain ⟨sprout, hs, hm⟩ := Grove.mem_of_parentsOf (Option.join_eq_some_iff.mp hj)
    exact grove.below found sprout hs id hm

end Linking

section

variable {path : FilePath} {script : Script} (read : parse path source = .ok script)
include read

/-- A script is made of the nodes that the reading of its tokens leaves. -/
theorem run_of_parse : ∃ tokens root progress, tokenize source = .ok tokens ∧
      (Grammar.nested tokens.length).wholeFile (Text.byteLength source.toList) ⟨true⟩
        ⟨tokens, 0, #[]⟩ = .ok (root, progress) ∧
      script = Script.ofSprouts path progress.sprouts root := by
  unfold parse at read
  split at read
  · cases read
  next tokens cut =>
  unfold Grammar.scriptOf at read
  split at read
  · cases read
  next root progress run =>
  cases read
  exact ⟨tokens, root, progress, cut, run, rfl⟩

/-- The nodes of every script that is read from a text form a tree. -/
theorem linked_of_parse : script.Linked := by
  obtain ⟨tokens, root, progress, cut, run, rfl⟩ := run_of_parse read
  obtain ⟨sprouts, found, ⟨_, grove, -⟩, -, hs⟩ :=
    Grammar.undergrowth_wholeFile (orderly_of_tokenize cut) run
  rw [hs]
  exact (@Grove.push _ [] _ _ grove.toGrove).linked path root

end

end ScriptCheck
