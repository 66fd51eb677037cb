import ScriptCheck.Proofs.Pairings
import ScriptCheck.Proofs.Roots

/-!
# Where stores stand

Stores are declared at the top level only: what is read inside a declaration grows no store, and
a declaration that is read grows at most one, which is the declaration itself.
-/

namespace ScriptCheck

namespace Reader

/-- The nodes of a table that are stores. -/
def IsStore (progress : Progress) (id : NodeId) : Prop :=
  ∃ sprout, progress.sprouts[id]? = some sprout ∧ sprout.form.isStore = true

/-- A reader that grows no stores but those that it gives. -/
def StoresOnly {α : Type} (gives : α → NodeId → Prop) (reader : Reader α) : Prop :=
  ∀ surroundings progress value later, reader surroundings progress = .ok (value, later) →
    ∀ id, IsStore later id → IsStore progress id ∨ gives value id

/-- A reader that grows no stores. -/
def Storeless {α : Type} (reader : Reader α) : Prop := StoresOnly (fun _ _ => False) reader

/-- A reader that grows at most one store, which is the node that it gives. -/
def Crowns (reader : Reader NodeId) : Prop := StoresOnly (fun value id => id = value) reader

section Stores

theorem StoresOnly.bind (inner : Storeless first) (continues : ∀ value, StoresOnly gives (next value)) :
    StoresOnly gives (first >>= next) := by
  intro surroundings progress value later run id store
  obtain ⟨between, found, before, rest⟩ := bind_ok run
  refine (continues found _ _ _ _ rest id store).imp_left fun store => ?_
  exact (inner _ _ _ _ before id store).resolve_right not_false

theorem Quiet.storeless (quiet : reader.Quiet) : Storeless reader := by
  intro surroundings progress value later run id store
  rw [IsStore, quiet _ _ _ _ run] at store
  exact .inl store

theorem crowns_grow (form : Form) (start : Nat) : Crowns (grow form start) := by
  rintro surroundings progress value later ⟨⟩ id ⟨sprout, found, store⟩
  rw [Array.getElem?_push] at found
  split at found
  · next last => exact .inr last
  · exact .inl ⟨sprout, found, store⟩

theorem storeless_grow (inner : form.isStore = false) (start : Nat) :
    Storeless (grow form start) := by
  rintro surroundings progress value later ⟨⟩ id ⟨sprout, found, store⟩
  rw [Array.getElem?_push] at found
  split at found
  · cases found
    rw [inner] at store
    cases store
  · exact .inl ⟨sprout, found, store⟩

theorem Storeless.attempt (inner : Storeless reader) : Storeless (attempt reader) := by
  intro surroundings progress value later run id store
  unfold Reader.attempt at run
  split at run
  · next hr =>
    cases run
    exact inner _ _ _ _ hr id store
  · split at run
    · cases run
    · cases run
      exact .inl store

theorem Storeless.crowns {reader : Reader NodeId} (inner : Storeless reader) : Crowns reader :=
  fun _ _ _ _ run id store => (inner _ _ _ _ run id store).imp_right False.elim

end Stores

/-- Readers that grow no stores, whatever they are compared with. -/
def storeless : Pairing where
  pairs := fun reader _ => Storeless reader
  starts := fun _ _ => True
  pure := fun value => (Quiet.pure value).storeless
  bind := .bind
  place := fun continues => .bind quiet_place.storeless fun start => continues start start trivial
  peek := quiet_peek.storeless
  peekSecond := quiet_peekSecond.storeless
  advance := quiet_advance.storeless
  unexpected := fun wanted => (quiet_unexpected wanted).storeless
  grow := fun _ inner => storeless_grow (Form.isStore_of_isInner inner) _
  attempt := .attempt
  withProcLiterals := fun _ inner _ _ _ _ run => inner _ _ _ _ run
  allowsProcLiterals := quiet_allowsProcLiterals.storeless
  remaining := Quiet.remaining.storeless
  goAstray := fun _ => (Quiet.goAstray _).storeless

/-- All stores of a table are listed. -/
def Lists (progress : Progress) (found : List NodeId) : Prop := ∀ id, IsStore progress id → id ∈ found

end Reader

open Reader

section Declarations

/-- A first reader that grows no stores. How many tokens are left does not matter. -/
theorem Reader.StoresOnly.after {next : α → Reader β}
    (inner : storeless.course.reads none none 0 [] first first' left back)
    (continues : ∀ value, StoresOnly gives (next value)) : StoresOnly gives (first >>= next) :=
  .bind inner continues

variable (followed : Grammar.Followed storeless.course grammar grammar depth)

include followed

theorem crowns_exportable (start : Nat) : Crowns (grammar.exportable start) := by
  have least (within : Nat) : 0 ≤ within := Nat.zero_le within
  refine .after storeless.course.eatKind fun exported => .bind storeless.peek fun kind => ?_
  split
  · exact .bind storeless.advance fun _ => .after storeless.course.identifier fun _ =>
      .after (followed.typeParams (least _)) fun _ => .after (storeless.course.expect "=") fun _ =>
        .after (followed.typeExpression (least _)) fun _ => crowns_grow _ _
  · exact .bind storeless.advance fun _ => .after (storeless.course.expectKeyword "type") fun _ =>
      .after storeless.course.identifier fun _ => .after (storeless.course.expect "(") fun _ =>
        .after (followed.typeExpression (least _)) fun _ =>
          .after (storeless.course.expect ")") fun _ => crowns_grow _ _
  · exact .bind storeless.advance fun _ => .after storeless.course.identifier fun _ =>
      .after (followed.namedFunc (least _)) fun _ => crowns_grow _ _
  · exact .bind storeless.advance fun _ => .after storeless.course.identifier fun _ =>
      .after (followed.namedProc (least _)) fun _ => crowns_grow _ _
  · exact .bind storeless.advance fun _ => .after (followed.definition (least _)) fun _ =>
      crowns_grow _ _
  · exact .bind storeless.advance fun _ => .after (followed.definition (least _)) fun _ =>
      crowns_grow _ _
  · exact .bind storeless.advance fun _ => .after storeless.course.identifier fun _ =>
      .after (storeless.course.expect _) fun _ => .after (storeless.course.itemsUntil _ _ fun few =>
        followed.storeMember (Nat.le_trans few (least _))) fun _ => crowns_grow _ _
  · exact (quiet_unexpected _).storeless.crowns

/-- A declaration holds no store unless it is one. -/
theorem crowns_declaration : Crowns grammar.declaration := by
  refine .bind quiet_place.storeless fun start => .after storeless.course.eatKind fun found => ?_
  split
  · have inner : storeless.course.reads (some start) none 0 [] (Grammar.importDeclaration start)
        (Grammar.importDeclaration start) _ _ :=
      @Grammar.Followed.importDeclaration storeless.course 0 0 _ _ trivial (Nat.le_refl _)
    exact Storeless.crowns inner
  refine .after storeless.course.eatKind fun found => ?_
  split
  · exact .after (followed.block (Nat.zero_le _)) fun _ => .after storeless.course.eatKind fun _ =>
      crowns_grow _ _
  refine .after storeless.course.eatKind fun found => ?_
  split
  · have inner : storeless.course.reads (some start) none 0 [] (grammar.testDeclaration start)
        (grammar.testDeclaration start) _ _ :=
      @Grammar.Followed.testDeclaration _ _ _ _ 0 0 _ _ followed trivial (Nat.zero_le _)
        (Nat.le_refl _)
    exact Storeless.crowns inner
  · exact crowns_exportable followed start

/-- All stores are among the declarations of a file. -/
theorem lists_declarations (run : grammar.declarations surroundings progress = .ok (found, later))
    (none : Lists progress []) : Lists later found := by
  obtain ⟨between, listed, run, rest⟩ := bind_ok run
  have lists : Lists between listed := @loop_ok _ _ _ _ (fun found reached => Lists reached found)
    (fun found reached => Lists reached found) (fun found progress outcome later run lists => ?_)
    _ _ _ _ run none
  · cases rest
    exact fun id store => List.mem_reverse.mpr (lists id store)
  -- one turn: the end of the file, or a declaration and what separates it from the next
  obtain ⟨seen, atEnd, looked, run⟩ := bind_ok run
  have lists : Lists seen found := fun id store => lists id
    (((quiet_isAt _).storeless _ _ _ _ looked id store).resolve_right not_false)
  split at run
  · cases run
    exact lists
  · obtain ⟨declared, next, crowned, run⟩ := bind_ok run
    obtain ⟨between, _, skips, run⟩ := bind_ok run
    cases run
    intro id store
    have skipped : Storeless (skipMarks [";"]) := @Steps.skipMarks storeless.steps 0 _
    have store := (skipped _ _ _ _ skips id store).resolve_right not_false
    rcases crowns_declaration followed _ _ _ _ crowned id store with store | rfl
    · exact List.mem_cons_of_mem _ (lists id store)
    · exact List.mem_cons_self

end Declarations

/-- A store is declared at the top level. -/
theorem isModule_of_store (read : parse path source = .ok script) {node parent : Node}
    (hs : node.script = script) (store : node.form.isStore = true)
    (hp : node.parent = some parent) : parent.form.isModule = true := by
  have linked := linked_of_parse read
  obtain ⟨tokens, root, progress, -, run, rfl⟩ := run_of_parse read
  obtain ⟨between, found, declared, rest⟩ := bind_ok run
  cases rest
  have lists : Lists between found :=
    lists_declarations
      (.nested (storeless.operations fun _ inner _ => storeless_grow inner _) _) declared
      (by rintro id ⟨sprout, found, -⟩; simp at found)
  obtain ⟨_, id⟩ := node
  obtain rfl := hs
  rw [form_ofSprouts, Array.getElem?_push] at store
  -- the whole file is no store, so the store is one of the declarations in it
  have declaration : id ∈ found := by
    split at store
    · cases store
    · cases hi : between.sprouts[id]? with
      | none => simp [hi, Form.isStore] at store
      | some sprout => exact lists id ⟨sprout, hi, by simpa [hi] using store⟩
  have whole : (Node.mk (Script.ofSprouts path
      (between.sprouts.push ⟨.module found, ⟨0, Text.byteLength source.toList⟩⟩)
      between.sprouts.size) between.sprouts.size).form = .module found := by
    rw [form_ofSprouts, Array.getElem?_push_size]
    rfl
  have above := linked.parent_of_mem rfl (List.mem_map.mpr ⟨id, by rw [whole]; exact declaration, rfl⟩)
  obtain rfl := Option.some.inj (above.symm.trans hp)
  rw [whole]
  rfl

end ScriptCheck
