import ScriptCheck.Tree.Script

/-!
# Inquiries and the scripts consulted for them

Questions about a script may lead into the scripts it imports. An answer is kept
together with the paths of the scripts that were loaded to reach it, in the order
of their first use, so that a caller knows when the answer is still good: an inquiry
has another answer only after one of these scripts has changed.
-/

namespace ScriptCheck

/-- Paths with the same steps are interchangeable in comparisons. -/
instance : EquivBEq FilePath where
  rfl := by
    intro path
    show (path.steps == path.steps) = true
    exact beq_self_eq_true path.steps
  symm := by
    intro left right same
    have hs : left.steps = right.steps := eq_of_beq same
    show (right.steps == left.steps) = true
    rw [hs]
    exact beq_self_eq_true right.steps
  trans := by
    intro first second third same next
    have hs : first.steps = second.steps := eq_of_beq same
    have hn : second.steps = third.steps := eq_of_beq next
    show (first.steps == third.steps) = true
    rw [hs, hn]
    exact beq_self_eq_true third.steps

/-- An answer and the scripts loaded on the way to it. -/
structure Consulted (α : Type) where
  /-- The answer itself. -/
  answer : α
  /-- Paths of the scripts loaded for it, each once, in order of first use. -/
  sources : List FilePath

namespace Consulted

/-- The paths of both lists, each once, in order of first use. -/
def mergeSources (first second : List FilePath) : List FilePath :=
  first ++ second.filter fun path => !first.contains path

/-- A merge holds the paths of both lists, compared by their steps. -/
theorem contains_mergeSources (first second : List FilePath) (path : FilePath) :
    (mergeSources first second).contains path =
      (first.contains path || second.contains path) := by
  rw [Bool.eq_iff_iff]
  simp only [mergeSources, List.contains_iff_exists_mem_beq, Bool.or_eq_true, List.mem_append,
    List.mem_filter, Bool.not_eq_true']
  constructor
  · rintro ⟨found, hf | ⟨hf, -⟩, same⟩
    · exact .inl ⟨found, hf, same⟩
    · exact .inr ⟨found, hf, same⟩
  · rintro (⟨found, hf, same⟩ | ⟨found, hf, same⟩)
    · exact ⟨found, .inl hf, same⟩
    · by_cases hk : first.contains found = true
      · obtain ⟨kept, hm, hb⟩ := List.contains_iff_exists_mem_beq.mp hk
        exact ⟨kept, .inl hm, BEq.trans same hb⟩
      · exact ⟨found, .inr ⟨hf, by simpa using hk⟩, same⟩

/-- A merge holds only paths of the two lists. -/
theorem mem_of_mem_mergeSources {first second : List FilePath} {path : FilePath}
    (hm : path ∈ mergeSources first second) : path ∈ first ∨ path ∈ second :=
  (List.mem_append.mp hm).imp_right fun later => (List.mem_filter.mp later).1

/-- An answer for which nothing is loaded. -/
def alone {α : Type} (answer : α) : Consulted α := ⟨answer, []⟩

/-- An answer that depends on an earlier one. -/
def andThen {α β : Type} (first : Consulted α) (next : α → Consulted β) : Consulted β :=
  let second := next first.answer
  ⟨second.answer, mergeSources first.sources second.sources⟩

end Consulted

/-- How the import specifiers written in a script are turned into scripts. -/
abbrev Imports := Script → String → Option Script

namespace Imports

/-- Nothing but scripts outside the given sources has changed. -/
def AgreeOn (sources : List FilePath) (before after : Imports) : Prop :=
  ∀ importer specifier, after importer specifier = before importer specifier ∨
    ∃ target, before importer specifier = some target ∧ sources.contains target.path = false

/-- What agrees on some sources agrees on fewer. -/
theorem AgreeOn.mono {more fewer : List FilePath} {before after : Imports}
    (agree : AgreeOn more before after)
    (hf : ∀ path, more.contains path = false → fewer.contains path = false) :
    AgreeOn fewer before after := by
  intro importer specifier
  rcases agree importer specifier with same | ⟨target, ht, hn⟩
  · exact .inl same
  · exact .inr ⟨target, ht, hf _ hn⟩

/-- The script that a specifier names, and that it was loaded. -/
def load (imports : Imports) (importer : Script) (specifier : String) :
    Consulted (Option Script) :=
  match imports importer specifier with
  | none => ⟨none, []⟩
  | some target => ⟨some target, [target.path]⟩

end Imports

/-- A question about scripts. Its answer depends on how they import each other, and only
on the scripts that are loaded for it. -/
structure Inquiry (α : Type) where
  /-- The answer, given how scripts import each other. -/
  ask : Imports → Consulted α
  /-- Changes in other scripts than those loaded make no difference. -/
  tracked : ∀ before after, Imports.AgreeOn (ask before).sources before after →
    ask after = ask before
  /-- Only scripts that an import leads to are loaded. -/
  loaded : ∀ imports : Imports, ∀ path ∈ (ask imports).sources, ∃ importer specifier target,
    imports importer specifier = some target ∧ target.path = path

namespace Inquiry

/-- A question that is answered already. -/
def settled {α : Type} (answer : α) : Inquiry α where
  ask := fun _ => .alone answer
  tracked := fun _ _ _ => rfl
  loaded := fun _ _ hm => nomatch hm

/-- A question that depends on the answer to an earlier one. -/
def andThen {α β : Type} (first : Inquiry α) (next : α → Inquiry β) : Inquiry β where
  ask := fun imports => (first.ask imports).andThen fun answer => (next answer).ask imports
  tracked := by
    intro before after agree
    have hm := Consulted.contains_mergeSources (first.ask before).sources
      ((next (first.ask before).answer).ask before).sources
    have hf : first.ask after = first.ask before :=
      first.tracked before after (agree.mono fun path hp =>
        (Bool.or_eq_false_iff.mp ((hm path).symm.trans hp)).1)
    have hn : (next (first.ask before).answer).ask after =
        (next (first.ask before).answer).ask before :=
      (next _).tracked before after (agree.mono fun path hp =>
        (Bool.or_eq_false_iff.mp ((hm path).symm.trans hp)).2)
    simp only [Consulted.andThen, hf, hn]
  loaded := by
    intro imports path hm
    rcases Consulted.mem_of_mem_mergeSources hm with hm | hm
    · exact first.loaded imports path hm
    · exact (next _).loaded imports path hm

instance : Monad Inquiry where
  pure := settled
  bind := andThen

/-- The answer alone. -/
def answer {α : Type} (inquiry : Inquiry α) (imports : Imports) : α :=
  (inquiry.ask imports).answer

end Inquiry

/-- The script that a specifier, written in the same script as the node, names. -/
def Node.load (importer : Node) (specifier : String) : Inquiry (Option Script) where
  ask := fun imports => imports.load importer.script specifier
  tracked := by
    intro before after agree
    rcases agree importer.script specifier with same | ⟨target, ht, hn⟩
    · simp only [Imports.load, same]
    · simp [Imports.load, ht] at hn
  loaded := by
    intro imports path hm
    unfold Imports.load at hm
    split at hm
    · cases hm
    · next target found =>
      exact ⟨importer.script, specifier, target, found, (List.mem_singleton.mp hm).symm⟩

end ScriptCheck
