import ScriptCheck.Workspace.Source
import Mathlib.Tactic.Common

/-!
# Readings that stay the same

A reading keeps its version when the new script is found to be the same as the one before.
Found to be the same are scripts that are equal up to the sign of a zero in a literal type,
so without negative zeros an unchanged version means an unchanged script.
-/

namespace ScriptCheck

/-- Whether the number is the zero with a negative sign. -/
def Number.isNegativeZero : Number → Bool
  | .finite true 0 _ => true
  | _ => false

/-- Whether the form is the literal type `-0`. -/
def Form.isNegativeZero : Form → Bool
  | .literalType (.number value) => value.isNegativeZero
  | _ => false

/-- Whether the literal type `-0` is written in the script. -/
def Script.hasNegativeZero (script : Script) : Bool :=
  script.entries.any fun entry => entry.form.isNegativeZero

/-- Equal numbers are the same unless one of them is a negative zero. -/
theorem Number.eq_of_equals {left right : Number} (same : left.equals right = true)
    (hl : left.isNegativeZero = false) (hr : right.isNegativeZero = false) : left = right := by
  cases left with
  | nan => cases right <;> simp [equals] at same
  | infinite leftSign =>
    cases right with
    | infinite rightSign => simpa [equals] using same
    | _ => simp [equals] at same
  | finite leftSign leftSignificand leftExponent =>
    cases right with
    | finite rightSign rightSignificand rightExponent =>
      simp only [equals, Bool.and_eq_true, Bool.or_eq_true, beq_iff_eq] at same
      obtain ⟨⟨rfl, rfl⟩, rfl | rfl⟩ := same
      · rfl
      · cases leftSign <;> cases rightSign <;> simp_all [isNegativeZero]
    | _ => simp [equals] at same

/-- Equal forms are the same unless one of them is the literal type `-0`. -/
theorem Form.eq_of_equals {left right : Form} (same : left.equals right = true)
    (hl : left.isNegativeZero = false) (hr : right.isNegativeZero = false) : left = right := by
  unfold equals at same
  split at same
  · rename_i leftLiteral rightLiteral
    cases leftLiteral <;> cases rightLiteral <;>
      simp only [Literal.equals, beq_iff_eq, Bool.false_eq_true] at same
    · rw [Number.eq_of_equals same hl hr]
    · rw [same]
    · rw [same]
  · exact eq_of_beq same

/-- Scripts of one file that are found to be the same are equal if they have no negative
zeros. -/
theorem Script.eq_of_sameAs {left right : Script} (same : left.sameAs right = true)
    (hp : left.path = right.path) (hl : left.hasNegativeZero = false)
    (hr : right.hasNegativeZero = false) : left = right := by
  unfold sameAs at same
  simp only [Bool.and_eq_true, beq_iff_eq, List.all_eq_true] at same
  obtain ⟨⟨⟨-, hroot⟩, hs⟩, he⟩ := same
  have entries : left.entries = right.entries := by
    refine Array.ext hs ?_
    intro index hil hir
    have hm : (left.entries[index], right.entries[index]) ∈
        left.entries.toList.zip right.entries.toList := by
      have hz : index < (left.entries.toList.zip right.entries.toList).length := by
        simp only [List.length_zip, Array.length_toList]
        omega
      refine List.mem_iff_getElem.mpr ⟨index, hz, ?_⟩
      simp
    obtain ⟨⟨hf, hspan⟩, hparent⟩ := he _ hm
    have plain : ∀ {script : Script} {index : Nat} (hi : index < script.entries.size),
        script.hasNegativeZero = false → script.entries[index].form.isNegativeZero = false := by
      intro script index hi hz
      simpa using Array.any_eq_false.mp hz index hi
    have form := Form.eq_of_equals hf (plain hil hl) (plain hir hr)
    generalize left.entries[index] = first at *
    generalize right.entries[index] = second at *
    cases first
    cases second
    simp_all
  cases left
  cases right
  simp_all

variable {text : String} {path : FilePath}

/-- A parsed script has the path that its text was read from. -/
theorem path_of_parse (hp : parse path text = .ok script) : script.path = path := by
  unfold parse at hp
  split at hp
  · cases hp
  · unfold Grammar.scriptOf at hp
    split at hp
    · cases hp
    · cases hp
      rfl

/-- What is read from a path is a script with that path. -/
@[simp] theorem Reading.path_first (path : FilePath) (text : String) :
    (Reading.first path text).script.path = path := by
  unfold first
  split
  · rename_i script hp
    exact path_of_parse hp
  · rfl

/-- A text that is no script has a fault, so a text without one was read. -/
theorem Reading.parse_of_faultless (hf : (Reading.first path text).fault.isNone = true) :
    parse path text = .ok (Reading.first path text).script := by
  unfold first at hf ⊢
  split at hf
  · next script hp => rw [hp]
  · cases hf

namespace Source

/-- The script that the current text of a source is, and what is wrong with it. -/
def scripted (source : Source) : Script := (Reading.first source.path source.text).script

/-- A source whose latest reading is of its own path, holds no negative zeros, and is a
reading of the current text unless the text was replaced. -/
structure Sound (source : Source) : Prop where
  /-- The current text has no negative zeros. -/
  plain : source.scripted.hasNegativeZero = false
  /-- The latest reading is a script of the same file without negative zeros. -/
  latest : ∀ {last}, source.reading? = some last →
    last.script.path = source.path ∧ last.script.hasNegativeZero = false
  /-- The latest reading is up to date unless the text was replaced. -/
  current : ∀ {last}, source.reading? = some last → source.outdated = false →
    last.script = source.scripted ∧ last.fault = (Reading.first source.path source.text).fault

variable {source : Source}

/-- A file that nobody has read yet is sound if its text has no negative zeros. -/
theorem sound_unread (plain : (Reading.first path text).script.hasNegativeZero = false) :
    (unread path text).Sound where
  plain := plain
  latest := by
    intro last hl
    cases hl
  current := by
    intro last hl
    cases hl

namespace Sound

/-- A sound source reads as what its text says, whatever was read before. -/
theorem reading_eq (sound : source.Sound) :
    source.reading.script = source.scripted ∧
      source.reading.fault = (Reading.first source.path source.text).fault := by
  unfold reading
  cases hl : source.reading? with
  | none => exact ⟨rfl, rfl⟩
  | some last =>
    cases ho : source.outdated with
    | true => exact ⟨rfl, rfl⟩
    | false => simpa using sound.current hl ho

/-- The next reading has the version and the script of the latest one, or a later version. -/
theorem version_reading (sound : source.Sound) {last : Reading} (hl : source.reading? = some last) :
    (source.reading.version = last.version ∧ source.reading.script = last.script) ∨
      source.reading.version = last.version + 1 := by
  unfold reading
  simp only [hl]
  cases ho : source.outdated with
  | false => exact .inl ⟨rfl, rfl⟩
  | true =>
    simp only [if_true, Reading.next]
    cases hs : (Reading.first source.path source.text).script.sameAs last.script with
    | false => exact .inr rfl
    | true =>
      obtain ⟨hp, hz⟩ := sound.latest hl
      refine .inl ⟨rfl, Script.eq_of_sameAs hs ?_ sound.plain hz⟩
      rw [Reading.path_first, hp]

/-- The version stays exactly if the text was not replaced or is found to be the same script. -/
theorem version_eq_iff (sound : source.Sound) (hl : source.reading? = some last) :
    source.reading.version = last.version ↔
      ¬ (source.outdated = true ∧ source.reading.script.sameAs last.script = false) := by
  rw [sound.reading_eq.1]
  unfold reading
  cases ho : source.outdated with
  | false => simp [hl]
  | true =>
    simp only [hl, if_true, Reading.next, true_and, Bool.not_eq_false]
    cases hs : (Reading.first source.path source.text).script.sameAs last.script with
    | false => simp [scripted, hs]
    | true => simp [scripted, hs]

/-- Reading the current text keeps a source sound. -/
theorem refreshed (sound : source.Sound) : source.refreshed.Sound where
  plain := sound.plain
  latest := by
    intro last hl
    cases hl
    rw [sound.reading_eq.1]
    exact ⟨Reading.path_first _ _, sound.plain⟩
  current := by
    intro last hl _
    cases hl
    exact sound.reading_eq

/-- A source stays sound with a new text without negative zeros. -/
theorem replace (sound : source.Sound)
    (plain : (Reading.first source.path text).script.hasNegativeZero = false) :
    (source.replace text).Sound where
  plain := plain
  latest := fun hl => sound.latest hl
  current := by
    intro last _ ho
    cases ho

end Sound

/-- A later reading has the version of an earlier one, and then its script, exactly if nothing has
changed. -/
structure Follows (first last : Reading) (unchanged : Prop) : Prop where
  le : first.version ≤ last.version
  version : last.version = first.version ↔ unchanged
  script : last.version = first.version → last.script = first.script

/-- The next reading keeps the version if nothing has changed so far and the text is found to be
the same script. -/
theorem Follows.reading (follows : Follows first last unchanged) (sound : source.Sound)
    (hl : source.reading? = some last) :
    Follows first source.reading (unchanged ∧
      ¬ (source.outdated = true ∧ source.reading.script.sameAs first.script = false)) := by
  have stays := sound.version_eq_iff hl
  rcases sound.version_reading hl with ⟨version, script⟩ | later
  · refine ⟨version ▸ follows.le, ?_, fun same => ?_⟩
    · rw [version, follows.version]
      refine ⟨fun unchanged => ⟨unchanged, ?_⟩, And.left⟩
      rw [← follows.script (follows.version.mpr unchanged)]
      exact stays.mp version
    · rw [script]
      exact follows.script (version ▸ same)
  · have le := follows.le
    refine ⟨by omega, ⟨fun same => by omega, fun both => ?_⟩, fun same => by omega⟩
    have version := follows.version.mpr both.1
    have same := stays.mpr (follows.script version ▸ both.2)
    omega

/-- Reading the current text twice gives the same. -/
@[simp] theorem reading_refreshed (source : Source) :
    source.refreshed.reading = source.reading := rfl

end Source

end ScriptCheck
