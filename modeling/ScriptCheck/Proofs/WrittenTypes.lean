import ScriptCheck.Proofs.References

/-!
# Types written in given scripts

Types refer to nodes: a name to the place where it was written, and the type of a store to
its declaration. Whatever is done with types whose nodes belong to some scripts that import
only each other leads to such types again.
-/

namespace ScriptCheck

/-- The node that a type refers to by itself, leaving out its parts. -/
def Ty.node? : Ty → Option Node
  | named _ _ origin => some origin
  | store _ declaration => some declaration
  | _ => none

/-- Types that refer only to nodes of the given scripts. -/
inductive Ty.WrittenIn (scripts : List Script) : Ty → Prop
  | intro {type : Ty} (own : ∀ node ∈ type.node?, node.script ∈ scripts)
      (inside : ∀ part ∈ type.parts, Ty.WrittenIn scripts part) : Ty.WrittenIn scripts type

/-- References to nodes of the given scripts. -/
def Reference.Within (scripts : List Script) (reference : Reference) : Prop :=
  reference.node.script ∈ scripts

/-- Scripts that import only the given ones. -/
def Imports.Into (imports : Imports) (scripts : List Script) : Prop :=
  ∀ importer specifier target, imports importer specifier = some target → target ∈ scripts

namespace Ty

variable {scripts : List Script} {type : Ty}

theorem writtenIn_iff : type.WrittenIn scripts ↔
    (∀ node ∈ type.node?, node.script ∈ scripts) ∧ ∀ part ∈ type.parts, part.WrittenIn scripts :=
  ⟨fun ⟨own, inside⟩ => ⟨own, inside⟩, fun ⟨own, inside⟩ => ⟨own, inside⟩⟩

/-- A type is written in the scripts if the nodes it refers to belong to them. -/
theorem writtenIn_iff_refersOnly :
    type.WrittenIn scripts ↔ type.RefersOnly (Reference.Within scripts) := by
  have own : ∀ type : Ty, type.node? = type.reference?.map Reference.node := by
    intro type
    cases type <;> rfl
  induction type using parts_induction with
  | step type ih =>
    constructor
    · intro written
      obtain ⟨here, inside⟩ := writtenIn_iff.mp written
      refine .intro (fun reference hr => here _ ?_) nofun fun part hp =>
        (ih part hp).mp (inside part hp)
      rw [own]
      exact Option.mem_map_of_mem _ hr
    · intro only
      refine .intro (fun node hn => ?_) fun part hp => (ih part hp).mpr (only.parts part hp)
      rw [own] at hn
      obtain ⟨reference, hr, rfl⟩ := Option.map_eq_some_iff.mp hn
      exact only.own reference hr

end Ty

end ScriptCheck
