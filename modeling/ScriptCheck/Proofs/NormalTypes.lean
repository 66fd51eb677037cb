import ScriptCheck.Proofs.CleanScripts
import ScriptCheck.Proofs.FreeInference
import ScriptCheck.Workspace.Source

/-!
# Inferred types have their unions in normal form

Every answer of inference is made from written types and from earlier answers by operations that
keep unions in normal form. Where members are taken out of a union first, the result is looked
into for a property or put together anew, and both restore the normal form. All this is known of
the types that come up while nothing changes.
-/

namespace ScriptCheck

namespace Ty

/-- Every union that a type is or has in it, at any depth, is in normal form. -/
inductive Normal : Ty → Prop
  | intro {type : Ty} : (∀ members, type = .union members → NormalMembers members) →
      (∀ part ∈ type.parts, Normal part) → Normal type

theorem Formed.normal (formed : Formed allowed True type) : Normal type := by
  induction formed with
  | intro _ own _ inside => exact .intro (own trivial) inside

end Ty

namespace Node

/-- Wherever the type of a node can be inferred, with or without its type parameters, every union
in it, at any depth, has at least two members or none, no union as a member and no member twice. -/
theorem infer_normal (imports : Imports) (depth : Nat) (node : Node) (keepGenerics : Bool) (type : Ty)
    (inferred : (node.infer? depth keepGenerics).answer? imports = some type) : type.Normal := by
  rw [infer?, Inference.answer?_bind] at inferred
  obtain ⟨found, typed, told⟩ := Option.bind_eq_some_iff.mp inferred
  have formed : found.Formed Reference.IsDeclared True :=
    (((Deeper.within_transfers imports (Nat.le_refl depth)).typeOf
      (Recast.together_idle (.standing imports)) trivial).reached found typed).1
  cases keepGenerics with
  | true =>
    cases told
    exact formed.normal
  | false =>
    cases told
    exact formed.eraseGenerics.normal

/-- Unions that are written, put together from branches and array entries, and bound to a type
parameter inside another union. -/
def unitedNotes : Reading :=
  .first ⟨"/main.bgl"⟩ ("type Note = string | nil\n" ++
    "func pick<T>(given: T, note: Note): { it: T | Note } => { it: given }\n" ++
    "func f(note: Note, size: number | nil) => pick([note, size ?? 'a'], note).it")

theorem unitedNotes_normal :
    ∃ type, ((unitedNotes.script.node 35).infer? 20 true).answer? Imports.isolated = some type ∧
      type.text = "(note: Note, size: number | nil) => (Note | number | string)[] | Note" ∧
      type.Normal := by
  have told : (((unitedNotes.script.node 35).infer? 20 true).answer? Imports.isolated).map Ty.text =
      some "(note: Note, size: number | nil) => (Note | number | string)[] | Note" := by
    decide +kernel
  obtain ⟨type, inferred, text⟩ := Option.map_eq_some_iff.mp told
  exact ⟨type, inferred, text, infer_normal _ _ _ _ type inferred⟩

end Node

end ScriptCheck
