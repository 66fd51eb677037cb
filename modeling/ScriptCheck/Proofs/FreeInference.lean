import ScriptCheck.Proofs.Recasts

/-!
# Inference that never comes back

The type of a node that is asked for while it is being inferred is unknown. An inference in which
no type is asked for so does not depend on what else is being inferred, and it is the same within
every depth that is enough for it.
-/

namespace ScriptCheck

open Movable (move)

namespace Deeper

/-- The type of a node, which has no answer if it is being inferred already. -/
def freeType (deeper : Deeper) (situation : Situation) (node : Node) : Inference Ty :=
  if situation.busy.contains node then .exhausted
  else deeper.formType { situation with busy := node :: situation.busy } node

/-- The questions answered with at most `depth` questions inside each other, if none of them is
for the type of a node that is being inferred already. -/
def freely : Nat → Deeper
  | 0 => .silent
  | depth + 1 => (freely depth).above (freely depth).freeType

open Inference (Transfers)

variable {graft : Transplant} {deeper deeper' : Deeper}

/-- The type of a node that is inferred freely is found alike if the node is not being inferred
after the change unless it was before. -/
theorem freeType_transfers (faithful : graft.Faithful)
    (transfers : deeper.TransfersTo graft deeper') (loose : ¬graft.exact)
    (fresh : ¬situation.busy.contains node = true →
      ¬situation'.busy.contains (move graft node) = true ∧
        graft.together { situation with busy := node :: situation.busy }
          { situation' with busy := move graft node :: situation'.busy } ∧
        graft.asked { situation with busy := node :: situation.busy } node ∧
        graft.Opens { situation with busy := node :: situation.busy } node) :
    Transfers graft (deeper.freeType situation node)
      (deeper'.nodeType situation' (move graft node)) graft.Writes := by
  unfold freeType nodeType
  by_cases again : situation.busy.contains node = true
  · rw [if_pos again]
    exact .exhausted fun exact_ => absurd exact_ loose
  · obtain ⟨free, together, asked, opens⟩ := fresh again
    rw [if_neg again, if_neg free]
    exact (transfers.course faithful together).formType (faithful.looks _) asked opens

end Deeper

/-! ### Where nothing changes -/

/-- No script is changed. -/
def Recast.standing (imports : Imports) : Recast where
  script := id
  path _ := rfl
  root _ := rfl
  whole _ := rfl
  size _ := rfl
  parents _ _ := rfl
  forms _ _ := .inl rfl
  before := imports
  after := imports
  imports _ _ := Option.map_id'.symm
  exact := False
  busy busy busy' := busy' = busy.map (move .standing)
  idle := List.map_nil.symm
  awaited _ := True
  awaits _ _ := trivial
  around _ _ := ⟨rfl, fun _ _ => trivial⟩

theorem Recast.opens_standing (imports : Imports) (situation : Situation) (node : Node) :
    (standing imports).graft.Opens situation node := opens _ rfl situation

/-- No script is changed, and some of what was being inferred may not be any more. -/
def Recast.relieved (imports : Imports) : Recast :=
  { standing imports with
    busy := fun busy busy' => ∀ node, busy'.contains node → busy.contains node
    idle := fun _ => id }

namespace Deeper

open Inference (Transfers)

variable (imports : Imports) {depth depth' : Nat}

/-- What is answered freely is answered within a depth that is not less, whatever else is being
inferred of what was being inferred before. -/
theorem freely_transfers (hd : depth ≤ depth') :
    (freely depth).TransfersTo (Recast.relieved imports).graft (within depth') := by
  induction depth generalizing depth' with
  | zero => exact silent_transfers False.elim
  | succ depth ih =>
    obtain ⟨deeper, rfl⟩ : ∃ deeper, depth' = deeper + 1 := ⟨depth' - 1, by omega⟩
    have faithful := (Recast.relieved imports).faithful
    have below := ih (Nat.le_of_succ_le_succ hd)
    rw [within_succ]
    refine above_transfers faithful below fun {situation situation' node} hs _ => ?_
    refine freeType_transfers faithful below id fun again =>
      ⟨fun busy => again (hs.busy node busy),
        ⟨hs.expectations, fun other busy => ?_, hs.written⟩, trivial,
        Recast.opens _ rfl _⟩
    rw [List.contains_cons, Bool.or_eq_true] at busy ⊢
    exact busy.imp_right (hs.busy other)

/-- What is answered within a depth is answered alike within every depth that is not less. -/
theorem within_transfers (hd : depth ≤ depth') :
    (within depth).TransfersTo (Recast.standing imports).graft (within depth') :=
  @Recast.within_transfers (.standing imports) _ _ rfl hd False.elim fun _ _ changes =>
    absurd rfl changes

end Deeper

namespace Node

variable {imports : Imports} {node : Node} {depth depth' : Nat}

/-- The type of a node is inferred without asking for any type that is being inferred already. -/
def InfersFreely (imports : Imports) (node : Node) : Prop :=
  ∃ depth, (((Deeper.freely depth).typeOf .idle node).answer? imports).isSome = true

/-- A type that is inferred freely is the type of the node within all depths from some on. -/
theorem infer?_of_freely
    (free : ((Deeper.freely depth).typeOf .idle node).answer? imports = some type)
    (hd : depth ≤ depth') : (node.infer? depth' true).answer? imports = some type := by
  have typed := ((Deeper.freely_transfers imports hd).typeOf ⟨rfl, fun _ busy => busy, by simp [Situation.idle]⟩
    trivial).reached type free
  rw [infer?, Inference.answer?_bind, ← Ty.move_standing type]
  exact congrArg (Option.bind · _) typed.2

end Node

end ScriptCheck
