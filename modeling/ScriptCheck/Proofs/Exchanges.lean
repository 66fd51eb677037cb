import ScriptCheck.Proofs.MethodSites

/-!
# One operand for another

In a script one name, call or escape is replaced by another, whose parts are nodes that were
inside it already. If none of them is a literal that takes its type from the place where it
stands, all types in the script can be asked for as before, except that of the operand itself.
-/

namespace ScriptCheck

open Movable (move)

/-- The script in which a node is something else. -/
def Script.withForm (script : Script) (place : NodeId) (form : Form) : Script :=
  { script with entries := script.entries.modify place fun entry => { entry with form } }

namespace Script

variable {script : Script} {place : NodeId} {form : Form}

theorem entry_withForm (id : NodeId) : ((script.withForm place form).node id).entry =
    if place = id then ((script.entries[id]?).map fun entry => { entry with form }).getD default
    else (script.node id).entry := by
  show ((script.entries.modify place _)[id]?).getD default = _
  rw [Array.getElem?_modify]
  split <;> rfl

theorem form_withForm_of_ne {id : NodeId} (other : id ≠ place) :
    ((script.withForm place form).node id).form = (script.node id).form := by
  rw [Node.form, entry_withForm, if_neg other.symm]
  rfl

theorem form_withForm (inside : place < script.size) :
    ((script.withForm place form).node place).form = form := by
  rw [Node.form, entry_withForm, if_pos rfl, Array.getElem?_eq_getElem inside]
  rfl

theorem parent_withForm (id : NodeId) :
    ((script.withForm place form).node id).entry.parent = (script.node id).entry.parent := by
  rw [entry_withForm]
  split
  · show _ = ((script.entries[id]?).getD default).parent
    cases script.entries[id]? <;> rfl
  · rfl

theorem loadsAlike_isolated (script other : Script) :
    script.LoadsAlike other .isolated .isolated := fun _ _ => rfl

/-- One operand may stand for another. -/
structure Exchange (script : Script) (place : NodeId) (form : Form) : Prop where
  placed : script.Placed
  operand : (script.node place).form.isOperand = true
  operand' : form.isOperand = true
  /-- No literal takes its type from the operand. -/
  settled : ∀ child ∈ (script.node place).children, child.needsContext = false

namespace Exchange

variable (exchange : script.Exchange place form)

include exchange

theorem inside : place < script.size := by
  have operand := exchange.operand
  have inner : (script.node place).form.isModule = false := by
    cases hf : (script.node place).form with
    | module => simp [hf, Form.isOperand] at operand
    | _ => rfl
  exact Node.lt_size_of_form inner

theorem form_place : ((script.withForm place form).node place).form = form :=
  form_withForm exchange.inside

theorem root_ne : script.root ≠ place := by
  rintro rfl
  have whole := exchange.placed.isModule_root
  have operand := exchange.operand
  rw [rootNode] at whole
  cases hf : (script.node script.root).form with
  | module => simp [hf, Form.isOperand] at operand
  | _ => simp [hf, Form.isModule] at whole

theorem recastAs : script.RecastAs (script.withForm place form) where
  path := rfl
  root := rfl
  whole := form_withForm_of_ne exchange.root_ne
  size := Array.size_modify
  parents := parent_withForm
  forms id := by
    by_cases here : id = place
    · subst here
      rw [exchange.form_place]
      exact .inr ⟨exchange.operand, exchange.operand'⟩
    · exact .inl (form_withForm_of_ne here)

/-- What expects something of a literal is not the operand. -/
theorem around {node parent : Node} (hs : node.script = script)
    (literal : node.needsContext = true) (hp : node.parent = some parent) :
    ((script.withForm place form).node parent.id).form = parent.form ∧
      ∀ inner, parent.form = .parenthesized inner → parent.needsContext = true := by
  have inside := exchange.placed.mem_of_parent hs hp
  subst hs
  obtain ⟨owner, above⟩ := parent
  obtain rfl : owner = node.script := Node.script_of_parent hp
  have away : above ≠ place := by
    rintro rfl
    rw [exchange.settled _ inside] at literal
    cases literal
  refine ⟨form_withForm_of_ne away, fun inner hf => ?_⟩
  have linked : (Node.mk node.script above).script.Linked := exchange.placed.toLinked
  rw [Node.needsContext_parenthesized linked hf, ← literal]
  rw [Node.children, hf] at inside
  exact congrArg Node.needsContext (List.mem_singleton.mp inside).symm

/-- The script is replaced by that with the other operand. -/
noncomputable def recast {before after : Imports}
    (loads : script.LoadsAlike (script.withForm place form) before after) : Recast :=
  .replacing exchange.recastAs loads (fun node => node.script = script → node.needsContext = true)
    (fun _ other same => absurd same other) (fun _ literal _ => literal)
    fun hs awaited hp =>
      have around := exchange.around hs (awaited hs) hp
      ⟨around.1, fun inner hf _ => around.2 inner hf⟩

variable (loads : script.LoadsAlike (script.withForm place form) before after)

theorem move_script : move (exchange.recast loads) script = script.withForm place form := swap_self

theorem move_node (id : NodeId) :
    move (exchange.recast loads) (script.node id) = (script.withForm place form).node id :=
  congrArg (Script.node · id) (exchange.move_script loads)

/-- Only the operand is something else. -/
theorem eq_of_changes {node : Node} (changes : (exchange.recast loads).Changes node) :
    node = script.node place := by
  obtain ⟨owner, id⟩ := node
  by_contra differs
  refine changes ?_
  show ((script.swap (script.withForm place form) owner).node id).form = (owner.node id).form
  by_cases hs : owner = script
  · subst hs
    rw [swap_self]
    refine form_withForm_of_ne fun here => differs ?_
    rw [here]
    rfl
  · rw [swap_of_ne hs]

end Exchange

end Script

end ScriptCheck
