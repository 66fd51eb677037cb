import ScriptCheck.Proofs.Acceptance
import ScriptCheck.Proofs.Readings
import ScriptCheck.Proofs.Roots

/-!
# Comparing recursive types

A comparison of names that is already under way is taken to hold. This is sound: in a script
that imports no other, a yes is never taken back by seeing through more names. Names that
are not type parameters mean the same wherever they are written, so types that cannot be told
apart are seen through to such types, and a comparison that was taken to hold goes on as the
one that is under way.
-/

namespace ScriptCheck

open List

namespace Node

/-- For the names of types it makes no difference where in a module they are used. -/
theorem topLevel?_type (declaration : Node) (index : Nat) (child other : Node) (name : String) :
    declaration.topLevel? index child name .type = declaration.topLevel? index other name .type := by
  unfold topLevel? declares? typeName?
  cases declaration.form <;> simp

theorem scopeLookup?_type (scope child other : Node) (name : String) :
    scope.scopeLookup? child name .type = scope.scopeLookup? other name .type := by
  unfold scopeLookup?
  cases scope.form with
  | module declarations =>
    exact congrArg (Inquiry.firstAnswer · _) (funext fun row => topLevel?_type _ _ _ _ _)
  | _ => rfl

/-- A scope other than a module answers for types with the type parameters that lowering finds in
it. -/
theorem scopeLookup?_type_of_inner {scope : Node} (inner : scope.form.isModule = false) (child : Node)
    (name : String) : scope.scopeLookup? child name .type =
      pure ((scope.ownTypeParam? name).map fun param => .ok (.type param.asTypeParameter [])) := by
  unfold scopeLookup? ownTypeParam?
  cases hf : scope.form with
  | module => simp [hf, Form.isModule] at inner
  | func | proc | typeDeclaration | funcType | procType =>
    simp only [typeParamBinding?, typeParamNamed?_eq_find?, Form.typeParams]
  | _ => rfl

end Node

/-- What a name of a type is at the top level of a script. -/
def Script.typeNamed (imports : Imports) (script : Script) (name : String) : Lookup :=
  ((script.rootNode.scopeLookup? script.rootNode name .type).answer imports).getD
    (.error .unknownName)

/-- A reference by a name that means what it does at the top level. -/
def Reference.IsGlobal (imports : Imports) (script : Script) : Reference → Prop
  | .name text origin => (origin.resolveIn text .type).answer imports = script.typeNamed imports text
  | .store _ => True

/-- A type whose names mean what they do at the top level of a script. -/
abbrev Ty.IsGlobal (imports : Imports) (script : Script) (type : Ty) : Prop :=
  type.RefersOnly (Reference.IsGlobal imports script)

namespace Script.Rooted

variable {imports : Imports} {script : Script} {node ancestor : Node}

theorem encloses_of_mem_ancestors (rooted : script.Rooted) (inside : script.rootNode.Encloses node)
    (ha : ancestor ∈ node.ancestors) : script.rootNode.Encloses ancestor := by
  induction inside with
  | itself =>
    rw [Node.ancestors_of_no_parent rooted.parent_root] at ha
    cases ha
  | @child scope child inside hc ih =>
    rw [rooted.ancestors_of_mem inside.script_eq hc] at ha
    rcases mem_cons.mp ha with rfl | ha
    · exact inside
    · exact ih ha

/-- A name that is no type parameter means what it does at the top level. -/
theorem resolveIn_eq_typeNamed (rooted : script.Rooted) (inside : script.rootNode.Encloses node)
    (inner : node.form.isModule = false) {name : String}
    (free : node.typeParamInScope? name = none) :
    (node.resolveIn name .type).answer imports = script.typeNamed imports name := by
  induction inside with
  | itself =>
    rw [rooted.isModule_root] at inner
    cases inner
  | @child scope child inside hc ih =>
    have hs : scope.script = script := inside.script_eq
    rw [rooted.resolveIn_of_mem hs hc]
    cases hm : scope.form.isModule with
    | true =>
      have known : scope.id < script.size := hs ▸ Node.id_lt_of_mem_children hc
      obtain rfl : scope = script.rootNode := by
        obtain ⟨_, id⟩ := scope
        obtain rfl : _ = script := hs
        exact congrArg (Node.mk _) (rooted.eq_root rfl known hm)
      rw [Node.resolveIn_of_no_parent rooted.parent_root, Node.scopeLookup?_type _ child script.rootNode]
      rfl
    | false =>
      rw [Node.typeParamInScope?, rooted.ancestors_of_mem hs hc, findSome?_cons] at free
      split at free
      · cases free
      next own =>
      rw [Node.scopeLookup?_type_of_inner hm, Inquiry.answer_pure, own]
      exact ih hm free

/-- Type expressions that the root encloses refer to names of the top level. -/
theorem reads_global (rooted : script.Rooted) (imports : Imports) :
    Node.Reads script.rootNode.Encloses (Reference.IsGlobal imports script) where
  child inside hi := .child inside (mem_map_of_mem hi)
  typeParam {node param name} inside hp := by
    obtain ⟨ancestor, ha, ho⟩ := exists_of_findSome?_eq_some hp
    obtain ⟨id, hi, rfl⟩ := mem_map.mp (mem_of_find?_eq_some ho)
    refine .child (rooted.encloses_of_mem_ancestors inside ha) (mem_map_of_mem ?_)
    unfold Form.typeParams at hi
    split at hi <;> simp_all [Form.children]
  name inside hf free := rooted.resolveIn_eq_typeNamed inside (by rw [hf]; rfl) free
  store _ _ := trivial

/-- In a script that imports no other, the types that names stand for refer to names of the
top level. -/
theorem typeNamed_global (rooted : script.Rooted) (into : imports.Into [script])
    (found : script.typeNamed imports name = .ok (.type type params)) :
    type.IsGlobal imports script ∧ ∀ bound ∈ slotTypes params, bound.IsGlobal imports script := by
  unfold typeNamed at found
  cases hl : (script.rootNode.scopeLookup? script.rootNode name .type).answer imports with
  | none =>
    rw [hl] at found
    cases found
  | some lookup =>
    rw [hl] at found
    obtain rfl : lookup = .ok (.type type params) := found
    have reads := rooted.reads_global imports
    generalize hb : Binding.type type params = binding at hl
    have offers : script.rootNode.Offers imports binding := Node.grants_of_scopeLookup? hl
    cases offers with
    | declared | constant | parameter | importedModule | loopItem => cases hb
    | typeParam inside =>
      cases hb
      exact ⟨reads.asTypeParameter (.child .itself inside), by simp [slotTypes]⟩
    | named inside => exact reads.namedTypeBinding (.child .itself inside) hb.symm
    | exported _ loaded found declares =>
      obtain rfl := mem_singleton.mp (into _ _ _ loaded)
      obtain ⟨-, rfl | rfl⟩ := Node.cases_of_declares? declares
      · cases hb
      · exact reads.namedTypeBinding (.child .itself (mem_filter.mp found).1) hb.symm

end Script.Rooted

namespace Ty

variable {imports : Imports} {script : Script} {type left right destination value : Ty}

/-- Arguments that cannot be told apart give bindings that cannot be. -/
theorem LikeBindings.argumentBindings (params : List (Slot Ty)) (all : Forall₂ Like args others) :
    LikeBindings (argumentBindings params args) (argumentBindings params others) := by
  induction params generalizing args others with
  | nil => exact .nil
  | cons param params ih =>
    cases all with
    | nil => exact .cons ⟨rfl, .refl _⟩ (ih .nil)
    | cons first rest => exact .cons ⟨rfl, first⟩ (ih rest)

/-- Seeing through names of the top level leads to types that refer to such names. -/
theorem RefersOnly.expandWithin (rooted : script.Rooted) (into : imports.Into [script]) (limit : Nat)
    (only : type.IsGlobal imports script) :
    ((type.expandWithin limit).answer imports).IsGlobal imports script := by
  induction limit generalizing type with
  | zero => exact .leaf rfl rfl rfl
  | succ limit ih =>
    cases type with
    | named name args origin =>
      have global : (origin.resolveIn name .type).answer imports = script.typeNamed imports name :=
        only.own (.name name origin) rfl
      rw [Ty.expandWithin, Inquiry.answer_bind, global]
      split
      · next found params hr =>
        obtain ⟨inner, bounds⟩ := rooted.typeNamed_global into hr
        exact ih (inner.substitute (.argumentBindings bounds only.parts))
      · exact .leaf rfl rfl rfl
    | _ => exact only

/-- Types that cannot be told apart are seen through to types that cannot be. -/
theorem Like.expandWithin (rooted : script.Rooted) (into : imports.Into [script]) (limit : Nat)
    (like : Like left right) (hl : left.IsGlobal imports script)
    (hr : right.IsGlobal imports script) :
    Like ((left.expandWithin limit).answer imports) ((right.expandWithin limit).answer imports) := by
  induction limit generalizing left right with
  | zero => exact .refl _
  | succ limit ih =>
    cases left with
    | named name args origin =>
      cases right with
      | named other others elsewhere =>
        obtain rfl : name = other := congrArg Prod.fst (List.cons.inj like.head.labels).1
        have global : (origin.resolveIn name .type).answer imports = script.typeNamed imports name :=
          hl.own (.name name origin) rfl
        have also : (elsewhere.resolveIn name .type).answer imports = script.typeNamed imports name :=
          hr.own (.name name elsewhere) rfl
        rw [Ty.expandWithin, Ty.expandWithin, Inquiry.answer_bind, Inquiry.answer_bind, global, also]
        split
        · next found params hf =>
          obtain ⟨inner, bounds⟩ := rooted.typeNamed_global into hf
          refine ih (Like.substitute (.refl found) (.argumentBindings params like.parts)) ?_ ?_
          · exact inner.substitute (.argumentBindings bounds hl.parts)
          · exact inner.substitute (.argumentBindings bounds hr.parts)
        · exact .refl _
      | _ => cases like.isNamed
    | _ =>
      cases right with
      | named => cases like.isNamed
      | _ => exact like

/-- What comparisons of a type come to refers to nothing else. -/
theorem RefersOnly.compared (only : type.RefersOnly allowed) :
    ∀ part ∈ type.compared, part.RefersOnly allowed := by
  have slots : ∀ params : List (Slot Ty), (∀ part ∈ slotTypes params, part ∈ type.parts) →
      ∀ part ∈ params.map Slot.typeOrUnknown, part.RefersOnly allowed := by
    intro params hp part hm
    obtain ⟨slot, hs, rfl⟩ := mem_map.mp hm
    exact .typeOrUnknown (fun part hm => only.parts part (hp part hm)) hs
  intro part hp
  cases type with
  | union members =>
    rcases mem_append.mp hp with hp | hp
    · exact only.parts part hp
    · exact Formed.flattenList (fun member hm => (only.parts member hm).inside) part hp
  | object fields =>
    rcases mem_append.mp hp with hp | hp
    · exact only.parts part hp
    · obtain ⟨field, -, rfl⟩ := mem_map.mp hp
      exact .leaf rfl rfl rfl
  | func typeParams params result =>
    rcases mem_cons.mp hp with rfl | hp
    · exact only.parts part (by simp [Ty.parts])
    · exact slots params (fun part hm => by simp [Ty.parts, hm]) part hp
  | proc typeParams params => exact slots params (fun part hm => by simp [Ty.parts, hm]) part hp
  | named | nominal => cases hp
  | _ => exact only.parts part hp

/-- In a script that imports no other, names of the top level mean one thing. -/
theorem oneMeaning_global (rooted : script.Rooted) (into : imports.Into [script]) :
    OneMeaning ⟨imports, false⟩ (Ty.IsGlobal imports script) where
  compared only hp := only.compared _ hp
  seen only := by
    rw [side_false]
    exact only.expandWithin rooted into _
  like hl hr like := by
    rw [side_false, side_false]
    exact like.expandWithin rooted into _ hl hr

/-- The comparison without a list of comparisons under way, which goes on for the given number
of comparisons inside each other and then takes the rest to hold. -/
def unfoldsWithin : Nat → Ty → Ty → Inquiry Bool
  | 0, _, _ => return true
  | steps + 1, destination, value => do
    let destinationSide ← destination.resolveSide false
    let valueSide ← value.resolveSide false
    subsumesStep (unfoldsWithin steps) destinationSide valueSide

/-- Types that accept each other go on doing so for any number of steps. -/
theorem Accepts.unfoldsWithin (accepts : Accepts ⟨imports, false⟩ destination value) (steps : Nat) :
    (unfoldsWithin steps destination value).answer imports = true := by
  induction steps generalizing destination value with
  | zero => rfl
  | succ steps ih =>
    rw [Ty.unfoldsWithin, Inquiry.answer_bind, Inquiry.answer_bind]
    exact subsumesStep_mono (fun inner => ih (answer_asked.mp inner)) accepts.goesOn

/-- A yes is never taken back. In a script that imports no other, with recursive names or not,
if the type of one type expression subsumes that of another, then so it does when names are
seen through for any number of steps, with no comparison taken to hold because it is under
way. -/
theorem unfoldsWithin_of_subsumes {path : FilePath} {source : String}
    (read : parse path source = .ok script) (into : imports.Into [script])
    {destination value : Node} (hd : script.rootNode.Encloses destination)
    (hv : script.rootNode.Encloses value)
    (yes : (destination.lower.subsumes value.lower false).answer imports = true) (steps : Nat) :
    (unfoldsWithin steps destination.lower value.lower).answer imports = true := by
  have rooted := rooted_of_parse read
  have target : destination.lower.IsGlobal imports script := (rooted.reads_global imports).lower hd
  have source : value.lower.IsGlobal imports script := (rooted.reads_global imports).lower hv
  exact ((oneMeaning_global rooted into).accepts target source yes).unfoldsWithin steps

/-- Two types that take turns to be the rest of a list, and the lists of anything. -/
def takingTurns : Reading :=
  .first ⟨"/main.bgl"⟩ ("type Link<T> = \x7b item: T, next: Link<T> | nil \x7d\n" ++
    "type Odd = \x7b item: number, next: Even | nil \x7d\n" ++
    "type Even = \x7b item: number, next: Odd | nil \x7d\n" ++
    "func f(a: Odd): Link<number> => a")

/-- The lists of numbers subsume those that are made of two types in turn, which is found with
the second comparison of these under way, and seeing through any number of names confirms
it. -/
theorem takingTurns_unfolds :
    let script := takingTurns.script
    ((script.node 29).lower.subsumes (script.node 26).lower false).answer Imports.isolated = true ∧
      ∀ steps, (unfoldsWithin steps (script.node 29).lower (script.node 26).lower).answer
        Imports.isolated = true := by
  obtain ⟨faultless, hd, hv, yes⟩ : takingTurns.fault.isNone = true ∧
      takingTurns.script.leads takingTurns.script.root [32, 31] 29 = true ∧
      takingTurns.script.leads takingTurns.script.root [32, 31, 27] 26 = true ∧
      ((takingTurns.script.node 29).lower.subsumes (takingTurns.script.node 26).lower false).answer
        Imports.isolated = true := by
    decide +kernel
  have read : ∃ path source, parse path source = .ok takingTurns.script :=
    ⟨_, _, Reading.parse_of_faultless faultless⟩
  -- the script is only evaluated above
  generalize takingTurns.script = script at hd hv yes read ⊢
  obtain ⟨path, source, read⟩ := read
  have into : Imports.isolated.Into [script] := fun importer specifier target loaded => by cases loaded
  have inner : script.rootNode.Encloses (script.node 29) := Script.encloses_of_leads hd
  have outer : script.rootNode.Encloses (script.node 26) := Script.encloses_of_leads hv
  exact ⟨yes, unfoldsWithin_of_subsumes read into inner outer yes⟩

end Ty

end ScriptCheck
