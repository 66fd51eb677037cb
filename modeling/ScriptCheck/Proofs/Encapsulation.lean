import ScriptCheck.Proofs.Properties
import ScriptCheck.Proofs.Readings

/-!
# The members of stores

A member of a store is kept from what is outside the store, as far as its access says. In a
script without problems this holds wherever a store is accessed as such. It does not hold
where the store is accessed through a readonly type or a union, in which a property is
looked for without a look at its access.
-/

namespace ScriptCheck

open Option
open Inference
open Script

/-- The store is found in a type by seeing through names, readonly types and unions. -/
inductive Ty.HoldsStore (imports : Imports) (declaration : Node) : Ty → Prop
  | own (name : String) : HoldsStore imports declaration (.store name declaration)
  | named {type : Ty} : type.isNamed = true →
      HoldsStore imports declaration (type.expand.answer imports) → HoldsStore imports declaration type
  | readonly {inner : Ty} : HoldsStore imports declaration inner →
      HoldsStore imports declaration (.readonly inner)
  | union {members : List Ty} {member : Ty} : member ∈ members →
      HoldsStore imports declaration member → HoldsStore imports declaration (.union members)

/-- Whether a node is outside a store and the name is that of a member with one of the given
kinds of access. -/
def Node.isOutside (node declaration : Node) (name : String) (kinds : Access → Bool) : Bool :=
  (declaration.storeMember? name).any (fun member => member.access?.any kinds) &&
    !node.isDescendantOf declaration

/-- Whether a member is reached inside the store only. -/
def Access.isPrivate (access : Access) : Bool := access == .inside

/-- Whether a member is written inside the store only. -/
def Access.isProtected (access : Access) : Bool := access != .everywhere

/-- No store in a type has a member of the name that is kept from the node. -/
def Ty.Guards (imports : Imports) (type : Ty) (node : Node) (name : String) (kinds : Access → Bool) :
    Prop :=
  ∀ declaration, type.HoldsStore imports declaration → node.isOutside declaration name kinds = false

/-- The stores that are found in a type within the given number of steps. -/
def Ty.storesWithin (imports : Imports) : Nat → Ty → List Node
  | 0, _ => []
  | _ + 1, .store _ declaration => [declaration]
  | limit + 1, .readonly inner => inner.storesWithin imports limit
  | limit + 1, .union members => members.flatMap fun member => member.storesWithin imports limit
  | limit + 1, .named name args origin =>
    ((Ty.named name args origin).expand.answer imports).storesWithin imports limit
  | _ + 1, _ => []

theorem Ty.holdsStore_of_mem {type : Ty} (hm : declaration ∈ type.storesWithin imports limit) :
    type.HoldsStore imports declaration := by
  fun_induction Ty.storesWithin imports limit type with
  | case1 => cases hm
  | case2 _ name other =>
    obtain rfl := List.mem_singleton.mp hm
    exact .own name
  | case3 limit inner ih => exact .readonly (ih hm)
  | case4 limit members ih =>
    obtain ⟨member, hmember, hm⟩ := List.mem_flatMap.mp hm
    exact .union hmember (ih member hm)
  | case5 limit name args origin ih => exact .named rfl (ih hm)
  | case6 => cases hm

/-- A store that is found and has a member that is kept from the node is not guarded. -/
theorem Ty.not_guards_of_any {type : Ty} {node : Node} {name : String}
    (some : (type.storesWithin imports limit).any (node.isOutside · name kinds) = true) :
    ¬type.Guards imports node name kinds := by
  intro guards
  obtain ⟨declaration, hm, outside⟩ := List.any_eq_true.mp some
  rw [guards declaration (holdsStore_of_mem hm)] at outside
  cases outside

/-- A type that is neither readonly nor a union holds a store only as the store itself or by
its name. -/
theorem Ty.HoldsStore.eq_or_isNamed {type : Ty} (holds : type.HoldsStore imports declaration)
    (hl : type.isLayered = false) :
    (∃ name, type = .store name declaration) ∨ type.isNamed = true := by
  cases holds with
  | own name => exact .inl ⟨name, rfl⟩
  | named hn _ => exact .inr hn
  | readonly _ => cases hl
  | union _ _ => cases hl

theorem Node.exists_of_isOutside {node declaration : Node}
    (outside : node.isOutside declaration name kinds = true) :
    ∃ member access, declaration.storeMember? name = some member ∧ member.access? = some access ∧
      kinds access = true ∧ node.isDescendantOf declaration = false := by
  simp only [isOutside, Bool.and_eq_true, any_eq_true, Bool.not_eq_true'] at outside
  obtain ⟨⟨member, hm, access, ha, hk⟩, hd⟩ := outside
  exact ⟨member, access, hm, ha, hk, hd⟩

namespace Deeper

variable {imports : Imports} {deeper : Deeper} {situation : Situation} {name : String} {type : Ty}

/-- Names are not searched for properties. -/
theorem propertyType_of_isNamed (hn : type.isNamed = true) :
    (deeper.propertyType situation type name).answer? imports = some none := by
  cases type with
  | named => rfl
  | _ => cases hn

/-- The members of a store are found. -/
theorem propertyType_store_ne (hm : declaration.storeMember? name = some member) :
    (deeper.propertyType situation (.store storeName declaration) name).answer? imports ≠ some none := by
  simp only [propertyType, hm, answer?_bind, answer?_pure]
  cases (deeper.declarationType situation member).answer? imports <;> simp

end Deeper

namespace Inspection

variable {imports : Imports} {inspection : Inspection} {node declaration : Node} {name : String}
  {optional : Bool} {base : Ty} {subject : NodeId}

/-- The type that an access looks into: the type of the subject, seen through names, and
without `nil` if the access is optional. -/
def accessedType (inspection : Inspection) (subject : Node) (optional : Bool) : Inference Ty := do
  accessedBase (← inspection.expandedType subject) optional

/-- Where nothing is said about the privacy of a member, private ones are guarded. -/
theorem guards_of_privacy (hl : base.isLayered = false) (hn : base.isNamed = false)
    (clean : privacy node base name = []) : base.Guards imports node name Access.isPrivate := by
  intro declaration holds
  obtain ⟨storeName, rfl⟩ := (holds.eq_or_isNamed hl).resolve_right (by simp [hn])
  cases outside : node.isOutside declaration name Access.isPrivate with
  | false => rfl
  | true =>
    obtain ⟨member, access, hm, ha, hk, hd⟩ := Node.exists_of_isOutside outside
    obtain rfl : access = .inside := by simpa [Access.isPrivate] using hk
    simp [privacy, hm, ha, hd] at clean

/-- A type in which no property of the name is found guards all members of the name. -/
theorem guards_of_propertyType {situation : Situation} (hl : base.isLayered = false)
    (hn : base.isNamed = false)
    (none : (inspection.answers.propertyType situation base name).answer? imports = some none)
    (kinds : Access → Bool) : base.Guards imports node name kinds := by
  intro declaration holds
  obtain ⟨storeName, rfl⟩ := (holds.eq_or_isNamed hl).resolve_right (by simp [hn])
  cases outside : node.isOutside declaration name kinds with
  | false => rfl
  | true =>
    obtain ⟨member, access, hm, -⟩ := Node.exists_of_isOutside outside
    exact absurd none (Deeper.propertyType_store_ne hm)

section

variable (hf : node.form = .property subject name optional)
include hf

/-- The function of a method-style call is looked for in the type of its subject, which has no
property of that name. -/
theorem exists_of_isMethod (method : (inspection.isMethod node).answer? imports = some true) :
    optional = false ∧ ∃ type, (inspection.typeOf (node.sibling subject)).answer? imports = some type ∧
      (inspection.answers.propertyType .idle (type.expand.answer imports) name).answer? imports =
        some none := by
  unfold isMethod at method
  split at method
  · cases method
  next parent hp =>
  split at method
  · next callee typeArgs args hform =>
    split at method
    · next hc =>
      have accessor : parent.sibling callee = node := by
        obtain ⟨id, -, rfl⟩ := map_eq_some_iff.mp hp
        exact congrArg node.sibling hc
      simp only [Deeper.methodCall?, hform, accessor, hf] at method
      cases optional with
      | true => cases method
      | false =>
        refine ⟨rfl, ?_⟩
        simp only [Inquirer.expand, answer?_bind, answer?_lift,
          bind_eq_some_iff, bind_some] at method
        obtain ⟨called, ⟨type, ht, found, hfound, answered⟩, hs⟩ := method
        refine ⟨type, ht, ?_⟩
        cases found with
        | none => exact hfound
        | some =>
          simp only [isSome_some, if_true, answer?_pure, Option.some.injEq] at answered
          subst answered
          cases hs
    · cases method
  · cases method

/-- Nothing is said about an access only if private members are guarded by the type it looks
into, unless this is readonly or a union. -/
theorem guards_of_property_clean
    (clean : (inspection.property false node (node.sibling subject) name optional).answer? imports =
      some []) :
    ∃ base, (inspection.accessedType (node.sibling subject) optional).answer? imports = some base ∧
      (base.isLayered = false → base.Guards imports node name Access.isPrivate) := by
  unfold property at clean
  rw [answer?_bind, bind_eq_some_iff] at clean
  obtain ⟨method, hm, clean⟩ := clean
  cases method with
  | true =>
    obtain ⟨rfl, type, ht, none⟩ := exists_of_isMethod hf hm
    refine ⟨type.expand.answer imports, ?_, fun hl => ?_⟩
    · simp [accessedType, expandedType, accessedBase, Inquirer.expand, ht]
    · exact guards_of_propertyType hl (Ty.isNamed_expand type) none _
  | false =>
    simp only [Bool.false_eq_true, if_false, Bool.false_and, answer?_bind,
      bind_eq_some_iff] at clean
    obtain ⟨whole, hw, base, hb, found, hfound, clean⟩ := clean
    refine ⟨base, by simp [accessedType, hw, hb], fun hl => ?_⟩
    cases found with
    | none => simp at clean
    | some type =>
      have hn : base.isNamed = false := by
        cases hn : base.isNamed with
        | false => rfl
        | true =>
          rw [Deeper.propertyType_of_isNamed hn] at hfound
          cases hfound
      exact guards_of_privacy hl hn (by simpa using clean)

/-- Nothing is said about the target of an assignment only if its members that are not public
are guarded by the type of its subject, unless this is a union. -/
theorem guards_of_assignmentTarget_clean
    (clean : (inspection.assignmentTarget node).answer? imports = some []) :
    ∃ base, (inspection.expandedType (node.sibling subject)).answer? imports = some base ∧
      (base.isUnion = false → base.Guards imports node name Access.isProtected) := by
  cases optional with
  | true =>
    simp only [assignmentTarget, hf] at clean
    cases clean
  | false =>
    simp only [assignmentTarget, hf, answer?_bind, bind_eq_some_iff] at clean
    obtain ⟨base, hb, clean⟩ := clean
    refine ⟨base, hb, fun hu declaration holds => ?_⟩
    have hn : base.isNamed = false := by
      simp only [expandedType, Inquirer.expand, answer?_bind, bind_eq_some_iff,
        answer?_lift, Option.some.injEq] at hb
      obtain ⟨type, -, rfl⟩ := hb
      exact Ty.isNamed_expand type
    cases holds with
    | own storeName =>
      cases outside : node.isOutside declaration name Access.isProtected with
      | false => rfl
      | true =>
        obtain ⟨member, access, hm, ha, hk, hd⟩ := Node.exists_of_isOutside outside
        have kept : access ≠ .everywhere := by simpa [Access.isProtected] using hk
        simp [hm, ha, hd, kept] at clean
    | named named _ => simp [hn] at named
    | readonly _ => simp at clean
    | union _ _ => cases hu

end

end Inspection

/-- Stores are accessed as such only where they may be. In a script without problems, each
access looks into a type that, unless it is readonly or a union, guards the private members
of the stores in it from outside, and each assignment to a property has a subject with a type
that, unless it is a union, guards all members of the stores in it that are not public. -/
theorem Script.guards_stores {imports : Imports} {depth : Nat} {script : Script} {node : Node}
    (clean : (script.problems? depth).answer? imports = some [])
    (inside : script.rootNode.Encloses node) :
    (∀ {subject name optional}, node.form = .property subject name optional →
      ∃ base, (Inspection.accessedType ⟨.within depth⟩ (node.sibling subject) optional).answer?
          imports = some base ∧
        (base.isLayered = false → base.Guards imports node name Access.isPrivate)) ∧
    ∀ {target value subject name optional}, node.form = .assignment target value →
      (node.sibling target).form = .property subject name optional →
      ∃ base, (Inspection.expandedType ⟨.within depth⟩ (node.sibling subject)).answer?
          imports = some base ∧
        (base.isUnion = false → base.Guards imports (node.sibling target) name Access.isProtected) := by
  constructor
  · intro subject name optional hf
    have kept := rules_clean clean inside (contains_of_form inside (by simp [hf]))
    simp only [Inspection.rules, hf] at kept
    exact Inspection.guards_of_property_clean hf kept
  · intro target value subject name optional hf ht
    have kept := rules_clean clean inside (contains_of_form inside (by simp [hf]))
    simp only [Inspection.rules, hf, Inspection.assignment, answer?_bind, bind_eq_some_iff] at kept
    obtain ⟨problems, hp, rest⟩ := kept
    have none : problems = [] := by
      cases problems with
      | nil => rfl
      | cons => simp at rest
    exact Inspection.guards_of_assignmentTarget_clean ht (none ▸ hp)

/-- A script with members of all kinds, which are reached through a name and an optional
access. -/
def countedStore : Script :=
  (Reading.first ⟨"/main.bgl"⟩ ("store Counter \x7b\n  private secret = 1\n  visible count = 0\n" ++
    "  public limit = 9\n  public proc bump() \x7b this.count = this.count + this.secret \x7d\n\x7d\n" ++
    "type Known = Counter\n" ++
    "proc reset(counter: Known | nil) \x7b Counter.limit = counter?.count ?? 9 \x7d")).script

/-- The optional access looks into the store itself and the assignment has it as its subject,
so both leave alone what is kept from them. -/
theorem countedStore_guards : (countedStore.problems? 100).answer? .isolated = some [] ∧
    (∃ base, (Inspection.accessedType ⟨.within 100⟩ (countedStore.node 26) true).answer? .isolated =
        some base ∧
      base.Guards .isolated (countedStore.node 27) "count" Access.isPrivate) ∧
    ∃ base, (Inspection.expandedType ⟨.within 100⟩ (countedStore.node 24)).answer? .isolated =
        some base ∧
      base.Guards .isolated (countedStore.node 25) "limit" Access.isProtected := by
  obtain ⟨hc, readLeads, writeLeads, readForm, writeForm, targetForm, readBase, writeBase⟩ :
      ((countedStore.problems? 100).answer? .isolated).map List.isEmpty = some true ∧
      countedStore.leads countedStore.root [33, 32, 31, 30, 29] 27 = true ∧
      countedStore.leads countedStore.root [33, 32, 31] 30 = true ∧
      (countedStore.node 27).form = .property 26 "count" true ∧
      (countedStore.node 30).form = .assignment 25 29 ∧
      (countedStore.node 25).form = .property 24 "limit" false ∧
      ((Inspection.accessedType ⟨.within 100⟩ (countedStore.node 26) true).answer? .isolated).map
        Ty.isLayered = some false ∧
      ((Inspection.expandedType ⟨.within 100⟩ (countedStore.node 24)).answer? .isolated).map
        Ty.isUnion = some false := by decide +kernel
  generalize countedStore = script at *
  have clean := clean_of_isEmpty hc
  have reads := (guards_stores clean (encloses_of_leads readLeads)).1 readForm
  have writes := (guards_stores clean (encloses_of_leads writeLeads)).2 writeForm targetForm
  obtain ⟨base, found, guards⟩ := reads
  obtain ⟨other, also, protects⟩ := writes
  have solid : base.isLayered = false := Option.some.inj ((congrArg _ found).symm.trans readBase)
  have single : other.isUnion = false := Option.some.inj ((congrArg _ also).symm.trans writeBase)
  exact ⟨clean, ⟨base, found, guards solid⟩, other, also, protects single⟩

/-- A script with a private member that is read through a readonly type. -/
def readonlyStore : Script :=
  (Reading.first ⟨"/main.bgl"⟩ "store S \x7b private x = 1 \x7d\nfunc f(s: readonly S) => s.x").script

/-- A script with a visible member that is written through a union. -/
def eitherStore : Script :=
  (Reading.first ⟨"/main.bgl"⟩ ("store A \x7b visible x = 1 \x7d\nstore B \x7b visible x = 2 \x7d\n" ++
    "proc p(s: A | B) \x7b s.x = 3 \x7d")).script

/-- Stores are not guarded in every script without problems: not against reading a private
member through a readonly type, and not against writing a visible one through a union. -/
theorem stores_not_guarded :
    ((readonlyStore.problems? 100).answer? .isolated = some [] ∧
      readonlyStore.rootNode.Encloses (readonlyStore.node 7) ∧
      (readonlyStore.node 7).form = .property 6 "x" false ∧
      ∃ base, (Inspection.accessedType ⟨.within 100⟩ (readonlyStore.node 6) false).answer? .isolated =
          some base ∧
        ¬base.Guards .isolated (readonlyStore.node 7) "x" Access.isPrivate) ∧
    (eitherStore.problems? 100).answer? .isolated = some [] ∧
      eitherStore.rootNode.Encloses (eitherStore.node 13) ∧
      (eitherStore.node 13).form = .assignment 11 12 ∧
      (eitherStore.node 11).form = .property 10 "x" false ∧
      ∃ base, (Inspection.expandedType ⟨.within 100⟩ (eitherStore.node 10)).answer? .isolated =
          some base ∧
        ¬base.Guards .isolated (eitherStore.node 11) "x" Access.isProtected := by
  obtain ⟨readClean, readLeads, readForm, readOpen⟩ :
      ((readonlyStore.problems? 100).answer? .isolated).map List.isEmpty = some true ∧
      readonlyStore.leads readonlyStore.root [9, 8] 7 = true ∧
      (readonlyStore.node 7).form = .property 6 "x" false ∧
      ((Inspection.accessedType ⟨.within 100⟩ (readonlyStore.node 6) false).answer? .isolated).map
        (fun base => (base.storesWithin .isolated 3).any
          ((readonlyStore.node 7).isOutside · "x" Access.isPrivate)) = some true := by decide +kernel
  obtain ⟨writeClean, writeLeads, writeForm, targetForm, writeOpen⟩ :
      ((eitherStore.problems? 100).answer? .isolated).map List.isEmpty = some true ∧
      eitherStore.leads eitherStore.root [16, 15, 14] 13 = true ∧
      (eitherStore.node 13).form = .assignment 11 12 ∧
      (eitherStore.node 11).form = .property 10 "x" false ∧
      ((Inspection.expandedType ⟨.within 100⟩ (eitherStore.node 10)).answer? .isolated).map
        (fun base => (base.storesWithin .isolated 3).any
          ((eitherStore.node 11).isOutside · "x" Access.isProtected)) = some true := by decide +kernel
  obtain ⟨base, found, opened⟩ := map_eq_some_iff.mp readOpen
  obtain ⟨other, also, reached⟩ := map_eq_some_iff.mp writeOpen
  exact ⟨⟨clean_of_isEmpty readClean, encloses_of_leads readLeads, readForm, base, found,
    Ty.not_guards_of_any opened⟩, clean_of_isEmpty writeClean, encloses_of_leads writeLeads,
    writeForm, targetForm, other, also, Ty.not_guards_of_any reached⟩

end ScriptCheck
