import ScriptCheck.Proofs.Offers
import ScriptCheck.Proofs.WrittenTypes

/-!
# What names lead to

In scripts that import only each other, type expressions give types written in these
scripts, and so does looking a name up. A parameter is found only from inside the literal that
it belongs to.
-/

namespace ScriptCheck

open List

variable {scripts : List Script} {imports : Imports}

namespace Node

variable {node other : Node}

/-- The parent of a node belongs to its script. -/
theorem script_of_parent (hp : node.parent = some other) : other.script = node.script := by
  obtain ⟨id, -, rfl⟩ := Option.map_eq_some_iff.mp hp
  rfl

/-- A node and its ancestors belong to one script. -/
theorem script_of_mem_ancestors (ha : other ∈ node.ancestors) : other.script = node.script := by
  have climb : ∀ limit (lower : Node), other ∈ lower.ancestorsWithin limit →
      other.script = lower.script := by
    intro limit
    induction limit with
    | zero => simp [ancestorsWithin]
    | succ limit ih =>
      intro lower ha
      rw [ancestorsWithin] at ha
      split at ha
      · cases ha
      next parent hp =>
      rcases mem_cons.mp ha with rfl | ha
      · exact script_of_parent hp
      · exact (ih parent ha).trans (script_of_parent hp)
  exact climb _ _ ha

/-- A type parameter in scope belongs to the script it is used in. -/
theorem script_of_typeParamInScope (hp : node.typeParamInScope? name = some other) :
    other.script = node.script := by
  obtain ⟨ancestor, ha, ho⟩ := exists_of_findSome?_eq_some hp
  obtain ⟨id, -, rfl⟩ := mem_map.mp (mem_of_find?_eq_some ho)
  exact (script_of_mem_ancestors ha :)

/-- Reading type expressions stays in their scripts. -/
theorem reads_scripts (scripts : List Script) :
    Reads (fun node => node.script ∈ scripts) (Reference.Within scripts) where
  child hn _ := hn
  typeParam hn hp := script_of_typeParamInScope hp ▸ hn
  name hn _ _ := hn
  store hn _ := hn

end Node

/-- The types that names of the given scripts stand for: a type parameter as a type, or what
a declaration gives its name to. -/
def Binding.Names (scripts : List Script) (type : Ty) (params : List (Slot Ty)) : Prop :=
  (∃ param : Node, param.script ∈ scripts ∧ type = param.asTypeParameter ∧ params = []) ∨
    ∃ declaration : Node, declaration.script ∈ scripts ∧
      declaration.namedTypeBinding = .type type params

/-- What a name used at a node may be found to be: something of the given scripts, and a
parameter only of a literal around the node. -/
def Binding.FoundFrom (scripts : List Script) (node : Node) : Binding → Prop
  | .declared declaration => declaration.script ∈ scripts
  | .parameter holder _ => holder ∈ node.ancestors
  | .type named params => Binding.Names scripts named params
  | .importedModule importing => importing.script ∈ scripts
  | .loopItem forLoop => forLoop.script ∈ scripts

/-- A lookup whose result, if it has one, may be found from the node. -/
def Lookup.FoundFrom (scripts : List Script) (node : Node) (lookup : Lookup) : Prop :=
  ∀ binding, lookup = .ok binding → binding.FoundFrom scripts node

namespace Node

variable {node declaration : Node}

theorem namedTypeBinding_found (hd : declaration.script ∈ scripts) :
    declaration.namedTypeBinding.FoundFrom scripts node := by
  obtain ⟨type, params, he⟩ := namedTypeBinding_eq declaration
  rw [he]
  exact .inr ⟨declaration, hd, he⟩

/-- The types that names stand for refer to nodes of the scripts of the names. -/
theorem names_within (names : Binding.Names scripts type params) :
    type.Formed (Reference.Within scripts) strict ∧
      ∀ bound ∈ slotTypes params, bound.Formed (Reference.Within scripts) strict := by
  rcases names with ⟨param, hp, rfl, rfl⟩ | ⟨declaration, hd, he⟩
  · exact ⟨(reads_scripts scripts).asTypeParameter hp, by simp [slotTypes]⟩
  · exact (reads_scripts scripts).namedTypeBinding hd he

/-- A name used at a node of some scripts that import each other is found in them. -/
theorem resolveIn_found (into : imports.Into scripts) (hn : node.script ∈ scripts)
    (name : String) (space : Namespace) :
    ((node.resolveIn name space).answer imports).FoundFrom scripts node := by
  intro binding hb
  obtain ⟨scope, hs, offers⟩ := exists_offers_of_resolveIn hb
  have hm : scope.script ∈ scripts := script_of_mem_ancestors hs ▸ hn
  have inside {child : Node} (hc : child ∈ scope.children) : child.script ∈ scripts := by
    obtain ⟨id, -, rfl⟩ := mem_map.mp hc
    exact hm
  cases offers with
  | declared _ hc => exact inside hc
  | constant | loopItem => exact hm
  | parameter => exact hs
  | typeParam hc => exact .inl ⟨_, inside hc, rfl, rfl⟩
  | named hc => exact namedTypeBinding_found (inside hc)
  | importedModule _ hc => exact inside hc
  | exported _ loaded found declares =>
    obtain ⟨id, -, rfl⟩ := mem_map.mp (mem_filter.mp found).1
    have ht : (Script.node _ id).script ∈ scripts := into _ _ _ loaded
    obtain ⟨-, rfl | rfl⟩ := cases_of_declares? declares
    · exact ht
    · exact namedTypeBinding_found ht

end Node

namespace Inquiry

/-- The items that are asked about and kept. -/
theorem answer_filterM (ask : α → Inquiry Bool) (items : List α) :
    (items.filterM ask).answer imports = items.filter fun item => (ask item).answer imports := by
  have walk : ∀ kept : List α, (List.filterAuxM ask items kept).answer imports =
      (items.filter fun item => (ask item).answer imports).reverse ++ kept := by
    induction items with
    | nil => exact fun kept => rfl
    | cons item rest ih =>
      intro kept
      rw [List.filterAuxM, answer_bind, ih, filter_cons]
      cases (ask item).answer imports <;> simp
  rw [List.filterM, answer_bind, walk]
  simp

end Inquiry

end ScriptCheck
