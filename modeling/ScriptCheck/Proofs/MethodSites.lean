import ScriptCheck.Proofs.FreeInference
import ScriptCheck.Proofs.StorePlaces

/-!
# Calls in the style of methods

An invocation `a.f(x)` may call a function `f` that is in scope, with `a` as its first argument.
Written out, the subject is the name `f`, and the receiver `a` is inside the invocation itself.
All other nodes stay where they are, so the tree is a tree as before.
-/

namespace ScriptCheck

open Movable (move)
open List Option Node

/-- An invocation of a property in a script. -/
structure Script.MethodSite (script : Script) where
  /-- The invocation `a.f(x)`. -/
  invocation : NodeId
  /-- Its subject `a.f`. -/
  accessor : NodeId
  /-- The value `a`. -/
  receiver : NodeId
  /-- The name `f`. -/
  name : String
  typeArgs : List NodeId
  args : List NodeId
  invokes : (script.node invocation).form = .invocation accessor typeArgs args
  accesses : (script.node accessor).form = .property receiver name false

/-- A node that is no whole file is in the table of its script. -/
theorem Node.lt_size_of_form {node : Node} (inner : node.form.isModule = false) :
    node.id < node.script.size := by
  by_contra beyond
  rw [form_of_size_le (Nat.le_of_not_lt beyond)] at inner
  cases inner

/-- A script whose nodes form a tree in which stores are declared at the top level. -/
structure Script.Placed (script : Script) : Prop extends script.Rooted where
  /-- A node is a child of its parent. -/
  mem_of_parent : ∀ {node parent : Node}, node.script = script → node.parent = some parent →
    node ∈ parent.children
  /-- A store is inside the whole file. -/
  isModule_of_store : ∀ {node parent : Node}, node.script = script → node.form.isStore = true →
    node.parent = some parent → parent.form.isModule = true

theorem placed_of_parse {script : Script} (read : parse path source = .ok script) :
    script.Placed where
  toRooted := rooted_of_parse read
  mem_of_parent {node parent} hs hp := by
    obtain ⟨_, id⟩ := node
    obtain ⟨tokens, root, progress, -, -, rfl⟩ := run_of_parse read
    obtain rfl := hs
    rw [parent_ofSprouts] at hp
    obtain ⟨found, hf, rfl⟩ := map_eq_some_iff.mp hp
    obtain ⟨_, -, hj⟩ := bind_eq_some_iff.mp hf
    obtain ⟨sprout, hs, hm⟩ := Grove.mem_of_parentsOf (join_eq_some_iff.mp hj)
    refine mem_map.mpr ⟨id, ?_, rfl⟩
    rw [form_ofSprouts, hs]
    exact hm
  isModule_of_store hs store hp := isModule_of_store read hs store hp

namespace Node

variable {node parent : Node}

/-- What holds of the parent of each node, if it holds of the node, holds of all ancestors. -/
theorem of_mem_ancestors {holds : Node → Prop}
    (step : ∀ {node parent : Node}, node.parent = some parent → holds node → holds parent)
    (hn : holds node) : ∀ above ∈ node.ancestors, holds above := by
  have climb : ∀ limit (node : Node), holds node → ∀ above ∈ node.ancestorsWithin limit,
      holds above := by
    intro limit
    induction limit with
    | zero => simp [ancestorsWithin]
    | succ limit ih =>
      intro node hn above ha
      rw [ancestorsWithin] at ha
      cases hp : node.parent with
      | none => simp [hp] at ha
      | some parent =>
        rw [hp] at ha
        rcases mem_cons.mp ha with rfl | ha
        · exact step hp hn
        · exact ih parent (step hp hn) above ha
  exact climb _ node hn

/-- Parentheses beyond the number of nodes before an argument make no difference. -/
theorem needsContextWithin_congr {script : Script} (linked : script.Linked)
    (hs : node.script = script) (enough : node.id < limit) (enough' : node.id < limit') :
    node.needsContextWithin limit = node.needsContextWithin limit' := by
  induction limit generalizing node limit' with
  | zero => cases enough
  | succ limit ih =>
    obtain _ | limit' := limit'
    · cases enough'
    rw [needsContextWithin, needsContextWithin]
    cases hf : node.form with
    | parenthesized inner =>
      have hc : node.sibling inner ∈ node.children := by simp [children, hf, Form.children]
      have lt : (node.sibling inner).id < node.id :=
        linked.id_lt_parent hs (linked.parent_of_mem hs hc)
      have below : (node.sibling inner).id < limit := Nat.lt_of_lt_of_le lt (Nat.le_of_lt_succ enough)
      have below' : (node.sibling inner).id < limit' :=
        Nat.lt_of_lt_of_le lt (Nat.le_of_lt_succ enough')
      have inside : (node.sibling inner).script = script := hs
      exact ih inside below below'
    | _ => rfl

/-- A literal in parentheses depends on the call as it does without them. -/
theorem needsContext_parenthesized (linked : node.script.Linked) {inner : NodeId}
    (hf : node.form = .parenthesized inner) :
    node.needsContext = (node.sibling inner).needsContext := by
  have hl : node.id < node.script.size := lt_size_of_form (by rw [hf]; rfl)
  have hc : node.sibling inner ∈ node.children := by simp [children, hf, Form.children]
  have lt : (node.sibling inner).id < node.id :=
    linked.id_lt_parent rfl (linked.parent_of_mem rfl hc)
  have below : (node.sibling inner).id < node.script.size := Nat.lt_trans lt hl
  rw [needsContext, needsContextWithin, hf]
  have inside : (node.sibling inner).script = node.script := rfl
  exact needsContextWithin_congr linked inside below (Nat.lt_succ_of_lt below)

end Node

namespace Script.MethodSite

variable {script : Script} (site : script.MethodSite)

/-- The row of a node where the call is written out. -/
def rewrite (id : NodeId) (entry : Entry) : Entry where
  form :=
    if id = site.invocation then .invocation site.accessor site.typeArgs (site.receiver :: site.args)
    else if id = site.accessor then .identifier site.name
    else entry.form
  span := entry.span
  parent := if id = site.receiver then some site.invocation else entry.parent

/-- The script in which the call is written out. -/
def rewritten : Script := { script with entries := script.entries.mapIdx site.rewrite }

/-- The receiver and the arguments of both kinds. -/
def taken : List NodeId := site.receiver :: (site.typeArgs ++ site.args)

section Rows

variable {id : NodeId}

@[simp] theorem size_rewritten : site.rewritten.size = script.size := Array.size_mapIdx

theorem entry_rewritten (id : NodeId) : (site.rewritten.node id).entry =
    (script.entries[id]?.map (site.rewrite id)).getD default :=
  congrArg (Option.getD · default) Array.getElem?_mapIdx

theorem form_elsewhere (invocation : id ≠ site.invocation) (accessor : id ≠ site.accessor) :
    (site.rewritten.node id).form = (script.node id).form := by
  rw [Node.form, Node.form, entry_rewritten]
  show _ = ((script.entries[id]?).getD default).form
  cases script.entries[id]? with
  | none => rfl
  | some entry => simp [rewrite, invocation, accessor]

theorem parent_elsewhere (receiver : id ≠ site.receiver) : (site.rewritten.node id).parent =
    (script.node id).parent.map fun parent => site.rewritten.node parent.id := by
  rw [Node.parent, Node.parent, entry_rewritten]
  show _ = (((script.entries[id]?).getD default).parent.map _).map _
  cases script.entries[id]? with
  | none => rfl
  | some entry =>
    simp only [rewrite, receiver, Option.map_some, Option.getD_some, if_false, Option.map_map]
    rfl

/-- The row of a node that is in the table. -/
theorem entry_of_lt (hl : id < script.size) :
    (site.rewritten.node id).entry = site.rewrite id (script.node id).entry := by
  rw [entry_rewritten]
  show _ = site.rewrite id ((script.entries[id]?).getD default)
  rw [Array.getElem?_eq_getElem hl]
  rfl

theorem invocation_lt_size : site.invocation < script.size := by
  have inner : (script.node site.invocation).form.isModule = false := by
    rw [site.invokes]
    rfl
  exact lt_size_of_form inner

theorem accessor_lt_size : site.accessor < script.size := by
  have inner : (script.node site.accessor).form.isModule = false := by
    rw [site.accesses]
    rfl
  exact lt_size_of_form inner

theorem accessor_ne_invocation : site.accessor ≠ site.invocation := by
  intro same
  have form := site.accesses
  rw [same, site.invokes] at form
  exact Form.noConfusion form

theorem form_invocation : (site.rewritten.node site.invocation).form =
    .invocation site.accessor site.typeArgs (site.receiver :: site.args) := by
  rw [Node.form, site.entry_of_lt site.invocation_lt_size]
  exact if_pos rfl

theorem form_accessor : (site.rewritten.node site.accessor).form = .identifier site.name := by
  rw [Node.form, site.entry_of_lt site.accessor_lt_size]
  exact (if_neg site.accessor_ne_invocation).trans (if_pos rfl)

/-- A node that declares something, or has a part in a row, is left as it is. -/
theorem form_of_other {form : Form} (written : (site.rewritten.node id).form = form)
    (other : form.isBare = false ∨ form.isModule = true) :
    (script.node id).form = form ∧ id ≠ site.invocation ∧ id ≠ site.accessor := by
  have invocation : id ≠ site.invocation := by
    rintro rfl
    rw [form_invocation] at written
    subst written
    simp [Form.isBare, Form.isModule] at other
  have accessor : id ≠ site.accessor := by
    rintro rfl
    rw [form_accessor] at written
    subst written
    simp [Form.isBare, Form.isModule] at other
  exact ⟨(site.form_elsewhere invocation accessor).symm.trans written, invocation, accessor⟩

end Rows

section Tree

variable (rooted : script.Rooted)

include rooted

theorem parent_accessor : (script.node site.accessor).parent = some (script.node site.invocation) := by
  refine rooted.parent_of_mem rfl (mem_map_of_mem ?_)
  rw [site.invokes]
  exact mem_cons_self

theorem parent_receiver : (script.node site.receiver).parent = some (script.node site.accessor) := by
  refine rooted.parent_of_mem rfl (mem_map_of_mem ?_)
  rw [site.accesses]
  exact mem_cons_self

theorem parent_of_argument {id : NodeId} (hi : id ∈ site.typeArgs ++ site.args) :
    (script.node id).parent = some (script.node site.invocation) := by
  refine rooted.parent_of_mem rfl (mem_map_of_mem ?_)
  rw [site.invokes]
  exact mem_cons_of_mem _ hi

theorem accessor_lt : site.accessor < site.invocation :=
  rooted.id_lt_parent rfl (site.parent_accessor rooted)

theorem receiver_lt : site.receiver < site.accessor :=
  rooted.id_lt_parent rfl (site.parent_receiver rooted)

/-- The receiver is inside the invocation where the call is written out. -/
theorem parent_rewritten_receiver : (site.rewritten.node site.receiver).parent =
    some (site.rewritten.node site.invocation) := by
  have hl : site.receiver < script.size :=
    Nat.lt_trans (site.receiver_lt rooted) site.accessor_lt_size
  rw [Node.parent, site.entry_of_lt hl]
  exact congrArg (Option.map _) (if_pos rfl)

section

variable {id parent : NodeId} (hp : (script.node id).parent = some (script.node parent))
  (other : parent ≠ site.accessor)
include hp other

theorem ne_receiver_of_parent : id ≠ site.receiver := by
  rintro rfl
  rw [site.parent_receiver rooted] at hp
  exact other (congrArg Node.id (Option.some.inj hp)).symm

/-- A node that is not in the accessor is inside the same node as before. -/
theorem parent_of_parent : (site.rewritten.node id).parent = some (site.rewritten.node parent) := by
  rw [site.parent_elsewhere (site.ne_receiver_of_parent rooted hp other), hp]
  rfl

end

theorem parent_rewritten_accessor : (site.rewritten.node site.accessor).parent =
    some (site.rewritten.node site.invocation) :=
  site.parent_of_parent rooted (site.parent_accessor rooted) site.accessor_ne_invocation.symm

theorem parent_of_mem_taken {id : NodeId} (hi : id ∈ site.taken) :
    (site.rewritten.node id).parent = some (site.rewritten.node site.invocation) := by
  rcases mem_cons.mp hi with rfl | hi
  · exact site.parent_rewritten_receiver rooted
  · exact site.parent_of_parent rooted (site.parent_of_argument rooted hi)
      site.accessor_ne_invocation.symm

theorem linked_rewritten : site.rewritten.Linked where
  parent_of_mem {node child} hs hc := by
    obtain ⟨owner, id⟩ := node
    obtain rfl : owner = site.rewritten := hs
    obtain ⟨inner, hi, rfl⟩ := mem_map.mp hc
    show (site.rewritten.node inner).parent = some (site.rewritten.node id)
    change inner ∈ (site.rewritten.node id).form.children at hi
    by_cases invocation : id = site.invocation
    · subst invocation
      rw [form_invocation] at hi
      simp only [Form.children, cons_append, mem_cons, mem_append] at hi
      by_cases subject : inner = site.accessor
      · rw [subject]
        exact site.parent_rewritten_accessor rooted
      · refine site.parent_of_mem_taken rooted ?_
        simp only [taken, mem_append, mem_cons]
        tauto
    by_cases accessor : id = site.accessor
    · subst accessor
      rw [form_accessor] at hi
      cases hi
    rw [site.form_elsewhere invocation accessor] at hi
    exact site.parent_of_parent rooted (rooted.parent_of_mem rfl (mem_map_of_mem hi)) accessor
  id_lt_parent {node parent} hs hp := by
    obtain ⟨owner, id⟩ := node
    obtain rfl : owner = site.rewritten := hs
    change (site.rewritten.node id).parent = some parent at hp
    by_cases receiver : id = site.receiver
    · subst receiver
      rw [site.parent_rewritten_receiver rooted] at hp
      cases hp
      exact Nat.lt_trans (site.receiver_lt rooted) (site.accessor_lt rooted)
    · rw [site.parent_elsewhere receiver] at hp
      obtain ⟨above, ha, rfl⟩ := map_eq_some_iff.mp hp
      have lt : (script.node id).id < above.id := rooted.id_lt_parent rfl ha
      exact lt

theorem accessor_not_mem_taken : site.accessor ∉ site.taken := by
  intro hm
  rcases mem_cons.mp hm with same | hm
  · exact Nat.ne_of_gt (site.receiver_lt rooted) same
  · have distinct : (script.node site.invocation).form.children.Nodup := rooted.nodup_children rfl
    rw [site.invokes] at distinct
    exact (nodup_cons.mp distinct).1 hm

/-- The whole file is inside nothing. -/
theorem parent_of_isModule {id : NodeId} (whole : (site.rewritten.node id).form.isModule = true) :
    (site.rewritten.node id).parent = none := by
  obtain ⟨form, -, -⟩ := site.form_of_other rfl (.inr whole)
  rw [← form] at whole
  have root : (script.node id).parent = none := Node.parent_of_isModule rooted rfl whole
  have receiver : id ≠ site.receiver := by
    rintro rfl
    rw [site.parent_receiver rooted] at root
    cases root
  rw [site.parent_elsewhere receiver, root]
  rfl

end Tree

theorem isModule_of_store_rewritten (placed : script.Placed) {node parent : Node}
    (hs : node.script = site.rewritten) (store : node.form.isStore = true)
    (hp : node.parent = some parent) : parent.form.isModule = true := by
  obtain ⟨_, id⟩ := node
  obtain rfl : _ = site.rewritten := hs
  have bare : (site.rewritten.node id).form.isBare = false := by
    change (site.rewritten.node id).form.isStore = true at store
    cases hf : (site.rewritten.node id).form with
    | storeDeclaration => rfl
    | _ =>
      rw [hf] at store
      cases store
  obtain ⟨form, -, -⟩ := site.form_of_other rfl (.inl bare)
  have store : (script.node id).form.isStore = true := form ▸ store
  have receiver : id ≠ site.receiver := by
    rintro rfl
    have whole := placed.isModule_of_store rfl store (site.parent_receiver placed.toRooted)
    rw [site.accesses] at whole
    cases whole
  change (site.rewritten.node id).parent = some parent at hp
  rw [site.parent_elsewhere receiver] at hp
  obtain ⟨above, ha, rfl⟩ := map_eq_some_iff.mp hp
  have whole := placed.isModule_of_store rfl store ha
  have same : script.node above.id = above := by
    have hs : above.script = script := script_of_parent ha
    rw [← hs]
    rfl
  have invocation : above.id ≠ site.invocation := by
    intro hi
    rw [← same, hi, site.invokes] at whole
    cases whole
  have accessor : above.id ≠ site.accessor := by
    intro hi
    rw [← same, hi, site.accesses] at whole
    cases whole
  rw [site.form_elsewhere invocation accessor, same]
  exact whole

/-! ### What is asked about -/

/-- Whatever around a node is an argument that takes its type from the call has one on record. -/
def Recorded (situation : Situation) (node : Node) : Prop :=
  ∀ around ∈ node :: node.ancestors, around.script = site.rewritten → around.id ∈ site.taken →
    around.needsContext = true → (situation.recorded? around).isSome = true

/-- A node other than the subject of the call that may be asked about. -/
structure Settled (situation : Situation) (node : Node) : Prop where
  other : node.script = site.rewritten → node.id ≠ site.accessor
  recorded : site.Recorded situation node

section Places

variable {site} {situation : Situation} {node parent child : Node}

theorem recorded_of_script (hs : node.script ≠ site.rewritten) : site.Recorded situation node := by
  intro around ha hr
  rcases mem_cons.mp ha with rfl | ha
  · exact absurd hr hs
  · exact absurd ((script_of_mem_ancestors ha).symm.trans hr) hs

theorem settled_of_script (hs : node.script ≠ site.rewritten) : site.Settled situation node :=
  ⟨fun same => absurd same hs, recorded_of_script hs⟩

/-- More on record does no harm. -/
theorem Recorded.expecting (recorded : site.Recorded situation node) (other : Node) (type : Ty) :
    site.Recorded (situation.expecting other type) node := by
  intro around ha hr hi hc
  have known := recorded around ha hr hi hc
  simp only [Situation.recorded?, Situation.expecting, isSome_map, find?_cons] at known ⊢
  cases other == around with
  | true => rfl
  | false => exact known

theorem Settled.expecting (settled : site.Settled situation node) (other : Node) (type : Ty) :
    site.Settled (situation.expecting other type) node :=
  ⟨settled.other, settled.recorded.expecting other type⟩

variable (placed : script.Placed)

include placed

theorem Recorded.up (recorded : site.Recorded situation node) (hp : node.parent = some parent) :
    site.Recorded situation parent := by
  by_cases hs : node.script = site.rewritten
  · have linked : node.script.Linked := hs ▸ site.linked_rewritten placed.toRooted
    intro around ha
    rw [← ancestors_of_parent linked hp] at ha
    exact recorded around (mem_cons_of_mem _ ha)
  · exact recorded_of_script (script_of_parent hp ▸ hs)

theorem Recorded.ancestor (recorded : site.Recorded situation node) :
    ∀ above ∈ node.ancestors, site.Recorded situation above :=
  of_mem_ancestors (fun hp recorded => recorded.up placed hp) recorded

/-- What is inside a node other than the call may be asked about if the node may. -/
theorem Recorded.down (recorded : site.Recorded situation node)
    (other : node.script = site.rewritten → node.id ≠ site.invocation)
    (hc : child ∈ node.children) : site.Settled situation child := by
  have same := script_of_mem_children hc
  by_cases hs : node.script = site.rewritten
  · have linked : node.script.Linked := hs ▸ site.linked_rewritten placed.toRooted
    have hp : child.parent = some node := linked.parent_of_mem rfl hc
    have away (inside : (site.rewritten.node child.id).parent =
        some (site.rewritten.node site.invocation)) : False := by
      have whole : site.rewritten.node child.id = child := by rw [← hs, ← same]; rfl
      rw [whole, hp] at inside
      exact other hs (congrArg Node.id (Option.some.inj inside))
    refine ⟨fun _ hi => away ?_, fun around ha hr hi => ?_⟩
    · rw [hi]
      exact site.parent_rewritten_accessor placed.toRooted
    · rcases mem_cons.mp ha with rfl | ha
      · exact (away (site.parent_of_mem_taken placed.toRooted hi)).elim
      · rw [ancestors_of_parent (same ▸ linked) hp] at ha
        exact recorded around ha hr hi
  · exact settled_of_script (same ▸ hs)

theorem recorded_of_isModule (whole : node.form.isModule = true) : site.Recorded situation node := by
  by_cases hs : node.script = site.rewritten
  swap
  · exact recorded_of_script hs
  obtain ⟨_, id⟩ := node
  obtain rfl : _ = site.rewritten := hs
  have hp := site.parent_of_isModule placed.toRooted whole
  intro around ha _ hi
  change around ∈ site.rewritten.node id :: (site.rewritten.node id).ancestors at ha
  rw [ancestors_of_no_parent hp, mem_singleton] at ha
  subst ha
  have inside := (site.parent_of_mem_taken placed.toRooted hi).symm.trans hp
  cases inside

theorem recorded_of_isStore (store : node.form.isStore = true) : site.Recorded situation node := by
  by_cases hs : node.script = site.rewritten
  swap
  · exact recorded_of_script hs
  have linked : node.script.Linked := hs ▸ site.linked_rewritten placed.toRooted
  have outside (above : node.parent = some (site.rewritten.node site.invocation)) : False := by
    have whole := site.isModule_of_store_rewritten placed hs store above
    rw [form_invocation] at whole
    cases whole
  intro around ha hr hi
  rcases mem_cons.mp ha with rfl | ha
  · refine (outside ?_).elim
    rw [← site.parent_of_mem_taken placed.toRooted hi, ← hs]
    rfl
  · cases hp : node.parent with
    | none =>
      rw [ancestors_of_no_parent hp] at ha
      cases ha
    | some parent =>
      rw [ancestors_of_parent linked hp] at ha
      have whole := site.isModule_of_store_rewritten placed hs store hp
      exact recorded_of_isModule placed whole around ha hr hi

/-- Nothing around the call is taken by it. -/
theorem recorded_invocation : site.Recorded situation (site.rewritten.node site.invocation) := by
  have linked := site.linked_rewritten placed.toRooted
  have above : ∀ around ∈ (site.rewritten.node site.invocation).ancestors,
      around.script = site.rewritten ∧ site.invocation ≤ around.id :=
    of_mem_ancestors
      (fun hp hn => ⟨(script_of_parent hp).trans hn.1,
        hn.2.trans (Nat.le_of_lt (linked.id_lt_parent hn.1 hp))⟩) ⟨rfl, Nat.le_refl _⟩
  intro around ha _ hi
  have le : site.invocation ≤ around.id := by
    rcases mem_cons.mp ha with rfl | ha
    · exact Nat.le_refl _
    · exact (above around ha).2
  have lt : around.id < site.invocation :=
    linked.id_lt_parent rfl (site.parent_of_mem_taken placed.toRooted hi)
  exact absurd le (Nat.not_le_of_lt lt)

theorem recorded_accessor : site.Recorded situation (site.rewritten.node site.accessor) := by
  have linked := site.linked_rewritten placed.toRooted
  intro around ha hr hi
  rcases mem_cons.mp ha with rfl | ha
  · exact absurd hi (site.accessor_not_mem_taken placed.toRooted)
  · rw [ancestors_of_parent linked (site.parent_rewritten_accessor placed.toRooted)] at ha
    exact recorded_invocation placed around ha hr hi

/-- What the call takes may be asked about if it does not take its type from the call, or has it
on record. -/
theorem settled_of_mem_taken {id : NodeId} (hi : id ∈ site.taken)
    (known : (site.rewritten.node id).needsContext = true →
      (situation.recorded? (site.rewritten.node id)).isSome = true) :
    site.Settled situation (site.rewritten.node id) := by
  have linked := site.linked_rewritten placed.toRooted
  refine ⟨fun _ same => site.accessor_not_mem_taken placed.toRooted (same ▸ hi), ?_⟩
  intro around ha hr hm
  rcases mem_cons.mp ha with rfl | ha
  · exact known
  · rw [ancestors_of_parent linked (site.parent_of_mem_taken placed.toRooted hi)] at ha
    exact recorded_invocation placed around ha hr hm

end Places

/-! ### Back to the call as it was -/

open Classical in
/-- The script with the call as it was, in the place of the one where it is written out. -/
noncomputable def original (other : Script) : Script :=
  if other = site.rewritten then script else other

section Originals

variable {other : Script}

@[simp] theorem original_rewritten : site.original site.rewritten = script := if_pos rfl

theorem original_of_ne (hs : other ≠ site.rewritten) : site.original other = other := if_neg hs

@[simp] theorem original_script : site.original script = script := ite_self script

@[simp] theorem original_original : site.original (site.original other) = site.original other := by
  by_cases hs : other = site.rewritten
  · rw [hs, original_rewritten, original_script]
  · rw [site.original_of_ne hs, site.original_of_ne hs]

@[simp] theorem path_original : (site.original other).path = other.path := by
  by_cases hs : other = site.rewritten
  · rw [hs, original_rewritten]
    rfl
  · rw [site.original_of_ne hs]

@[simp] theorem size_original : (site.original other).size = other.size := by
  by_cases hs : other = site.rewritten
  · rw [hs, original_rewritten, size_rewritten]
  · rw [site.original_of_ne hs]

end Originals

/-- The nodes of the script with the call as it was, in the place of those of the other. -/
noncomputable def moving : Moving where
  script := site.original
  node node := ⟨site.original node.script, node.id⟩
  sameAs left right := by simp [Node.sameAs]

theorem move_rewritten (id : NodeId) : move site.moving (site.rewritten.node id) = script.node id :=
  congrArg (Node.mk · id) site.original_rewritten

theorem move_of_ne {node : Node} (hs : node.script ≠ site.rewritten) :
    move site.moving node = node :=
  congrArg (Node.mk · node.id) (site.original_of_ne hs)

/-- Only the invocation and its subject are something else. -/
theorem form_moved {node : Node}
    (other : node.script = site.rewritten → node.id ≠ site.invocation ∧ node.id ≠ site.accessor) :
    (move site.moving node).form = node.form := by
  obtain ⟨owner, id⟩ := node
  by_cases hs : owner = site.rewritten
  · subst hs
    have away := other rfl
    exact (congrArg Node.form (site.move_rewritten id)).trans
      (site.form_elsewhere away.1 away.2).symm
  · rw [site.move_of_ne hs]

theorem form_moved_or_bare (node : Node) : (move site.moving node).form = node.form ∨
    node.form.isBare = true ∧ (move site.moving node).form.isBare = true := by
  by_cases call : node.script = site.rewritten ∧
      (node.id = site.invocation ∨ node.id = site.accessor)
  · obtain ⟨owner, id⟩ := node
    obtain ⟨rfl, rfl | rfl⟩ := call
    · have moved := site.move_rewritten site.invocation
      refine .inr ⟨congrArg Form.isBare site.form_invocation, ?_⟩
      exact (congrArg (Form.isBare ∘ Node.form) moved).trans (congrArg Form.isBare site.invokes)
    · have moved := site.move_rewritten site.accessor
      refine .inr ⟨congrArg Form.isBare site.form_accessor, ?_⟩
      exact (congrArg (Form.isBare ∘ Node.form) moved).trans (congrArg Form.isBare site.accesses)
  · refine .inl (site.form_moved fun hs => ?_)
    exact ⟨fun hi => call ⟨hs, .inl hi⟩, fun hi => call ⟨hs, .inr hi⟩⟩

section Above

variable (placed : script.Placed) {id : NodeId}

include placed

/-- A node other than the receiver has its place in both scripts. -/
theorem parents_of_ne (hr : id ≠ site.receiver) :
    (script.node id).parent = none ∧ (site.rewritten.node id).parent = none ∨
      ∃ parent, parent ≠ site.accessor ∧ (script.node id).parent = some (script.node parent) ∧
        (site.rewritten.node id).parent = some (site.rewritten.node parent) := by
  have moved := site.parent_elsewhere hr
  cases hp : (script.node id).parent with
  | none =>
    rw [hp] at moved
    exact .inl ⟨rfl, moved⟩
  | some parent =>
    obtain ⟨owner, above⟩ := parent
    obtain rfl : owner = script := script_of_parent hp
    have other : above ≠ site.accessor := by
      rintro rfl
      obtain ⟨inner, hi, he⟩ := mem_map.mp (placed.mem_of_parent rfl hp)
      change inner ∈ (owner.node site.accessor).form.children at hi
      rw [site.accesses] at hi
      obtain rfl := mem_singleton.mp hi
      exact hr (congrArg Node.id he).symm
    exact .inr ⟨above, other, rfl, site.parent_of_parent placed.toRooted hp other⟩

end Above

end Script.MethodSite

end ScriptCheck
