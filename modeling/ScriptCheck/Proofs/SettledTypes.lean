import ScriptCheck.Proofs.Properties
import ScriptCheck.Proofs.Roots
import ScriptCheck.Proofs.TypeCourses

/-!
# The types of nodes are settled

The type of a node may be asked for while it is being inferred, and then is `unknown`. So
every question about a node leaves fewer nodes to ask about, and what is asked on the way to
the next one either takes a type apart or goes up the tree. If types of the scripts can only
be taken apart so far, every node comes to have a type.
-/

namespace ScriptCheck.Modules

open List

variable {modules : Modules} {situation : Situation} {node holder : Node}

theorem has_of_mem_ancestors (hn : modules.Has node) (hh : holder ∈ node.ancestors) :
    modules.Has holder := by
  rw [Has, Node.script_of_mem_ancestors hh]
  exact hn

theorem opens (hn : modules.Has node) (situation : Situation) : modules.graft.Opens situation node :=
  ⟨rfl, fun _ _ => rfl, fun _ _ => hn⟩

theorem keepsInside (modules : Modules) : modules.graft.KeepsInside where
  lower hn := ⟨(Ty.move_standing _).symm, (Node.reads_scripts _).lower hn⟩
  asTypeParameter hn := ⟨(Ty.move_standing _).symm, (Node.reads_scripts _).asTypeParameter hn⟩
  id _ := rfl
  typeNames := modules.typeNames
  opens hn := .inl (opens hn _)
  visited_of_asked hn := hn
  asked_expecting _ _ hn := hn
  needsContext _ := rfl
  param {_ node _ _} hn _ := by
    cases hp : node.parent with
    | none => exact .inr ⟨by simp, by simp [show (Movable.move modules.graft node).parent = _ from hp]⟩
    | some holder =>
      have hh : modules.Has holder := by
        rw [Has, Node.script_of_parent hp]
        exact hn
      exact .inl ⟨holder, rfl, hp, hh, opens hh _⟩
  this {_ node} hn _ := ⟨(map_standing_option fun _ _ => rfl).symm, fun store hs =>
    has_of_mem_ancestors hn (mem_of_find?_eq_some hs)⟩
  stores situation hs := opens hs situation
  declaredStores hn _ := hn
  imports {node} path _ := by
    refine ⟨(map_standing_option fun _ _ => rfl).symm, fun target ht =>
      ⟨(map_standing fun _ _ => rfl).symm, fun declaration hd _ => ?_⟩⟩
    obtain ⟨id, -, rfl⟩ := mem_map.mp hd
    exact modules.into _ _ _ ht

/-- A name is found in the scripts, and a parameter only of a literal around it. -/
theorem resolveIn_transfers (hn : modules.Has node)
    (contexts : ∀ holder ∈ node.ancestors, modules.ContextSettles situation holder)
    (name : String) (space : Namespace) :
    Inquiry.Transfers modules.graft (node.resolveIn name space)
      ((Movable.move modules.graft node).resolveIn name space)
      (modules.graft.OpensLookup situation) := by
  refine ⟨fun binding hb => ?_, (Lookup.move_standing _).symm⟩
  have found := Node.resolveIn_found modules.into hn name space binding hb
  cases binding with
  | declared declaration => exact ⟨found, opens found situation⟩
  | parameter holder index =>
    have hh := has_of_mem_ancestors hn found
    exact ⟨opens hh situation, fun id _ => ⟨@opens modules (holder.sibling id) hh situation, fun _ =>
      ⟨hh, contexts holder found⟩⟩⟩
  | type named params => trivial
  | importedModule importing => exact ⟨found, opens found situation⟩
  | loopItem forLoop => exact opens found situation

section

variable (searchable : modules.Searchable) (typed : modules.Typed situation)

/-- Where the types of nodes are settled, they are so in the course of inference. -/
abbrev course : Deeper.Course modules.graft Nat fun _ => Inference where
  toSettings := .told Nat situation
  keeps := modules.keepsInside
  deeper := .within
  deeper' := .silent
  situation' := situation
  Asks question _ holds := modules.Settles question holds
  done hv _ := .done hv
  andThen := .andThen
  lift transfers := .asked transfers.holds
  same same asks := same ▸ asks
  typeOf := typed.typeOf
  literal ht := (typed.expecting ht _).typeOf
  expected? awaited := awaited.2
  property? name ht :=
    property_settles typed (searchable _ (Ty.writtenIn_iff_refersOnly.mpr ht.refersOnly) name)
      ht.refersOnly
  indexed? hb hk :=
    indexed_settles typed (searchable _ (Ty.writtenIn_iff_refersOnly.mpr hb.refersOnly) "length")
      hb.refersOnly hk

end

theorem linked (hn : modules.Has node) : node.script.Linked := by
  obtain ⟨path, source, read⟩ := modules.read _ hn
  exact linked_of_parse read

/-- What the constructs around nodes require is settled. A construct is asked about only for
the sake of nodes inside it, so the questions go up the tree. -/
theorem context_settles (searchable : modules.Searchable) (typed : modules.Typed situation)
    (hn : modules.Has node) : modules.ContextSettles situation node := by
  have linked := modules.linked hn
  revert hn
  refine Node.outward linked (fun node hl outside hn => ?_) node rfl
  have step : ∀ depth, (Deeper.within (depth + 1)).expected? situation node =
      (Deeper.within depth).expectedType? situation node := fun depth => rfl
  refine .deeper ?_ step
  unfold Deeper.expectedType?
  dsimp only [Inquirer.recalling]
  split
  · next type hr =>
    refine .done fun found hf => ?_
    cases hf
    obtain ⟨expectation, he, rfl⟩ := Option.map_eq_some_iff.mp hr
    exact typed.written expectation (mem_of_find?_eq_some he)
  · exact .done (by simp)
  · next parent hr hp =>
    have above := Node.ancestors_of_parent (modules.linked hn) hp
    have hm : parent ∈ node.ancestors := above ▸ mem_cons_self
    have hparent := has_of_mem_ancestors hn hm
    split
    · exact outside parent hm hparent
    · refine (course searchable typed).expectedArgument? (opens hparent situation) ?_ node
      intro subject typeArgs args hform name _
      have hsubject : modules.Has (parent.sibling subject) := hparent
      refine resolveIn_transfers hsubject (fun holder hh => ?_) name .value
      have hsub : (parent.sibling subject).parent = some parent := by
        refine (modules.linked hparent).parent_of_mem rfl ?_
        rw [Node.children, hform]
        exact mem_map_of_mem mem_cons_self
      rw [Node.ancestors_of_parent (modules.linked hsubject) hsub, ← above] at hh
      exact outside holder hh (has_of_mem_ancestors hn hh)
    · split
      · refine .andThen (typed.typeOf hparent) fun type ht => .done fun found hf => ?_
        cases hf
        simpa [Ty.callback, slotTypes] using ht.widen
      · exact .done (by simp)
    · exact .done (modules.keepsInside.ascribedType? hn (opens hparent situation)).2

/-- What is found around nodes is settled. -/
theorem looksAround (searchable : modules.Searchable) (typed : modules.Typed situation) :
    modules.graft.LooksAround situation where
  valueNames hn _ := resolveIn_transfers hn
    (fun _ hh => context_settles searchable typed (has_of_mem_ancestors hn hh)) _ _
  awaits hn _ := ⟨hn, context_settles searchable typed hn⟩

/-- All nodes there are. -/
def nodes (modules : Modules) : List Node :=
  modules.scripts.flatMap fun script => (List.range script.size).map script.node

/-- How many nodes are not busy. -/
def idle (modules : Modules) (busy : List Node) : Nat :=
  (modules.nodes.filter fun node => !busy.contains node).length

/-- A node that becomes busy leaves fewer that are not. -/
theorem idle_cons_lt (hn : modules.Has node) (hs : node.id < node.script.size)
    (hb : busy.contains node = false) : modules.idle (node :: busy) < modules.idle busy :=
  Node.length_idle_lt (mem_flatMap.mpr
    ⟨node.script, hn, mem_map.mpr ⟨node.id, mem_range.mpr hs, rfl⟩⟩) hb

/-- A node outside of the table of its script is an empty module, which has no type. -/
theorem formType_of_size_le (hs : node.script.size ≤ node.id) (depth : Nat) :
    (Deeper.within depth).formType situation node = pure .unknown := by
  unfold Deeper.formType
  rw [Node.form_of_size_le hs]
  simp [Form.isTypeExpression, Deeper.declarationType, Node.form_of_size_le hs]

/-- Types are settled, whatever nodes are busy. -/
theorem typesSettle (searchable : modules.Searchable) (busy : List Node) : modules.TypesSettle busy := by
  induction hm : modules.idle busy using Nat.strongRecOn generalizing busy with
  | ind left ih =>
    rintro situation rfl written node hn
    have step : ∀ depth, (Deeper.within (depth + 1)).typeOf situation node =
        (Deeper.within depth).nodeType situation node := fun depth => rfl
    refine .deeper ?_ step
    unfold Deeper.nodeType
    split
    · exact .done Ty.formed_unknown
    · next hb =>
      rcases Nat.lt_or_ge node.id node.script.size with hs | hs
      · have hlt := idle_cons_lt hn hs (Bool.eq_false_iff.mpr hb)
        have typed : modules.Typed { situation with busy := node :: situation.busy } :=
          ⟨written, ih _ (hm ▸ hlt) _ rfl⟩
        exact (course searchable typed).formType (looksAround searchable typed) hn (opens hn _)
      · simp only [formType_of_size_le hs]
        exact .done Ty.formed_unknown

theorem typed_idle (searchable : modules.Searchable) : modules.Typed .idle :=
  ⟨by simp [Situation.idle], modules.typesSettle searchable []⟩

end ScriptCheck.Modules
