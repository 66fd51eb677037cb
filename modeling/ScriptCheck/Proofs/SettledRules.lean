import ScriptCheck.Proofs.RuleCourses
import ScriptCheck.Proofs.SettledTypes

/-!
# The rules are settled

Each rule asks for the types of nodes and compares them. Where types are settled, so is what
the rule reports.
-/

namespace ScriptCheck

namespace Modules

variable {modules : Modules}

/-- The rules with inference going to a depth. -/
abbrev inspection (depth : Nat) : Inspection := ⟨.within depth⟩

/-- The question has an answer that is the same from some depth on. -/
abbrev Ends {α : Type} (modules : Modules) (question : Nat → Inference α) : Prop :=
  modules.Settles question fun _ => True

/-- What is known of the answer can be forgotten. -/
theorem Settles.ends (settles : modules.Settles question holds) : modules.Ends question :=
  settles.mono fun _ _ => trivial

/-- Questions about all items of a list end if each of them does. -/
theorem mapM_ends {α β : Type} {ask : Nat → α → Inference β} {items : List α}
    (ends : ∀ item ∈ items, modules.Ends fun depth => ask depth item) :
    modules.Ends fun depth => items.mapM (ask depth) :=
  (mapM_settles ends).ends

/-- What is reported about imported names does not depend on inference. -/
theorem importedNames_ends (node : Node) (path : String) (items : List NodeId) :
    modules.Ends fun _ => Inspection.importedNames node path items :=
  .andThen (.asked rfl) fun found _ => by
    cases found with
    | none => exact .done trivial
    | some target => exact .done trivial

/-- Rules come to an end where their questions do. -/
def ending (modules : Modules) (searchable : modules.Searchable) (faulty : Bool) :
    Inspection.Course modules.graft Nat where
  toCourse := course searchable (modules.typed_idle searchable)
  idle := ⟨rfl, rfl, rfl⟩
  faulty _ := faulty
  faulty' := faulty
  owns script := script ∈ modules.scripts
  asks := id
  sibling _ _ := rfl
  parent _ := (map_standing_option fun _ _ => rfl).symm
  isDescendantOf _ _ := rfl
  looks := looksAround searchable (modules.typed_idle searchable)
  namedType _ _ := ⟨trivial, (Lookup.move_standing _).symm⟩
  calledAlike _ := .inl rfl
  sites _ := True
  site _ _ := trivial
  calls := modules.graft.AsksCall .idle
  asksCall := id
  nodes _ _ _ _ := trivial
  made hn := (course searchable (modules.typed_idle searchable)).call? (opens hn _)
    ((looksAround searchable (modules.typed_idle searchable)).namesSubject (opens hn _))
  Gives question _ := modules.Ends question
  give _ _ := .done trivial
  goOn := .andThen
  sameGiven same ends := same ▸ ends
  hush {unknown rest _} ends := by
    split
    · exact .done trivial
    · exact ends
  behind _ ends := ends.andThen fun _ _ => .done trivial
  gather ends := (mapM_ends ends).andThen fun _ _ => .done trivial
  moduleNames _ := .asked trivial
  importedNames _ := importedNames_ends _ _ _

/-- The rules for a node of modules that can be searched come to an end. -/
theorem rules_ends (searchable : modules.Searchable) (faulty : Bool) (hn : modules.Has node) :
    modules.Ends fun depth => (inspection depth).rules faulty node :=
  let course := modules.ending searchable faulty
  course.rules hn rfl (fun _ _ _ => trivial) fun _ _ _ => course.assignmentTarget hn rfl

/-- The rules for a node and all nodes in it come to an end: by induction on the depth of the tree.
-/
theorem problemsWithin_ends (searchable : modules.Searchable) (limit : Nat) (hn : modules.Has node) :
    modules.Ends fun depth => (inspection depth).problemsWithin limit node := by
  induction limit generalizing node with
  | zero => exact .done trivial
  | succ limit ih =>
    unfold Inspection.problemsWithin
    refine .andThen (mapM_ends fun child hc => ih ?_) fun below _ =>
      .andThen (rules_ends searchable _ hn) fun own _ => .done trivial
    rw [Has, Node.script_of_mem_children hc]
    exact hn

end Modules

end ScriptCheck
