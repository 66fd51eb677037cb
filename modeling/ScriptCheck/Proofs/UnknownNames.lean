import ScriptCheck.Proofs.ProblemPlaces
import ScriptCheck.Proofs.Readings
import ScriptCheck.Proofs.SettledRules
import ScriptCheck.Proofs.Visits

/-!
# Unknown names are reported once

While the types around a name are inferred, the name is looked up again and again. It is reported
only when checking comes to the node of the name itself, which happens once.
-/

namespace ScriptCheck

open List

variable {imports : Imports}

namespace Node

variable {node scope child : Node} {name : String} {space : Namespace}

/-- Whether no node around a node has an answer for a name. -/
def isUnfound (imports : Imports) (node : Node) (name : String) (space : Namespace) : Bool :=
  node.enclosing.all fun link => ((link.2.scopeLookup? link.1 name space).answer imports).isNone

/-- A name is unknown exactly if the search for it goes past the root. -/
theorem resolveIn_eq_unknownName_iff :
    (node.resolveIn name space).answer imports = .error .unknownName ↔
      node.isUnfound imports name space = true := by
  rw [resolveIn, Inquiry.answer_bind, Inquiry.answer_pure, Inquiry.answer_firstAnswer, isUnfound]
  simp only [all_eq_true, Option.isNone_iff_eq_none, ← findSome?_eq_none_iff]
  cases found : node.enclosing.findSome? fun link =>
      (link.2.scopeLookup? link.1 name space).answer imports with
  | none => exact ⟨fun _ => rfl, fun _ => rfl⟩
  | some lookup =>
    obtain ⟨link, -, ha⟩ := exists_of_findSome?_eq_some found
    refine ⟨fun (unknown : lookup = _) => ?_, fun missing => by cases missing⟩
    subst unknown
    exact absurd rfl (grants_of_scopeLookup? ha)

/-- The name by which a node refers to something, if no node around it has an answer for it. -/
def unfoundName? (imports : Imports) (node : Node) : Option String :=
  match node.form.reference? with
  | some (name, space) => if node.isUnfound imports name space then some name else none
  | none => none

end Node

/-- Whether a problem is that a name is unknown. -/
def Problem.isUnknownName (problem : Problem) : Bool := problem.fault.kind = .unknownName

namespace Inspection

variable {inspection : Inspection} {node : Node} {faulty : Bool} {own : List Problem}

/-- A value's name is reported as unknown if it is. -/
theorem identifier_unknownNames (named : node.form = .identifier name)
    (found : (identifier node name).answer? imports = some own) :
    own.filter Problem.isUnknownName =
      if node.isUnfound imports name .value then [⟨node, .unknownName name⟩] else [] := by
  have value : node.resolve name = node.resolveIn name .value := by rw [Node.resolve, named]
  simp only [identifier, Inquirer.resolve, Inference.answer?_bind, Inference.answer?_lift,
    Option.bind_some, value] at found
  split
  · next unfound =>
    rw [Node.resolveIn_eq_unknownName_iff.mpr unfound] at found
    cases found
    rfl
  · next known =>
    split at found
    · next unknown => exact absurd (Node.resolveIn_eq_unknownName_iff.mp unknown) known
    all_goals
      cases found
      rfl

/-- A type's name is reported as unknown if it is. -/
theorem namedType_unknownNames (found : (namedType node name args).answer? imports = some own) :
    own.filter Problem.isUnknownName =
      if node.isUnfound imports name .type then [⟨node, .unknownName name⟩] else [] := by
  simp only [namedType, Inquirer.resolveIn, Inference.answer?_bind, Inference.answer?_lift,
    Option.bind_some] at found
  split
  · next unfound =>
    rw [Node.resolveIn_eq_unknownName_iff.mpr unfound] at found
    cases found
    rfl
  · next known =>
    split at found
    · next unknown => exact absurd (Node.resolveIn_eq_unknownName_iff.mp unknown) known
    · cases found
      split <;> rfl
    · cases found
      rfl

/-- What the rules of a node say of unknown names: nothing of the names that are inside it. -/
theorem rules_unknownNames (found : (inspection.rules faulty node).answer? imports = some own) :
    own.filter Problem.isUnknownName =
      (node.unfoundName? imports).toList.map fun name => ⟨node, .unknownName name⟩ := by
  unfold Node.unfoundName?
  cases refers : node.form.reference? with
  | none =>
    have known := rules_reports_known faulty refers own found
    refine filter_eq_nil_iff.mpr fun problem hp => ?_
    rw [Problem.isUnknownName, decide_eq_true_iff]
    exact known problem hp
  | some reference =>
    unfold Form.reference? at refers
    split at refers
    · next named =>
      cases refers
      rw [rules, named] at found
      rw [identifier_unknownNames named found]
      dsimp only
      split <;> rfl
    · next named =>
      cases refers
      rw [rules, named] at found
      rw [namedType_unknownNames found]
      dsimp only
      split <;> rfl
    · cases refers

end Inspection

namespace Script

variable {path : FilePath} {source : String} {script : Script} {depth : Nat}
  {problems : List Problem}

/-- All unknown names that are reported, in the order of their nodes. -/
theorem filter_unknownNames (checked : (script.problems? depth).answer? imports = some problems) :
    problems.filter Problem.isUnknownName =
      (script.rootNode.preorder script.size).flatMap fun node =>
        (node.unfoundName? imports).toList.map fun name => ⟨node, .unknownName name⟩ := by
  obtain ⟨found, each, rfl⟩ := Inspection.problemsWithin_preorder checked
  clear checked
  generalize script.rootNode.preorder script.size = visited at each ⊢
  induction each with
  | nil => rfl
  | cons first _ ih =>
    obtain ⟨_, own⟩ := first
    rw [flatten_cons, filter_append, Inspection.rules_unknownNames own, ih, flatMap_cons]

/-- A node that is reached from the root is reported for its unknown name exactly once, if it has
one, and no other node is. The problems are found wherever no search for a property goes on for
ever. -/
theorem unknownNames_once (read : parse path source = .ok script) (imports : Imports) :
    (∀ depth problems, (script.problems? depth).answer? imports = some problems → ∀ id,
      (script.rootNode.Encloses (script.node id) →
        problems.filter (fun problem => problem.node.id == id && problem.isUnknownName) =
          ((script.node id).unfoundName? imports).toList.map fun name =>
            ⟨script.node id, .unknownName name⟩) ∧
      (¬script.rootNode.Encloses (script.node id) →
        problems.filter (fun problem => problem.node.id == id && problem.isUnknownName) = [])) ∧
    ∀ modules : Modules, modules.imports = imports → script ∈ modules.scripts →
      modules.Searchable → modules.Ends fun depth => script.problems? depth := by
  refine ⟨fun depth problems checked id => ?_,
    fun modules _ hs searchable => modules.problemsWithin_ends searchable script.size hs⟩
  let own (node : Node) : List Problem :=
    ((node.unfoundName? imports).toList.map fun name => ⟨node, .unknownName name⟩).filter
      (·.node.id == id)
  have split : problems.filter (fun problem => problem.node.id == id && problem.isUnknownName) =
      (script.rootNode.preorder script.size).flatMap own := by
    rw [← filter_filter, filter_unknownNames checked, filter_flatMap]
  have others : ∀ node ∈ script.rootNode.preorder script.size, node ≠ script.node id →
      own node = [] := by
    intro node listed differs
    have away : node.id ≠ id := by
      rintro rfl
      exact differs (congrArg (Node.mk · node.id) (Node.encloses_of_mem_preorder listed).script_eq)
    exact filter_eq_nil_iff.mpr (forall_mem_map.mpr fun _ _ => by simpa using away)
  have here : own (script.node id) = ((script.node id).unfoundName? imports).toList.map fun name =>
      ⟨script.node id, .unknownName name⟩ :=
    filter_eq_self.mpr (forall_mem_map.mpr fun _ _ => beq_self_eq_true id)
  obtain ⟨visited, missed⟩ := flatMap_lone
    (Node.nodup_preorder (rooted_of_parse read) rfl script.size) others
  rw [split]
  rw [mem_preorder_root read] at visited missed
  exact ⟨fun inside => (visited inside).trans here, missed⟩

/-- An unknown name in a literal that takes its parameter's type from the call around it. -/
def unknownInLiteral : Reading :=
  .first ⟨"/main.bgl"⟩
    ("func ap(g: (x: Foo) => number): number => g('a')\n" ++ "const a = ap((s => bar))")

theorem unknownInLiteral_reported : ∃ problems,
    (unknownInLiteral.script.problems? 30).answer? .isolated = some problems ∧
      problems.filter (fun problem => problem.node.id == 13 && problem.isUnknownName) =
        [⟨unknownInLiteral.script.node 13, .unknownName "bar"⟩] := by
  obtain ⟨faultless, ends, visited, unfound⟩ : unknownInLiteral.fault.isNone = true ∧
      ((unknownInLiteral.script.problems? 30).answer? .isolated).isSome = true ∧
      ((unknownInLiteral.script.rootNode.preorder unknownInLiteral.script.size).any
        (·.id == 13)) = true ∧
      (unknownInLiteral.script.node 13).unfoundName? .isolated = some "bar" := by
    decide +kernel
  have read : parse _ _ = .ok unknownInLiteral.script := Reading.parse_of_faultless faultless
  generalize unknownInLiteral.script = script at *
  obtain ⟨problems, checked⟩ := Option.isSome_iff_exists.mp ends
  obtain ⟨⟨owner, id⟩, listed, same⟩ := any_eq_true.mp visited
  have inside := Node.encloses_of_mem_preorder listed
  obtain rfl : owner = script := inside.script_eq
  obtain rfl : id = 13 := beq_iff_eq.mp same
  refine ⟨problems, checked, (((unknownNames_once read .isolated).1 _ _ checked 13).1 inside).trans ?_⟩
  rw [unfound]
  rfl

end Script

end ScriptCheck
