import ScriptCheck.Proofs.MirroredTypes
import ScriptCheck.Proofs.RuleCourses
import ScriptCheck.Workspace.Source

/-!
# An analyzer carries nothing from question to question

Checking a script goes through all of its nodes with one analyzer, and each rule leaves the
guards as it found them. So every question that can be put to an analyzer leaves an analyzer
that is in the middle of nothing, and has the answer that a new analyzer gives.
-/

namespace ScriptCheck

namespace Analyzer

section Names

variable {guards : Guards} (free : guards.Free)
include free

theorem exportedSpaces_mirrors (target : Option Script) (name : String) :
    Mirrors guards (exportedSpaces target name) (pure (Node.exportedSpaces target name)) := by
  refine .filter _ fun space _ => ?_
  cases target with
  | none => exact .pure _
  | some script => exact (export?_mirrors free script name space).known _

theorem importBinders_mirrors (target : Option Script) (item : Node) :
    Mirrors guards (importBinders target item) (pure (Node.importBinders target item)) := by
  unfold importBinders Node.importBinders
  cases item.form with
  | importItem name localName =>
    exact (exportedSpaces_mirrors free target name).known fun spaces =>
      (if spaces.isEmpty then [Namespace.value] else spaces).map
        fun space => (⟨localName.getD name, space, item⟩ : Binder)
  | _ => exact .pure _

theorem moduleBinders_mirrors (declaration : Node) :
    Mirrors guards (moduleBinders declaration) declaration.moduleBinders := by
  unfold moduleBinders
  cases hd : declaration.form with
  | importNames path items =>
    unfold Node.moduleBinders
    rw [hd]
    refine (load_mirrors declaration path).bind fun target => ?_
    rw [List.flatMap_def]
    exact (Mirrors.map _ fun item _ => importBinders_mirrors free target item).known _
  | _ => exact .base _

theorem moduleNames_mirrors (declarations : List Node) :
    Mirrors guards (moduleNames declarations) (Inspection.moduleNames declarations) :=
  (Mirrors.mapM _ fun declaration _ => moduleBinders_mirrors free declaration).bind fun _ => .pure _

end Names

variable (situation : Situation)

theorem importedNames_mirrors (node : Node) (path : String) (items : List NodeId) :
    Mirrors situation.guards (importedNames node path items)
      (Inspection.importedNames node path items) := by
  refine (load_mirrors node path).lift.bind fun target => ?_
  cases target with
  | none => exact .pure _
  | some target =>
    refine .filterMap _ fun item _ => ?_
    cases item.form with
    | importItem name localName =>
      refine (exportedSpaces_mirrors situation.free_guards (some target) name).lift_known.value ?_
      dsimp only
      split
      · exact .pure _
      · exact .pure _
    | _ => exact .pure _

end Analyzer

namespace Inspection

open Analyst

instance (side : Bool) : Inspector (Side side) where
  moduleNames := match side with
    | true => Inspector.moduleNames (m := Analysis)
    | false => Inspector.moduleNames (m := Inference)
  importedNames := match side with
    | true => Inspector.importedNames (m := Analysis)
    | false => Inspector.importedNames (m := Inference)

section Inspecting

-- Rules ask their questions where nothing is going on.
variable {imports : Imports} {inspector : Inspection Analysis} {inspection : Inspection}
  (same : Imitates imports inspector.answers inspection.answers)
include same

/-- An analyzer goes through the rules as one who is told what is going on does. -/
def mirroring (faulty : Bool) : Course (Recast.standing imports).graft Bool Side where
  toCourse := same.idle
  idle := ⟨funext fun | true => rfl | false => rfl, rfl, rfl⟩
  faulty _ := faulty
  faulty' := faulty
  owns _ := True
  asks _ := trivial
  sibling _ _ := rfl
  parent _ := Node.parent_recast _ _
  isDescendantOf _ _ := rfl
  looks := (Recast.faithful _).looks _
  namedType name _ := (Recast.remodels _).resolveIn _ name .type
  calledAlike _ := .inl rfl
  sites _ := True
  site _ _ := trivial
  calls := (Recast.standing imports).graft.AsksCall .idle
  asksCall := id
  nodes _ _ _ _ := trivial
  made {node} _ := same.idle.call? (Recast.opens_standing imports .idle node)
    (((Recast.faithful _).looks _).namesSubject (Recast.opens_standing imports .idle node))
  Gives question _ := MirrorsFor imports Guards.none (question true) (question false) fun _ => True
  give _ _ := .done trivial
  goOn asks gives := asks.andThen gives
  sameGiven {_ known again} alike gives :=
    have asks : same.idle.Asks known again fun _ => True := gives
    same.idle.same alike asks
  hush {_ _ _} gives := by
    split
    · exact .done trivial
    · exact gives
  behind _ gives := gives.andThen fun _ _ => .done trivial
  gather gives := (MirrorsFor.mapM gives).andThen fun _ _ => .done trivial
  moduleNames _ := .of_mirrors (Analyzer.moduleNames_mirrors Situation.idle.free_guards _).lift
  importedNames _ := .of_mirrors (Analyzer.importedNames_mirrors .idle _ _ _)

theorem rules_mirrors (faulty : Bool) (node : Node) :
    MirrorsFor imports Guards.none (inspector.rules faulty node) (inspection.rules faulty node)
      fun _ => True :=
  let course := mirroring same faulty
  course.rules trivial rfl (fun _ _ _ => trivial) fun _ _ _ => course.assignmentTarget trivial rfl

theorem problemsWithin_mirrors (limit : Nat) (node : Node) :
    MirrorsFor imports Guards.none (inspector.problemsWithin limit node)
      (inspection.problemsWithin limit node) fun _ => True := by
  induction limit generalizing node with
  | zero => exact .done trivial
  | succ limit ih =>
    exact (MirrorsFor.mapM fun child _ => ih child).andThen fun below _ =>
      (rules_mirrors same (!below.flatten.isEmpty) node).andThen fun _ _ => .done trivial

end Inspecting

end Inspection

/-- Every question that can be put to an analyzer leaves a new analyzer as it was. -/
theorem Question.ask_mirrors (imports : Imports) (depth : Nat) (question : Question) :
    MirrorsFor imports Guards.none (question.ask depth) (question.answer depth) fun _ => True := by
  have same := Analyst.within_imitates imports depth
  cases question with
  | resolve name node =>
    exact .of_mirrors (Mirrors.bind (same.idle.resolve name node).1 fun _ => .pure _)
  | infer node keepGenerics =>
    have typed : MirrorsFor imports Guards.none ((Analyst.within depth).infer node keepGenerics)
        (node.infer? depth keepGenerics) fun _ => True :=
      (same.typeOf .idle Situation.written_idle node).andThen fun _ _ => .done trivial
    exact typed.andThen fun _ _ => .done trivial
  | subsumes destination value throughGenerics =>
    exact .of_mirrors (Mirrors.bind (same.idle.subsumes destination value throughGenerics).1
      fun _ => .pure _)
  | subtract type removed =>
    exact .of_mirrors (Mirrors.bind (same.idle.subtract type removed).1 fun _ => .pure _)
  | methodTarget invocation =>
    have opens := Recast.opens_standing imports .idle invocation
    have found : MirrorsFor imports Guards.none ((Analyst.within depth).methodTarget invocation)
        (invocation.methodTarget? depth) fun _ => True :=
      (same.idle.methodCall? opens
        (((Recast.faithful _).looks _).namesSubject opens)).andThen fun _ _ => .done trivial
    exact found.andThen fun _ _ => .done trivial
  | typecheck script =>
    have checked : MirrorsFor imports Guards.none ((Analyst.within depth).typecheck script)
        (script.problems? depth) fun _ => True :=
      Inspection.problemsWithin_mirrors same script.size script.rootNode
    exact checked.andThen fun _ _ => .done trivial

namespace Analyzer

/-- A session comes to the answers of its questions. -/
theorem session_mirrors (imports : Imports) (questions : List (Nat × Question)) :
    MirrorsFor imports Guards.none (session questions)
      (questions.mapM fun row => row.2.answer row.1) fun answers => ∀ answer ∈ answers, True :=
  .mapM fun row _ => row.2.ask_mirrors imports row.1

/-- Answers that each come with the guards of a new analyzer. -/
theorem mapM_map_fst (ask : Nat × Question → Option Answer) (questions : List (Nat × Question)) :
    (questions.mapM fun row => (ask row).map fun answer => (answer, Guards.none)).map
      (fun rows => rows.map Prod.fst) = questions.mapM ask := by
  induction questions with
  | nil => rfl
  | cons row rest ih =>
    rw [List.mapM_cons, List.mapM_cons, ← ih]
    cases ask row with
    | none => rfl
    | some answer =>
      cases rest.mapM fun row => (ask row).map fun answer => (answer, Guards.none) with
      | _ => rfl

/-- An analyzer carries nothing from question to question. Each question that comes to an answer
leaves nothing in progress, no comparison under way and nothing expected, and its answer depends
on the question alone. So the questions of a session have exactly the answers that a new analyzer
gives to each of them, and the analyzer is as good as new afterwards. -/
theorem session_leaves_no_trace (imports : Imports) :
    (∀ depth question, (Question.ask depth question Guards.none).answer? imports =
      ((question.answer depth).answer? imports).map fun answer => (answer, Guards.none)) ∧
    ∀ questions, (session questions Guards.none).answer? imports =
      (questions.mapM fun row : Nat × Question => (row.2.ask row.1 Guards.none).answer? imports).map
        fun rows => (rows.map Prod.fst, Guards.none) := by
  have each (depth : Nat) (question : Question) := (question.ask_mirrors imports depth).same
  refine ⟨each, fun questions => ?_⟩
  rw [(session_mirrors imports questions).same, Inference.answer?_mapM]
  simp only [each]
  rw [← mapM_map_fst, Option.map_map]
  rfl

-- A func that calls itself in a callback, whose parameter has the type its call expects.
example :
    let script := (Reading.first ⟨"/main.bgl"⟩ ("func apply<T>(x: T, f: (x: T) => T) => f(x)\n" ++
      "func go(n: number) => apply(n, (m) => go(m))")).script
    ((session [(40, .typecheck script), (40, .typecheck script)] Guards.none).answer?
      fun _ _ => none).map (·.1.length) = some 2 := by decide +kernel

end Analyzer

end ScriptCheck
