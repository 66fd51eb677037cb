import ScriptCheck.Proofs.Exchanges
import ScriptCheck.Proofs.Layout
import ScriptCheck.Proofs.Readings

/-!
# Pipes

A pipe `value |> function` has the type of the call `function(value)` and breaks the same rules,
but for one kind of value: a func or proc literal with a parameter that has no type written takes
that type from a call, and from a pipe it takes none.
-/

namespace ScriptCheck

open Movable (move)
open Inference (Transfers)
open Inspection (Refinds)
open List Inference

theorem rel_bind {next : α → Option γ} (firsts : Option.Rel related first first')
    (then_ : ∀ value value', related value value' → Option.Rel goal (next value) (next' value')) :
    Option.Rel goal (first.bind next) (first'.bind next') := by
  cases firsts with
  | some values => exact then_ _ _ values
  | none => exact .none

/-- The second rules, applied after the change, find the moved problems of the first, in any
order. -/
def Recast.Rearranges (recast : Recast) (asked again : Inference (List Problem)) : Prop :=
  Option.Rel (fun problems problems' => problems'.Perm (problems.map (move recast)))
    (asked.answer? recast.before) (again.answer? recast.after)

namespace Recast.Rearranges

variable {recast : Recast} {inspection : Inspection} {limit : Nat} {node : Node}
  {ask ask' : Node → Inference (List Problem)}

/-- The problems below several nodes, which may be visited in another order. -/
abbrev Below (recast : Recast) (below below' : Inference (List (List Problem))) : Prop :=
  Option.Rel (fun found found' => found'.flatten.Perm (found.flatten.map (move recast)))
    (below.answer? recast.before) (below'.answer? recast.after)

theorem mapM {nodes : List Node}
    (asks : ∀ node ∈ nodes, recast.Rearranges (ask node) (ask' (move recast node))) :
    Below recast (nodes.mapM ask) ((nodes.map (move recast)).mapM ask') := by
  induction nodes with
  | nil => exact .some .rfl
  | cons node rest ih =>
    rw [forall_mem_cons] at asks
    have others := ih asks.2
    rw [map_cons, mapM_cons, mapM_cons]
    simp only [Below, answer?_bind, answer?_pure]
    refine rel_bind asks.1 fun first first' own => rel_bind others fun rest rest' found => ?_
    refine .some ?_
    rw [flatten_cons, flatten_cons, map_append]
    exact own.append found

theorem swap (asks : recast.Rearranges (ask first) (ask' (move recast first)))
    (asks' : recast.Rearranges (ask second) (ask' (move recast second))) :
    Below recast ([first, second].mapM ask)
      ([move recast second, move recast first].mapM ask') := by
  simp only [Below, mapM_cons, mapM_nil, answer?_bind, answer?_pure,
    Option.bind_assoc, Option.bind_some]
  rw [Option.bind_comm]
  refine rel_bind asks' fun second second' found' => rel_bind asks fun first first' found => ?_
  refine .some ?_
  simp only [flatten_cons, flatten_nil, append_nil, map_append]
  exact (found'.append found).trans perm_append_comm

/-- A rule is told of a fault below if there is one, in whatever order faults are found. -/
theorem above (exact_ : recast.exact)
    (below : Below recast (node.children.mapM (inspection.problemsWithin limit))
      ((move recast node).children.mapM (inspection.problemsWithin limit)))
    (own : ∀ faulty, Refinds recast (inspection.rules faulty node)
      (inspection.rules faulty (move recast node))) :
    recast.Rearranges (inspection.problemsWithin (limit + 1) node)
      (inspection.problemsWithin (limit + 1) (move recast node)) := by
  simp only [Rearranges, Inspection.problemsWithin, answer?_bind, answer?_pure]
  refine rel_bind below fun found found' perm => ?_
  have faulty : found'.flatten.isEmpty = found.flatten.isEmpty := by
    rw [perm.isEmpty_eq, isEmpty_map]
  rw [faulty, Recast.answer?_eq exact_ (own (!found.flatten.isEmpty))]
  cases (inspection.rules (!found.flatten.isEmpty) node).answer? recast.before with
  | none => exact .none
  | some problems =>
    refine .some ?_
    rw [map_append]
    exact .append_left _ perm

/-- What is told about the problems is the same up to its order. -/
theorem told (found : recast.Rearranges asked again) :
    Option.Rel (fun problems problems' =>
        (problems'.map Problem.told).Perm (problems.map Problem.told))
      (asked.answer? recast.before) (again.answer? recast.after) := by
  unfold Rearranges at found
  generalize asked.answer? recast.before = problems at found ⊢
  generalize again.answer? recast.after = problems' at found ⊢
  cases found with
  | none => exact .none
  | some perm =>
    refine .some ((perm.map Problem.told).trans (.of_eq ?_))
    rw [map_map]
    exact map_congr_left fun problem _ => Problem.told_move recast problem

end Recast.Rearranges

namespace Script

/-- A call of a named function with one argument and no type arguments. -/
structure PlainCall (script : Script) (call function value : NodeId) : Prop where
  invokes : (script.node call).form = .invocation function [] [value]
  named : ∃ name, (script.node function).form = .identifier name

/-- The script in which the call is a pipe. -/
def piped (script : Script) (call function value : NodeId) : Script :=
  script.withForm call (.pipe value function)

theorem path_piped (script : Script) (call function value : NodeId) :
    (script.piped call function value).path = script.path := rfl

namespace PlainCall

variable {script : Script} {call function value : NodeId}
  (plain : script.PlainCall call function value)

include plain

theorem exchange (placed : script.Placed) (settled : (script.node value).needsContext = false) :
    script.Exchange call (.pipe value function) where
  placed := placed
  operand := by rw [plain.invokes]; rfl
  operand' := rfl
  settled child hc := by
    obtain ⟨name, hf⟩ := plain.named
    rw [Node.children, plain.invokes] at hc
    rcases mem_cons.mp hc with rfl | hc
    · have bare : (script.node function).form.isBare = true := by
        rw [hf]
        rfl
      exact Node.needsContextWithin_of_bare bare _
    · exact mem_singleton.mp hc ▸ settled

variable (exchange : script.Exchange call (.pipe value function)) {before after : Imports}
  (loads : script.LoadsAlike (script.piped call function value) before after)

section Calls

variable {deeper deeper' : Deeper}
  (transfers : deeper.TransfersTo (exchange.recast loads).graft deeper')
  {situation situation' : Situation}
  (together : (exchange.recast loads).Together situation situation')

include transfers together

/-- The same function is called with the same argument. -/
theorem call?_transfers : Transfers (exchange.recast loads).graft
    (deeper.call? situation (script.node call))
    (deeper'.call? situation' ((script.piped call function value).node call))
    fun found => ∀ made ∈ found, (exchange.recast loads).graft.AsksCall situation made := by
  obtain ⟨name, named⟩ := plain.named
  let course := transfers.course (exchange.recast loads).faithful together
  have typed := @course.typeOf (script.node function) trivial
  refine .of_answers (course.calledType (script.node function) [] [script.node value] none
    (by simp) (by simp) (by simp) typed) ?_ ?_
  · have plainly : deeper.methodCall? situation (script.node call) = pure none := by
      have subject : ((script.node call).sibling function).form = .identifier name := named
      simp only [Deeper.methodCall?, plain.invokes, subject]
    simp only [Deeper.call?, plain.invokes, plainly, pure_bind]
    rfl
  · have pipes : ((script.piped call function value).node call).form = .pipe value function :=
      exchange.form_place
    simp only [Deeper.call?, pipes, map_cons, map_nil, Option.map_none, exchange.move_node loads]
    rfl

theorem formType_transfers : Transfers (exchange.recast loads).graft
    (deeper.formType situation (script.node call))
    (deeper'.formType situation' ((script.piped call function value).node call))
    (exchange.recast loads).graft.Writes := by
  have pipes : ((script.piped call function value).node call).form = .pipe value function :=
    exchange.form_place
  unfold Deeper.formType
  simp only [plain.invokes, pipes]
  refine .bind (plain.call?_transfers exchange loads transfers together) fun made asks => ?_
  cases made with
  | none => exact .pure (by simp) rfl
  | some made =>
    exact ((transfers.course (exchange.recast loads).faithful together).callsAlike
      (asks made rfl)).resultType

omit transfers together in
theorem within_transfers (depth : Nat) : (Deeper.within depth).TransfersTo
    (exchange.recast loads).graft (Deeper.within depth) := by
  refine @Recast.within_transfers (exchange.recast loads) _ _ rfl le_rfl (fun _ => rfl)
    fun transfers node changes _ _ together => ?_
  obtain rfl := exchange.eq_of_changes loads changes
  rw [exchange.move_node loads]
  exact plain.formType_transfers exchange loads transfers together

omit together in
theorem keepsCalls : (exchange.recast loads).KeepsCalls deeper deeper' where
  call? {_ _ node} together changes := by
    obtain rfl := exchange.eq_of_changes loads changes
    rw [exchange.move_node loads]
    exact plain.call?_transfers exchange loads transfers together
  property {node} changes := by
    obtain rfl := exchange.eq_of_changes loads changes
    rw [exchange.move_node loads]
    constructor
    · rintro ⟨subject, typeArgs, args, receiver, name, optional, invokes, accesses⟩
      obtain ⟨rfl, -⟩ := Form.invocation.inj (plain.invokes.symm.trans invokes)
      obtain ⟨_, named⟩ := plain.named
      cases named.symm.trans accesses
    · rintro ⟨subject, typeArgs, args, receiver, name, optional, invokes, -⟩
      cases exchange.form_place.symm.trans invokes

end Calls

section Rules

variable {inspection : Inspection}
  (transfers : inspection.answers.TransfersTo (exchange.recast loads).graft inspection.answers)

include transfers

variable (faulty : Bool)

/-- The rules find the same problems where a call is piped. -/
noncomputable def course : Inspection.Course (exchange.recast loads).graft Unit :=
  Inspection.recasting transfers faulty (plain.keepsCalls exchange loads transfers)

/-- The rules find the same problems at the call and at the pipe. -/
theorem rules_transfers : Refinds (exchange.recast loads)
    (inspection.rules faulty (script.node call))
    (inspection.rules faulty (move (exchange.recast loads) (script.node call))) := by
  have pipes : (move (exchange.recast loads) (script.node call)).form = .pipe value function := by
    rw [exchange.move_node loads, exchange.form_place]
  unfold Inspection.rules
  simp only [plain.invokes, pipes]
  exact (plain.course exchange loads transfers faulty).invocation trivial

/-- Neither the call nor the pipe can be assigned to. -/
theorem assignmentTarget_transfers (target : Node) :
    (plain.course exchange loads transfers faulty).Learns (·.assignmentTarget target)
      (·.assignmentTarget (move (exchange.recast loads) target))
      (Problem.AllIn fun _ => True) := by
  by_cases changes : (exchange.recast loads).Changes target
  · obtain rfl := exchange.eq_of_changes loads changes
    have pipes : (move (exchange.recast loads) (script.node call)).form = .pipe value function := by
      rw [exchange.move_node loads, exchange.form_place]
    unfold Inspection.Course.Learns Inspection.assignmentTarget
    simp only [plain.invokes, pipes]
    exact .pure (Problem.AllIn.single trivial) rfl
  · exact (plain.course exchange loads transfers faulty).assignmentTarget trivial
      (not_not.mp changes)

/-- The problems are the same. Those of the function come after those of the value, and not
before them. -/
theorem problemsWithin_rearranges (limit : Nat) (node : Node) :
    (exchange.recast loads).Rearranges (inspection.problemsWithin limit node)
      (inspection.problemsWithin limit (move (exchange.recast loads) node)) := by
  induction limit generalizing node with
  | zero => exact .some .rfl
  | succ limit ih =>
    by_cases changes : (exchange.recast loads).Changes node
    · obtain rfl := exchange.eq_of_changes loads changes
      have children : (script.node call).children = [script.node function, script.node value] := by
        rw [Node.children, plain.invokes]
        rfl
      have children' : (move (exchange.recast loads) (script.node call)).children =
          [move (exchange.recast loads) (script.node value),
            move (exchange.recast loads) (script.node function)] := by
        simp only [exchange.move_node loads]
        rw [Node.children, exchange.form_place]
        rfl
      refine .above trivial ?_ (plain.rules_transfers exchange loads transfers)
      rw [children, children']
      exact Recast.Rearranges.swap (ih _) (ih _)
    · have same : (move (exchange.recast loads) node).form = node.form := not_not.mp changes
      have children : (move (exchange.recast loads) node).children =
          node.children.map (move (exchange.recast loads)) := by
        rw [Node.children, Node.children, same, map_map]
        rfl
      refine .above trivial ?_ fun faulty => (plain.course exchange loads transfers faulty).rules
        trivial same (fun _ _ _ => trivial) fun target _ _ =>
          plain.assignmentTarget_transfers exchange loads transfers faulty (node.sibling target)
      rw [children]
      exact Recast.Rearranges.mapM fun child _ => ih child

end Rules

end PlainCall

/-- A pipe is checked like the call of a named function that it abbreviates, if its value is no
literal that takes the types of its parameters from the call. It has the same type, and the same
problems are reported at the same nodes in the same words, up to their order. -/
theorem piped_checks_alike {path : FilePath} {source : String} {script : Script}
    (read : parse path source = .ok script) {call function value : NodeId}
    (plain : script.PlainCall call function value)
    (settled : (script.node value).needsContext = false) {before after : Imports}
    (loads : script.LoadsAlike (script.piped call function value) before after) (depth : Nat) :
    (((script.piped call function value).node call).infer? depth true).answer? after =
        (((script.node call).infer? depth true).answer? before).map
          (move (.swapping script _ (script.path_piped call function value))) ∧
      Option.Rel (fun problems problems' =>
          (problems'.map Problem.told).Perm (problems.map Problem.told))
        ((script.problems? depth).answer? before)
        (((script.piped call function value).problems? depth).answer? after) := by
  have exchange := plain.exchange (placed_of_parse read) settled
  have transfers := plain.within_transfers exchange loads depth
  constructor
  · have typed := @transfers.typeOf _ _ (script.node call) (exchange.recast loads).together_idle trivial
    rw [exchange.move_node loads] at typed
    have inferred : Transfers (exchange.recast loads).graft ((script.node call).infer? depth true)
        (((script.piped call function value).node call).infer? depth true) fun _ => True :=
      .bind typed fun type _ => .pure trivial rfl
    exact @Recast.answer?_eq (exchange.recast loads) _ trivial _ _ _ _ inferred
  · have root := script.rootNode_recast (exchange.recast loads)
    have found := (PlainCall.problemsWithin_rearranges plain exchange loads transfers script.size
      script.rootNode).told
    rw [← root, exchange.move_script loads] at found
    have size : (script.piped call function value).size = script.size := exchange.recastAs.size
    rw [problems?, problems?, size]
    exact found

/-- The call of a generic function whose result does not fit. -/
def mistypedCall : Reading :=
  .first ⟨"/main.bgl"⟩ "func same<T>(x: T): T => x\nconst a: string = same(2)"

theorem mistypedCall_piped :
    ((mistypedCall.script.problems? 30).answer? .isolated).map List.length = some 1 ∧
      (((mistypedCall.script.piped 10 8 9).node 10).infer? 30 true).answer? .isolated =
          (((mistypedCall.script.node 10).infer? 30 true).answer? .isolated).map
            (move (.swapping _ _ (mistypedCall.script.path_piped 10 8 9))) ∧
      Option.Rel (fun problems problems' =>
          (problems'.map Problem.told).Perm (problems.map Problem.told))
        ((mistypedCall.script.problems? 30).answer? .isolated)
        (((mistypedCall.script.piped 10 8 9).problems? 30).answer? .isolated) := by
  obtain ⟨faultless, one, invokes, named, settled⟩ : mistypedCall.fault.isNone = true ∧
      ((mistypedCall.script.problems? 30).answer? .isolated).map List.length = some 1 ∧
      (mistypedCall.script.node 10).form = .invocation 8 [] [9] ∧
      (mistypedCall.script.node 8).form = .identifier "same" ∧
      (mistypedCall.script.node 9).needsContext = false := by
    decide +kernel
  exact ⟨one, piped_checks_alike (Reading.parse_of_faultless faultless) ⟨invokes, _, named⟩ settled
    (loadsAlike_isolated _ _) 30⟩

/-- The call of a function with a literal that takes the type of its parameter from the call. -/
def literalArgument : Reading :=
  .first ⟨"/main.bgl"⟩
    ("func ap(g: (x: string) => number): number => g('a')\n" ++ "const a = ap((s => s.length))")

/-- A pipe gives no types to a literal, so that it is faulty where the call is not. -/
theorem literalArgument_piped : literalArgument.fault.isNone = true ∧
    (literalArgument.script.node 17).form = .invocation 11 [] [16] ∧
    (literalArgument.script.node 11).form = .identifier "ap" ∧
    ((literalArgument.script.problems? 30).answer? .isolated).map List.length = some 0 ∧
    (((literalArgument.script.piped 17 11 16).problems? 30).answer? .isolated).map List.length =
      some 2 := by
  decide +kernel

end Script

end ScriptCheck
