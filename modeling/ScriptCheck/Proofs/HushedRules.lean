import ScriptCheck.Proofs.FreeInference
import ScriptCheck.Proofs.ProblemPlaces
import ScriptCheck.Proofs.RecastRules

/-!
# Rules that keep quiet about unknown types

A rule that is told of a fault below its node says nothing if a part that it judges is of an
unknown type. A call is judged argument by argument: each of them is passed over if its type is
unknown or if that of its parameter is.
-/

namespace ScriptCheck

open Movable (move)
open List Option Inference

/-- What depends on a question with a known answer. -/
theorem Inference.Finds.known {next : α → Inference β}
    (known : question.answer? imports = some answer)
    (continues : Finds imports (next answer) also) : Finds imports (question >>= next) also :=
  andThen (fun _ found => Option.some.inj (known.symm.trans found)) fun _ same => same ▸ continues

/-- Nothing is said about an unknown type. -/
theorem Inference.Finds.hush (hu : unknown = true) :
    Finds imports (if (true && unknown) = true then pure [] else rest) (Problem.AllIn sites) := by
  rw [Bool.true_and, if_pos hu]
  exact .nothing

/-- The parts of a node that its rule judges by their types, calls aside. -/
def Form.judged : Form → List NodeId
  | .storeMember _ _ _ value => [value]
  | .valueDeclaration _ _ value _ _ => [value]
  | .localDeclaration _ _ value _ => [value]
  | .inlineConst _ _ value _ => [value]
  | .func _ _ _ body => [body]
  | .ifCase condition _ => [condition]
  | .whileLoop condition _ => [condition]
  | .testExpression _ body => [body]
  | .unary _ operand => [operand]
  | .binary left _ right => [left, right]
  | .property subject _ _ => [subject]
  | .index subject key _ => [subject, key]
  | .assignment target value => [target, value]
  | .forLoop _ iterator _ => [iterator]
  | .switch value _ _ => [value]
  | .cast inner _ => [inner]
  | _ => []

namespace Inspection

/-- Nothing is reported. -/
abbrev Silent (imports : Imports) (question : Inference (List Problem)) : Prop :=
  Reports imports (fun _ => False) question

theorem Silent.answer?_eq (silent : Silent imports question)
    (ends : (question.answer? imports).isSome = true) : question.answer? imports = some [] := by
  obtain ⟨found, hf⟩ := isSome_iff_exists.mp ends
  rw [hf, eq_nil_iff_forall_not_mem.mpr (silent found hf)]

section Parts

variable {imports : Imports} {inspection : Inspection} {node : Node}

variable (typed : (inspection.typeOf node).answer? imports = some .unknown)

include typed

theorem valueType_unknown : (inspection.valueType node).answer? imports = some .unknown := by
  rw [valueType, answer?_bind, typed]
  rfl

theorem expandedType_unknown : (inspection.expandedType node).answer? imports = some .unknown := by
  rw [expandedType, answer?_bind, typed]
  rfl

theorem ascribed_silent (ascription : Node) :
    Silent imports (inspection.ascribed true ascription node) :=
  .known (valueType_unknown typed) (.hush (Bool.or_true _))

theorem boolean_silent : Silent imports (inspection.boolean true node) :=
  .known (valueType_unknown typed) (.hush rfl)

omit typed in
theorem ascribedIfWritten_silent (ascription : Option NodeId)
    (typed : (inspection.typeOf (node.sibling value)).answer? imports = some .unknown) :
    Silent imports (inspection.ascribedIfWritten true node ascription value) := by
  cases ascription with
  | none => exact .nothing
  | some id => exact ascribed_silent typed (node.sibling id)

omit typed in
/-- A rule that is told of a fault says nothing about a part of an unknown type. It may still say
something about what a function declares and about what is assigned to. -/
theorem rules_silent {id : NodeId} (judges : id ∈ node.form.judged)
    (typed : (inspection.typeOf (node.sibling id)).answer? imports = some .unknown)
    (declares : ∀ typeParams params result body, node.form = .func typeParams params result body →
      Binder.duplicates (node.typeParamBinders typeParams ++ node.valueBinders params) = [])
    (target : ∀ target value, node.form = .assignment target value →
      Silent imports (inspection.assignmentTarget (node.sibling target))) :
    Silent imports (inspection.rules true node) := by
  unfold rules
  cases hf : node.form with
  | storeMember | valueDeclaration | localDeclaration | inlineConst =>
    cases mem_singleton.mp (hf ▸ judges)
    exact ascribedIfWritten_silent _ typed
  | func typeParams params result body =>
    cases mem_singleton.mp (hf ▸ judges)
    refine .andThen (ascribedIfWritten_silent _ typed) fun found hp => .done (.append ?_ hp)
    rw [declares _ _ _ _ hf]
    exact .nil
  | ifCase | whileLoop | testExpression =>
    cases mem_singleton.mp (hf ▸ judges)
    exact boolean_silent typed
  | unary =>
    cases mem_singleton.mp (hf ▸ judges)
    exact .known typed (.hush rfl)
  | binary left operator right =>
    show Silent imports (if operator = .orElse then pure [] else _)
    split
    · exact .nothing
    · rcases mem_cons.mp (hf ▸ judges) with rfl | judges
      · exact .known typed (.after fun _ => .hush rfl)
      · cases mem_singleton.mp judges
        exact .after fun _ => .known typed (.hush (Bool.or_true _))
  | property =>
    cases mem_singleton.mp (hf ▸ judges)
    refine .after fun method => ?_
    split
    · exact .nothing
    · exact .known (expandedType_unknown typed) (.hush rfl)
  | index subject key =>
    rcases mem_cons.mp (hf ▸ judges) with rfl | judges
    · exact .known (expandedType_unknown typed) (.after fun _ => .hush rfl)
    · cases mem_singleton.mp judges
      exact .after fun _ => .known typed (.hush (Bool.or_true _))
  | assignment left value =>
    refine .andThen (target left value hf) fun found hp => ?_
    split
    · exact .done hp
    · rcases mem_cons.mp (hf ▸ judges) with rfl | judges
      · exact .known typed (.after fun _ => .hush rfl)
      · cases mem_singleton.mp judges
        exact .after fun _ => .known (valueType_unknown typed) (.hush (Bool.or_true _))
  | forLoop =>
    cases mem_singleton.mp (hf ▸ judges)
    exact .known (expandedType_unknown typed) .nothing
  | switch value arms otherwise =>
    cases mem_singleton.mp (hf ▸ judges)
    refine .known typed (.andThen (.mapM fun arm _ => ?_) fun found hp => .done hp)
    show Silent imports _
    split
    · exact .after fun _ => .hush rfl
    · exact .nothing
  | cast =>
    cases mem_singleton.mp (hf ▸ judges)
    exact ascribed_silent typed _
  | _ =>
    rw [hf] at judges
    cases judges

end Parts

/-! ### Calls -/

/-- An argument is passed over, or it is judged by types that are found without asking for the
hidden ones. -/
def PassesOver (apart inspection : Inspection) (imports : Imports) (call : Call)
    (typeParams params : List (Slot Ty)) (bindings : Bindings) (index : Nat) (type : Ty) : Prop :=
  (type.substitute bindings).isUnknown = true ∨
    (inspection.answers.argumentType .idle call index).answer? imports = some .unknown ∨
    ((apart.answers.bindTypeParams .idle call typeParams params true).answer? imports).isSome = true ∧
      ((apart.answers.argumentType .idle call index).answer? imports).isSome = true

section Calls

variable {recast : Recast} {apart inspection inspection' : Inspection}
  (transfers : apart.answers.TransfersTo recast.graft inspection'.answers)
  (keeps : recast.KeepsCalls apart.answers inspection'.answers)

include transfers keeps in
/-- A value that fits after the change fits before it. -/
theorem assignable_silent (hd : recast.graft.Writes destination) (hv : recast.graft.Writes value)
    (clean : (assignable false (move recast place) (move recast destination)
      (move recast value)).answer? recast.after = some []) :
    Silent recast.before (assignable true place destination value) := by
  by_cases unknown : (destination.isUnknown || value.isUnknown) = true
  · exact .hush unknown
  · intro found hf
    have told : (assignable false place destination value).answer? recast.before = some found := by
      rw [← hf, assignable, assignable, if_neg (by simp), if_neg (by simpa using unknown)]
    have moved := (Inference.Transfers.reached ((recasting transfers false keeps).assignable
      (fun _ => trivial) hd hv) found told).2
    rw [map_eq_nil_iff.mp (Option.some.inj (moved.symm.trans clean))]
    exact .nil

section Standing

variable (standing : apart.answers.TransfersTo (Recast.standing imports).graft inspection.answers)
  {call : Call}

include standing

theorem argumentType_stands (asks : (Recast.standing imports).graft.AsksCall .idle call)
    {index : Nat}
    (found : (apart.answers.argumentType .idle call index).answer? imports = some actual) :
    (inspection.answers.argumentType .idle call index).answer? imports = some actual := by
  have moved := ((standing.course (Recast.faithful _) (Recast.together_idle _)).argumentType asks
    index).reached actual found
  rw [← Call.move_standing call, ← Ty.move_standing actual]
  exact moved.2

theorem bindTypeParams_stands (asks : (Recast.standing imports).graft.AsksCall .idle call)
    (ht : (Recast.standing imports).graft.WritesSlots typeParams)
    (hp : (Recast.standing imports).graft.WritesSlots params)
    (found : (apart.answers.bindTypeParams .idle call typeParams params true).answer? imports =
      some bindings) :
    (inspection.answers.bindTypeParams .idle call typeParams params true).answer? imports =
      some bindings := by
  have alike := (standing.course (Recast.faithful _) (Recast.together_idle _)).callsAlike asks
  have moved := (alike.bindTypeParams ht hp true).reached bindings found
  have slots (slots : List (Slot Ty)) : slots.map (move .standing) = slots :=
    Slot.map_standing fun type _ => Ty.move_standing type
  have rows : bindings.map (move .standing) = bindings :=
    map_standing fun row _ => congrArg (Prod.mk row.1) (Ty.move_standing row.2)
  rw [← Call.move_standing call, ← slots typeParams, ← slots params, ← rows]
  exact moved.2

end Standing

variable
  (standing : apart.answers.TransfersTo (Recast.standing recast.before).graft inspection.answers)
  {call : Call} (asks : recast.graft.AsksCall .idle call)
  {typeParams params : List (Slot Ty)} (ht : recast.graft.WritesSlots typeParams)
  (hp : recast.graft.WritesSlots params)
  {bindings : Bindings}
  (binds : (inspection.answers.bindTypeParams .idle call typeParams params true).answer?
    recast.before = some bindings)
  (passes : ∀ row ∈ (params.zip call.args).zipIdx, ∀ type ∈ row.1.1.type,
    PassesOver apart inspection recast.before call typeParams params bindings row.2 type)

include transfers keeps standing asks ht hp binds passes

/-- Arguments that fit after the change or are passed over fit before it. -/
theorem arguments_silent
    (clean : (inspection'.arguments false (move recast call) (typeParams.map (move recast))
      (params.map (move recast))).answer? recast.after = some []) :
    Silent recast.before (inspection.arguments true call typeParams params) := by
  refine .known binds (.andThen (.mapM fun row hr => ?_) fun found hf => .done hf)
  show Silent recast.before _
  have passes := passes row hr
  obtain ⟨⟨param, arg⟩, index⟩ := row
  have inside := (of_mem_zip (fst_mem_of_mem_zipIdx hr)).1
  dsimp only at passes ⊢
  cases hm : param.type with
  | none => exact .nothing
  | some type =>
    rcases passes type hm with unknown | unknown | ⟨bound, given⟩
    · exact .after fun actual => .hush (by rw [unknown, Bool.true_or])
    · exact .known unknown (.hush (Bool.or_true _))
    · obtain ⟨bound, hb⟩ := isSome_iff_exists.mp bound
      obtain ⟨actual, ha⟩ := isSome_iff_exists.mp given
      have still : (Recast.standing recast.before).graft.AsksCall .idle call :=
        ⟨asks.subject, fun _ _ => trivial, fun _ _ => trivial, asks.receiver⟩
      obtain rfl := Option.some.inj (binds.symm.trans (bindTypeParams_stands standing still ht hp hb))
      let course := transfers.course recast.faithful recast.together_idle
      have typed : recast.graft.Writes actual ∧
          (inspection'.answers.argumentType .idle (move recast call) index).answer? recast.after =
            some (move recast actual) := (course.argumentType asks index).reached actual ha
      have found := ((course.callsAlike asks).bindTypeParams ht hp true).reached _ hb
      refine .known (argumentType_stands standing still ha)
        (assignable_silent transfers keeps ?_ typed.1.eraseGenerics ?_)
      · exact (hp type (mem_slotTypes.mpr ⟨param, inside, hm⟩)).substitute found.1
      · rw [arguments, answer?_bind, found.2, bind_some] at clean
        have fits := (gather_eq_nil_iff _ _).mp clean (move recast ((param, arg), index))
        have listed : move recast ((param, arg), index) ∈
            ((params.map (move recast)).zip (move recast call).args).zipIdx := by
          show _ ∈ ((params.map (move recast)).zip (call.args.map (move recast))).zipIdx
          rw [zip_move, zipIdx_move]
          exact mem_map_of_mem hr
        have fits := fits listed
        simp only [move_pair, Slot.type_move, hm, map_some, move_nat,
          answer?_bind, typed.2, bind_some] at fits
        rw [move_list, Ty.substitute_move, Ty.eraseGenerics_move] at fits
        exact fits

/-- A call that is right after the change and whose arguments may be passed over is right before
it. -/
theorem signature_silent (node : Node)
    (clean : (inspection'.signature false (move recast node) (move recast call)
      (typeParams.map (move recast)) (params.map (move recast))).answer? recast.after = some []) :
    Silent recast.before (inspection.signature true node call typeParams params) := by
  have typeArgs : (move recast call).typeArgs = call.typeArgs.map (move recast) := rfl
  have args : (move recast call).args = call.args.map (move recast) := rfl
  simp only [signature, typeArgs, args, isEmpty_map, length_map] at clean ⊢
  split at clean
  · cases clean
  · next counts =>
    rw [if_neg counts]
    rw [answer?_bind, bind_eq_some_iff] at clean
    obtain ⟨bounds, hb, clean⟩ := clean
    split at clean
    · simp at clean
    · next given =>
      simp only [answer?_bind, answer?_pure, bind_eq_some_iff,
        Option.some.injEq, append_eq_nil_iff] at clean
      obtain ⟨problems, hc, rfl, rfl⟩ := clean
      have bounded : Silent recast.before (typeArguments call typeParams) := by
        intro found hf
        have moved := (Inference.Transfers.reached
          ((recasting transfers false keeps).typeArguments asks ht) found hf).2
        rw [map_eq_nil_iff.mp (Option.some.inj (moved.symm.trans hb))]
        exact .nil
      refine .andThen bounded fun found hf => ?_
      rw [if_neg given]
      exact .andThen (arguments_silent transfers keeps standing asks ht hp binds passes hc)
        fun problems hp => .done (.append hf hp)

omit ht hp in
theorem calling_silent (called : call.subject.signature? = some (typeParams, params)) (node : Node)
    (clean : (inspection'.calling false (move recast node) (move recast call)).answer?
      recast.after = some []) :
    Silent recast.before (inspection.calling true node call) := by
  have subject : (move recast call).subject = move recast call.subject := rfl
  have written := asks.subject
  unfold calling at clean ⊢
  rw [subject] at clean
  cases hs : call.subject with
  | func typeParams params result =>
    rw [hs] at clean written called
    cases called
    obtain ⟨ht, hp, -⟩ := Ty.formed_func.mp written
    rw [Ty.move_func] at clean
    exact signature_silent transfers keeps standing asks ht hp binds passes node clean
  | proc typeParams params =>
    rw [hs] at clean written called
    cases called
    obtain ⟨ht, hp⟩ := Ty.formed_proc.mp written
    have placed : isStatement (move recast node) = isStatement node :=
      (recasting transfers false keeps).isStatement trivial
    simp only [Ty.move_proc, placed, answer?_bind, answer?_pure,
      bind_eq_some_iff, Option.some.injEq, append_eq_nil_iff] at clean
    obtain ⟨problems, clean, placed, rfl⟩ := clean
    refine .andThen (signature_silent transfers keeps standing asks ht hp binds passes node clean)
      fun problems hp => .done (.append ?_ hp)
    split at placed
    · next stands =>
      rw [if_pos stands]
      exact .nil
    · cases placed
  | _ =>
    rw [hs] at called
    cases called

end Calls

/-! ### Excuses -/

/-- What a rule looks at is of an unknown type, and whatever else it looks at does not depend on
the hidden type. -/
inductive Excused (apart inspection : Inspection) (imports : Imports) (node : Node) : Prop
  /-- The rule judges a part of an unknown type. -/
  | judged {part : NodeId} (judges : part ∈ node.form.judged)
    (unknown : (inspection.typeOf (node.sibling part)).answer? imports = some .unknown)
    (target : ∀ target value, node.form = .assignment target value →
      ((apart.assignmentTarget (node.sibling target)).answer? imports).isSome = true)
  /-- Something of an unknown type is called. -/
  | called {call : Call}
    (calls : (inspection.answers.call? .idle node).answer? imports = some (some call))
    (unknown : call.subject = .unknown)
  /-- A function is called with arguments that may be passed over. -/
  | given {call : Call} {typeParams params : List (Slot Ty)} {bindings : Bindings}
    (calls : (apart.answers.call? .idle node).answer? imports = some (some call))
    (signature : call.subject.signature? = some (typeParams, params))
    (binds : (inspection.answers.bindTypeParams .idle call typeParams params true).answer? imports =
      some bindings)
    (passes : ∀ row ∈ (params.zip call.args).zipIdx, ∀ type ∈ row.1.1.type,
      PassesOver apart inspection imports call typeParams params bindings row.2 type)

/-- Only calls are judged as calls. -/
theorem rules_of_call {deeper : Deeper}
    (calls : (deeper.call? .idle node).answer? imports = some (some call))
    (inspection : Inspection) (faulty : Bool) :
    inspection.rules faulty node = inspection.invocation faulty node := by
  unfold Deeper.call? at calls
  cases hf : node.form with
  | invocation | pipe => simp only [rules, hf]
  | _ =>
    rw [hf] at calls
    cases calls

/-- Rules find the same problems where nothing changes. -/
def staying {imports : Imports} {apart inspection : Inspection}
    (standing : apart.answers.TransfersTo (Recast.standing imports).graft inspection.answers) :
    Course (Recast.standing imports).graft Unit :=
  recasting standing false ⟨fun _ changes => absurd rfl changes, fun changes => absurd rfl changes⟩

section Excuses

variable {recast : Recast} {apart inspection inspection' : Inspection}
  (transfers : apart.answers.TransfersTo recast.graft inspection'.answers)
  (keeps : recast.KeepsCalls apart.answers inspection'.answers)
  (standing : apart.answers.TransfersTo (Recast.standing recast.before).graft inspection.answers)
  {node : Node} (same : (move recast node).form = node.form)
  (target : ∀ {target value}, node.form = .assignment target value →
    ¬recast.Changes (node.sibling target))
  (clean : (inspection'.rules false (move recast node)).answer? recast.after = some [])

include transfers keeps standing same target clean

/-- A rule that is kept after the change is kept before it if it does not depend on the hidden
type. -/
theorem rules_of_apart
    (ends : ((apart.rules false node).answer? recast.before).isSome = true) (faulty : Bool) :
    (inspection.rules faulty node).answer? recast.before = some [] := by
  obtain ⟨found, hf⟩ := isSome_iff_exists.mp ends
  let moving := recasting transfers false keeps
  have moved := (Inference.Transfers.reached (moving.rules trivial same (fun _ _ _ => trivial)
    fun _ _ assigns => moving.assignmentTarget trivial (not_not.mp (target assigns))) found hf).2
  obtain rfl := map_eq_nil_iff.mp (Option.some.inj (moved.symm.trans clean))
  let staying := staying standing
  have stands := (Inference.Transfers.reached (staying.rules trivial rfl (fun _ _ _ => trivial)
    fun _ _ _ => staying.assignmentTarget trivial rfl) [] hf).2
  obtain ⟨kept, hk, fewer⟩ := rules_trims faulty [] stands
  rw [← sublist_nil.mp fewer]
  exact hk

/-- A rule with an excuse says nothing if it is kept after the change. -/
theorem rules_of_excused (excused : Excused apart inspection recast.before node) :
    Silent recast.before (inspection.rules true node) := by
  cases excused with
  | judged judges unknown ends =>
    refine rules_silent judges unknown (fun typeParams params result body hf => ?_)
      fun left value hf => ?_
    · have owned : (recasting transfers false keeps).owns node.script := trivial
      have binders := (recasting transfers false keeps).binders owned
      simp only [rules, same, hf, binders, ← map_append, Binder.duplicates_move, answer?_bind, answer?_pure,
        bind_eq_some_iff, Option.some.injEq, append_eq_nil_iff,
        map_eq_nil_iff] at clean
      obtain ⟨-, -, none, -⟩ := clean
      exact none
    · obtain ⟨found, hfound⟩ := isSome_iff_exists.mp (ends left value hf)
      have moved : (inspection'.assignmentTarget (move recast (node.sibling left))).answer?
          recast.after = some (move recast found) := (Inference.Transfers.reached
        ((recasting transfers false keeps).assignmentTarget trivial (not_not.mp (target hf)))
        found hfound).2
      have stands := (Inference.Transfers.reached ((staying standing).assignmentTarget trivial
        rfl) found hfound).2
      have here : (move recast node).sibling left = move recast (node.sibling left) := rfl
      simp only [rules, same, hf, assignment, here, answer?_bind, moved, bind_some] at clean
      have none : found = [] := by
        cases found with
        | nil => rfl
        | cons => cases clean
      subst none
      intro other ho
      cases Option.some.inj (stands.symm.trans ho)
      exact .nil
  | called calls unknown =>
    rw [rules_of_call calls]
    refine .known calls ?_
    show Silent recast.before (calling _ _ _ _)
    unfold calling
    rw [unknown]
    exact .nothing
  | given calls signature binds passes =>
    obtain ⟨-, stands⟩ := (call?_transfers standing rfl).reached _ calls
    obtain ⟨asks, moved⟩ := (call?_transfers transfers same).reached _ calls
    rw [rules_of_call moved, invocation, answer?_bind, moved] at clean
    rw [rules_of_call calls]
    rename_i call _ _ _
    have stands : (inspection.answers.call? .idle node).answer? recast.before =
        some (some (move .standing call)) := stands
    rw [Call.move_standing] at stands
    exact .known stands
      (calling_silent transfers keeps standing (asks _ rfl) binds passes signature node clean)

end Excuses

end Inspection

end ScriptCheck
