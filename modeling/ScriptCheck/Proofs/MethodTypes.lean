import ScriptCheck.Proofs.MethodCalls
import ScriptCheck.Proofs.Readings

/-!
# The types of method-style calls

The type of a call that is written out is found by the same steps as that of the call in the style
of a method: the function has the same type, and so have the receiver and the arguments, whether
they are looked at before the type parameters are known or after.
-/

namespace ScriptCheck

open Movable (move)
open Inference (Transfers)
open List Inference Deeper

variable {method : MethodCall}

namespace Deeper

variable {deeper : Deeper} {situation : Situation} {node : Node} {imports : Imports}
  {subject : NodeId} {typeArgs args : List NodeId} {type : Ty}

section

variable (hf : node.form = .invocation subject typeArgs args)
include hf

/-- The type of the call of a value. -/
theorem answer?_formType_of_call
    (plain : (deeper.methodCall? situation node).answer? imports = some none) :
    (deeper.formType situation node).answer? imports = (do
      let function ← (← deeper.typeOf situation (node.sibling subject)).expand
      deeper.resultType situation ⟨node.sibling subject, function, typeArgs.map node.sibling,
        args.map node.sibling, none⟩ : Inference Ty).answer? imports := by
  simp only [formType, hf, call?, Inquirer.expand, answer?_bind, plain, Option.bind_some,
    answer?_pure, Option.bind_assoc]

/-- The type of a call in the style of a method. -/
theorem answer?_formType_of_method
    (found : (deeper.methodCall? situation node).answer? imports = some (some method)) :
    (deeper.formType situation node).answer? imports = (do
      let function ← (← deeper.bindingType situation method.function).expand
      deeper.resultType situation ⟨node.sibling subject, function, typeArgs.map node.sibling,
        method.receiver :: args.map node.sibling, some method.receiverType⟩ :
        Inference Ty).answer? imports := by
  simp only [formType, hf, call?, Inquirer.expand, answer?_bind, found, Option.bind_some,
    answer?_pure, Option.bind_assoc]

/-- Whether a call is in the style of a method is found out before its type. -/
theorem exists_methodCall?_of_formType
    (typed : (deeper.formType situation node).answer? imports = some type) :
    ∃ found, (deeper.methodCall? situation node).answer? imports = some found := by
  simp only [formType, hf, call?, answer?_bind] at typed
  obtain ⟨call, hc, -⟩ := Option.bind_eq_some_iff.mp typed
  obtain ⟨found, hm, -⟩ := Option.bind_eq_some_iff.mp hc
  exact ⟨found, hm⟩

end

/-- The type of a node that is inferred freely is that of its form, one level further down. -/
theorem formType_of_freely
    (typed : ((freely depth).typeOf .idle node).answer? imports = some type) :
    ∃ deeper, depth = deeper + 1 ∧
      ((freely deeper).formType ⟨[node], []⟩ node).answer? imports = some type := by
  obtain _ | deeper := depth
  · cases typed
  · exact ⟨deeper, rfl, typed⟩

/-- A call that is in the style of a method at all is so while it is being inferred freely. -/
theorem isSome_methodCall?
    (free : ((freely depth).methodCall? ⟨[node], []⟩ node).answer? imports = some found)
    (target : (node.methodTarget? enough).answer? imports = some (some binding)) :
    ∃ method, found = some method := by
  rw [Node.methodTarget?, answer?_bind] at target
  obtain ⟨other, hm, ho⟩ := Option.bind_eq_some_iff.mp target
  have fewer : (Recast.relieved imports).Together ⟨[node], []⟩ .idle :=
    ⟨rfl, fun _ busy => (by cases busy), by simp⟩
  have near := (((freely_transfers imports (Nat.le_max_left depth enough)).course
    (Recast.faithful _) fewer).methodCall? (Recast.opens _ rfl _)
      (((Recast.faithful _).looks _).namesSubject (Recast.opens _ rfl _))).reached found free
  have far := (((within_transfers imports (Nat.le_max_right depth enough)).course
    (Recast.faithful _) (Recast.together_idle _)).methodCall? (Recast.opens _ rfl _)
      (((Recast.faithful _).looks _).namesSubject (Recast.opens _ rfl _))).reached other hm
  cases found with
  | some method => exact ⟨method, rfl⟩
  | none =>
    cases other with
    | none => cases ho
    | some method => cases near.2.symm.trans far.2

end Deeper

namespace Script.MethodSite

variable {script : Script} (site : script.MethodSite)

section Calls

variable {deeper : Deeper} {situation : Situation} {imports : Imports}

/-- A call that is written out is not in the style of a method. -/
theorem methodCall?_rewritten :
    (deeper.methodCall? situation (site.rewritten.node site.invocation)).answer? imports =
      some none := by
  have named : ((site.rewritten.node site.invocation).sibling site.accessor).form =
    .identifier site.name := site.form_accessor
  simp only [Deeper.methodCall?, form_invocation, named, answer?_pure]

/-- What a call in the style of a method calls, and with which receiver. -/
theorem of_methodCall?
    (found : (deeper.methodCall? situation (script.node site.invocation)).answer? imports =
      some (some method)) : method.receiver = script.node site.receiver ∧
      (deeper.typeOf situation (script.node site.receiver)).answer? imports =
        some method.receiverType ∧
      ((script.node site.accessor).resolveIn site.name .value).answer imports =
        .ok method.function := by
  have accesses : ((script.node site.invocation).sibling site.accessor).form =
    .property site.receiver site.name false := site.accesses
  simp only [Deeper.methodCall?, site.invokes, accesses, answer?_bind] at found
  obtain ⟨receiverType, ht, found⟩ := Option.bind_eq_some_iff.mp found
  obtain ⟨base, hb, found⟩ := Option.bind_eq_some_iff.mp found
  obtain ⟨property, hp, found⟩ := Option.bind_eq_some_iff.mp found
  split at found
  · cases found
  · simp only [Inquirer.resolveIn, answer?_bind, answer?_lift, Option.bind_some] at found
    split at found
    · next binding hl =>
      cases found
      exact ⟨rfl, ht, hl⟩
    · cases found

end Calls

/-! ### Both calls come to the same -/

section Types

variable (placed : script.Placed) {before after : Imports} (loads : ∀ importer path,
  after (site.original importer) path = (before importer path).map site.original)
  {depth depth' : Nat} {id : NodeId}

/-- The call is being inferred, and nothing else. -/
def calling : Situation := ⟨[script.node site.invocation], []⟩

theorem script_ne_rewritten : script ≠ site.rewritten := by
  intro same
  have forms : (script.node site.invocation).form = (site.rewritten.node site.invocation).form :=
    congrArg (fun host : Script => (host.node site.invocation).form) same
  rw [site.invokes, form_invocation] at forms
  simp at forms

/-- While the call that is written out is being inferred, so is the call as it was. -/
theorem together_calling (calls : ∀ node : Node,
    node.sameAs (site.rewritten.node site.invocation) = true → busy.contains node = true) :
    site.Together ⟨busy, []⟩ site.calling where
  expectations := rfl
  written := nofun
  busy node called := by
    refine calls node ?_
    rw [← site.moving.sameAs]
    change (move site.moving node).sameAs (move site.moving (site.rewritten.node _)) = true
    rw [move_rewritten]
    have here : (move site.moving node == script.node site.invocation) = true := by
      simpa [calling] using called
    exact here
  calling := calls _ (Node.sameAs_self _)

theorem together_rewritten :
    site.Together ⟨[site.rewritten.node site.invocation], []⟩ site.calling := by
  refine site.together_calling fun node called => ?_
  have here : (node == site.rewritten.node site.invocation) = true := called
  rw [contains_cons, here, Bool.true_or]

theorem together_original : site.Together site.calling site.calling := by
  refine site.together_calling fun node called => ?_
  have here : (node == script.node site.invocation) = true := called
  rw [contains_cons, here, Bool.true_or]

theorem opens_original (placed : script.Placed) :
    (site.graft before after).Opens site.calling (script.node site.invocation) :=
  site.opens_of_recorded placed (recorded_of_script site.script_ne_rewritten)
    fun same => absurd same site.script_ne_rewritten

theorem mem_taken (hi : id ∈ site.receiver :: site.args) : id ∈ site.taken := by
  rcases mem_cons.mp hi with rfl | hi
  · exact mem_cons_self
  · exact mem_cons_of_mem _ (mem_append_right _ hi)

include placed loads

section

variable (hd : depth ≤ depth')
include hd

/-- What is asked freely is found alike where the call is put back. -/
theorem freely_transfers :
    (Deeper.freely depth).TransfersTo (site.graft before after) (Deeper.within depth') := by
  induction depth generalizing depth' with
  | zero => exact silent_transfers False.elim
  | succ depth ih =>
    obtain ⟨deeper, rfl⟩ : ∃ deeper, depth' = deeper + 1 := ⟨depth' - 1, by omega⟩
    have faithful := site.faithful placed loads
    have below := ih (Nat.le_of_succ_le_succ hd)
    rw [within_succ]
    refine above_transfers faithful below fun {situation situation' node} hs settled => ?_
    refine freeType_transfers faithful below id fun again => ?_
    have away : node.script = site.rewritten → node.id ≠ site.invocation := by
      intro same hi
      refine again ?_
      have call : site.rewritten.node site.invocation = node := by
        rw [← same, ← hi]
        rfl
      rw [← call]
      exact hs.calling
    have still : site.Settled { situation with busy := node :: situation.busy } node :=
      ⟨settled.other, settled.recorded⟩
    refine ⟨fun busy => again (hs.busy node busy),
      ⟨hs.expectations, hs.written, fun other busy => ?_, ?_⟩, still,
      site.opens_of_recorded placed still.recorded fun same => ⟨away same, settled.other same⟩⟩
    · rw [contains_cons, Bool.or_eq_true] at busy ⊢
      exact busy.imp (fun here => (site.moving.sameAs other node).symm.trans here) (hs.busy other)
    · rw [contains_cons, hs.calling, Bool.or_true]

/-- A call in the style of a method is still one. -/
theorem methodCall?_original
    (found : ((Deeper.freely depth).methodCall? site.calling
      (script.node site.invocation)).answer? before = some (some method)) :
    ((Deeper.within depth').methodCall? site.calling
      (script.node site.invocation)).answer? after = some (some (move site.moving method)) := by
  have still : move site.moving (script.node site.invocation) = script.node site.invocation :=
    site.move_of_ne site.script_ne_rewritten
  have faithful := site.faithful placed loads
  have called := (((site.freely_transfers placed loads hd).course faithful
    site.together_original).methodCall? (site.opens_original placed)
      ((faithful.looks _).namesSubject (site.opens_original placed))).reached _ found
  change _ ∧ ((Deeper.within depth').methodCall? site.calling
    (move site.moving (script.node site.invocation))).answer? after = _ at called
  rw [still] at called
  exact called.2

/-- The type of the call as it was is what it was. -/
theorem formType_original : Transfers (site.graft before after)
      ((Deeper.freely depth).formType site.calling (script.node site.invocation))
      ((Deeper.within depth').formType site.calling (script.node site.invocation))
      (site.graft before after).Writes := by
  have still : move site.moving (script.node site.invocation) = script.node site.invocation :=
    site.move_of_ne site.script_ne_rewritten
  have faithful := site.faithful placed loads
  have typed := ((site.freely_transfers placed loads hd).course faithful
    site.together_original).formType (faithful.looks _) (settled_of_script site.script_ne_rewritten)
      (site.opens_original placed)
  change Transfers _ _ ((Deeper.within depth').formType site.calling
    (move site.moving (script.node site.invocation))) _ at typed
  rwa [still] at typed

/-- The function that a call in the style of a method calls has the type of the name that is
written out. -/
theorem functionType_rewritten
    (found : ((script.node site.accessor).resolveIn site.name .value).answer after = .ok function) :
    Transfers (site.graft before after)
      ((Deeper.freely depth).typeOf ⟨[site.rewritten.node site.invocation], []⟩
        (site.rewritten.node site.accessor))
      ((Deeper.within depth').bindingType site.calling function)
      (site.graft before after).Writes := by
  have faithful := site.faithful placed loads
  obtain _ | depth := depth
  · exact .exhausted False.elim
  have resolved := (site.remodels placed loads).resolveIn (site.rewritten.node site.accessor)
    site.name .value
  have moved : (((script.node site.accessor).resolveIn site.name .value).answer after) =
      move site.moving (((site.rewritten.node site.accessor).resolveIn site.name .value).answer
        before) := by
    rw [← move_rewritten]
    exact resolved.moved
  rw [found] at moved
  cases hl : ((site.rewritten.node site.accessor).resolveIn site.name .value).answer before with
  | error fault =>
    rw [hl] at moved
    cases fault <;> cases moved
  | ok binding =>
    rw [hl] at moved
    obtain rfl : function = move site.moving binding := Except.ok.inj moved
    obtain ⟨scope, ha, offers⟩ := Node.exists_offers_of_resolveIn hl
    have opens : (site.graft before after).OpensBinding
        ⟨[site.rewritten.node site.accessor, site.rewritten.node site.invocation], []⟩ binding :=
      site.opensBinding_of_offers placed (site.remodels placed loads)
        ((recorded_accessor placed).ancestor placed scope ha) offers
    have together : site.Together
        ⟨[site.rewritten.node site.accessor, site.rewritten.node site.invocation], []⟩
        site.calling := by
      refine site.together_calling fun node called => ?_
      have here : (node == site.rewritten.node site.invocation) = true := called
      rw [contains_cons, contains_cons, here, Bool.true_or, Bool.or_true]
    have typed := ((site.freely_transfers placed loads (Nat.le_of_succ_le hd)).course faithful
      together).bindingType opens
    refine Inference.Transfers.of_answers typed ?_ rfl
    have free : ¬[site.rewritten.node site.invocation].contains
        (site.rewritten.node site.accessor) = true := by
      have other : (site.rewritten.node site.accessor == site.rewritten.node site.invocation) =
          false := by
        show (site.accessor == site.invocation && _) = false
        rw [beq_false_of_ne site.accessor_ne_invocation, Bool.false_and]
      rw [contains_cons, other]
      exact Bool.noConfusion
    show ((Deeper.freely depth).freeType _ _).answer? before = _
    rw [Deeper.freeType, if_neg free]
    simp only [Deeper.formType, form_accessor, Inquirer.resolve, Node.resolve,
      answer?_bind, answer?_lift, hl, Option.bind_some]
    rfl

/-- The type of what a call takes, as long as it does not depend on the call, is the same. -/
theorem typeOf_taken (hi : id ∈ site.taken)
    (context : (site.rewritten.node id).needsContext = false) : Transfers (site.graft before after)
      ((Deeper.freely depth).typeOf ⟨[site.rewritten.node site.invocation], []⟩
        (site.rewritten.node id))
      ((Deeper.within depth').typeOf site.calling (script.node id))
      (site.graft before after).Writes := by
  have settled : site.Settled ⟨[site.rewritten.node site.invocation], []⟩
      (site.rewritten.node id) :=
    settled_of_mem_taken placed hi fun needs => absurd (context.symm.trans needs) Bool.false_ne_true
  have typed := (site.freely_transfers placed loads hd).typeOf site.together_rewritten settled
  change Transfers _ _ ((Deeper.within depth').typeOf site.calling
    (move site.moving (site.rewritten.node id))) _ at typed
  rwa [move_rewritten] at typed

/-- The same function is called with the same arguments. -/
theorem callsAlike (written : (site.graft before after).Writes function)
    (received : method.receiver = script.node site.receiver)
    (typed : ((Deeper.within depth').typeOf site.calling (script.node site.receiver)).answer? after =
      some method.receiverType) :
    ((site.freely_transfers placed loads hd).course (site.faithful placed loads)
      site.together_rewritten).CallsAlike
      ⟨site.rewritten.node site.accessor, function, site.typeArgs.map site.rewritten.node,
        (site.receiver :: site.args).map site.rewritten.node, none⟩
      ⟨script.node site.accessor, move site.moving function, site.typeArgs.map script.node,
        method.receiver :: site.args.map script.node, some method.receiverType⟩ where
  written := written
  subject := rfl
  typeArgs := by
    rw [map_map]
    exact map_congr_left fun id _ => (site.move_rewritten id).symm
  visited _ _ := trivial
  args := by
    rw [received, map_map]
    show (site.receiver :: site.args).map script.node = _
    exact map_congr_left fun id _ => (site.move_rewritten id).symm
  recorded arg ha type := by
    obtain ⟨id, hi, rfl⟩ := mem_map.mp ha
    refine settled_of_mem_taken placed (site.mem_taken hi) fun _ => ?_
    have here : (site.rewritten.node id == site.rewritten.node id) = true := Node.sameAs_self _
    simp [Situation.recorded?, Situation.expecting, here]
  settled index arg ha context := by
    rw [getElem?_map] at ha
    obtain ⟨id, hi, rfl⟩ := Option.map_eq_some_iff.mp ha
    have typeOf := site.typeOf_taken placed loads hd (site.mem_taken (mem_of_getElem? hi)) context
    refine typeOf.of_answers ?_ ?_
    · simp only [Deeper.argumentType, getElem?_map, hi, Option.map_some]
      rfl
    · cases index with
      | zero =>
        cases hi
        exact typed.symm
      | succ index =>
        have hi : site.args[index]? = some id := hi
        simp only [Deeper.argumentType, getElem?_cons_succ, getElem?_map, hi, Option.map_some]

/-- The call that is written out has the type of the call in the style of a method. -/
theorem formType_rewritten
    (found : ((Deeper.within depth').methodCall? site.calling
      (script.node site.invocation)).answer? after = some (some method)) :
    Transfers (site.graft before after)
      ((Deeper.freely depth).formType ⟨[site.rewritten.node site.invocation], []⟩
        (site.rewritten.node site.invocation))
      ((Deeper.within depth').formType site.calling (script.node site.invocation))
      (site.graft before after).Writes := by
  have faithful := site.faithful placed loads
  obtain ⟨received, typed, resolved⟩ := site.of_methodCall? found
  refine Inference.Transfers.of_answers ?_
    (answer?_formType_of_call site.form_invocation site.methodCall?_rewritten)
    (answer?_formType_of_method site.invokes found)
  refine .bind (site.functionType_rewritten placed loads hd resolved) fun type ht => ?_
  refine .bind (.lift (Ty.expand_transfers faithful.typeNames ht)) fun function hw => ?_
  exact (site.callsAlike placed loads hd hw received typed).resultType

end

end Types

/-- Two loaders that give the same scripts, apart from the two ways to write the call. -/
def LoadsAlike (before after : Imports) : Prop :=
  ∀ importer other path, site.original importer = site.original other →
    (before importer path).map site.original = (after other path).map site.original

/-- A loader that goes by the path of the script that imports is one of these. -/
theorem loadsAlike_of_path (load : FilePath → String → Option Script) :
    site.LoadsAlike (fun importer => load importer.path) fun importer => load importer.path := by
  intro importer other path same
  have paths : importer.path = other.path := by
    rw [← site.path_original, same, site.path_original]
  exact congrArg (fun directory => (load directory path).map site.original) paths

/-- Both calls come to the same where the scripts are taken for each other. -/
theorem move_eq (placed : script.Placed) {before after : Imports}
    (alike : site.LoadsAlike before after)
    (target : ((script.node site.invocation).methodTarget? depth).answer? before =
      some (some binding))
    (typed : ((Deeper.freely enough).typeOf .idle (script.node site.invocation)).answer? before =
      some type) (typed' : ((Deeper.freely enough').typeOf .idle
      (site.rewritten.node site.invocation)).answer? after = some type') :
    move site.moving type = move site.moving type' := by
  let originals : Imports := fun importer path => (before importer path).map site.original
  have loads (importer : Script) (path : String) :
      originals (site.original importer) path = (before importer path).map site.original :=
    (alike _ importer path site.original_original).trans (alike importer importer path rfl).symm
  have loads' (importer : Script) (path : String) :
      originals (site.original importer) path = (after importer path).map site.original :=
    alike _ importer path site.original_original
  obtain ⟨deeper, -, formed⟩ := formType_of_freely typed
  obtain ⟨deeper', -, formed'⟩ := formType_of_freely typed'
  obtain ⟨found, hm⟩ := exists_methodCall?_of_formType site.invokes formed
  obtain ⟨method, rfl⟩ := isSome_methodCall? hm target
  have called := site.methodCall?_original placed loads (Nat.le_max_left deeper deeper') hm
  have came := (site.formType_original placed loads (Nat.le_max_left deeper deeper')).reached
    type formed
  have came' := (site.formType_rewritten placed loads' (Nat.le_max_right deeper deeper')
    called).reached type' formed'
  exact Option.some.inj (came.2.symm.trans came'.2)

end Script.MethodSite

/-- A call in the style of a method has the type of the call that it stands for, which has the
receiver as its first argument, if neither type is asked for while it is being inferred. -/
theorem infer_rewritten {path : FilePath} {source : String} {script : Script}
    (read : parse path source = .ok script) (site : script.MethodSite) {before after : Imports}
    (alike : site.LoadsAlike before after) {depth : Nat} {binding : Binding}
    (target : ((script.node site.invocation).methodTarget? depth).answer? before =
      some (some binding))
    (free : (script.node site.invocation).InfersFreely before)
    (free' : (site.rewritten.node site.invocation).InfersFreely after) :
    ∃ type type', move site.moving type = move site.moving type' ∧
      type.sameAs type' = type.sameAs type ∧ ∃ enough, ∀ depth ≥ enough,
        ((script.node site.invocation).infer? depth true).answer? before = some type ∧
        ((site.rewritten.node site.invocation).infer? depth true).answer? after = some type' := by
  have placed := placed_of_parse read
  obtain ⟨enough, answered⟩ := free
  obtain ⟨enough', answered'⟩ := free'
  obtain ⟨type, ht⟩ := Option.isSome_iff_exists.mp answered
  obtain ⟨type', ht'⟩ := Option.isSome_iff_exists.mp answered'
  have same : move site.moving type = move site.moving type' :=
    site.move_eq placed alike target ht ht'
  refine ⟨type, type', same, ?_, max enough enough', fun depth hd => ⟨?_, ?_⟩⟩
  · rw [← Ty.sameAs_move site.moving, ← same, Ty.sameAs_move]
  · exact Node.infer?_of_freely ht (Nat.max_le.mp hd).1
  · exact Node.infer?_of_freely ht' (Nat.max_le.mp hd).2

/-- A generic function that is called like a method of a number, with a literal that takes the
type of its parameter from the call. -/
def pickedNumber : Reading :=
  .first ⟨"/main.bgl"⟩ ("func pick<T>(x: T, f: (y: T) => T): T => f(x)\n" ++
    "func main() => (5).pick((y) => y)")

/-- The call, with the receiver and the literal that it takes. -/
def pickedNumberSite : pickedNumber.script.MethodSite where
  invocation := 20
  accessor := 16
  receiver := 15
  name := "pick"
  typeArgs := []
  args := [19]
  invokes := by decide +kernel
  accesses := by decide +kernel

theorem pickedNumber_rewritten :
    (pickedNumber.script.node 20).InfersFreely Imports.isolated ∧
      (pickedNumberSite.rewritten.node 20).InfersFreely Imports.isolated ∧
      ∃ type type', move pickedNumberSite.moving type = move pickedNumberSite.moving type' ∧
        type.sameAs type' = type.sameAs type ∧ ∃ enough, ∀ depth ≥ enough,
          ((pickedNumber.script.node 20).infer? depth true).answer? Imports.isolated = some type ∧
          ((pickedNumberSite.rewritten.node 20).infer? depth true).answer? Imports.isolated =
            some type' := by
  obtain ⟨faultless, target, free, free'⟩ : pickedNumber.fault.isNone = true ∧
      (((pickedNumber.script.node 20).methodTarget? 12).answer? Imports.isolated).map
        Option.isSome = some true ∧
      (((Deeper.freely 12).typeOf .idle (pickedNumber.script.node 20)).answer?
        Imports.isolated).isSome = true ∧
      (((Deeper.freely 12).typeOf .idle (pickedNumberSite.rewritten.node 20)).answer?
        Imports.isolated).isSome = true := by
    decide +kernel
  obtain ⟨found, target, called⟩ := Option.map_eq_some_iff.mp target
  obtain ⟨binding, rfl⟩ := Option.isSome_iff_exists.mp called
  have alike : pickedNumberSite.LoadsAlike Imports.isolated Imports.isolated :=
    pickedNumberSite.loadsAlike_of_path fun _ _ => none
  exact ⟨⟨12, free⟩, ⟨12, free'⟩, infer_rewritten (Reading.parse_of_faultless faultless)
    pickedNumberSite alike target ⟨12, free⟩ ⟨12, free'⟩⟩

end ScriptCheck
