import ScriptCheck.Proofs.TypeCourses

/-!
# The course of a rule

A rule asks for types and calls, compares what it is told, and reports problems at nodes of the
script that it looks at. What is known of its questions and kept by the ways of joining them is
known of every rule, which is shown here once. Rules are followed in several settings at a time,
which differ in who asks, in how deep inference goes and in whether a rule is told of a fault, and
once more after a change of scripts, where they find the moved problems.
-/

namespace ScriptCheck

open Movable (move)
open List Ty

/-- All problems are as stated. -/
def Problem.AllIn (sites : Problem → Prop) (problems : List Problem) : Prop :=
  ∀ problem ∈ problems, sites problem

namespace Problem.AllIn

theorem nil : AllIn sites [] := by nofun

theorem single (hp : sites problem) : AllIn sites [problem] := forall_mem_singleton.mpr hp

theorem append (first : AllIn sites problems) (second : AllIn sites others) :
    AllIn sites (problems ++ others) := forall_mem_append.mpr ⟨first, second⟩

/-- Names that are declared again are reported where they are declared. -/
theorem duplicates (hb : ∀ binder ∈ binders, sites ⟨binder.node, .alreadyDeclared binder.name⟩) :
    AllIn sites (Binder.duplicates binders) := by
  have repeated : ∀ binder ∈ Binder.repeated binders, binder ∈ binders := by
    intro binder hm
    obtain ⟨⟨found, index⟩, hi, hs⟩ := mem_filterMap.mp hm
    dsimp only at hs
    split at hs
    · cases hs
      exact (mem_zipIdx hi).2.2 ▸ getElem_mem _
    · cases hs
  have once (others : List Binder) : Binder.oncePerNode others ⊆ others := by
    refine foldlRecOn (motive := (· ⊆ others)) others _ (nil_subset _) ?_
    intro kept inside binder hm
    split
    · exact inside
    · exact append_subset.mpr ⟨inside, cons_subset.mpr ⟨hm, nil_subset _⟩⟩
  intro problem hp
  obtain ⟨binder, hm, rfl⟩ := mem_map.mp hp
  exact hb binder (repeated binder (once _ hm))

end Problem.AllIn

/-- A declaration binds names at nodes of its script. -/
theorem Node.script_of_moduleBinders {declaration : Node}
    (hb : binder ∈ declaration.moduleBinders.answer imports) :
    binder.node.script = declaration.script := by
  unfold Node.moduleBinders at hb
  cases hf : declaration.form with
  | importNames path items =>
    simp only [hf, Inquiry.answer_bind, Inquiry.answer_pure, mem_flatMap, mem_map] at hb
    obtain ⟨item, ⟨id, -, rfl⟩, hb⟩ := hb
    unfold Node.importBinders at hb
    split at hb
    · obtain ⟨space, -, rfl⟩ := mem_map.mp hb
      rfl
    · cases hb
  | typeDeclaration _ _ _ nominal _ => cases nominal <;> simp [hf] at hb <;> grind
  | _ => simp [hf] at hb <;> grind

/-- The name that a form refers to, and what it is looked up as. -/
def Form.reference? : Form → Option (String × Namespace)
  | .identifier name => some (name, .value)
  | .namedType name _ => some (name, .type)
  | _ => none

namespace Binder

variable (moving : Moving) (binders : List Binder)

theorem repeated_move : repeated (binders.map (move moving)) =
    (repeated binders).map (move moving) := by
  rw [repeated, repeated, zipIdx_move, filterMap_map, map_filterMap]
  refine congrArg (List.filterMap · _) (funext fun row => ?_)
  obtain ⟨binder, index⟩ := row
  show (if ((binders.map (move moving)).take index).any (move moving binder).clashes
    then some (move moving binder) else none) =
      (if (binders.take index).any binder.clashes then some binder else none).map (move moving)
  have clash : ((binders.map (move moving)).take index).any (move moving binder).clashes =
      (binders.take index).any binder.clashes := by
    rw [← map_take, any_map]
    rfl
  rw [clash]
  split <;> rfl

/-- A node is reported once, before and after the change. -/
theorem oncePerNode_move : oncePerNode (binders.map (move moving)) =
    (oncePerNode binders).map (move moving) := by
  refine foldl_map.trans (@foldl_hom _ _ _ (List.map (move moving)) _ _ binders [] ?_)
  intro kept binder
  have known : (kept.map (move moving)).any (·.node == (move moving binder).node) =
      kept.any (·.node == binder.node) := by
    rw [any_map]
    exact congrArg kept.any (funext fun other => moving.sameAs other.node binder.node)
  rw [known]
  split
  · rfl
  · rw [map_append, map_singleton]

/-- The same names are reported as declared before. -/
theorem duplicates_move : duplicates (binders.map (move moving)) =
    (duplicates binders).map (move moving) := by
  rw [duplicates, duplicates, repeated_move, oncePerNode_move, map_map, map_map]
  rfl

end Binder

/-- An invocation of a property. -/
def Node.CallsProperty (node : Node) : Prop :=
  ∃ subject typeArgs args receiver name optional, node.form = .invocation subject typeArgs args ∧
    (node.sibling subject).form = .property receiver name optional

/-- Who may reach the member of a store is the same. -/
theorem Transplant.KeepsInside.memberAccess {graft : Transplant} (keeps : graft.KeepsInside)
    (store : graft.Writes (.store storeName declaration)) (name : String) (access : Access) :
    (((move graft declaration).storeMember? name).any fun member =>
        member.access? == some access) =
      (declaration.storeMember? name).any fun member => member.access? == some access := by
  have member := keeps.storeMember? (formed_store.mp store) name .idle
  rw [member.1]
  cases hm : declaration.storeMember? name with
  | none => rfl
  | some found =>
    have same : (move graft found).form = found.form := (member.2 found hm).form
    simp only [Option.map_some, Option.any_some, Node.access?, same]

namespace Inspection

/-- What is known of the questions of rules in all settings and after a change of scripts, and how
it is kept. -/
structure Course (graft : Transplant) (ι : Type) (m : ι → Type → Type := fun _ => Inference)
    [∀ i, Inspector (m i)] extends Deeper.Course graft ι m where
  /-- Rules ask their questions where nothing is going on. -/
  idle : (situation = fun _ => .idle) ∧ moment = .idle ∧ situation' = .idle
  faulty : ι → Bool
  faulty' : Bool
  /-- The scripts whose nodes are looked at. -/
  owns : Script → Prop
  asks : owns node.script → graft.asked .idle node
  sibling {node : Node} (id : NodeId) : owns node.script →
    (move graft node).sibling id = move graft (node.sibling id)
  parent {node : Node} : owns node.script → (move graft node).parent = node.parent.map (move graft)
  isDescendantOf {node : Node} (other : Node) : owns node.script →
    (move graft node).isDescendantOf (move graft other) = node.isDescendantOf other
  looks : graft.LooksAround .idle
  namedType {node : Node} (name : String) : owns node.script →
    Inquiry.Transfers graft (node.resolveIn name .type) ((move graft node).resolveIn name .type)
      fun _ => True
  /-- What is another call after the change calls no property. -/
  calledAlike {node : Node} : owns node.script → (move graft node).form = node.form ∨
    ¬node.CallsProperty ∧ ¬(move graft node).CallsProperty
  /-- The problems that may be reported. -/
  sites : Problem → Prop
  /-- All rules may be broken but the one that names have to be known. -/
  site : owns node.script → fault.kind ≠ .unknownName → sites ⟨node, fault⟩
  /-- The calls that come up. -/
  calls : Call → Prop
  asksCall : calls call → graft.AsksCall .idle call
  nodes : calls call → fault.kind ≠ .unknownName →
    ∀ node ∈ call.callee :: call.typeArgs ++ call.args, sites ⟨node, fault⟩
  made : owns node.script →
    Asks (fun i => (deeper i).call? .idle node) (deeper'.call? .idle (move graft node))
      fun found => ∀ call ∈ found, calls call
  /-- The problems are as they should be. -/
  Gives : (∀ i, m i (List Problem)) → Inference (List Problem) → Prop
  give {problems moved : List Problem} : Problem.AllIn sites problems →
    moved = move graft problems → Gives (fun _ => pure problems) (pure moved)
  goOn {α : Type} [Movable α] {question : ∀ i, m i α} {again : Inference α} {holds : α → Prop}
    {next : ∀ i, α → m i (List Problem)} {next' : α → Inference (List Problem)} :
    Asks question again holds →
    (∀ answer, holds answer → Gives (fun i => next i answer) (next' (move graft answer))) →
    Gives (fun i => question i >>= next i) (again >>= next')
  sameGiven : Same question known → Gives known again → Gives question again
  hush {unknown : Bool} {rest : ∀ i, m i (List Problem)} {rest' : Inference (List Problem)} :
    Gives rest rest' → Gives (fun i => if (faulty i && unknown) = true then pure [] else rest i)
      (if (faulty' && unknown) = true then pure [] else rest')
  behind : Problem.AllIn sites front → Gives rest rest' →
    Gives (fun i => do return front ++ (← rest i)) (do return front.map (move graft) ++ (← rest'))
  gather {α : Type} [Movable α] {items : List α} {ask : ∀ i, α → m i (List Problem)}
    {ask' : α → Inference (List Problem)} :
    (∀ item ∈ items, Gives (fun i => ask i item) (ask' (move graft item))) →
    Gives (fun i => do return (← items.mapM (ask i)).flatten)
      (do return (← (items.map (move graft)).mapM ask').flatten)
  moduleNames {node : Node} {ids : List NodeId} : owns node.script →
    Gives (fun _ => Inspector.moduleNames (ids.map node.sibling))
      (Inspector.moduleNames ((ids.map node.sibling).map (move graft)))
  importedNames : owns node.script →
    Gives (fun _ => Inspector.importedNames node path items)
      (Inspector.importedNames (move graft node) path items)

namespace Course

variable {graft : Transplant} {m : ι → Type → Type} [∀ i, Inspector (m i)]
  (course : Course graft ι m) {node : Node}

/-- A rule finds the same in all settings. -/
abbrev Finds (rule : ∀ {m : Type → Type} [Inspector m], Inspection m → Bool → m (List Problem))
    (rule' : Inspection → Bool → Inference (List Problem)) : Prop :=
  course.Gives (fun i => rule ⟨course.deeper i⟩ (course.faulty i))
    (rule' ⟨course.deeper'⟩ course.faulty')

/-- What a rule asks for has the same answer in all settings. -/
abbrev Learns {α : Type} [Movable α] (asked : ∀ {m : Type → Type} [Inspector m], Inspection m → m α)
    (again : Inspection → Inference α) (holds : α → Prop) : Prop :=
  course.Asks (fun i => asked ⟨course.deeper i⟩) (again ⟨course.deeper'⟩) holds

/-- Problems may be reported at the node, except that a name is unknown. -/
abbrev Site (node : Node) : Prop :=
  ∀ {fault : Fault}, fault.kind ≠ .unknownName → course.sites ⟨node, fault⟩

/-! ### What rules ask for -/

/-- What inference answers it answers to rules. -/
theorem answered [Movable α] {asked : ∀ {m : Type → Type} [Inquirer m], Deeper m → Situation → m α}
    {again : Deeper → Situation → Inference α} {holds : α → Prop}
    (answers : course.Answers asked again holds) :
    course.Learns (fun inspection => asked inspection.answers .idle)
      (fun inspection => again inspection.answers .idle) holds := by
  unfold Deeper.Course.Answers at answers
  rw [course.idle.1, course.idle.2.2] at answers
  exact answers

section

variable (hn : course.owns node.script)
include hn

theorem opens (same : (move graft node).form = node.form) : graft.Opens course.moment node := by
  rw [course.idle.2.1]
  exact ⟨same, fun id _ => course.sibling id hn, fun id _ => @course.asks (node.sibling id) hn⟩

theorem nodeType : course.Learns (·.typeOf node) (·.typeOf (move graft node)) graft.Writes := by
  have typed : course.Answers (·.typeOf · node) (·.typeOf · (move graft node)) graft.Writes :=
    course.typeOf (course.idle.2.1 ▸ course.asks hn)
  exact course.answered typed

/-- The type of a node as a value, without type parameters of its own. -/
theorem valueType : course.Learns (·.valueType node) (·.valueType (move graft node)) graft.Writes :=
  course.andThen (course.nodeType hn) fun type ht =>
    course.done ht.eraseGenerics (eraseGenerics_move _ type)

theorem expandedType : course.Learns (·.expandedType node) (·.expandedType (move graft node))
    graft.Writes :=
  course.andThen (course.nodeType hn) fun _ ht => course.expanded ht

theorem loaded (path : String) : course.Asks (fun _ => Inquirer.load node path)
    (Inquirer.load (move graft node) path) fun _ => True :=
  course.same (course.load _ _) (course.lift ((course.keeps.load
    (course.keeps.visited_of_asked (course.asks hn)) path).mono fun _ _ => trivial))

theorem resolved (same : (move graft node).form = node.form) (hf : node.form = .identifier name) :
    course.Asks (fun _ => Inquirer.resolve name node)
      (Inquirer.resolve name (move graft node)) (graft.OpensLookup .idle) :=
  course.same (course.resolve _ _) (course.lift (Deeper.Course.resolve_transfers course.looks
    (course.asks hn) hf (course.idle.2.1 ▸ course.opens hn same)))

/-- The property that a call has as its function is the function of a method or of no method. -/
theorem isMethod {subject : NodeId} {name : String} {optional : Bool}
    (same : (move graft node).form = node.form)
    (hf : node.form = .property subject name optional) :
    course.Learns (·.isMethod node) (·.isMethod (move graft node)) fun _ => True := by
  have other {m : Type → Type} [Inspector m] {inspection : Inspection m} {node parent : Node}
      (hp : node.parent = some parent) (free : ¬parent.CallsProperty)
      (hf : node.form = .property subject name optional) :
      inspection.isMethod node = pure false := by
    unfold Inspection.isMethod
    simp only [hp]
    split
    · next called typeArgs args hi =>
      refine if_neg fun same => free ⟨called, typeArgs, args, subject, name, optional, hi, ?_⟩
      rw [same, Node.sibling, Node.script_of_parent hp]
      exact hf
    · rfl
  have id : (move graft node).id = node.id :=
    course.keeps.id (course.keeps.visited_of_asked (course.asks hn))
  have hp' := course.parent hn
  dsimp only [Learns]
  cases hp : node.parent with
  | none =>
    rw [hp] at hp'
    simp only [Inspection.isMethod, hp, hp', Option.map_none]
    exact course.done trivial rfl
  | some parent =>
    rw [hp] at hp'
    have hs : course.owns parent.script := Node.script_of_parent hp ▸ hn
    rcases course.calledAlike hs with alike | ⟨free, free'⟩
    · simp only [Inspection.isMethod, hp, hp', Option.map_some, alike, id]
      split
      · refine course.ite .rfl (fun _ => ?_) fun _ => course.done trivial rfl
        have opens := course.opens hs alike
        exact course.andThen (course.answered (course.methodCall? opens
          ((course.idle.2.1 ▸ course.looks : graft.LooksAround course.moment).namesSubject opens)))
          fun method _ => course.done trivial Option.isSome_map
      · exact course.done trivial rfl
    · have before (i : ι) : Inspection.isMethod ⟨course.deeper i⟩ node = pure false :=
        other hp free hf
      rw [funext before, other hp' free' (same.trans hf)]
      exact course.done trivial rfl

end

/-- Whether a node stands as a statement is the same. -/
theorem isStatement (hn : course.owns node.script) :
    isStatement (move graft node) = Inspection.isStatement node := by
  rw [Inspection.isStatement, Inspection.isStatement, course.parent hn]
  cases hp : node.parent with
  | none => rfl
  | some parent =>
    simp only [Option.map_some, Option.any_some]
    have hs : course.owns parent.script := Node.script_of_parent hp ▸ hn
    rcases course.keeps.opens (course.asks hs) with opens | ⟨operand, operand'⟩
    · rw [opens.form]
    · split <;> split <;> simp_all [Form.isOperand]

/-- The type in which a property or key is looked for. -/
theorem accessedBase (hb : graft.Writes base) (optional : Bool) :
    course.Asks (fun _ => accessedBase base optional) (accessedBase (move graft base) optional)
      graft.WritesInside :=
  course.ite .rfl (fun _ => course.present hb) fun _ => course.done hb.inside rfl

/-! ### What rules report -/

theorem nothing : course.Gives (fun _ => pure []) (pure []) := course.give .nil rfl

theorem single (hn : course.Site node) (fault : Fault) (other : fault.kind ≠ .unknownName) :
    course.Gives (fun _ => pure [⟨node, fault⟩])
      (pure [⟨move graft node, move graft fault⟩]) := course.give (.single (hn other)) rfl

/-- A test is passed, or something is reported. -/
theorem test {asked : ∀ i, m i Bool} (asks : course.Asks asked again fun _ => True)
    (hn : course.Site node) (fault : Fault) (other : fault.kind ≠ .unknownName) :
    course.Gives
      (fun i => do
        if ← asked i then return []
        else return [⟨node, fault⟩])
      (do
        if ← again then return []
        else return [⟨move graft node, move graft fault⟩]) := by
  refine course.goOn asks fun fits _ => ?_
  cases fits with
  | true => exact course.nothing
  | false => exact course.single hn fault other

/-- A value has to fit its destination. -/
theorem assignable (hn : course.Site node) {destination value : Ty}
    (hd : graft.Writes destination) (hv : graft.Writes value) :
    course.Gives (fun i => assignable (course.faulty i) node destination value)
      (Inspection.assignable course.faulty' (move graft node) (move graft destination)
        (move graft value)) := by
  unfold Inspection.assignable
  rw [isUnknown_move, isUnknown_move]
  exact course.hush (course.test (course.subsumed hd hv false) hn _ nofun)

/-- A value has to fit the type written for it. -/
theorem ascribed (ha : course.owns ascription.script) (hn : course.owns node.script) :
    course.Finds (·.ascribed · ascription node)
      (·.ascribed · (move graft ascription) (move graft node)) := by
  have read := course.keeps.lower (course.keeps.visited_of_asked (course.asks ha))
  refine course.sameGiven (course.lowering _ _) ?_
  show course.Gives _ (Inspection.valueType _ _ >>= fun type =>
    Inspection.assignable _ _ (move graft ascription).lower type)
  rw [read.1]
  exact course.goOn (course.valueType hn) fun _ ht => course.assignable (course.site hn) read.2 ht

theorem ascribedIfWritten (hn : course.owns node.script) (ascription : Option NodeId)
    (value : NodeId) : course.Finds (·.ascribedIfWritten · node ascription value)
      (·.ascribedIfWritten · (move graft node) ascription value) := by
  cases ascription with
  | none => exact course.nothing
  | some id =>
    have found := @ascribed _ _ _ _ course (node.sibling value) (node.sibling id) hn hn
    rw [← course.sibling value hn, ← course.sibling id hn] at found
    exact found

/-- A condition has to be a boolean. -/
theorem boolean (hn : course.owns node.script) :
    course.Finds (·.boolean · node) (·.boolean · (move graft node)) := by
  refine course.goOn (course.valueType hn) fun type ht => ?_
  rw [isUnknown_move]
  exact course.hush (course.test (course.subsumed formed_boolean ht true) (course.site hn) _ nofun)

/-- An imported module has to exist. -/
theorem importedModule (hn : course.owns node.script) (path : String) :
    course.Gives (fun _ => importedModule node path)
      (Inspection.importedModule (move graft node) path) := by
  refine course.goOn (course.loaded hn path) fun found _ => ?_
  cases found with
  | none => exact course.single (course.site hn) _ nofun
  | some target => exact course.nothing

/-- A name has to be known and must not be used too early. -/
theorem identifier (hn : course.owns node.script) (same : (move graft node).form = node.form)
    (hf : node.form = .identifier name) (named : course.sites ⟨node, .unknownName name⟩) :
    course.Gives (fun _ => identifier node name)
      (Inspection.identifier (move graft node) name) := by
  refine course.goOn (course.resolved hn same hf) fun found _ => ?_
  cases found with
  | ok binding => exact course.nothing
  | error error =>
    cases error with
    | unknownName => exact course.give (.single named) rfl
    | usedTooEarly | usedInOwnValue => exact course.single (course.site hn) _ nofun
    | unknownModule | unknownExport => exact course.nothing

/-- The name of a type has to be known and takes as many arguments as it has parameters. -/
theorem typeName (hn : course.owns node.script) (named : course.sites ⟨node, .unknownName name⟩)
    (args : List NodeId) :
    course.Gives (fun _ => Inspection.namedType node name args)
      (Inspection.namedType (move graft node) name args) := by
  refine course.goOn (course.same (course.resolveIn _ _ _) (course.lift (course.namedType name hn)))
    fun found _ => ?_
  cases found with
  | ok binding =>
    cases binding with
    | type type params =>
      show course.Gives _ (pure (if (params.map (move graft)).length = _ then _ else
        [⟨_, .typeArgumentCount (params.map (move graft)).length _⟩]))
      rw [length_map]
      dsimp only
      split
      · exact course.nothing
      · exact course.single (course.site hn) _ nofun
    | _ => exact course.nothing
  | error error =>
    cases error with
    | unknownName => exact course.give (.single named) rfl
    | _ => exact course.nothing

section Calls

variable (hc : course.calls call) (ht : graft.WritesSlots typeParams)
  (hp : graft.WritesSlots params)

include hc ht

/-- Type arguments have to fit their bounds. -/
theorem typeArguments [∀ i, LawfulMonad (m i)] : course.Asks (fun _ => typeArguments call typeParams)
    (Inspection.typeArguments (move graft call) (typeParams.map (move graft)))
    (Problem.AllIn course.sites) := by
  unfold Inspection.typeArguments
  show course.Asks _ (List.mapM _ (List.zip _ (call.typeArgs.map (move graft))) >>= _) _
  rw [zip_move]
  refine course.andThen (course.mapM fun row hr => ?_) fun found inside =>
    course.done (forall_mem_flatten.mpr inside) map_flatten.symm
  obtain ⟨param, arg⟩ := row
  have inside := of_mem_zip hr
  have hn : course.Site arg := fun other => course.nodes hc other arg (by simp [inside.2])
  simp only [move_pair, Slot.type_move]
  cases hb : param.type with
  | none => exact course.done Problem.AllIn.nil rfl
  | some bound =>
    have read := course.keeps.lower ((course.asksCall hc).typeArgs arg inside.2)
    refine course.same (course.lowering _ _) ?_
    show course.Asks _ (Inspection.assignable false _ _ (move graft arg).lower) _
    rw [read.1]
    refine course.andThen (course.subsumed (ht bound (mem_slotTypes.mpr ⟨param, inside.1, hb⟩))
      read.2 false) fun fits _ => ?_
    cases fits with
    | true => exact course.done Problem.AllIn.nil rfl
    | false => exact course.done (Problem.AllIn.single (hn (by nofun))) rfl

include hp

/-- Arguments have to fit their parameters. -/
theorem arguments : course.Finds (·.arguments · call typeParams params)
    (·.arguments · (move graft call) (typeParams.map (move graft)) (params.map (move graft))) := by
  have asks : graft.AsksCall course.moment call := course.idle.2.1 ▸ course.asksCall hc
  refine course.goOn (course.answered ((course.callsAlike asks).bindTypeParams ht hp true))
    fun bindings hb => ?_
  show course.Gives _ (List.mapM _ (List.zip _ (call.args.map (move graft))).zipIdx >>= _)
  rw [zip_move, zipIdx_move]
  refine course.gather fun row hr => ?_
  obtain ⟨⟨param, arg⟩, index⟩ := row
  have inside := of_mem_zip (fst_mem_of_mem_zipIdx hr)
  have hn : course.Site arg := fun other => course.nodes hc other arg (by simp [inside.2])
  simp only [move_pair, Slot.type_move, move_nat]
  cases hm : param.type with
  | none => exact course.nothing
  | some type =>
    refine course.goOn (course.answered (course.argumentType asks index)) fun actual ha => ?_
    have written := (hp type (mem_slotTypes.mpr ⟨param, inside.1, hm⟩)).substitute hb
    rw [move_list, substitute_move, eraseGenerics_move]
    exact course.assignable hn written ha.eraseGenerics

/-- A call has to give as many arguments as there are parameters. -/
theorem signature [∀ i, LawfulMonad (m i)] (hn : course.Site node) :
    course.Finds (·.signature · node call typeParams params)
      (·.signature · (move graft node) (move graft call) (typeParams.map (move graft))
        (params.map (move graft))) := by
  have typeArgs : (move graft call).typeArgs = call.typeArgs.map (move graft) := rfl
  have args : (move graft call).args = call.args.map (move graft) := rfl
  simp only [Finds, Inspection.signature, typeArgs, args, isEmpty_map, length_map]
  split
  · exact course.single hn _ nofun
  · refine course.goOn (course.typeArguments hc ht) fun found inside => ?_
    split
    · refine course.give (inside.append (.single (hn (by nofun)))) ?_
      rw [move_list, move_list, map_append]
      rfl
    · exact course.behind inside (course.arguments hc ht hp)

omit ht hp in
/-- Only functions can be called, and procedures only as statements. -/
theorem calling [∀ i, LawfulMonad (m i)] (hn : course.owns node.script) :
    course.Finds (·.calling · node call) (·.calling · (move graft node) (move graft call)) := by
  have subject : (move graft call).subject = move graft call.subject := rfl
  have written := (course.asksCall hc).subject
  unfold Finds Inspection.calling
  rw [subject]
  cases hs : call.subject with
  | any | escape => exact course.nothing
  | proc typeParams params =>
    rw [hs] at written
    obtain ⟨ht, hp⟩ := formed_proc.mp written
    simp only [move_proc, course.isStatement hn]
    split
    · exact course.behind .nil (course.signature hc ht hp (course.site hn))
    · exact course.behind (.single (course.site hn (by nofun)))
        (course.signature hc ht hp (course.site hn))
  | func typeParams params result =>
    rw [hs] at written
    obtain ⟨ht, hp, -⟩ := formed_func.mp written
    rw [move_func]
    exact course.signature hc ht hp (course.site hn)
  | _ => exact course.hush (course.single (fun other => course.nodes hc other _ (by simp)) _ nofun)

end Calls

section

variable (hn : course.owns node.script)
include hn

theorem invocation [∀ i, LawfulMonad (m i)] :
    course.Finds (·.invocation · node) (·.invocation · (move graft node)) := by
  refine course.goOn (course.made hn) fun found hf => ?_
  cases found with
  | none => exact course.nothing
  | some call => exact course.calling (hf call rfl) hn

/-- The result of a function must not be dropped. -/
theorem statement : course.Gives (fun i => Inspection.statement ⟨course.deeper i⟩ node)
    (Inspection.statement ⟨course.deeper'⟩ (move graft node)) := by
  refine course.goOn (course.made hn) fun found _ => ?_
  cases found with
  | none => exact course.nothing
  | some call =>
    obtain ⟨callee, subject, typeArgs, args, receiver⟩ := call
    cases subject with
    | func => exact course.single (course.site hn) _ nofun
    | _ => exact course.nothing

/-- The operand has to fit the operator. -/
theorem unary (operator : UnaryOperator) {operand : Node} (ho : course.owns operand.script) :
    course.Finds (·.unary · node operator operand)
      (·.unary · (move graft node) operator (move graft operand)) := by
  refine course.goOn (course.nodeType ho) fun type ht => ?_
  rw [isUnknown_move]
  refine course.hush ?_
  cases operator with
  | not => exact course.test (course.subsumed formed_boolean ht true) (course.site hn) _ nofun
  | negate => exact course.test (course.subsumed formed_number ht true) (course.site hn) _ nofun

/-- Both operands have to fit the operator. -/
theorem binary (hl : course.owns left.script) (hr : course.owns right.script)
    (operator : BinaryOperator) : course.Finds (·.binary · node left operator right)
      (·.binary · (move graft node) (move graft left) operator (move graft right)) := by
  unfold Finds Inspection.binary
  split
  · exact course.nothing
  · refine course.goOn (course.nodeType hl) fun _ hl => course.goOn (course.nodeType hr) fun _ hr => ?_
    rw [isUnknown_move, isUnknown_move]
    refine course.hush (course.goOn (course.same (course.operationType? _ _ _) (course.lift
      (BinaryOperator.operationType?_transfers course.keeps.typeNames operator hl hr)))
      fun found _ => ?_)
    cases found with
    | some type => exact course.nothing
    | none => exact course.single (course.site hn) _ nofun

/-- A property has to exist, and must not be private to another place. -/
theorem property {subject : NodeId} {name : String} {optional : Bool}
    (same : (move graft node).form = node.form)
    (hf : node.form = .property subject name optional) :
    course.Finds (·.property · node (node.sibling subject) name optional)
      (·.property · (move graft node) (move graft (node.sibling subject)) name optional) := by
  have hs : course.owns (node.sibling subject).script := hn
  refine course.goOn (course.isMethod hn same hf) fun method _ => ?_
  cases method with
  | true => exact course.nothing
  | false =>
  refine course.goOn (course.expandedType hs) fun whole hw => ?_
  rw [isUnknown_move]
  refine course.hush (course.goOn (course.accessedBase hw optional) fun base hb =>
    course.goOn (course.answered (course.propertyType hb name)) fun found _ => ?_)
  cases found with
  | none => exact course.single (course.site hn) _ nofun
  | some type =>
    cases base with
    | store storeName declaration =>
      show course.Gives (fun _ => pure (privacy _ _ name)) (pure (privacy (move graft node) _ name))
      simp only [privacy, move_store, course.keeps.memberAccess (hb.formed rfl),
        course.isDescendantOf _ hn]
      split
      · exact course.single (course.site hn) _ nofun
      · exact course.nothing
    | _ => exact course.nothing

/-- Something has to stand under a key. -/
theorem index {subject key : Node} (hs : course.owns subject.script) (hk : course.owns key.script)
    (optional : Bool) : course.Finds (·.index · node subject key optional)
      (·.index · (move graft node) (move graft subject) (move graft key) optional) := by
  refine course.goOn (course.expandedType hs) fun whole hw =>
    course.goOn (course.nodeType hk) fun key hk => ?_
  rw [isUnknown_move, isUnknown_move]
  refine course.hush (course.goOn (course.accessedBase hw optional) fun base hb =>
    course.goOn (course.answered (course.indexType hb hk)) fun found _ => ?_)
  cases found with
  | some type => exact course.nothing
  | none => exact course.single (course.site hn) _ nofun

/-- Only variables and what is not readonly can be assigned to. -/
theorem assignmentTarget (same : (move graft node).form = node.form) :
    course.Learns (·.assignmentTarget node) (·.assignmentTarget (move graft node))
      (Problem.AllIn course.sites) := by
  have nothing : course.Asks (fun _ => pure []) (pure []) (Problem.AllIn course.sites) :=
    course.done .nil rfl
  have single (fault : Fault) (other : fault.kind ≠ .unknownName) :
      course.Asks (fun _ => pure [⟨node, fault⟩]) (pure [⟨move graft node, move graft fault⟩])
        (Problem.AllIn course.sites) := course.done (.single (course.site hn other)) rfl
  have subject (id : NodeId) := @expandedType _ _ _ _ course (node.sibling id) hn
  unfold Learns Inspection.assignmentTarget
  simp only [same, course.sibling _ hn]
  split
  · next name hf =>
    refine course.andThen (course.resolved hn same hf) fun found usable => ?_
    cases found with
    | error error => exact nothing
    | ok binding =>
      cases binding with
      | declared declaration =>
        have stays : isVariable (move graft declaration) = isVariable declaration := by
          have opens : graft.Opens .idle declaration := (usable _ rfl).2
          rw [isVariable, isVariable, opens.form]
        show course.Asks _ (pure (if isVariable (move graft declaration) then _ else _)) _
        rw [stays]
        dsimp only
        split
        · exact nothing
        · exact single _ nofun
      | _ => exact single _ nofun
  · refine course.andThen (subject _) fun type ht => ?_
    cases type with
    | readonly inner => exact single _ nofun
    | store storeName declaration =>
      simp only [move_store, course.keeps.memberAccess ht, course.isDescendantOf _ hn]
      split
      · exact nothing
      · exact single _ nofun
    | _ => exact nothing
  · refine course.andThen (subject _) fun type ht => ?_
    cases type with
    | readonly inner =>
      show course.Asks _ (pure [Problem.mk _ (.notMutable (move graft (Ty.readonly inner)).text)]) _
      rw [text_move]
      exact single _ nofun
    | _ => exact nothing
  · exact single _ nofun

/-- Only iterators can be looped over. -/
theorem loop : course.Finds (·.loop · node) (·.loop · (move graft node)) := by
  refine course.goOn (course.expandedType hn) fun type _ => ?_
  cases type with
  | iterator | any | escape => exact course.nothing
  | _ => exact course.hush (course.single (course.site hn) _ nofun)

end

/-- A target that can be assigned to has to take the value. -/
theorem assignment (ht : course.owns target.script) (hv : course.owns value.script)
    (targets : course.Learns (·.assignmentTarget target) (·.assignmentTarget (move graft target))
      (Problem.AllIn course.sites)) :
    course.Finds (·.assignment · target value)
      (·.assignment · (move graft target) (move graft value)) := by
  refine course.goOn targets fun found inside => ?_
  rw [move_list, isEmpty_map]
  split
  · exact course.give inside rfl
  · exact course.goOn (course.nodeType ht) fun _ ht => course.goOn (course.valueType hv) fun _ ha =>
      course.assignable (course.site hv) ht ha

/-- A test has to fit the subject of the switch. -/
theorem switchTests (hv : course.owns value.script) (ha : ∀ arm ∈ arms, course.owns arm.script) :
    course.Finds (·.switchTests · value arms)
      (·.switchTests · (move graft value) (arms.map (move graft))) := by
  refine course.goOn (course.nodeType hv) fun subject hs => course.gather fun arm hm => ?_
  have hn := ha arm hm
  rcases course.keeps.opens (course.asks hn) with opens | ⟨operand, operand'⟩
  · rw [opens.form]
    split
    · next test _ _ =>
      rw [course.sibling test hn]
      have ht : course.owns (arm.sibling test).script := hn
      exact course.goOn (course.valueType ht) fun _ ha => course.assignable (course.site ht) hs ha
    · exact course.nothing
  · split
    · next hi => rw [hi] at operand; cases operand
    · split
      · next hi => rw [hi] at operand'; cases operand'
      · exact course.nothing

section Binders

variable (hn : course.owns node.script) (ids : List NodeId)
include hn

theorem binders :
    (move graft node).typeParamBinders ids = (node.typeParamBinders ids).map (move graft) ∧
      (move graft node).valueBinders ids = (node.valueBinders ids).map (move graft) := by
  rw [Node.typeParamBinders, Node.typeParamBinders, Node.valueBinders, Node.valueBinders,
    map_filterMap, map_filterMap]
  refine ⟨congrArg (List.filterMap · ids) (funext fun id => ?_),
    congrArg (List.filterMap · ids) (funext fun id => ?_)⟩
  all_goals
    simp only [course.sibling id hn]
    rcases course.keeps.opens (@course.asks (node.sibling id) hn) with opens | ⟨operand, operand'⟩
    · rw [opens.form]
      split <;> rfl
    · split <;> split <;> simp_all [Form.isOperand]

theorem sites_typeParamBinders : ∀ binder ∈ node.typeParamBinders ids,
    course.sites ⟨binder.node, .alreadyDeclared binder.name⟩ := by
  intro binder hb
  obtain ⟨id, -, hs⟩ := mem_filterMap.mp hb
  split at hs
  · cases hs
    exact course.site hn (by nofun)
  · cases hs

/-- Parameters that are declared twice may be reported. -/
theorem sites_valueBinders : ∀ binder ∈ node.valueBinders ids,
    course.sites ⟨binder.node, .alreadyDeclared binder.name⟩ := by
  intro binder hb
  obtain ⟨id, -, hs⟩ := mem_filterMap.mp hb
  split at hs
  iterate 3
    cases hs
    exact course.site hn (by nofun)
  cases hs

end Binders

/-- What is known of the questions of rules is known of all rules for a node that stays as it is, if
the name that the node refers to may be reported as unknown and what is assigned to is judged
alike. -/
theorem rules [∀ i, LawfulMonad (m i)] (hn : course.owns node.script)
    (same : (move graft node).form = node.form)
    (named : ∀ name space, node.form.reference? = some (name, space) →
      course.sites ⟨node, .unknownName name⟩)
    (targets : ∀ target value, node.form = .assignment target value →
      course.Learns (·.assignmentTarget (node.sibling target))
        (·.assignmentTarget (move graft (node.sibling target))) (Problem.AllIn course.sites)) :
    course.Finds (·.rules · node) (·.rules · (move graft node)) := by
  have below (id : NodeId) : course.owns (node.sibling id).script := hn
  have all (ids : List NodeId) : ids.map (move graft node).sibling =
      (ids.map node.sibling).map (move graft) := by
    rw [map_map]
    exact map_congr_left fun id _ => course.sibling id hn
  have params := course.sites_typeParamBinders hn
  have values := course.sites_valueBinders hn
  unfold Finds Inspection.rules
  simp only [same, course.sibling _ hn, all, course.binders hn, ← map_append,
    Binder.duplicates_move]
  split
  · exact course.moduleNames hn
  · exact course.importedNames hn
  · exact course.importedModule hn _
  iterate 3
    exact course.give (.duplicates (params _)) rfl
  · exact course.give (.duplicates (values _)) rfl
  iterate 4
    exact course.ascribedIfWritten hn _ _
  · exact course.behind (.duplicates (forall_mem_append.mpr ⟨params _, values _⟩))
      (course.ascribedIfWritten hn _ _)
  · exact course.give (.duplicates (forall_mem_append.mpr ⟨params _, values _⟩)) rfl
  · exact course.give (.duplicates (values _)) rfl
  · next hf => exact course.identifier hn same hf (named _ .value (by rw [hf]; rfl))
  · next hf => exact course.typeName hn (named _ .type (by rw [hf]; rfl)) _
  iterate 2
    exact course.invocation hn
  · exact course.statement (below _)
  iterate 3
    exact course.boolean (below _)
  · exact course.unary hn _ (below _)
  · exact course.binary hn (below _) (below _) _
  · next hf => exact course.property hn same hf
  · exact course.index hn (below _) (below _) _
  · next hf => exact course.assignment (below _) (below _) (targets _ _ hf)
  · exact course.loop (below _)
  · refine course.switchTests (below _) fun arm ha => ?_
    obtain ⟨id, -, rfl⟩ := mem_map.mp ha
    exact hn
  · exact course.ascribed (below _) (below _)
  · next hf =>
    rw [(course.keeps.this (course.asks hn) hf).1, Option.isSome_map]
    split
    · exact course.nothing
    · exact course.single (course.site hn) _ nofun
  · exact course.nothing

end Course

end Inspection

end ScriptCheck
