import ScriptCheck.Proofs.BoundTypes
import ScriptCheck.Proofs.FaithfulChanges

/-!
# The course of inference

Each step of inference asks questions one level further down and goes on from their answers. What
is known of these questions and kept by the ways of joining them is known of every step, which is
shown here once. The questions are followed in several settings at a time, which differ in who
asks and in how deep inference goes, and once more after a change of scripts.
-/

namespace ScriptCheck

open Movable (move)
open List Ty

namespace Deeper

/-- How questions are put in several settings at one moment. What needs no inference is the same
in all of them. -/
structure Settings (ι : Type) (m : ι → Type → Type) [∀ i, Inquirer (m i)] where
  situation : ι → Situation
  /-- What is going on. -/
  moment : Situation
  /-- A question that needs no inference. -/
  plain : Inquiry α → ∀ i, m i α
  /-- The questions come to the same. -/
  Same : (∀ i, m i α) → (∀ i, m i α) → Prop
  lowering (node : Node) (next : ∀ i, Ty → m i α) :
    Same (fun i => Inquirer.lowering node (next i)) fun i => next i node.lower
  typeParamSlots (holder : Node) (ids : List NodeId) (next : ∀ i, List (Slot Ty) → m i α) :
    Same (fun i => Inquirer.typeParamSlots holder ids (next i))
      fun i => next i (holder.typeParamSlots ids)
  paramSlots (holder : Node) (ids : List NodeId) (next : ∀ i, List (Slot Ty) → m i α) :
    Same (fun i => Inquirer.paramSlots holder ids (next i)) fun i => next i (holder.paramSlots ids)
  ascribedType? (node parent : Node) :
    Same (fun _ => Inquirer.ascribedType? node parent) fun _ => pure (node.ascribedType? parent)
  writtenBindings (typeParams : List (Slot Ty)) (typeArgs : List Node) :
    Same (fun _ => Inquirer.writtenBindings typeParams typeArgs) fun _ =>
      pure <| typeParams.zipIdx.map fun (param, index) =>
        (param.name, (typeArgs[index]?.map Node.lower).getD param.typeOrUnknown)
  recalling (node : Node) (next : ∀ i, Option Ty → m i α) :
    Same (fun i => Inquirer.recalling (situation i) node (next i))
      fun i => next i (moment.recorded? node)
  load (node : Node) (path : String) :
    Same (fun _ => Inquirer.load node path) (plain (node.load path))
  resolve (name : String) (node : Node) :
    Same (fun _ => Inquirer.resolve name node) (plain (node.resolve name))
  resolveIn (name : String) (node : Node) (space : Namespace) :
    Same (fun _ => Inquirer.resolveIn name node space) (plain (node.resolveIn name space))
  expand (type : Ty) : Same (fun _ => Inquirer.expand type) (plain type.expand)
  subsumes (destination value : Ty) (throughGenerics : Bool) :
    Same (fun _ => Inquirer.subsumes destination value throughGenerics)
      (plain (destination.subsumes value throughGenerics))
  subtract (type removed : Ty) :
    Same (fun _ => Inquirer.subtract type removed) (plain (type.subtract removed))
  distillUnion (types : List Ty) :
    Same (fun _ => Inquirer.distillUnion types) (plain (Ty.distillUnion types))
  operationType? (operator : BinaryOperator) (left right : Ty) :
    Same (fun _ => Inquirer.operationType? operator left right)
      (plain (operator.operationType? left right))
  matchGenerics (names : List String) (param arg : Ty) (bound : Bindings) :
    Same (fun _ => Inquirer.matchGenerics names param arg bound)
      (plain (Ty.matchGenerics names param arg bound))

/-- One who is told what is going on puts all questions as they are. -/
def Settings.told (ι : Type) (moment : Situation) : Settings ι fun _ => Inference where
  situation _ := moment
  moment := moment
  plain inquiry _ := liftM inquiry
  Same question known := question = known
  lowering _ _ := rfl
  typeParamSlots _ _ _ := rfl
  paramSlots _ _ _ := rfl
  ascribedType? _ _ := rfl
  writtenBindings _ _ := rfl
  recalling _ _ := rfl
  load _ _ := rfl
  resolve _ _ := rfl
  resolveIn _ _ _ := rfl
  expand _ := rfl
  subsumes _ _ _ := rfl
  subtract _ _ := rfl
  distillUnion _ := rfl
  operationType? _ _ _ := rfl
  matchGenerics _ _ _ _ := rfl

/-- What is known of the questions one level further down, in all settings and after a change of
scripts, and how it is kept. -/
structure Course (graft : Transplant) (ι : Type) (m : ι → Type → Type) [∀ i, Inquirer (m i)]
    extends Settings ι m where
  keeps : graft.KeepsInside
  deeper : ∀ i, Deeper (m i)
  deeper' : Deeper
  situation' : Situation
  /-- The answers are found in all settings, and the moved answers after the change. -/
  Asks [Movable α] : (∀ i, m i α) → Inference α → (α → Prop) → Prop
  done {α : Type} [Movable α] {value moved : α} {holds : α → Prop} : holds value →
    moved = move graft value → Asks (fun _ => pure value) (pure moved) holds
  andThen {α β : Type} [Movable α] [Movable β] {question : ∀ i, m i α} {again : Inference α}
    {holds : α → Prop} {next : ∀ i, α → m i β} {next' : α → Inference β} {goal : β → Prop} :
    Asks question again holds →
    (∀ answer, holds answer → Asks (fun i => next i answer) (next' (move graft answer)) goal) →
    Asks (fun i => question i >>= next i) (again >>= next') goal
  lift {α : Type} [Movable α] {asked again : Inquiry α} {holds : α → Prop} :
    Inquiry.Transfers graft asked again holds → Asks (plain asked) (liftM again) holds
  same {α : Type} [Movable α] {question known : ∀ i, m i α} {again : Inference α}
    {holds : α → Prop} : Same question known → Asks known again holds → Asks question again holds
  typeOf : graft.asked moment node →
    Asks (fun i => (deeper i).typeOf (situation i) node)
      (deeper'.typeOf situation' (move graft node)) graft.Writes
  /-- The type of an argument that is expected to have another one. -/
  literal : graft.Writes type → graft.asked (moment.expecting arg type) arg →
    Asks (fun i => Inquirer.expecting (situation i) arg type fun situation =>
        (deeper i).typeOf situation arg)
      (deeper'.typeOf (situation'.expecting (move graft arg) (move graft type)) (move graft arg))
      graft.Writes
  expected? : graft.awaited moment node →
    Asks (fun i => (deeper i).expected? (situation i) node)
      (deeper'.expected? situation' (move graft node)) fun found => ∀ type ∈ found, graft.Writes type
  property? (name : String) : graft.WritesInside type →
    Asks (fun i => (deeper i).property? (situation i) type name)
      (deeper'.property? situation' (move graft type) name)
      fun found => ∀ type ∈ found, graft.Writes type
  indexed? : graft.WritesInside base → graft.Writes key →
    Asks (fun i => (deeper i).indexed? (situation i) base key)
      (deeper'.indexed? situation' (move graft base) (move graft key))
      fun found => ∀ type ∈ found, graft.Writes type

end Deeper

/-- A parameter list in which all written types come up. -/
abbrev Transplant.WritesSlots (graft : Transplant) (slots : List (Slot Ty)) : Prop :=
  ∀ type ∈ slotTypes slots, graft.Writes type

/-- A call whose parts can be asked about. -/
structure Transplant.AsksCall (graft : Transplant) (situation : Situation) (call : Call) :
    Prop where
  subject : graft.Writes call.subject
  typeArgs : ∀ arg ∈ call.typeArgs, graft.visited arg
  args : ∀ arg ∈ call.args, graft.asked situation arg
  receiver : ∀ type ∈ call.receiver, graft.Writes type

/-- A method-style call whose parts can be asked about. -/
structure Transplant.AsksMethod (graft : Transplant) (situation : Situation)
    (method : MethodCall) : Prop where
  receiver : graft.asked situation method.receiver
  receiverType : graft.Writes method.receiverType
  function : graft.OpensBinding situation method.function

/-- The name that an invocation may call as a method is looked up alike. -/
def Transplant.NamesSubject (graft : Transplant) (situation : Situation) (node : Node) : Prop :=
  ∀ subject typeArgs args, node.form = .invocation subject typeArgs args →
    ∀ name, (node.sibling subject).form.valueUsed? = some name →
      Inquiry.Transfers graft ((node.sibling subject).resolveIn name .value)
        ((move graft (node.sibling subject)).resolveIn name .value) (graft.OpensLookup situation)

/-- What is found around nodes at one moment is the same after the change. -/
structure Transplant.LooksAround (graft : Transplant) (situation : Situation) : Prop where
  valueNames : graft.asked situation node → node.form.valueUsed? = some name →
    Inquiry.Transfers graft (node.resolveIn name .value)
      ((move graft node).resolveIn name .value) (graft.OpensLookup situation)
  awaits : graft.asked situation node → node.needsContext = true → graft.awaited situation node

/-- A faithful change lets what is found around nodes stay the same. -/
theorem Transplant.Faithful.looks {graft : Transplant} (faithful : graft.Faithful)
    (situation : Situation) : graft.LooksAround situation := ⟨faithful.valueNames, faithful.awaits⟩

/-- So the name that an invocation may call as a method is looked up alike. -/
theorem Transplant.LooksAround.namesSubject {graft : Transplant}
    (looks : graft.LooksAround situation) (opens : graft.Opens situation node) :
    graft.NamesSubject situation node := by
  intro subject typeArgs args hf name used
  exact looks.valueNames (opens.asks subject (by simp [hf, Form.children])) used

/-- The same script is imported. -/
theorem Transplant.KeepsInside.load (keeps : graft.KeepsInside) (visited : graft.visited node)
    (path : String) :
    Inquiry.Transfers graft (node.load path) ((move graft node).load path)
      fun found => ∀ target ∈ found, graft.OpensScript target := by
  have imports := keeps.imports path visited
  constructor
  · rw [Node.answer_load]
    exact imports.2
  · rw [Node.answer_load, Node.answer_load]
    exact imports.1

/-- The type written where a declaration holds a node as its value. -/
theorem Transplant.KeepsInside.ascribedType? {graft : Transplant} (keeps : graft.KeepsInside)
    (visited : graft.visited node) (opens : graft.Opens situation parent) :
    (move graft node).ascribedType? (move graft parent) =
        (node.ascribedType? parent).map (move graft) ∧
      ∀ type ∈ node.ascribedType? parent, graft.Writes type := by
  have given (ascription : Option NodeId) (value : NodeId)
      (inside : ascription.toList ⊆ parent.form.children) :
      (if value = (move graft node).id then
        ascription.map fun id => ((move graft parent).sibling id).lower else none) =
      (if value = node.id then ascription.map fun id => (parent.sibling id).lower
        else none).map (move graft) ∧
      ∀ type ∈ (if value = node.id then ascription.map fun id => (parent.sibling id).lower
        else none), graft.Writes type := by
    rw [keeps.id visited]
    split
    · cases ascription with
      | none => exact ⟨rfl, by simp⟩
      | some id =>
        have read := keeps.lower_child opens id (inside mem_cons_self)
        exact ⟨congrArg some read.1, by simpa using read.2⟩
    · exact ⟨rfl, by simp⟩
  unfold Node.ascribedType?
  rw [opens.form]
  split
  iterate 4
    · next hf => exact given _ _ (by simp +contextual [hf, Form.children, subset_def])
  · exact ⟨rfl, by simp⟩

/-! ### Parameters of literals -/

namespace Node

variable {holder : Node}

theorem literalParams?_subset (hp : holder.literalParams? = some ids) :
    ids ⊆ holder.form.children := by
  rw [literalParams?] at hp
  split at hp
  iterate 2
    · next hf =>
      cases hp
      simp +contextual [hf, Form.children, subset_def]
  · cases hp

/-- A literal with a parameter that has no type of its own needs one from its context. -/
theorem needsContext_of_bare (hp : holder.literalParams? = some params) {id : NodeId}
    (hi : id ∈ params) (bare : (holder.sibling id).isBareParam = true) :
    holder.needsContext = true := by
  have found : params.any (fun id => (holder.sibling id).isBareParam) = true :=
    any_eq_true.mpr ⟨id, hi, bare⟩
  rw [literalParams?] at hp
  rw [needsContext, needsContextWithin]
  split at hp
  · next hf =>
    cases hp
    rw [hf]
    exact found
  · next hf =>
    cases hp
    rw [hf]
    exact found
  · cases hp

end Node

/-- A parameter can be asked about if what is expected of its literal can, in case it is needed. -/
theorem Transplant.opensParam {graft : Transplant} (opens : graft.Opens situation holder)
    (awaits : holder.needsContext = true → graft.awaited situation holder)
    (param : ∀ id, holder.literalParams?.bind (·[index]?) = some id →
      graft.Opens situation (holder.sibling id) ∧
        ∃ name ascription, (holder.sibling id).form = .param name ascription) :
    graft.OpensParam situation holder index where
  opens := opens
  param id hi := by
    obtain ⟨written, name, ascription, hf⟩ := param id hi
    refine ⟨written, fun bare => ?_⟩
    obtain ⟨params, hp, hm⟩ := Option.bind_eq_some_iff.mp hi
    refine awaits (Node.needsContext_of_bare hp (mem_of_getElem? hm) ?_)
    cases ascription with
    | none => rw [Node.isBareParam, hf]
    | some ascription => exact absurd hf (bare name ascription)

/-- Missing types are filled in with the moved ones. -/
theorem Deeper.fillTypes_move (moving : Moving) (declared given : List (Slot Ty)) :
    fillTypes (declared.map (move moving)) (given.map (move moving)) =
      (fillTypes declared given).map (move moving) := by
  induction declared generalizing given with
  | nil => rfl
  | cons param params ih =>
    cases given with
    | nil => rfl
    | cons other rest =>
      simp only [map_cons, fillTypes, ih, Slot.type_move, Option.isSome_map]
      split <;> rfl

namespace Deeper.Course

variable {graft : Transplant} {m : ι → Type → Type} [∀ i, Inquirer (m i)]
  (course : Course graft ι m)

/-- A question is answered alike in all settings. -/
abbrev Answers {α : Type} [Movable α]
    (asked : ∀ {m : Type → Type} [Inquirer m], Deeper m → Situation → m α)
    (again : Deeper → Situation → Inference α) (holds : α → Prop) : Prop :=
  course.Asks (fun i => asked (course.deeper i) (course.situation i))
    (again course.deeper' course.situation') holds

/-! ### Joining questions -/

section Joining

variable {α β : Type} [Movable α] [Movable β] {holds : α → Prop} {goal : β → Prop}

/-- Nothing is found in any setting. -/
theorem nothing : course.Asks (fun _ => pure (none : Option α)) (pure none)
    fun found => ∀ value ∈ found, holds value := course.done (by simp) rfl

theorem unknown : course.Asks (fun _ => pure Ty.unknown) (pure Ty.unknown) graft.Writes :=
  course.done (by simp) rfl

/-- Branches are taken alike where the conditions are the same. -/
theorem ite [Decidable condition] [Decidable condition'] {asked other : ∀ i, m i α}
    (same : condition' ↔ condition) (yes : condition → course.Asks asked again holds)
    (no : ¬condition → course.Asks other other' holds) :
    course.Asks (fun i => if condition then asked i else other i)
      (if condition' then again else other') holds := by
  by_cases hc : condition
  · simp only [if_pos hc, if_pos (same.mpr hc)]
    exact yes hc
  · simp only [if_neg hc, if_neg (mt same.mp hc)]
    exact no hc

section Lists

variable [∀ i, LawfulMonad (m i)] {items : List α} {ask : ∀ i, α → m i (Option β)}
  {ask' : α → Inference (Option β)}

/-- Questions about all items of a list are answered alike if each of them is. -/
theorem mapM {ask : ∀ i, α → m i β} {ask' : α → Inference β}
    (asks : ∀ item ∈ items, course.Asks (fun i => ask i item) (ask' (move graft item)) goal) :
    course.Asks (fun i => items.mapM (ask i)) ((items.map (move graft)).mapM ask')
      fun answers => ∀ answer ∈ answers, goal answer := by
  induction items with
  | nil => exact course.done (by simp) rfl
  | cons item rest ih =>
    rw [forall_mem_cons] at asks
    simp only [map_cons, mapM_cons]
    refine course.andThen asks.1 fun first hf => course.andThen (ih asks.2) fun others ho =>
      course.done ?_ rfl
    exact forall_mem_cons.mpr ⟨hf, ho⟩

/-- So are questions that may leave items out, -/
theorem filterMapM
    (asks : ∀ item ∈ items, course.Asks (fun i => ask i item) (ask' (move graft item))
      fun found => ∀ answer ∈ found, goal answer) :
    course.Asks (fun i => items.filterMapM (ask i)) ((items.map (move graft)).filterMapM ask')
      fun answers => ∀ answer ∈ answers, goal answer := by
  induction items with
  | nil => exact course.done (by simp) rfl
  | cons item rest ih =>
    rw [forall_mem_cons] at asks
    simp only [map_cons, filterMapM_cons]
    refine course.andThen asks.1 fun found hf => ?_
    cases found with
    | none => exact ih asks.2
    | some first =>
      refine course.andThen (ih asks.2) fun others ho => course.done ?_ rfl
      exact forall_mem_cons.mpr ⟨hf first rfl, ho⟩

omit [∀ i, LawfulMonad (m i)] in
/-- questions of which each goes on from the answer to the last, -/
theorem foldlM {step : ∀ i, β → α → m i β} (hs : goal start)
    (steps : ∀ state item, goal state → item ∈ items →
      course.Asks (fun i => step i state item) (step' (move graft state) (move graft item)) goal) :
    course.Asks (fun i => items.foldlM (step i) start)
      ((items.map (move graft)).foldlM step' (move graft start)) goal := by
  induction items generalizing start with
  | nil => exact course.done hs rfl
  | cons item rest ih =>
    simp only [map_cons, foldlM_cons]
    refine course.andThen (steps start item hs mem_cons_self) fun state hs => ih hs ?_
    exact fun state item hs hi => steps state item hs (mem_cons_of_mem _ hi)

omit [∀ i, LawfulMonad (m i)] in
/-- and questions that have to be answered for every item. -/
theorem askAll
    (asks : ∀ item ∈ items, course.Asks (fun i => ask i item) (ask' (move graft item))
      fun found => ∀ answer ∈ found, goal answer) :
    course.Asks (fun i => Deeper.askAll (ask i) items) (Deeper.askAll ask' (items.map (move graft)))
      fun found => ∀ answers ∈ found, ∀ answer ∈ answers, goal answer := by
  induction items with
  | nil => exact course.done (by simp) rfl
  | cons item rest ih =>
    rw [forall_mem_cons] at asks
    refine course.andThen asks.1 fun found hf => ?_
    cases found with
    | none => exact course.nothing
    | some first =>
      refine course.andThen (ih asks.2) fun others ho => ?_
      cases others with
      | none => exact course.nothing
      | some others =>
        refine course.done ?_ rfl
        rintro answers ⟨⟩
        exact forall_mem_cons.mpr ⟨hf first rfl, ho others rfl⟩

end Lists

end Joining

/-! ### Types that are read and compared -/

/-- The type that is written in a node. -/
theorem written (read : node'.lower = move graft node.lower ∧ graft.Writes node.lower) :
    course.Asks (fun _ => Inquirer.lowering node pure) (Inquirer.lowering node' pure)
      graft.Writes :=
  course.same (course.lowering node fun _ => pure) (course.done read.2 read.1)

theorem expanded (ht : graft.Writes type) :
    course.Asks (fun _ => Inquirer.expand type) (Inquirer.expand (move graft type)) graft.Writes :=
  course.same (course.expand type) (course.lift (expand_transfers course.keeps.typeNames ht))

theorem subsumed (hd : graft.Writes destination) (hv : graft.Writes value)
    (throughGenerics : Bool) :
    course.Asks (fun _ => Inquirer.subsumes destination value throughGenerics)
      (Inquirer.subsumes (move graft destination) (move graft value) throughGenerics)
      fun _ => True :=
  course.same (course.subsumes _ _ _)
    (course.lift (subsumes_transfers course.keeps.typeNames hd hv throughGenerics))

/-- What is left of a type without `nil`. -/
theorem present (ht : graft.Writes type) :
    course.Asks (fun _ => Inquirer.subtract type .nil) (Inquirer.subtract (move graft type) .nil)
      graft.WritesInside :=
  course.same (course.subtract type .nil)
    (course.lift (subtract_transfers course.keeps.typeNames ht formed_nil))

theorem distilled (ht : ∀ type ∈ types, graft.WritesInside type) :
    course.Asks (fun _ => Inquirer.distillUnion types)
      (Inquirer.distillUnion (types.map (move graft))) graft.Writes :=
  course.same (course.distillUnion types)
    (course.lift (distillUnion_transfers course.keeps.typeNames ht))

/-- What a parameter type tells of type parameters, given an argument. -/
theorem matched (names : List String) (hp : graft.Writes param) (ha : graft.Writes arg)
    (hb : Ty.BindsWritten graft bound) :
    course.Asks (fun _ => Inquirer.matchGenerics names param arg bound)
      (Inquirer.matchGenerics names (move graft param) (move graft arg) (move graft bound))
      (Ty.BindsWritten graft) :=
  course.same (course.matchGenerics names param arg bound)
    (course.lift (matchGenerics_transfers course.keeps.typeNames names hp ha hb))

/-- The type of a child. -/
theorem typeOf_child (opens : graft.Opens course.moment node) {id : NodeId}
    (hi : id ∈ node.form.children) : course.Answers (·.typeOf · (node.sibling id))
      (·.typeOf · ((move graft node).sibling id)) graft.Writes := by
  unfold Answers
  rw [opens.sibling id hi]
  exact course.typeOf (opens.asks id hi)

section Declarations

variable {declaration : Node} {ascription : Option NodeId} {value : NodeId}

/-- The type written at a declaration, or else that of its value. -/
theorem ascribedOr (opens : graft.Opens course.moment declaration)
    (inside : ascription.toList ++ [value] ⊆ declaration.form.children) :
    course.Answers (·.ascribedOr · declaration ascription value)
      (·.ascribedOr · (move graft declaration) ascription value) graft.Writes := by
  cases ascription with
  | none => exact course.typeOf_child opens (inside (by simp))
  | some id => exact course.written (course.keeps.lower_child opens id (inside mem_cons_self))

theorem ascribedOrWidened (opens : graft.Opens course.moment declaration)
    (inside : ascription.toList ++ [value] ⊆ declaration.form.children) :
    course.Answers (·.ascribedOrWidened · declaration ascription value)
      (·.ascribedOrWidened · (move graft declaration) ascription value) graft.Writes := by
  cases ascription with
  | none =>
    exact course.andThen (course.typeOf_child opens (inside (by simp))) fun type ht =>
      course.done ht.widen (widen_move _ type)
  | some id => exact course.written (course.keeps.lower_child opens id (inside mem_cons_self))

/-- The type of what is declared. -/
theorem declarationType (opens : graft.Opens course.moment declaration)
    (stores : ∀ name members exported,
      declaration.form = .storeDeclaration name members exported →
        graft.allowed (.store declaration)) :
    course.Answers (·.declarationType · declaration)
      (·.declarationType · (move graft declaration)) graft.Writes := by
  unfold Answers Deeper.declarationType
  rw [opens.form]
  split
  iterate 2
    · next hf =>
      refine course.ite .rfl (fun _ => ?_) fun _ => ?_
      · exact course.ascribedOr opens (by simp [hf, Form.children])
      · exact course.ascribedOrWidened opens (by simp [hf, Form.children])
  · next hf =>
    exact course.ascribedOr opens (by simp +contextual [hf, Form.children, subset_def, or_imp])
  · next hf => exact course.ascribedOrWidened opens (by simp [hf, Form.children])
  iterate 2
    · next hf => exact course.typeOf_child opens (by simp [hf, Form.children])
  · next name members exported hf =>
    refine course.done ?_ opens.storeType
    rw [Node.storeType, hf]
    exact formed_store.mpr (stores name members exported hf)
  · next name _ value _ _ hf =>
    have read := course.keeps.lower_child opens value (by simp [hf, Form.children])
    refine course.ite .rfl (fun _ => course.same (course.lowering _ _) (course.done ?_ ?_))
      fun _ => course.unknown
    · simp [slotTypes, read.2]
    · rw [read.1, move_func]
      rfl
  · exact course.unknown

end Declarations

theorem storeMember {store member : Node} (allowed : graft.allowed (.store store))
    (hm : store.storeMember? name = some member) :
    course.Answers (·.declarationType · member)
      (·.declarationType · (move graft member)) graft.Writes := by
  refine course.declarationType
    ((course.keeps.storeMember? allowed name course.moment).2 member hm) fun _ _ _ hf => ?_
  have found := find?_some hm
  simp only [hf] at found
  cases found

/-- The type of a property: that of a union is there in all members. -/
theorem propertyType (ht : graft.WritesInside type) (name : String) :
    course.Answers (·.propertyType · type name) (·.propertyType · (move graft type) name)
      fun found => ∀ type ∈ found, graft.Writes type := by
  have measured : course.Asks (fun _ => pure (if name = "length" then some Ty.number else none))
      (pure (if name = "length" then some Ty.number else none))
      fun found => ∀ type ∈ found, graft.Writes type := by
    split
    · exact course.done (by simp) rfl
    · exact course.nothing
  have inside {inner : Ty} (hi : graft.Writes inner) : course.Answers
      (fun deeper situation => do deeper.property? situation (← Inquirer.expand inner) name)
      (fun deeper situation => do
        deeper.property? situation (← Inquirer.expand (move graft inner)) name)
      fun found => ∀ type ∈ found, graft.Writes type :=
    course.andThen (course.expanded hi) fun seen hn => course.property? name hn.inside
  unfold Answers
  cases type with
  | object fields =>
    rw [move_object]
    refine course.done ?_ ?_
    · intro type hm
      obtain ⟨field, hf, rfl⟩ := Option.map_eq_some_iff.mp hm
      have hw := formed_object.mp (ht.formed rfl) field (mem_of_find?_eq_some hf)
      split
      · exact .orNil hw.inside
      · exact hw
    · simp only [find?_map, Function.comp_def, Field.name_move, Option.map_map, move_option]
      refine congrArg (Option.map · _) (funext fun field => ?_)
      simp only [Field.optional_move, Field.type_move, orNil_move]
      split <;> rfl
  | store storeName declaration =>
    have allowed := formed_store.mp (ht.formed rfl)
    simp only [move_store, Deeper.propertyType,
      (course.keeps.storeMember? allowed name course.moment).1]
    cases hm : declaration.storeMember? name with
    | none => exact course.nothing
    | some member =>
      refine course.andThen (course.storeMember allowed hm) fun type ht => ?_
      exact course.done (by simpa using ht) rfl
  | nominal _ inner =>
    have hi := formed_nominal.mp (ht.formed rfl)
    simp only [Deeper.propertyType]
    split
    · exact course.done (by simpa using hi) rfl
    · exact course.nothing
  | array _ | tuple _ | string => exact measured
  | literal value =>
    cases value with
    | string _ => exact measured
    | number _ | boolean _ => exact course.nothing
  | readonly inner => exact inside (formed_readonly.mp (ht.formed rfl))
  | union members =>
    simp only [move_union, Deeper.propertyType, isEmpty_map]
    refine course.ite .rfl (fun _ => course.nothing) fun _ => ?_
    refine course.andThen (course.askAll fun member hm => inside (ht.parts member hm))
      fun found hf => ?_
    cases found with
    | none => exact course.nothing
    | some types =>
      refine course.done ?_ (congrArg some (unionOf_move _ types))
      rintro type ⟨⟩
      exact .unionOf fun type hm => (hf types rfl type hm).inside
  | any => exact course.done (by simp) rfl
  | _ => exact course.nothing

/-- The type of what stands under a key. -/
theorem indexType (hb : graft.WritesInside base) (hk : graft.Writes key) :
    course.Answers (·.indexType · base key) (·.indexType · (move graft base) (move graft key))
      fun found => ∀ type ∈ found, graft.Writes type := by
  refine course.andThen (course.expanded hk) fun key hk => ?_
  have fitting {wanted found : Ty} (hw : graft.Writes wanted) (hf : graft.Writes found) :
      course.Asks
      (fun _ => do return if ← Inquirer.subsumes wanted key false then some found else none)
      (do return if ← Inquirer.subsumes (move graft wanted) (move graft key) false
        then some (move graft found) else none)
      fun found => ∀ type ∈ found, graft.Writes type := by
    refine course.andThen (course.subsumed hw hk false) fun fits _ => ?_
    cases fits with
    | false => exact course.nothing
    | true => exact course.done (by simpa using hf) rfl
  cases base with
  | object fields =>
    have found (name : String) := course.propertyType hb name
    cases key with
    | literal value =>
      cases value with
      | string name => exact found name
      | number _ | boolean _ => exact course.nothing
    | _ => exact course.nothing
  | indexer wanted value =>
    have hw := formed_indexer.mp (hb.formed rfl)
    have found := fitting hw.1 (.orNil hw.2.inside)
    rw [← orNil_move] at found
    exact found
  | array element => exact fitting formed_number (formed_array.mp (hb.formed rfl))
  | tuple items =>
    have hi := formed_tuple.mp (hb.formed rfl)
    have counted := fitting formed_number (.unionOf fun item hm => (hi item hm).inside)
    rw [← unionOf_move] at counted
    rw [move_tuple]
    cases key with
    | literal value =>
      cases value with
      | number value =>
        simp only [move_literal] at counted ⊢
        cases value.toNat? with
        | none => exact counted
        | some index => exact course.done (fun type ht => hi type (mem_of_getElem? ht)) getElem?_map
      | string _ | boolean _ => exact counted
    | _ => exact counted
  | readonly inner =>
    refine course.andThen (course.expanded (formed_readonly.mp (hb.formed rfl))) fun seen hn => ?_
    exact course.indexed? hn.inside hk
  | any => exact course.done (by simp) rfl
  | _ => exact course.nothing

section Literals

variable {holder : Node}

/-- The parameters that the context expects of a literal. -/
theorem contextParams? (opens : graft.Opens course.moment holder)
    (awaited : graft.awaited course.moment holder) :
    course.Answers (·.contextParams? · holder) (·.contextParams? · (move graft holder))
      fun found => ∀ params ∈ found, graft.WritesSlots params := by
  refine course.andThen (course.expected? awaited) fun expected he => ?_
  cases expected with
  | none => exact course.nothing
  | some type =>
    refine course.andThen (course.expanded (he type rfl)) fun seen hn => ?_
    rw [opens.form]
    generalize holder.form = form
    cases form with
    | func =>
      cases seen with
      | func typeParams params result =>
        rw [move_func]
        exact course.done (by simpa using (formed_func.mp hn).2.1) rfl
      | _ => exact course.nothing
    | proc =>
      cases seen with
      | proc typeParams params =>
        rw [move_proc]
        exact course.done (by simpa using (formed_proc.mp hn).2) rfl
      | _ => exact course.nothing
    | _ => exact course.nothing

/-- The type of a parameter: its own, or else the one from the context. -/
theorem paramType (opens : graft.OpensParam course.moment holder index) :
    course.Answers (·.paramType · holder index)
      (·.paramType · (move graft holder) index) graft.Writes := by
  unfold Answers Deeper.paramType
  rw [opens.opens.literalParams?]
  cases hi : holder.literalParams?.bind (·[index]?) with
  | none => exact course.unknown
  | some id =>
    obtain ⟨params, hp, hm⟩ := Option.bind_eq_some_iff.mp hi
    have inside := Node.literalParams?_subset hp (mem_of_getElem? hm)
    obtain ⟨written, bare⟩ := opens.param id hi
    have sibling := opens.opens.sibling id inside
    simp only [sibling, written.form]
    split
    · next name ascription hf =>
      have read := course.keeps.lower_child written ascription (by simp [hf, Form.children])
      rw [← sibling] at read
      exact course.written read
    · next other =>
      refine course.andThen (course.contextParams? opens.opens (bare other)) fun given hg => ?_
      cases given with
      | none => exact course.unknown
      | some given =>
        simp only [move_option, Option.map_some, Option.bind_some, move_list, getElem?_map]
        cases hn : given[index]? with
        | none => exact course.unknown
        | some slot =>
          exact course.done (.typeOrUnknown (hg given rfl) (mem_of_getElem? hn))
            (Slot.typeOrUnknown_move _ slot)

/-- The parameters of a literal, with types from its context where it has none. -/
theorem literalParams (opens : graft.Opens course.moment holder)
    (awaits : holder.needsContext = true → graft.awaited course.moment holder)
    (hp : holder.literalParams? = some ids) :
    course.Answers (·.literalParams · holder ids) (·.literalParams · (move graft holder) ids)
      graft.WritesSlots := by
  have slots := course.keeps.paramSlots opens (Node.literalParams?_subset hp)
  unfold Answers Deeper.literalParams
  refine course.same (course.paramSlots _ _ _) ?_
  simp only [Inquirer.paramSlots, slots.1, any_map, Function.comp_def, Slot.type_move,
    Option.isNone_map]
  refine course.ite .rfl (fun bare => ?_) fun _ => course.done slots.2 rfl
  have awaited : graft.awaited course.moment holder := by
    obtain ⟨slot, hm, bare⟩ := any_eq_true.mp bare
    obtain ⟨param, hq, hd⟩ := mem_filterMap.mp hm
    obtain ⟨id, hn, rfl⟩ := mem_map.mp hq
    refine awaits (Node.needsContext_of_bare hp hn ?_)
    unfold Node.declaredParam? at hd
    unfold Node.isBareParam
    split at hd
    · next hf =>
      cases hd
      rw [Option.isNone_map, Option.isNone_iff_eq_none] at bare
      rw [hf, bare]
    · cases hd
  refine course.andThen (course.contextParams? opens awaited) fun given hg => ?_
  cases given with
  | none => exact course.done slots.2 rfl
  | some given =>
    exact course.done (forall_mem_fillTypes slots.2 (hg given rfl)) (fillTypes_move _ _ given)

end Literals

section Bindings

variable [∀ i, LawfulMonad (m i)]

/-- The object type of all that a module exports. -/
theorem moduleObject (visited : graft.visited importing)
    (opens : graft.Opens course.moment importing) :
    course.Answers (·.moduleObject · importing)
      (·.moduleObject · (move graft importing)) graft.Writes := by
  unfold Answers Deeper.moduleObject
  rw [opens.form]
  split
  · next path _ _ =>
    refine course.andThen (course.same (course.load _ _)
      (course.lift (course.keeps.load visited path))) fun found hf => ?_
    cases found with
    | none => exact course.unknown
    | some target =>
      have script := hf target rfl
      have exported : (move graft target).declarations.filter Node.isExported =
          (target.declarations.filter Node.isExported).map (move graft) := by
        rw [script.declarations, filter_map]
        refine congrArg _ (filter_congr fun declaration hd => ?_)
        rw [Function.comp_apply]
        rcases course.keeps.opens (script.asks declaration hd course.moment) with
          opens | ⟨operand, operand'⟩
        · rw [Node.isExported, Node.isExported, opens.form]
        · rw [Node.isExported_of_bare (Form.isBare_of_isOperand operand),
            Node.isExported_of_bare (Form.isBare_of_isOperand operand')]
      simp only [move_option, Option.map_some, exported]
      refine course.andThen (course.filterMapM fun declaration hd => ?_) fun fields hw =>
        course.done (formed_object.mpr hw) (move_object _ fields).symm
      obtain ⟨hd, exported⟩ := mem_filter.mp hd
      have asks := script.asks declaration hd course.moment
      have opens : graft.Opens course.moment declaration := by
        refine course.keeps.opens_of_form asks ?_
        by_contra operand
        rw [Node.isExported_of_bare (Form.isBare_of_isOperand (Bool.of_not_eq_false operand))]
          at exported
        cases exported
      have named : (move graft declaration).valueName? = declaration.valueName? := by
        rw [Node.valueName?, Node.valueName?, opens.form]
      rw [named]
      cases declaration.valueName? with
      | none => exact course.nothing
      | some name =>
        refine course.andThen (course.declarationType opens
          fun _ _ _ hf => course.keeps.declaredStores asks hf) fun type ht => ?_
        exact course.done (by simpa using ht) rfl
  · exact course.unknown

/-- The type of what a name stands for. -/
theorem bindingType {binding : Binding} (opens : graft.OpensBinding course.moment binding) :
    course.Answers (·.bindingType · binding)
      (·.bindingType · (move graft binding)) graft.Writes := by
  cases binding with
  | declared declaration =>
    exact course.declarationType opens.2 fun _ _ _ hf => course.keeps.declaredStores opens.1 hf
  | parameter holder index => exact course.paramType opens
  | type type params => exact course.unknown
  | importedModule importing => exact course.moduleObject opens.1 opens.2
  | loopItem forLoop =>
    have opens : graft.Opens course.moment forLoop := opens
    show course.Answers _ (·.bindingType · (.loopItem (move graft forLoop))) _
    simp only [Answers, Deeper.bindingType, opens.form]
    split
    · next iterator _ hf =>
      have hi : iterator ∈ forLoop.form.children := by simp [hf, Form.children]
      refine course.andThen (course.typeOf_child opens hi) fun type ht => ?_
      refine course.andThen (course.expanded ht) fun seen hn => ?_
      cases seen with
      | iterator item => exact course.done (formed_iterator.mp hn) rfl
      | _ => exact course.done (by simp) rfl
    · exact course.unknown

end Bindings

section Calls

variable {node : Node}

/-- Whether a call is that of a method, which is looked up as a name. -/
theorem methodCall? (opens : graft.Opens course.moment node)
    (named : graft.NamesSubject course.moment node) :
    course.Answers (·.methodCall? · node) (·.methodCall? · (move graft node))
      fun found => ∀ method ∈ found, graft.AsksMethod course.moment method := by
  unfold Answers Deeper.methodCall?
  rw [opens.form]
  split
  · next subject _ _ hf =>
    have hm : subject ∈ node.form.children := by simp [hf, Form.children]
    have asked := opens.asks subject hm
    simp only [opens.sibling subject hm]
    rcases course.keeps.opens asked with accessor | ⟨operand, operand'⟩
    · rw [accessor.form]
      split
      · next receiver name ha =>
        have hr : receiver ∈ (node.sibling subject).form.children := by simp [ha, Form.children]
        simp only [accessor.sibling receiver hr]
        refine course.andThen (course.typeOf (accessor.asks receiver hr)) fun receiverType ht => ?_
        refine course.andThen (course.expanded ht) fun base hb => ?_
        refine course.andThen (course.propertyType hb.inside name) fun found _ => ?_
        refine course.ite (by rw [move_option, Option.isSome_map]) (fun _ => course.nothing)
          fun _ => ?_
        refine course.andThen (course.same (course.resolveIn _ _ _)
          (course.lift (named subject _ _ hf name (by rw [ha]; rfl)))) fun lookup hl => ?_
        cases lookup with
        | ok binding =>
          refine course.done ?_ rfl
          rintro method ⟨⟩
          exact ⟨accessor.asks receiver hr, ht, hl binding rfl⟩
        | error => exact course.nothing
      · exact course.nothing
    · split
      · next hi => rw [hi] at operand; cases operand
      · split
        · next hi => rw [hi] at operand'; cases operand'
        · exact course.nothing
  · exact course.nothing

/-- A call is found alike if the type of what is called is. -/
theorem calledType (callee : Node) (typeArgs args : List Node) (receiver : Option Ty)
    (visited : ∀ arg ∈ typeArgs, graft.visited arg)
    (asked : ∀ arg ∈ args, graft.asked course.moment arg)
    (received : ∀ type ∈ receiver, graft.Writes type)
    (typed : course.Asks type type' graft.Writes) :
    course.Asks
      (fun i => do
        return some (⟨callee, ← Inquirer.expand (← type i), typeArgs, args, receiver⟩ : Call))
      (do return some (⟨move graft callee, ← Inquirer.expand (← type'),
        typeArgs.map (move graft), args.map (move graft),
        receiver.map (move graft)⟩ : Call))
      fun found => ∀ call ∈ found, graft.AsksCall course.moment call := by
  refine course.andThen typed fun type ht => ?_
  refine course.andThen (course.expanded ht) fun subject hw => ?_
  refine course.done ?_ rfl
  rintro call ⟨⟩
  exact ⟨hw, visited, asked, received⟩

/-- The function and the arguments of a call in any of its notations. -/
theorem call? [∀ i, LawfulMonad (m i)] (opens : graft.Opens course.moment node)
    (named : graft.NamesSubject course.moment node) :
    course.Answers (·.call? · node) (·.call? · (move graft node))
      fun found => ∀ call ∈ found, graft.AsksCall course.moment call := by
  unfold Answers Deeper.call?
  rw [opens.form]
  split
  · next subject typeArgIds argIds hf =>
    have hm : subject ∈ node.form.children := by simp [hf, Form.children]
    have ht : typeArgIds ⊆ node.form.children := by
      simp +contextual [hf, Form.children, subset_def]
    have ha : argIds ⊆ node.form.children := by
      simp +contextual [hf, Form.children, subset_def]
    have visited : ∀ arg ∈ typeArgIds.map node.sibling, graft.visited arg :=
      fun arg hm => course.keeps.visited_of_asked (opens.asks_siblings ht arg hm)
    have asked := opens.asks_siblings ha
    simp only [opens.sibling subject hm, opens.siblings ht, opens.siblings ha]
    refine course.andThen (course.methodCall? opens named) fun method hc => ?_
    cases method with
    | none =>
      exact course.calledType _ _ _ none visited asked (by simp)
        (course.typeOf (opens.asks subject hm))
    | some method =>
      have hc := hc method rfl
      exact course.calledType _ _ (method.receiver :: argIds.map node.sibling)
        (some method.receiverType) visited (forall_mem_cons.mpr ⟨hc.receiver, asked⟩)
        (by simpa using hc.receiverType) (course.bindingType hc.function)
  · next value function hf =>
    have hv : value ∈ node.form.children := by simp [hf, Form.children]
    have hm : function ∈ node.form.children := by simp [hf, Form.children]
    simp only [opens.sibling value hv, opens.sibling function hm]
    exact course.calledType _ [] [node.sibling value] none (by simp)
      (by simpa using opens.asks value hv) (by simp) (course.typeOf (opens.asks function hm))
  · exact course.nothing

/-- The type of an argument. The receiver of a method comes with its own. -/
theorem argumentType (asks : graft.AsksCall course.moment call) (index : Nat) :
    course.Answers (·.argumentType · call index)
      (·.argumentType · (move graft call) index) graft.Writes := by
  obtain ⟨callee, subject, typeArgs, args, receiver⟩ := call
  have written (index : Nat) : course.Answers
      (·.argumentType · ⟨callee, subject, typeArgs, args, none⟩ index)
      (·.argumentType · ⟨move graft callee, move graft subject, typeArgs.map (move graft),
        args.map (move graft), none⟩ index) graft.Writes := by
    have moved : (args.map (move graft))[index]? = args[index]?.map (move graft) := getElem?_map
    simp only [Answers, Deeper.argumentType, moved]
    cases ha : args[index]? with
    | none => exact course.unknown
    | some arg => exact course.typeOf (asks.args arg (mem_of_getElem? ha))
  cases receiver with
  | none => exact written index
  | some receiver =>
    cases index with
    | zero => exact course.done (asks.receiver receiver rfl) rfl
    | succ index => exact written (index + 1)

/-- Calls of the same function with the same arguments, before and after the change. Arguments
that take their type from the call are asked about only when it is on record. -/
structure CallsAlike (call call' : Call) : Prop where
  written : graft.Writes call.subject
  subject : call'.subject = move graft call.subject
  typeArgs : call'.typeArgs = call.typeArgs.map (move graft)
  visited : ∀ arg ∈ call.typeArgs, graft.visited arg
  args : call'.args = call.args.map (move graft)
  recorded : ∀ arg ∈ call.args, ∀ type, graft.asked (course.moment.expecting arg type) arg
  settled : ∀ index arg, call.args[index]? = some arg → arg.needsContext = false →
    course.Answers (·.argumentType · call index) (·.argumentType · call' index) graft.Writes

/-- A call and the moved call are calls of the same function. -/
theorem callsAlike (asks : graft.AsksCall course.moment call) :
    course.CallsAlike call (move graft call) where
  written := asks.subject
  subject := rfl
  typeArgs := rfl
  visited := asks.typeArgs
  args := rfl
  recorded arg ha type := course.keeps.asked_expecting arg type (asks.args arg ha)
  settled index _ _ _ := course.argumentType asks index

section

variable {course} {call call' : Call} (alike : course.CallsAlike call call')
include alike

/-- Type parameters are bound by what is written, or by settled arguments before literals. -/
theorem CallsAlike.bindTypeParams (ht : graft.WritesSlots typeParams)
    (hp : graft.WritesSlots params) (withLiterals : Bool) :
    course.Answers (·.bindTypeParams · call typeParams params withLiterals)
      (·.bindTypeParams · call' (typeParams.map (move graft)) (params.map (move graft))
        withLiterals) (Ty.BindsWritten graft) := by
  have names : (typeParams.map (move graft)).map Slot.name = typeParams.map Slot.name := by
    rw [map_map]
    rfl
  have generic := @of_mem_genericArguments (typeParams.map Slot.name) params call.args
  have arg {argument} (ha : argument ∈ genericArguments (typeParams.map Slot.name) params call.args) :
      argument.arg ∈ call.args := mem_of_getElem? (generic ha).1
  have context : ∀ argument ∈ genericArguments (typeParams.map Slot.name) params call.args,
      (move graft argument).arg.needsContext = argument.arg.needsContext :=
    fun argument ha => course.keeps.needsContext (alike.recorded argument.arg (arg ha) .unknown)
  have complete {bound : Bindings} (hb : Ty.BindsWritten graft bound) :
      course.Asks (fun _ => pure (Ty.completeBindings typeParams bound))
        (pure (Ty.completeBindings (typeParams.map (move graft))
          (bound.map (move graft)))) (Ty.BindsWritten graft) :=
    course.done (.completeBindings ht hb) (completeBindings_move typeParams bound)
  have empty : Ty.BindsWritten graft [] := by simp [Ty.BindsWritten]
  unfold Answers Deeper.bindTypeParams
  simp only [names, alike.args, alike.typeArgs, genericArguments_move, filter_map,
    isEmpty_map, Function.comp_def]
  refine course.ite .rfl (fun _ => course.done empty rfl) fun _ => ?_
  refine course.ite .rfl (fun _ => course.same (course.writtenBindings _ _) (course.done ?_ ?_))
    fun _ => ?_
  · rintro binding hb
    obtain ⟨⟨param, index⟩, hr, rfl⟩ := mem_map.mp hb
    dsimp only
    cases ha : call.typeArgs[index]? with
    | none => exact .typeOrUnknown ht (fst_mem_of_mem_zipIdx hr)
    | some arg => exact (course.keeps.lower (alike.visited arg (mem_of_getElem? ha))).2
  · rw [zipIdx_move, move_list, map_map, map_map]
    refine map_congr_left fun row _ => ?_
    obtain ⟨param, index⟩ := row
    show (param.name, (((call.typeArgs.map (move graft))[index]?).map Node.lower).getD
        (move graft param).typeOrUnknown) =
      (param.name, move graft (((call.typeArgs[index]?).map Node.lower).getD param.typeOrUnknown))
    rw [getElem?_map, Slot.typeOrUnknown_move]
    cases ha : call.typeArgs[index]? with
    | none => rfl
    | some arg =>
      have read := course.keeps.lower (alike.visited arg (mem_of_getElem? ha))
      exact congrArg (param.name, ·) read.1
  · rw [filter_congr fun argument ha => congrArg (!·) (context argument ha), filter_congr context]
    refine course.andThen (course.foldlM empty fun bound argument hb hm => ?_) fun settled hw => ?_
    · obtain ⟨hm, settled⟩ := mem_filter.mp hm
      have found := generic hm
      refine course.andThen (alike.settled _ _ found.1 (by simpa using settled)) fun type hw => ?_
      rw [widen_move]
      exact course.matched _ (hp _ found.2) hw.widen hb
    · refine course.ite .rfl (fun _ => ?_) fun _ => complete hw
      refine course.andThen (course.foldlM hw fun bound argument hb hm => ?_)
        fun bound hb => complete hb
      have hm := (mem_filter.mp hm).1
      have found := generic hm
      have expected : graft.Writes
          (argument.paramType.substitute (Ty.completeBindings typeParams settled)) :=
        (hp _ found.2).substitute (.completeBindings ht hw)
      have typed := course.literal expected (alike.recorded argument.arg (arg hm) _)
      rw [← substitute_move, ← completeBindings_move] at typed
      exact course.andThen typed fun type hw => course.matched _ (hp _ found.2) hw hb

/-- The type of what a call gives. -/
theorem CallsAlike.resultType :
    course.Answers (·.resultType · call) (·.resultType · call') graft.Writes := by
  have written := alike.written
  unfold Answers Deeper.resultType
  rw [alike.subject]
  cases hf : call.subject with
  | func typeParams params result =>
    rw [hf] at written
    have hw := formed_func.mp written
    rw [move_func]
    refine course.andThen (alike.bindTypeParams hw.1 hw.2.1 true) fun bindings hb => ?_
    exact course.done (hw.2.2.substitute hb) (substitute_move _ result bindings)
  | any | escape => exact course.done (by simp) rfl
  | _ => exact course.unknown

end

/-- The type that a call expects of an argument. -/
theorem expectedArgument? [∀ i, LawfulMonad (m i)] (opens : graft.Opens course.moment node)
    (named : graft.NamesSubject course.moment node) (arg : Node) :
    course.Answers (·.expectedArgument? · node arg)
      (·.expectedArgument? · (move graft node) (move graft arg))
      fun found => ∀ type ∈ found, graft.Writes type := by
  refine course.andThen (course.call? opens named) fun call hc => ?_
  cases call with
  | none => exact course.nothing
  | some call =>
    have asks := hc call rfl
    have position : (move graft call).args.findIdx? (· == move graft arg) =
        call.args.findIdx? (· == arg) := by
      show (call.args.map (move graft)).findIdx? _ = _
      rw [findIdx?_map]
      exact congrArg (List.findIdx? · _) (funext fun other => graft.sameAs other arg)
    have signature : (move graft call).subject.signature? =
        call.subject.signature?.map (move graft) := signature?_move _ call.subject
    simp only [move_option, Option.map_some, position, signature]
    cases call.args.findIdx? (· == arg) with
    | none => exact course.nothing
    | some position =>
      cases hg : call.subject.signature? with
      | none => exact course.nothing
      | some signature =>
        obtain ⟨typeParams, params⟩ := signature
        have hw := asks.subject.signature hg
        refine course.andThen ((course.callsAlike asks).bindTypeParams hw.1 hw.2 false)
          fun bindings hb => ?_
        simp only [move_list, getElem?_map, Option.map_map]
        refine course.done (fun type ht => ?_) ?_
        · obtain ⟨param, hp, rfl⟩ := Option.map_eq_some_iff.mp ht
          exact Ty.Formed.substitute (.typeOrUnknown hw.2 (mem_of_getElem? hp)) hb
        · rw [move_option, Option.map_map]
          refine congrArg (Option.map · _) (funext fun param => ?_)
          simp only [Function.comp_apply, Slot.typeOrUnknown_move, substitute_move]

/-- The type that is expected of a node: on record, or by what stands around it. -/
theorem expectedType? [∀ i, LawfulMonad (m i)] (faithful : graft.Faithful)
    (together : graft.together course.moment course.situation')
    (awaited : graft.awaited course.moment node) :
    course.Answers (·.expectedType? · node) (·.expectedType? · (move graft node))
      fun found => ∀ type ∈ found, graft.Writes type := by
  have recorded := faithful.recorded node together
  unfold Answers Deeper.expectedType?
  refine course.same (course.recalling _ _) ?_
  simp only [Inquirer.recalling]
  rw [recorded.1]
  cases hr : course.moment.recorded? node with
  | some type => exact course.done (by simpa using recorded.2 type hr) rfl
  | none =>
    rw [faithful.parent awaited hr]
    cases hp : node.parent with
    | none => exact course.nothing
    | some parent =>
      have visited := faithful.visited_of_awaited awaited
      simp only [Option.map_none, Option.map_some]
      rcases faithful.around awaited hr hp with ⟨opens, above⟩ | ⟨⟨_, hf⟩, _, hm⟩
      · have written := course.keeps.ascribedType? visited opens
        rw [opens.form]
        split
        · next inner hf => exact course.expected? (above inner hf)
        · exact course.expectedArgument? opens ((faithful.looks _).namesSubject opens) node
        · next value function hf =>
          have hv : value ∈ parent.form.children := by simp [hf, Form.children]
          rw [faithful.id visited]
          refine course.ite .rfl (fun _ => ?_) fun _ => course.nothing
          refine course.andThen (course.typeOf_child opens hv) fun type ht => course.done ?_ ?_
          · rintro _ ⟨⟩
            simp [Ty.callback, slotTypes, ht.widen]
          · rw [widen_move, callback_move]
            rfl
        · exact course.same (course.ascribedType? node parent) (course.done written.2 written.1)
      · -- nothing is expected in a module
        have written : node.ascribedType? parent = none := by rw [Node.ascribedType?, hf]
        have moved : (move graft node).ascribedType? (move graft parent) = none := by
          rw [Node.ascribedType?, hm]
        rw [hf, hm]
        refine course.same (course.ascribedType? node parent) ?_
        simp only [Inquirer.ascribedType?, written, moved]
        exact course.nothing

end Calls

section Expressions

variable {node : Node}

/-- The type of several outcomes together. -/
theorem armsType [∀ i, LawfulMonad (m i)] (opens : graft.Opens course.moment node)
    {otherwise : Option NodeId} (ha : arms ⊆ node.form.children)
    (ho : otherwise.toList ⊆ node.form.children) :
    course.Answers (·.armsType · node arms otherwise)
      (·.armsType · (move graft node) arms otherwise) graft.Writes := by
  have outcomes : (arms.filterMap fun id => ((move graft node).sibling id).outcome?) =
      (arms.filterMap fun id => (node.sibling id).outcome?).map (move graft) := by
    rw [map_filterMap]
    refine filterMap_congr fun id hi => ?_
    rw [opens.sibling id (ha hi)]
    exact (course.keeps.outcome? (opens.asks id (ha hi))).1
  have asks : ∀ outcome ∈ arms.filterMap fun id => (node.sibling id).outcome?,
      graft.asked course.moment outcome := by
    intro outcome hm
    obtain ⟨id, hi, hm⟩ := mem_filterMap.mp hm
    exact (course.keeps.outcome? (opens.asks id (ha hi))).2 outcome hm
  have union {types : List Ty} {last : Ty} (ht : ∀ type ∈ types, graft.Writes type)
      (hl : graft.Writes last) : course.Asks
      (fun _ => Inquirer.distillUnion (types ++ [last]))
      (Inquirer.distillUnion (types.map (move graft) ++ [move graft last])) graft.Writes := by
    have distilled := course.distilled (forall_mem_append.mpr
      ⟨fun type hm => (ht type hm).inside, forall_mem_singleton.mpr hl.inside⟩)
    rw [map_append] at distilled
    exact distilled
  unfold Answers Deeper.armsType
  simp only [outcomes]
  refine course.andThen (course.mapM fun outcome hm => course.typeOf (asks outcome hm))
    fun types ht => ?_
  cases otherwise with
  | none => exact course.andThen (course.done formed_nil rfl) fun last hl => union ht hl
  | some id =>
    exact course.andThen (course.typeOf_child opens (ho mem_cons_self)) fun last hl => union ht hl

theorem operationType (operator : BinaryOperator) (hl : graft.asked course.moment left)
    (hr : graft.asked course.moment right) :
    course.Answers (·.operationType · left operator right)
      (·.operationType · (move graft left) operator (move graft right)) graft.Writes := by
  refine course.andThen (course.typeOf hl) fun left hl => ?_
  refine course.andThen (course.typeOf hr) fun right hr => ?_
  have applied : course.Asks
      (fun _ => do return (← Inquirer.operationType? operator left right).getD .unknown)
      (do return (← Inquirer.operationType? operator (move graft left)
        (move graft right)).getD .unknown) graft.Writes := by
    refine course.andThen (course.same (course.operationType? _ _ _) (course.lift
      (BinaryOperator.operationType?_transfers course.keeps.typeNames operator hl hr)))
      fun found hf => ?_
    cases found with
    | none => exact course.unknown
    | some type => exact course.done (hf type rfl) rfl
  cases operator with
  | orElse =>
    exact course.andThen (course.present hl) fun present hp =>
      course.distilled (by simp [hp, hr.inside])
  | _ => exact applied

/-- An optional access looks at what is left without `nil`. -/
theorem accessType (hb : graft.Writes base) (optional : Bool) {part : ∀ i, Ty → m i (Option Ty)}
    (parts : ∀ base, graft.WritesInside base →
      course.Asks (fun i => part i base) (part' (move graft base))
        fun found => ∀ type ∈ found, graft.Writes type) :
    course.Asks (fun i => Deeper.accessType base optional (part i))
      (Deeper.accessType (move graft base) optional part') graft.Writes := by
  refine course.ite .rfl (fun _ => ?_) fun _ => ?_
  · refine course.andThen (course.present hb) fun present hp => ?_
    refine course.andThen (parts present hp) fun found hf => ?_
    cases found with
    | none => exact course.unknown
    | some type => exact course.done (.orNil (hf type rfl).inside) (orNil_move _ type)
  · refine course.andThen (parts base hb.inside) fun found hf => ?_
    cases found with
    | none => exact course.unknown
    | some type => exact course.done (hf type rfl) rfl

/-- The fields of an object literal. -/
theorem entryFields [∀ i, LawfulMonad (m i)] {entries : List Node}
    (asks : ∀ entry ∈ entries, graft.asked course.moment entry) :
    course.Answers (·.entryFields · entries) (·.entryFields · (entries.map (move graft)))
      fun fields => ∀ field ∈ fields, graft.Writes field.type := by
  refine course.filterMapM fun entry he => ?_
  rcases course.keeps.opens (asks entry he) with opens | ⟨operand, operand'⟩
  · rw [opens.form]
    split
    · next key value hf =>
      exact course.andThen (course.typeOf_child opens (by simp [hf, Form.children])) fun type ht =>
        course.done (by simpa using ht) rfl
    · exact course.done (by simp) rfl
  · split
    · next hi => rw [hi] at operand; cases operand
    · split
      · next hi => rw [hi] at operand'; cases operand'
      · exact course.done (by simp) rfl

/-- What the name of an identifier stands for. -/
theorem resolve_transfers (looks : graft.LooksAround situation)
    (asked : graft.asked situation node) (hf : node.form = .identifier name)
    (opens : graft.Opens situation node) :
    Inquiry.Transfers graft (node.resolve name) ((move graft node).resolve name)
      (graft.OpensLookup situation) := by
  have resolve : node.resolve name = node.resolveIn name .value := by rw [Node.resolve, hf]
  have moved : (move graft node).resolve name =
      (move graft node).resolveIn name .value := by rw [Node.resolve, opens.form, hf]
  rw [resolve, moved]
  exact looks.valueNames asked (by rw [hf]; rfl)

/-- The type of an expression: one case for each form. -/
theorem formType [∀ i, LawfulMonad (m i)] (looks : graft.LooksAround course.moment)
    (asked : graft.asked course.moment node) (opens : graft.Opens course.moment node) :
    course.Answers (·.formType · node) (·.formType · (move graft node)) graft.Writes := by
  have inside {id : NodeId} (hi : id ∈ node.form.children) := course.typeOf_child opens hi
  have named := looks.namesSubject opens
  unfold Answers Deeper.formType
  rw [opens.form]
  split
  iterate 3 exact course.done formed_literal rfl
  iterate 2 exact course.done (by simp) rfl
  · next name hf =>
    refine course.andThen (course.same (course.resolve _ _)
      (course.lift (resolve_transfers looks asked hf opens))) fun lookup hl => ?_
    cases lookup with
    | ok binding => exact course.bindingType (hl binding rfl)
    | error => exact course.unknown
  · next hf =>
    have this := course.keeps.this asked hf
    rw [this.1]
    cases hn : node.enclosingStore? with
    | none => exact course.unknown
    | some store =>
      have allowed := this.2 store hn
      refine course.done ?_ (course.keeps.stores course.moment allowed).storeType
      rw [Option.map_some, Option.getD_some, Node.storeType]
      split
      · exact formed_store.mpr allowed
      · simp
  · next left operator right hf =>
    have hl : left ∈ node.form.children := by simp [hf, Form.children]
    have hr : right ∈ node.form.children := by simp [hf, Form.children]
    rw [opens.sibling left hl, opens.sibling right hr]
    exact course.operationType operator (opens.asks left hl) (opens.asks right hr)
  iterate 2 exact course.done (by simp) rfl
  iterate 2
    · refine course.andThen (course.call? opens named) fun call hc => ?_
      cases call with
      | none => exact course.unknown
      | some call => exact (course.callsAlike (hc call rfl)).resultType
  · next subject name optional hf =>
    refine course.andThen (inside (by simp [hf, Form.children])) fun type ht => ?_
    refine course.andThen (course.expanded ht) fun base hb => ?_
    exact course.accessType hb optional fun base hb => course.propertyType hb name
  · next subject key optional hf =>
    refine course.andThen (inside (by simp [hf, Form.children])) fun type ht => ?_
    refine course.andThen (course.expanded ht) fun base hb => ?_
    refine course.andThen (inside (by simp [hf, Form.children])) fun key hk => ?_
    exact course.accessType hb optional fun base hb => course.indexType hb hk
  · next typeParams params result body hf =>
    have ht : typeParams ⊆ node.form.children := by
      simp +contextual [hf, Form.children, subset_def]
    have slots := course.keeps.typeParamSlots opens ht
    refine course.same (course.typeParamSlots _ _ _) ?_
    refine course.andThen (course.literalParams opens (looks.awaits asked)
      (by rw [Node.literalParams?, hf])) fun args ha => ?_
    have signed {gives : Ty} (hg : graft.Writes gives) : course.Asks
        (fun _ => pure (Ty.func (node.typeParamSlots typeParams) args gives))
        (pure (Ty.func ((move graft node).typeParamSlots typeParams) (move graft args)
          (move graft gives))) graft.Writes := by
      rw [slots.1]
      exact course.done (formed_func.mpr ⟨slots.2, ha, hg⟩) (move_func _ _ args gives).symm
    cases result with
    | none => exact course.andThen (inside (by simp [hf, Form.children])) fun gives hg => signed hg
    | some id =>
      exact course.andThen (course.written
        (course.keeps.lower_child opens id (by simp [hf, Form.children]))) fun gives hg => signed hg
  · next typeParams params _ hf =>
    have ht : typeParams ⊆ node.form.children := by
      simp +contextual [hf, Form.children, subset_def]
    have slots := course.keeps.typeParamSlots opens ht
    refine course.same (course.typeParamSlots _ _ _) ?_
    refine course.andThen (course.literalParams opens (looks.awaits asked)
      (by rw [Node.literalParams?, hf])) fun args ha => ?_
    rw [slots.1]
    exact course.done (formed_proc.mpr ⟨slots.2, ha⟩) (move_proc _ _ args).symm
  iterate 2
    · next hf =>
      exact course.armsType opens (by simp +contextual [hf, Form.children, subset_def])
        (by simp +contextual [hf, Form.children, subset_def])
  · next entries hf =>
    have ids : entries.map (move graft) = entries := map_id entries
    have types : course.Answers
        (fun deeper situation => entries.mapM fun id => deeper.typeOf situation (node.sibling id))
        (fun deeper situation => (entries.map (move graft)).mapM fun id =>
          deeper.typeOf situation ((move graft node).sibling id))
        fun types => ∀ type ∈ types, graft.Writes type :=
      course.mapM fun id hi => inside (by simpa [hf, Form.children] using hi)
    rw [ids] at types
    refine course.ite .rfl (fun _ => course.done (by simp) rfl) fun _ =>
      course.andThen types fun types ht => ?_
    refine course.done (formed_array.mpr (.unionOf fun type hm => (ht type hm).inside)) ?_
    rw [move_list, unionOf_move, move_array]
  · next entries hf =>
    have he : entries ⊆ node.form.children := by simp [hf, Form.children]
    rw [opens.siblings he]
    refine course.andThen (course.entryFields (opens.asks_siblings he)) fun fields hw => ?_
    exact course.done (formed_object.mpr hw) (move_object _ fields).symm
  iterate 2
    · next hf => exact inside (by simp [hf, Form.children])
  · exact course.done (by simp) rfl
  · next target hf =>
    exact course.written (course.keeps.lower_child opens target (by simp [hf, Form.children]))
  · next name ascription hf =>
    rcases course.keeps.param asked hf with ⟨holder, hp, moved, asks, opened⟩ | ⟨none, moved⟩
    · have hi := course.keeps.id (course.keeps.visited_of_asked asked)
      rw [hp, moved]
      simp only [Node.paramPosition?, hi, opened.literalParams?]
      cases hq : holder.literalParams?.bind fun params => params.findIdx? (· == node.id) with
      | none => exact course.unknown
      | some position =>
        refine course.paramType (graft.opensParam opened (looks.awaits asks) fun id hd => ?_)
        -- the parameter in this position is the node itself
        obtain ⟨params, he, hq⟩ := Option.bind_eq_some_iff.mp hq
        rw [he, Option.bind_some] at hd
        obtain ⟨hlt, same, -⟩ := findIdx?_eq_some_iff_getElem.mp hq
        rw [getElem?_eq_getElem hlt, Option.some.injEq] at hd
        rw [← hd, beq_iff_eq.mp same]
        obtain ⟨_, -, rfl⟩ := Option.map_eq_some_iff.mp hp
        exact ⟨opens, name, ascription, hf⟩
    · -- no literal holds the node, before or after the change
      have unknown {asked : ∀ i, m i Ty} {again : Inference Ty} (ha : ∀ i, asked i = pure .unknown)
          (hb : again = pure .unknown) : course.Asks asked again graft.Writes := by
        rw [funext ha, hb]
        exact course.unknown
      refine unknown (fun i => ?_) ?_
      · split
        · rfl
        · next holder hp => simp only [Node.paramPosition?, none holder hp, Option.bind_none]
      · split
        · rfl
        · next holder hp => simp only [Node.paramPosition?, moved holder hp, Option.bind_none]
  · refine course.ite .rfl (fun _ => ?_) fun _ => ?_
    · exact course.written (course.keeps.lower (course.keeps.visited_of_asked asked))
    · exact course.declarationType opens fun _ _ _ hf => course.keeps.declaredStores asked hf

end Expressions

end Deeper.Course

end ScriptCheck
