import ScriptCheck.Proofs.FreeInference
import ScriptCheck.Proofs.MirroredComparisons

/-!
# An analyzer infers without a trace

The guards while types are inferred are those of a situation: the nodes it has as busy are in
progress, and the types it has recorded are expected. An analyzer that mirrors the questions one
level further down in every situation mirrors all steps of inference.
-/

namespace ScriptCheck

open List Inference

/-- The guards of an analyzer in a situation of inference. -/
def Situation.guards (situation : Situation) : Guards :=
  ⟨situation.busy.map .inferring, [], 0, situation.expectations⟩

namespace Situation

variable (situation : Situation)

theorem contains_guards (node : Node) :
    situation.guards.inProgress.contains (.inferring node) = situation.busy.contains node := by
  show (situation.busy.map Activity.inferring).contains (.inferring node) = _
  induction situation.busy with
  | nil => rfl
  | cons busy rest ih =>
    rw [map_cons, contains_cons, contains_cons, ih]
    rfl

theorem free_guards : situation.guards.Free := by
  intro param
  show (situation.busy.map Activity.inferring).contains (.reading param) = false
  induction situation.busy with
  | nil => rfl
  | cons busy rest ih =>
    rw [map_cons, contains_cons, ih]
    rfl

theorem atRest_guards : Analyzer.AtRest situation.guards := ⟨rfl, rfl⟩

section Lifted

open Analyzer

theorem lower_mirrors (node : Node) :
    Mirrors situation.guards (liftM (lower node) : Analysis Ty) (pure node.lower) :=
  (Analyzer.lower_mirrors situation.free_guards node).lift_known

theorem writtenFor?_mirrors (node parent : Node) (ascription : Option NodeId) (value : NodeId) :
    Mirrors situation.guards (writtenFor? node parent ascription value)
      (pure (if value = node.id then ascription.map fun id => (parent.sibling id).lower
        else none)) := by
  unfold writtenFor?
  cases ascription with
  | none =>
    rw [Option.map_none, ite_self]
    exact .pure _
  | some id =>
    dsimp only
    split
    · exact (Analyzer.lower_mirrors situation.free_guards _).known _
    · exact .pure _

theorem ascribedType?_mirrors (node parent : Node) :
    Mirrors situation.guards (liftM (ascribedType? node parent) : Analysis (Option Ty))
      (pure (node.ascribedType? parent)) := by
  have written := situation.writtenFor?_mirrors node parent
  refine Mirrors.lift_known ?_
  unfold ascribedType? Node.ascribedType?
  cases parent.form with
  | valueDeclaration name ascription value constant exported => exact written _ _
  | localDeclaration name ascription value constant => exact written _ _
  | storeMember access name ascription value => exact written _ _
  | inlineConst name ascription value body => exact written _ _
  | _ => exact .pure _

theorem writtenBindings_mirrors (typeParams : List (Slot Ty)) (typeArgs : List Node) :
    Mirrors situation.guards (liftM (writtenBindings typeParams typeArgs) : Analysis Bindings)
      (Inquirer.writtenBindings typeParams typeArgs) := by
  refine Mirrors.lift_known (.map _ fun row _ => ?_)
  dsimp only
  cases typeArgs[row.2]? with
  | none => exact .pure _
  | some arg => exact (Analyzer.lower_mirrors situation.free_guards arg).known _

end Lifted

end Situation

/-! ### Answers that are mirrored -/

/-- What mirrors a question has its answer, with the guards as they were. -/
theorem Mirrors.answer? {work : Analysis α} {question : Inference α}
    (same : Mirrors guards work question) (imports : Imports) :
    (work guards).answer? imports =
      (question.answer? imports).map fun answer => (answer, guards) := by
  rw [same, answer?_bind, Option.map_eq_bind]
  rfl

/-- With these guards the work has the answer of the question, which has the given property, and
the same guards after it. -/
structure MirrorsFor (imports : Imports) {α : Type} (guards : Guards) (work : Analysis α)
    (question : Inference α) (holds : α → Prop) : Prop where
  same : (work guards).answer? imports =
    (question.answer? imports).map fun answer => (answer, guards)
  holds : ∀ answer, question.answer? imports = some answer → holds answer

namespace MirrorsFor

variable {imports : Imports} {α β : Type} {guards : Guards} {work : Analysis α}
  {question : Inference α} {holds : α → Prop} {goal : β → Prop}

theorem of_mirrors (same : Mirrors guards work question) :
    MirrorsFor imports guards work question fun _ => True :=
  ⟨same.answer? imports, fun _ _ => trivial⟩

theorem done (hv : holds value) : MirrorsFor imports guards (pure value) (pure value) holds where
  same := rfl
  holds answer ha := by
    cases ha
    exact hv

theorem andThen {next : α → Analysis β} (first : MirrorsFor imports guards work question holds)
    (later : ∀ answer, holds answer → MirrorsFor imports guards (next answer) (others answer) goal)
    : MirrorsFor imports guards (work >>= next) (question >>= others) goal := by
  have run : ((work >>= next) guards).answer? imports =
      (question.answer? imports).bind fun answer => (next answer guards).answer? imports := by
    show (work guards >>= fun row => next row.1 row.2).answer? imports = _
    rw [answer?_bind, first.same, Option.bind_map]
    rfl
  cases ha : question.answer? imports with
  | none =>
    constructor
    · rw [run, answer?_bind, ha]
      rfl
    · intro answer hb
      rw [answer?_bind, ha] at hb
      cases hb
  | some answer =>
    have rest := later answer (first.holds answer ha)
    constructor
    · rw [run, answer?_bind, ha]
      exact rest.same
    · intro last hb
      rw [answer?_bind, ha] at hb
      exact rest.holds last hb

theorem mapM {work : α → Analysis β} {items : List α}
    (each : ∀ item ∈ items, MirrorsFor imports guards (work item) (ask item) goal) :
    MirrorsFor imports guards (items.mapM work) (items.mapM ask)
      fun answers => ∀ answer ∈ answers, goal answer := by
  induction items with
  | nil => exact .done (by simp)
  | cons item rest ih =>
    rw [forall_mem_cons] at each
    rw [mapM_cons, mapM_cons]
    refine each.1.andThen fun first hf => (ih each.2).andThen fun others ho => .done ?_
    exact forall_mem_cons.mpr ⟨hf, ho⟩

/-- An entry is taken out again when the work it was made for is done. -/
theorem during (back : leave (enter guards) = guards)
    (inside : MirrorsFor imports (enter guards) work question holds) :
    MirrorsFor imports guards (Analyzer.during enter leave work) question holds := by
  refine ⟨?_, inside.holds⟩
  rw [Mirrors.during_apply, answer?_bind, inside.same, Option.bind_map]
  show (question.answer? imports).bind (fun answer => some (answer, leave (enter guards))) = _
  rw [back, Option.map_eq_bind]
  rfl

end MirrorsFor

/-- Who infers: an analyzer, or one who is told what is going on. -/
abbrev Side : Bool → Type → Type
  | true => Analysis
  | false => Inference

instance : ∀ side, Inquirer (Side side)
  | true => inferInstanceAs (Inquirer Analysis)
  | false => inferInstanceAs (Inquirer Inference)

instance : ∀ side, LawfulMonad (Side side)
  | true => inferInstanceAs (LawfulMonad Analysis)
  | false => inferInstanceAs (LawfulMonad Inference)

namespace Situation

variable (handed situation : Situation)

/-- An analyzer makes nothing of the situation it is handed. -/
def mirrored : Deeper.Settings Bool Side where
  situation
    | true => handed
    | false => situation
  moment := situation
  plain inquiry
    | true => (liftM (liftM inquiry : Inference _) : Analysis _)
    | false => (liftM inquiry : Inference _)
  Same question known := question true situation.guards = known true situation.guards ∧
    question false = known false
  lowering node _ := ⟨(situation.lower_mirrors node).skip, rfl⟩
  typeParamSlots holder ids _ :=
    ⟨(Analyzer.typeParamSlots_mirrors situation.free_guards holder ids).lift_known.skip, rfl⟩
  paramSlots holder ids _ :=
    ⟨(Analyzer.paramSlots_mirrors situation.free_guards holder ids).lift_known.skip, rfl⟩
  ascribedType? node parent := ⟨situation.ascribedType?_mirrors node parent, rfl⟩
  writtenBindings typeParams typeArgs :=
    ⟨situation.writtenBindings_mirrors typeParams typeArgs, rfl⟩
  recalling node _ := ⟨(Mirrors.recorded? node).skip, rfl⟩
  load node path := ⟨(Analyzer.load_mirrors node path).lift, rfl⟩
  resolve name node := ⟨(Analyzer.resolve_mirrors situation.free_guards name node).lift, rfl⟩
  resolveIn name node space :=
    ⟨(Analyzer.resolveIn_mirrors situation.free_guards name node space).lift, rfl⟩
  expand type := ⟨(Analyzer.expand_mirrors situation.free_guards type).lift, rfl⟩
  subsumes destination value throughGenerics :=
    ⟨(Analyzer.subsumes_mirrors situation.free_guards situation.atRest_guards destination value
      throughGenerics).lift, rfl⟩
  subtract type removed :=
    ⟨(Analyzer.subtract_mirrors situation.free_guards situation.atRest_guards type removed).lift, rfl⟩
  distillUnion types :=
    ⟨(Analyzer.distillUnion_mirrors situation.free_guards situation.atRest_guards types).lift, rfl⟩
  operationType? operator left right :=
    ⟨(Analyzer.operationType?_mirrors situation.free_guards situation.atRest_guards operator left
      right).lift, rfl⟩
  matchGenerics names param arg bound :=
    ⟨(Analyzer.matchGenerics_mirrors situation.free_guards situation.atRest_guards names param arg
      bound).lift, rfl⟩

/-- The types that are expected refer to stores by their declarations. -/
def Written : Prop := ∀ row ∈ situation.expectations, row.2.Formed Reference.IsDeclared True

theorem written_idle : idle.Written := by simp [Written, idle]

variable {situation}

/-- Nothing changes about what is going on. -/
theorem Written.together (written : situation.Written) (imports : Imports) :
    (Recast.standing imports).Together situation situation where
  expectations :=
    (map_standing fun row _ => congrArg (Prod.mk row.1) (Ty.move_standing row.2)).symm
  busy := (map_standing fun _ _ => rfl).symm
  written := written

theorem Written.expecting (written : situation.Written)
    (ht : type.Formed Reference.IsDeclared True) (arg : Node) :
    (situation.expecting arg type).Written := forall_mem_cons.mpr ⟨ht, written⟩

end Situation

namespace Analyst

/-- In every situation an analyzer comes to the answers of the questions one level further
down, with its guards unchanged and whatever situation it is handed. -/
structure Imitates (imports : Imports) (analyst : Analyst) (deeper : Deeper) : Prop where
  typeOf (handed : Situation) {situation : Situation} : situation.Written → ∀ node,
    MirrorsFor imports situation.guards (analyst.typeOf handed node)
      (deeper.typeOf situation node) (Recast.standing imports).graft.Writes
  expected? (handed : Situation) {situation : Situation} : situation.Written → ∀ node,
    MirrorsFor imports situation.guards (analyst.expected? handed node)
      (deeper.expected? situation node)
      fun found => ∀ type ∈ found, (Recast.standing imports).graft.Writes type
  property? (handed : Situation) {situation : Situation} {type : Ty} (name : String) :
    situation.Written → (Recast.standing imports).graft.WritesInside type →
    MirrorsFor imports situation.guards (analyst.property? handed type name)
      (deeper.property? situation type name)
      fun found => ∀ type ∈ found, (Recast.standing imports).graft.Writes type
  indexed? (handed : Situation) {situation : Situation} {base key : Ty} : situation.Written →
    (Recast.standing imports).graft.WritesInside base →
    (Recast.standing imports).graft.Writes key →
    MirrorsFor imports situation.guards (analyst.indexed? handed base key)
      (deeper.indexed? situation base key)
      fun found => ∀ type ∈ found, (Recast.standing imports).graft.Writes type

variable {imports : Imports} {analyst : Analyst} {deeper : Deeper} {situation : Situation}

/-- An analyzer follows the course of inference. -/
abbrev Imitates.course (same : analyst.Imitates imports deeper) (handed : Situation)
    (written : situation.Written) :
    Deeper.Course (Recast.standing imports).graft Bool Side where
  toSettings := handed.mirrored situation
  keeps := (Recast.standing imports).faithful.toKeepsInside
  deeper
    | true => analyst
    | false => deeper
  deeper' := deeper
  situation' := situation
  Asks question _ holds :=
    MirrorsFor imports situation.guards (question true) (question false) holds
  done hv _ := .done hv
  andThen asks later := asks.andThen later
  lift {_ _ asked _ _} transfers :=
    ⟨(Mirrors.base (liftM asked)).answer? imports, fun answer ha => by
      cases ha
      exact transfers.holds⟩
  same {_ _ question known _ _} same asks := by
    obtain ⟨work, told⟩ := same
    refine ⟨?_, ?_⟩
    · rw [work, told]
      exact asks.same
    · rw [told]
      exact asks.holds
  typeOf {node} _ := same.typeOf handed written node
  literal {_ arg} ht _ := .during rfl (same.typeOf handed (written.expecting ht arg) arg)
  expected? {node} _ := same.expected? handed written node
  property? name := same.property? handed name written
  indexed? := same.indexed? handed written

/-- An analyzer that is in the middle of nothing. -/
abbrev Imitates.idle (same : analyst.Imitates imports deeper) :
    Deeper.Course (Recast.standing imports).graft Bool Side := same.course .idle Situation.written_idle

/-- A node is in progress exactly while it is busy. -/
theorem nodeType_mirrors (same : analyst.Imitates imports deeper) (handed : Situation)
    (written : situation.Written) (node : Node) :
    MirrorsFor imports situation.guards (analyst.nodeType handed node)
      (deeper.nodeType situation node) (Recast.standing imports).graft.Writes := by
  unfold nodeType Deeper.nodeType
  have busy := situation.contains_guards node
  cases hb : situation.busy.contains node with
  | true =>
    refine ⟨(Mirrors.guarded_again (busy.trans hb)).answer? imports, fun answer ha => ?_⟩
    cases ha
    exact Ty.formed_unknown
  | false =>
    have still : Situation.Written { situation with busy := node :: situation.busy } := written
    have inside := (same.course handed still).formType ((Recast.faithful _).looks _) trivial
      (Recast.opens_standing imports _ node)
    have entered : MirrorsFor imports situation.guards (Analyzer.during
        (fun guards => { guards with inProgress := .inferring node :: guards.inProgress })
        (fun guards => { guards with inProgress := guards.inProgress.tail })
        (analyst.formType handed node)) _ _ := .during rfl inside
    refine ⟨?_, entered.holds⟩
    rw [Mirrors.guarded_apply (busy.trans hb)]
    exact entered.same

/-- The questions are answered without a trace at every depth. -/
theorem within_imitates (imports : Imports) (depth : Nat) :
    (within depth).Imitates imports (Deeper.within depth) := by
  induction depth with
  | zero =>
    exact {
      typeOf := fun _ _ _ _ => ⟨rfl, nofun⟩
      expected? := fun _ _ _ _ => ⟨rfl, nofun⟩
      property? := fun _ _ _ _ _ _ => ⟨rfl, nofun⟩
      indexed? := fun _ _ _ _ _ _ _ => ⟨rfl, nofun⟩ }
  | succ depth ih =>
    exact {
      typeOf := fun handed _ written node => nodeType_mirrors ih handed written node
      expected? := fun handed _ written _ =>
        (ih.course handed written).expectedType? (Recast.faithful _) (written.together imports) trivial
      property? := fun handed _ _ name written ht => (ih.course handed written).propertyType ht name
      indexed? := fun handed _ _ _ written hb hk => (ih.course handed written).indexType hb hk }

end Analyst

end ScriptCheck
