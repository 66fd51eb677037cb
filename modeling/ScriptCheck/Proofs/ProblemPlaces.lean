import ScriptCheck.Proofs.RuleCourses

/-!
# What rules report

Each rule reports problems at nodes of the script it looks at, never at a node of another script
that is only reached through a name, a type or an import. A rule that is told of a fault below its
node leaves out what may follow from that fault. All that it still reports it would report anyway.
-/

namespace ScriptCheck

open List Option

/-- Every answer that is reached is as stated. -/
def Inference.Finds {α : Type} (imports : Imports) (question : Inference α) (holds : α → Prop) :
    Prop :=
  ∀ answer, question.answer? imports = some answer → holds answer

namespace Inference.Finds

variable {α β : Type} {imports : Imports} {question : Inference α} {holds : α → Prop}
  {next : α → Inference β} {also : β → Prop} {items : List α}

theorem done (ha : holds answer) : Finds imports (pure answer) holds := by
  intro found hf
  cases hf
  exact ha

theorem andThen (finds : Finds imports question holds)
    (continues : ∀ answer, holds answer → Finds imports (next answer) also) :
    Finds imports (question >>= next) also := by
  intro found hf
  rw [answer?_bind, bind_eq_some_iff] at hf
  obtain ⟨answer, ha, hn⟩ := hf
  exact continues answer (finds answer ha) found hn

/-- What a question depends on without using what it is. -/
theorem after (continues : ∀ answer, Finds imports (next answer) also) :
    Finds imports (question >>= next) also := by
  have asked : Finds imports question fun _ => True := fun _ _ => trivial
  exact asked.andThen fun answer _ => continues answer

/-- What is gathered from a list of questions. -/
theorem mapM
    (finds : ∀ item ∈ items, Finds imports (ask item) fun found => ∀ answer ∈ found, also answer) :
    Finds imports (items.mapM ask) fun found => ∀ answer ∈ found.flatten, also answer := by
  induction items with
  | nil => exact done (by simp)
  | cons item rest ih =>
    rw [forall_mem_cons] at finds
    rw [mapM_cons]
    refine andThen finds.1 fun first hf => andThen (ih finds.2) fun others ho => done ?_
    intro answer ha
    rcases mem_append.mp ha with ha | ha
    · exact hf answer ha
    · exact ho answer ha

theorem lift {inquiry : Inquiry α} (ha : holds (inquiry.answer imports)) :
    Finds imports (liftM inquiry) holds := by
  intro found hf
  cases hf
  exact ha

variable (also) in
/-- What each step keeps holds in the end. -/
theorem foldlM (hs : also start)
    (finds : ∀ item ∈ items, ∀ held, also held → Finds imports (step held item) also) :
    Finds imports (items.foldlM step start) also := by
  induction items generalizing start with
  | nil => exact done hs
  | cons item rest ih =>
    rw [forall_mem_cons] at finds
    rw [foldlM_cons]
    exact andThen (finds.1 start hs) fun held hh => ih hh finds.2

end Inference.Finds

/-- Of two lists that are inferred, the first is there whenever the second is, and it is the
second with some items left out. -/
def Inference.Trims {α : Type} (imports : Imports) (fewer all : Inference (List α)) : Prop :=
  ∀ whole, all.answer? imports = some whole →
    ∃ kept, fewer.answer? imports = some kept ∧ kept.Sublist whole

namespace Inference.Trims

variable {α β : Type} {imports : Imports} {fewer all : Inference (List α)}
  {ask other : β → Inference (List α)} {items : List β}

theorem refl (all : Inference (List α)) : Trims imports all all :=
  fun whole hw => ⟨whole, hw, .refl whole⟩

/-- Everything may be left out. -/
theorem nothing : Trims imports (pure []) all := fun whole _ => ⟨[], rfl, whole.nil_sublist⟩

/-- Items in front of both lists are kept. -/
theorem behind (front : List α) (trims : Trims imports fewer all) :
    Trims imports (do return front ++ (← fewer)) (do return front ++ (← all)) := by
  intro whole hw
  simp only [answer?_bind, answer?_pure, bind_eq_some_iff, Option.some.injEq] at hw
  obtain ⟨rest, hr, rfl⟩ := hw
  obtain ⟨kept, hk, hs⟩ := trims rest hr
  exact ⟨front ++ kept, by simp only [answer?_bind, hk, bind_some, answer?_pure],
    hs.append_left front⟩

/-- Lists that are gathered from parts are trimmed part by part. -/
theorem mapM (trims : ∀ item ∈ items, Trims imports (ask item) (other item))
    (hw : (items.mapM other).answer? imports = some wholes) :
    ∃ kept, (items.mapM ask).answer? imports = some kept ∧ kept.flatten.Sublist wholes.flatten := by
  induction items generalizing wholes with
  | nil =>
    cases hw
    exact ⟨[], rfl, .refl _⟩
  | cons item rest ih =>
    rw [forall_mem_cons] at trims
    simp only [mapM_cons, answer?_bind, answer?_pure, bind_eq_some_iff, Option.some.injEq] at hw
    obtain ⟨first, hf, others, ho, rfl⟩ := hw
    obtain ⟨keptFirst, hkf, hsf⟩ := trims.1 first hf
    obtain ⟨keptOthers, hko, hso⟩ := ih trims.2 ho
    refine ⟨keptFirst :: keptOthers, ?_, hsf.append hso⟩
    simp only [mapM_cons, answer?_bind, hkf, hko, bind_some, answer?_pure]

theorem gather (trims : ∀ item ∈ items, Trims imports (ask item) (other item)) :
    Trims imports (do return (← items.mapM ask).flatten)
      (do return (← items.mapM other).flatten) := by
  intro whole hw
  simp only [answer?_bind, answer?_pure, bind_eq_some_iff, Option.some.injEq] at hw
  obtain ⟨wholes, hs, rfl⟩ := hw
  obtain ⟨kept, hk, sub⟩ := mapM trims hs
  exact ⟨kept.flatten, by simp only [answer?_bind, hk, bind_some, answer?_pure], sub⟩

end Inference.Trims

/-- No problem is found. -/
theorem Inference.Finds.nothing : Finds imports (pure []) (Problem.AllIn sites) := .done .nil

/-! ### Where anything may come up -/

/-- Any type comes up. -/
theorem Ty.formed_free (type : Ty) : type.Formed (fun _ => True) False := by
  induction type using parts_induction with
  | step type ih => exact .intro (fun _ _ => trivial) False.elim ih

namespace Transplant

/-- Nothing changes about the scripts, and anything may be asked and come up. -/
def free (imports : Imports) : Transplant where
  toMoving := .standing
  before := imports
  after := imports
  exact := False
  visited _ := True
  allowed _ := True
  strict := False
  asked _ _ := True
  awaited _ _ := True
  together _ _ := True

theorem opens_free (imports : Imports) (situation : Situation) (node : Node) :
    (free imports).Opens situation node := ⟨rfl, fun _ _ => rfl, fun _ _ => trivial⟩

theorem keepsInside_free (imports : Imports) : (free imports).KeepsInside where
  lower _ := ⟨(Ty.move_standing _).symm, Ty.formed_free _⟩
  asTypeParameter _ := ⟨(Ty.move_standing _).symm, Ty.formed_free _⟩
  id _ := rfl
  typeNames _ _ _ := ⟨fun type _ _ => ⟨type.formed_free, fun type _ => type.formed_free⟩,
    (Lookup.move_standing _).symm⟩
  opens _ := .inl (opens_free imports _ _)
  visited_of_asked _ := trivial
  asked_expecting _ _ _ := trivial
  needsContext _ := rfl
  param {_ node _ _} _ _ := by
    cases hp : node.parent with
    | none => exact .inr ⟨by simp, by simp [show (Movable.move (free imports) node).parent = _ from hp]⟩
    | some holder => exact .inl ⟨holder, rfl, hp, trivial, opens_free imports _ _⟩
  this _ _ := ⟨(map_standing_option fun _ _ => rfl).symm, fun _ _ => trivial⟩
  stores _ _ := opens_free imports _ _
  declaredStores _ _ := trivial
  imports _ _ := ⟨(map_standing_option fun _ _ => rfl).symm, fun _ _ =>
    ⟨(map_standing fun _ _ => rfl).symm, fun _ _ _ => trivial⟩⟩

theorem looksAround_free (imports : Imports) : (free imports).LooksAround .idle where
  valueNames _ _ := by
    refine ⟨fun binding _ => ?_, (Lookup.move_standing _).symm⟩
    have opens := opens_free imports .idle
    cases binding with
    | declared | importedModule => exact ⟨trivial, opens _⟩
    | parameter => exact ⟨opens _, fun _ _ => ⟨opens _, fun _ => trivial⟩⟩
    | type => trivial
    | loopItem => exact opens _
  awaits _ _ := trivial

end Transplant

namespace Inspection

open Inference (Trims)

variable {imports : Imports} {inspection : Inspection} {node : Node}

/-- All problems that are found are as stated. -/
abbrev Reports (imports : Imports) (sites : Problem → Prop)
    (question : Inference (List Problem)) : Prop :=
  question.Finds imports (Problem.AllIn sites)

/-- The receiver of a method-style call is a node of the same script. -/
theorem methodCall?_finds (deeper : Deeper) (situation : Situation) :
    (deeper.methodCall? situation node).Finds imports fun found =>
      ∀ method ∈ found, method.receiver.script = node.script := by
  unfold Deeper.methodCall?
  split
  · dsimp only
    split
    · refine .after fun receiverType => .after fun base => .after fun property => ?_
      split
      · exact .done (by nofun)
      · refine .after fun lookup => ?_
        split
        · refine .done fun method hm => ?_
          cases hm
          rfl
        · exact .done (by nofun)
    · exact .done (by nofun)
  · exact .done (by nofun)

/-- The nodes of a call are of the script of the node that makes it. -/
theorem call?_finds (deeper : Deeper) (situation : Situation) :
    (deeper.call? situation node).Finds imports fun found => ∀ call ∈ found,
      ∀ other ∈ call.callee :: call.typeArgs ++ call.args, other.script = node.script := by
  have listed : ∀ ids : List NodeId, ∀ other ∈ ids.map node.sibling, other.script = node.script :=
    fun _ => forall_mem_map.mpr fun _ _ => rfl
  unfold Deeper.call?
  split
  · refine .andThen (methodCall?_finds deeper situation) fun found hm => ?_
    split
    · next method =>
      refine .after fun type => .after fun function => .done ?_
      rintro call ⟨⟩ other (_ | ⟨_, ho⟩)
      · rfl
      · rcases mem_append.mp ho with ho | ho | ⟨_, ho⟩
        · exact listed _ other ho
        · exact hm method rfl
        · exact listed _ other ho
    · refine .after fun type => .after fun function => .done ?_
      rintro call ⟨⟩ other (_ | ⟨_, ho⟩)
      · rfl
      · exact (mem_append.mp ho).elim (listed _ other) (listed _ other)
  · refine .after fun type => .after fun subject => .done ?_
    rintro call ⟨⟩
    exact listed [_, _]
  · exact .done (by nofun)

section Following

variable {owns : Script → Prop} {sites : Problem → Prop} (hn : owns node.script)
  (site : ∀ problem : Problem, owns problem.node.script → problem.fault.kind ≠ .unknownName →
    sites problem)

include hn site

theorem moduleNames_reports {ids : List NodeId} :
    Reports imports sites (liftM (moduleNames (ids.map node.sibling)) : Inference _) := by
  rintro _ ⟨⟩
  refine .duplicates fun binder hb => ?_
  have hb : binder ∈ (((ids.map node.sibling).mapM Node.moduleBinders).answer imports).flatten := hb
  rw [Inquiry.answer_mapM] at hb
  obtain ⟨found, hf, hm⟩ := mem_flatten.mp hb
  obtain ⟨declaration, hd, rfl⟩ := mem_map.mp hf
  obtain ⟨id, -, rfl⟩ := mem_map.mp hd
  refine site ⟨_, _⟩ ?_ (by nofun)
  rw [Node.script_of_moduleBinders hm]
  exact hn

theorem importedNames_reports : Reports imports sites (importedNames node path items) := by
  refine .after fun found => ?_
  cases found with
  | none => exact .done (.single (site ⟨_, _⟩ hn (by nofun)))
  | some target =>
    refine .done fun problem hp => ?_
    obtain ⟨item, hm, hs⟩ := mem_filterMap.mp hp
    obtain ⟨id, -, rfl⟩ := mem_map.mp hm
    split at hs
    · split at hs
      · cases hs
        exact site ⟨_, _⟩ hn (by nofun)
      · cases hs
    · cases hs

end Following

/-- A rule as it is and as it is when it is told of a fault. -/
def following (inspection : Inspection) (imports : Imports) (owns : Script → Prop)
    (sites : Problem → Prop) (site : ∀ problem : Problem, owns problem.node.script →
      problem.fault.kind ≠ .unknownName → sites problem) : Course (.free imports) Bool where
  toSettings := .told Bool .idle
  keeps := Transplant.keepsInside_free imports
  deeper _ := inspection.answers
  deeper' := .silent
  situation' := .idle
  Asks question _ holds := (∀ faulty, (question faulty).Finds imports holds) ∧
    (question true).answer? imports = (question false).answer? imports
  done ha _ := ⟨fun _ => .done ha, rfl⟩
  andThen asks later := by
    refine ⟨fun faulty => (asks.1 faulty).andThen fun answer ha => (later answer ha).1 faulty, ?_⟩
    simp only [Inference.answer?_bind, asks.2]
    exact bind_congr fun answer ha => (later answer (asks.1 false answer ha)).2
  lift transfers := ⟨fun _ => .lift transfers.holds, rfl⟩
  same same asks := same ▸ asks
  typeOf _ := ⟨fun _ type _ => type.formed_free, rfl⟩
  literal _ _ := ⟨fun _ type _ => type.formed_free, rfl⟩
  expected? _ := ⟨fun _ _ _ type _ => type.formed_free, rfl⟩
  property? _ _ := ⟨fun _ _ _ type _ => type.formed_free, rfl⟩
  indexed? _ _ := ⟨fun _ _ _ type _ => type.formed_free, rfl⟩
  idle := ⟨rfl, rfl, rfl⟩
  faulty := id
  faulty' := false
  owns := owns
  asks _ := trivial
  sibling _ _ := rfl
  parent _ := (map_standing_option fun _ _ => rfl).symm
  isDescendantOf _ _ := rfl
  looks := Transplant.looksAround_free imports
  namedType _ _ := ⟨trivial, (Lookup.move_standing _).symm⟩
  calledAlike _ := .inl rfl
  sites := sites
  site hn other := site ⟨_, _⟩ hn other
  calls call := ∀ node ∈ call.callee :: call.typeArgs ++ call.args, owns node.script
  asksCall _ := ⟨Ty.formed_free _, fun _ _ => trivial, fun _ _ => trivial, fun type _ =>
    type.formed_free⟩
  nodes calls other node hn := site ⟨node, _⟩ (calls node hn) other
  made hn := ⟨fun _ found answered call hc other ho =>
    call?_finds _ _ found answered call hc other ho ▸ hn, rfl⟩
  Gives question _ := (∀ faulty, Reports imports sites (question faulty)) ∧
    Trims imports (question true) (question false)
  give inside _ := ⟨fun _ => .done inside, .refl _⟩
  goOn asks gives := by
    refine ⟨fun faulty => (asks.1 faulty).andThen fun answer ha => (gives answer ha).1 faulty, ?_⟩
    intro whole hw
    rw [Inference.answer?_bind, bind_eq_some_iff] at hw
    obtain ⟨answer, ha, ho⟩ := hw
    obtain ⟨kept, hk, hs⟩ := (gives answer (asks.1 false answer ha)).2 whole ho
    exact ⟨kept, by rw [Inference.answer?_bind, asks.2, ha, bind_some, hk], hs⟩
  sameGiven same gives := same ▸ gives
  hush {unknown _ _} gives := by
    cases unknown with
    | false => simpa only [Bool.and_false, Bool.false_eq_true, if_false] using gives
    | true => exact ⟨Bool.forall_bool.mpr ⟨gives.1 false, .nothing⟩, .nothing⟩
  behind inside gives := ⟨fun faulty => (gives.1 faulty).andThen fun _ own =>
    .done (inside.append own), gives.2.behind _⟩
  gather gives := ⟨fun faulty => .andThen (.mapM fun item hi => (gives item hi).1 faulty)
    fun _ own => .done own, .gather fun item hi => (gives item hi).2⟩
  moduleNames hn := ⟨fun _ => moduleNames_reports hn site, .refl _⟩
  importedNames hn := ⟨fun _ => importedNames_reports hn site, .refl _⟩

/-- Rules are followed for a node of a script that is looked at. -/
theorem rules_follow {owns : Script → Prop} {sites : Problem → Prop}
    (site : ∀ problem : Problem, owns problem.node.script → problem.fault.kind ≠ .unknownName →
      sites problem) (hn : owns node.script)
    (named : ∀ name space, node.form.reference? = some (name, space) →
      sites ⟨node, .unknownName name⟩) :
    (∀ faulty, Reports imports sites (inspection.rules faulty node)) ∧
      Trims imports (inspection.rules true node) (inspection.rules false node) :=
  let course := following inspection imports owns sites site
  course.rules hn rfl named fun _ _ _ => course.assignmentTarget hn rfl

/-- A rule reports problems at nodes of its own script. -/
theorem rules_reports (faulty : Bool) :
    Reports imports (·.node.script = node.script) (inspection.rules faulty node) :=
  (@rules_follow _ _ _ (· = node.script) (·.node.script = node.script) (fun _ hn _ => hn) rfl
    fun _ _ _ => rfl).1 faulty

/-- Only a node that refers to a name is reported because its name is unknown. -/
theorem rules_reports_known (faulty : Bool) (plain : node.form.reference? = none) :
    Reports imports (·.fault.kind ≠ .unknownName) (inspection.rules faulty node) :=
  (@rules_follow _ _ _ (fun _ => True) (·.fault.kind ≠ .unknownName) (fun _ _ other => other)
    trivial fun _ _ named => by
      rw [plain] at named
      cases named).1 faulty

/-- What a rule reports of a faulty node it reports anyway. -/
theorem rules_trims (faulty : Bool) :
    Trims imports (inspection.rules faulty node) (inspection.rules false node) := by
  cases faulty with
  | false => exact .refl _
  | true => exact (@rules_follow _ _ _ (fun _ => True) (fun _ => True) (fun _ _ _ => trivial)
      trivial fun _ _ _ => trivial).2

theorem problemsWithin_reports (limit : Nat) :
    Reports imports (·.node.script = node.script) (inspection.problemsWithin limit node) := by
  induction limit generalizing node with
  | zero => exact .nothing
  | succ limit ih =>
    refine .andThen (.mapM fun child hc => ?_) fun found hf =>
      .andThen (rules_reports _) fun own ho => .done (.append ho hf)
    obtain ⟨id, -, rfl⟩ := mem_map.mp hc
    exact ih

end Inspection

/-- All problems of a script are at nodes of the script. -/
theorem Script.problems?_finds (script : Script) :
    (script.problems? depth).Finds imports (Problem.AllIn (·.node.script = script)) :=
  Inspection.problemsWithin_reports _

end ScriptCheck
