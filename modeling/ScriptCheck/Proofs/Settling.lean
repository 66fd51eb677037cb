import ScriptCheck.Proofs.Growth
import ScriptCheck.Proofs.TransferredComparisons

/-!
# Inference that comes to an end

A question is settled when, from some depth on, its answer is there and stays the same. A
question that leads to others is settled when they are.
-/

namespace ScriptCheck

/-- Scripts that were read from texts and import only each other. -/
structure Modules where
  /-- All the scripts there are. -/
  scripts : List Script
  /-- How they import each other. -/
  imports : Imports
  /-- Each of them was read from a text. -/
  read : ∀ script ∈ scripts, ∃ path source, parse path source = .ok script
  /-- Nothing else is imported. -/
  into : imports.Into scripts

namespace Modules

variable {modules : Modules} {type : Ty}

/-- Whether a node belongs to one of the scripts. -/
def Has (modules : Modules) (node : Node) : Prop := node.script ∈ modules.scripts

/-- Whether a type refers only to nodes of the scripts. -/
abbrev Writes (modules : Modules) (type : Ty) : Prop := type.WrittenIn modules.scripts

/-- The question has an answer, with the given property, that is the same from some depth
on. -/
def Settles (modules : Modules) (question : Nat → Inference α) (holds : α → Prop) : Prop :=
  ∃ answer, holds answer ∧ ∃ enough, ∀ depth, enough ≤ depth →
    (question depth).answer? modules.imports = some answer

/-- The question settles where inference answers it. -/
abbrev SettlesAt (modules : Modules) (question : Deeper → Inference α) (holds : α → Prop) : Prop :=
  modules.Settles (fun depth => question (.within depth)) holds

namespace Settles

variable {question : Nat → Inference α} {holds holds' : α → Prop} {goal : β → Prop}
  {next : Nat → α → Inference β} {inquiry : Inquiry α}

theorem mono (settles : modules.Settles question holds) (weaker : ∀ answer, holds answer → holds' answer) :
    modules.Settles question holds' := by
  obtain ⟨answer, ha, enough⟩ := settles
  exact ⟨answer, weaker answer ha, enough⟩

/-- An answer that is there already. -/
theorem done (ha : holds answer) : modules.Settles (fun _ => pure answer) holds :=
  ⟨answer, ha, 0, fun _ _ => rfl⟩

/-- An answer that needs no depth. -/
theorem asked (ha : holds (inquiry.answer modules.imports)) :
    modules.Settles (fun _ => liftM inquiry) holds :=
  ⟨_, ha, 0, fun _ _ => rfl⟩

/-- A question that goes on from the answer to another. -/
theorem andThen (settles : modules.Settles question holds)
    (goesOn : ∀ answer, holds answer → modules.Settles (fun depth => next depth answer) goal) :
    modules.Settles (fun depth => question depth >>= next depth) goal := by
  obtain ⟨answer, ha, enough, he⟩ := settles
  obtain ⟨last, hl, more, hm⟩ := goesOn answer ha
  refine ⟨last, hl, max enough more, fun depth hd => ?_⟩
  rw [Inference.answer?_bind, he depth (Nat.le_trans (Nat.le_max_left ..) hd), Option.bind_some]
  exact hm depth (Nat.le_trans (Nat.le_max_right ..) hd)

/-- A question that goes on from an answer that needs no depth. -/
theorem after
    (goesOn : modules.Settles (fun depth => next depth (inquiry.answer modules.imports)) goal) :
    modules.Settles (fun depth => liftM inquiry >>= next depth) goal :=
  have settles : modules.Settles (fun _ => liftM inquiry) (· = inquiry.answer modules.imports) :=
    asked rfl
  settles.andThen fun _ ha => ha ▸ goesOn

/-- A question that is asked one level further down. -/
theorem deeper (settles : modules.Settles question holds)
    (step : ∀ depth, above (depth + 1) = question depth) : modules.Settles above holds := by
  obtain ⟨answer, ha, enough, he⟩ := settles
  refine ⟨answer, ha, enough + 1, fun depth hd => ?_⟩
  obtain ⟨below, rfl⟩ : ∃ below, depth = below + 1 := ⟨depth - 1, by omega⟩
  rw [step]
  exact he below (by omega)

end Settles

section Lists

variable {ask : Nat → α → Inference β} {items : List α} {goal : β → Prop}

/-- A list of questions is settled when each of them is. -/
theorem mapM_settles
    (settles : ∀ item ∈ items, modules.Settles (fun depth => ask depth item) goal) :
    modules.Settles (fun depth => items.mapM (ask depth)) fun answers => ∀ answer ∈ answers, goal answer := by
  induction items with
  | nil => exact .done (by simp)
  | cons item rest ih =>
    rw [List.forall_mem_cons] at settles
    simp only [List.mapM_cons]
    refine .andThen settles.1 fun first hf => .andThen (ih settles.2) fun others ho => .done ?_
    exact List.forall_mem_cons.mpr ⟨hf, ho⟩

end Lists

/-- Types that refer only to nodes of the scripts, part by part. -/
abbrev Forms (modules : Modules) (type : Ty) : Prop := type.RefersOnly (Reference.Within modules.scripts)

/-- What the construct around a node requires of it is settled. -/
def ContextSettles (modules : Modules) (situation : Situation) (node : Node) : Prop :=
  modules.SettlesAt (·.expected? situation node) fun found => ∀ type ∈ found, modules.Forms type

/-- Nothing changes about the scripts. -/
def graft (modules : Modules) : Transplant where
  toMoving := .standing
  before := modules.imports
  after := modules.imports
  exact := False
  visited := modules.Has
  allowed := Reference.Within modules.scripts
  strict := False
  asked _ := modules.Has
  awaited situation node := modules.Has node ∧ modules.ContextSettles situation node
  together situation situation' := situation' = situation

/-- The names of types lead to types of the scripts. -/
theorem typeNames (modules : Modules) : modules.graft.KeepsTypeNames := by
  refine fun name origin written => ⟨fun type params found => ?_, (Lookup.move_standing _).symm⟩
  exact Node.names_within (Node.resolveIn_found modules.into written name .type _ found)

theorem expand_forms (written : modules.Forms type) :
    modules.Forms (type.expand.answer modules.imports) :=
  (Ty.expand_transfers modules.typeNames written).holds

/-- The types of all nodes are settled in every situation in which the given nodes are
busy. -/
def TypesSettle (modules : Modules) (busy : List Node) : Prop :=
  ∀ situation : Situation, situation.busy = busy →
    (∀ expectation ∈ situation.expectations, modules.Forms expectation.2) →
    ∀ node, modules.Has node →
      modules.Settles (fun depth => (Deeper.within depth).typeOf situation node) modules.Forms

/-- A situation in which the types of all nodes are settled. -/
structure Typed (modules : Modules) (situation : Situation) : Prop where
  /-- The types expected of arguments are types of the scripts. -/
  written : ∀ expectation ∈ situation.expectations, modules.Forms expectation.2
  /-- Types are settled whatever else is expected. -/
  types : modules.TypesSettle situation.busy

/-- The types of which there may be one are types of the scripts. -/
abbrev FormsFound (modules : Modules) (found : Option Ty) : Prop :=
  ∀ type ∈ found, modules.Forms type

variable {situation : Situation} {node declaration : Node}

theorem Typed.typeOf (typed : modules.Typed situation) (hn : modules.Has node) :
    modules.SettlesAt (·.typeOf situation node) modules.Forms :=
  typed.types situation rfl typed.written node hn

/-- Expecting another type of an argument leaves the types of nodes settled. -/
theorem Typed.expecting (typed : modules.Typed situation) (ht : modules.Forms type) (arg : Node) :
    modules.Typed (situation.expecting arg type) where
  written := List.forall_mem_cons.mpr ⟨ht, typed.written⟩
  types := typed.types

section Declarations

section

variable (typed : modules.Typed situation) (hd : modules.Has declaration)
include typed hd

theorem ascribedOr_settles (ascription : Option NodeId) (value : NodeId) :
    modules.SettlesAt (·.ascribedOr situation declaration ascription value) modules.Forms := by
  unfold Deeper.ascribedOr
  split
  · exact .done ((Node.reads_scripts _).lower hd)
  · exact typed.typeOf hd

theorem ascribedOrWidened_settles (ascription : Option NodeId) (value : NodeId) :
    modules.SettlesAt (·.ascribedOrWidened situation declaration ascription value)
      modules.Forms := by
  unfold Deeper.ascribedOrWidened
  split
  · exact .done ((Node.reads_scripts _).lower hd)
  · exact .andThen (typed.typeOf hd) fun type ht => .done ht.widen

theorem declarationType_settles :
    modules.SettlesAt (·.declarationType situation declaration) modules.Forms := by
  unfold Deeper.declarationType
  split
  · split
    · exact ascribedOr_settles typed hd _ _
    · exact ascribedOrWidened_settles typed hd _ _
  · split
    · exact ascribedOr_settles typed hd _ _
    · exact ascribedOrWidened_settles typed hd _ _
  · exact ascribedOr_settles typed hd _ _
  · exact ascribedOrWidened_settles typed hd _ _
  · exact typed.typeOf hd
  · exact typed.typeOf hd
  · refine .done ?_
    unfold Node.storeType
    split
    · exact Ty.formed_store.mpr hd
    · exact Ty.formed_unknown
  · split
    · refine .done (Ty.formed_func.mpr ⟨by simp [slotTypes], ?_,
        Ty.formed_nominal.mpr ((Node.reads_scripts _).lower hd)⟩)
      intro type ht
      rw [List.mem_singleton.mp ht]
      exact (Node.reads_scripts _).lower hd
    · exact .done Ty.formed_unknown
  · exact .done Ty.formed_unknown

end

end Declarations

end Modules

end ScriptCheck
