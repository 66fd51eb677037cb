import ScriptCheck.Checking.Rules
import ScriptCheck.Proofs.Likeness

/-!
# Types that are moved

Where scripts are replaced by others, other nodes stand in the place of nodes. All values that
refer to nodes are moved along. What is done with moved types comes to the moved types that it
comes to otherwise, since the nodes in types are only ever compared.
-/

namespace ScriptCheck

open List

/-- Other scripts and nodes in the place of scripts and nodes. -/
structure Moving where
  /-- What a script is replaced by. -/
  script : Script → Script
  /-- What a node is replaced by. -/
  node : Node → Node
  /-- Nodes are the same after the change if they were before. -/
  sameAs : ∀ left right, (node left).sameAs (node right) = left.sameAs right

/-- Values that refer to scripts, or to none at all. -/
class Movable (α : Type) where
  /-- The value with all scripts and nodes replaced. -/
  move : Moving → α → α

open Movable (move)

section Instances

variable [Movable α] [Movable β] [Movable ε]

instance : Movable Bool := ⟨fun _ value => value⟩

instance : Movable Nat := ⟨fun _ value => value⟩

instance : Movable String := ⟨fun _ value => value⟩

instance : Movable (Option α) := ⟨fun moving => Option.map (move moving)⟩

instance : Movable (List α) := ⟨fun moving => List.map (move moving)⟩

instance : Movable (α × β) := ⟨fun moving => Prod.map (move moving) (move moving)⟩

instance : Movable Script := ⟨Moving.script⟩

instance : Movable Node := ⟨Moving.node⟩

end Instances

variable {α β : Type} [Movable α] [Movable β] (moving : Moving)

@[simp] theorem move_nat (value : Nat) : move moving value = value := rfl

@[simp] theorem move_string (value : String) : move moving value = value := rfl

@[simp] theorem move_option (value : Option α) : move moving value = value.map (move moving) := rfl

@[simp] theorem move_list (values : List α) : move moving values = values.map (move moving) := rfl

@[simp] theorem move_pair (first : α) (second : β) :
    move moving (first, second) = (move moving first, move moving second) := rfl

@[simp] theorem move_fst (pair : α × β) : (move moving pair).1 = move moving pair.1 := rfl

@[simp] theorem move_snd (pair : α × β) : (move moving pair).2 = move moving pair.2 := rfl

section Types

mutual

/-- The type with the nodes it refers to replaced. -/
def Ty.moved (moving : Moving) : Ty → Ty
  | .union members => .union (movedList moving members)
  | .array element => .array (moved moving element)
  | .tuple elements => .tuple (movedList moving elements)
  | .object fields => .object (movedFields moving fields)
  | .indexer key value => .indexer (moved moving key) (moved moving value)
  | .func typeParams params result =>
    .func (movedSlots moving typeParams) (movedSlots moving params) (moved moving result)
  | .proc typeParams params => .proc (movedSlots moving typeParams) (movedSlots moving params)
  | .named name args origin => .named name (movedList moving args) (move moving origin)
  | .nominal name inner => .nominal name (moved moving inner)
  | .generic name bound => .generic name (movedOption moving bound)
  | .iterator inner => .iterator (moved moving inner)
  | .plan inner => .plan (moved moving inner)
  | .readonly inner => .readonly (moved moving inner)
  | .store name declaration => .store name (move moving declaration)
  | other => other
termination_by structural type => type

/-- The types of a list, one by one. -/
def Ty.movedList (moving : Moving) : List Ty → List Ty
  | [] => []
  | type :: types => moved moving type :: movedList moving types
termination_by structural types => types

/-- The types of object entries, one by one. -/
def Ty.movedFields (moving : Moving) : List (Field Ty) → List (Field Ty)
  | [] => []
  | ⟨name, type, optional⟩ :: fields =>
    ⟨name, moved moving type, optional⟩ :: movedFields moving fields
termination_by structural fields => fields

/-- The types of parameters, one by one. -/
def Ty.movedSlots (moving : Moving) : List (Slot Ty) → List (Slot Ty)
  | [] => []
  | ⟨name, type⟩ :: slots => ⟨name, movedOption moving type⟩ :: movedSlots moving slots
termination_by structural slots => slots

/-- A type that may be absent. -/
def Ty.movedOption (moving : Moving) : Option Ty → Option Ty
  | none => none
  | some type => some (moved moving type)
termination_by structural type => type

end

instance : Movable Ty := ⟨Ty.moved⟩

instance : Movable (Field Ty) := ⟨fun moving => Field.mapType (move moving)⟩

instance : Movable (Slot Ty) := ⟨fun moving => Slot.mapType (move moving)⟩

namespace Ty

/-- Optional types are changed like all optional values. -/
theorem movedOption_eq (type : Option Ty) : movedOption moving type = type.map (move moving) := by
  cases type <;> rfl

/-- Types are changed one by one. -/
theorem movedList_eq (types : List Ty) : movedList moving types = types.map (move moving) := by
  induction types with
  | nil => rfl
  | cons type types ih => exact congrArg (moved moving type :: ·) ih

/-- Fields are changed in their types. -/
theorem movedFields_eq (fields : List (Field Ty)) :
    movedFields moving fields = fields.map (move moving) := by
  induction fields with
  | nil => rfl
  | cons field fields ih =>
    exact congrArg (⟨field.name, moved moving field.type, field.optional⟩ :: ·) ih

/-- Parameters are changed in their types. -/
theorem movedSlots_eq (slots : List (Slot Ty)) :
    movedSlots moving slots = slots.map (move moving) := by
  induction slots with
  | nil => rfl
  | cons slot slots ih =>
    rw [movedSlots, ih, movedOption_eq]
    rfl

/-- A union is changed member by member. -/
@[simp] theorem move_union (members : List Ty) :
    move moving (union members) = .union (members.map (move moving)) :=
  congrArg union (movedList_eq moving members)

@[simp] theorem move_array (element : Ty) :
    move moving (array element) = .array (move moving element) := rfl

@[simp] theorem move_tuple (elements : List Ty) :
    move moving (tuple elements) = .tuple (elements.map (move moving)) :=
  congrArg tuple (movedList_eq moving elements)

@[simp] theorem move_object (fields : List (Field Ty)) :
    move moving (object fields) = .object (fields.map (move moving)) :=
  congrArg object (movedFields_eq moving fields)

@[simp] theorem move_indexer (key value : Ty) :
    move moving (indexer key value) = .indexer (move moving key) (move moving value) := rfl

/-- Bounds, parameters and result are changed. -/
@[simp] theorem move_func (typeParams params : List (Slot Ty)) (result : Ty) :
    move moving (func typeParams params result) =
      .func (typeParams.map (move moving)) (params.map (move moving)) (move moving result) := by
  show func _ _ _ = func _ _ _
  rw [movedSlots_eq, movedSlots_eq]
  rfl

@[simp] theorem move_proc (typeParams params : List (Slot Ty)) :
    move moving (proc typeParams params) =
      .proc (typeParams.map (move moving)) (params.map (move moving)) := by
  show proc _ _ = proc _ _
  rw [movedSlots_eq, movedSlots_eq]

/-- A reference by name is looked up from the node that its origin becomes. -/
@[simp] theorem move_named (name : String) (args : List Ty) (origin : Node) :
    move moving (named name args origin) =
      .named name (args.map (move moving)) (move moving origin) := by
  show named _ _ _ = named _ _ _
  rw [movedList_eq]

@[simp] theorem move_nominal (name : String) (inner : Ty) :
    move moving (nominal name inner) = .nominal name (move moving inner) := rfl

@[simp] theorem move_generic (name : String) (bound : Option Ty) :
    move moving (generic name bound) = .generic name (bound.map (move moving)) :=
  congrArg (generic name) (movedOption_eq moving bound)

@[simp] theorem move_iterator (inner : Ty) :
    move moving (iterator inner) = .iterator (move moving inner) := rfl

@[simp] theorem move_plan (inner : Ty) : move moving (plan inner) = .plan (move moving inner) := rfl

@[simp] theorem move_readonly (inner : Ty) :
    move moving (readonly inner) = .readonly (move moving inner) := rfl

/-- The type of a store names the store that it becomes. -/
@[simp] theorem move_store (name : String) (declaration : Node) :
    move moving (store name declaration) = .store name (move moving declaration) := rfl

@[simp] theorem move_string : move moving string = string := rfl

@[simp] theorem move_number : move moving number = number := rfl

@[simp] theorem move_boolean : move moving boolean = boolean := rfl

@[simp] theorem move_unknown : move moving unknown = unknown := rfl

@[simp] theorem move_literal (value : Literal) : move moving (literal value) = .literal value := rfl

end Ty

@[simp] theorem Field.name_move (field : Field Ty) : (move moving field).name = field.name := rfl

@[simp] theorem Field.type_move (field : Field Ty) :
    (move moving field).type = move moving field.type := rfl

@[simp] theorem Field.optional_move (field : Field Ty) :
    (move moving field).optional = field.optional := rfl

@[simp] theorem Slot.name_move (slot : Slot Ty) : (move moving slot).name = slot.name := rfl

@[simp] theorem Slot.type_move (slot : Slot Ty) :
    (move moving slot).type = slot.type.map (move moving) := rfl

/-- What has no type is unknown after the change too. -/
@[simp] theorem Slot.typeOrUnknown_move (slot : Slot Ty) :
    (move moving slot).typeOrUnknown = move moving slot.typeOrUnknown := by
  rw [typeOrUnknown, typeOrUnknown, type_move]
  cases slot.type <;> rfl

namespace Ty

variable (type : Ty)

/-- What is unknown stays so. -/
@[simp] theorem isUnknown_move : (move moving type).isUnknown = type.isUnknown := by
  cases type <;> rfl

@[simp] theorem isNamed_move : (move moving type).isNamed = type.isNamed := by
  cases type <;> rfl

@[simp] theorem ctorIdx_move : (move moving type).ctorIdx = type.ctorIdx := by
  cases type <;> rfl

/-- A type keeps its kind. -/
theorem sameKind_move : SameKind type (move moving type) :=
  .of_ctorIdx (ctorIdx_move moving type).symm

/-- The parts of a type are changed with it. -/
theorem parts_move : (move moving type).parts = type.parts.map (move moving) := by
  cases type with
  | generic name bound => cases bound <;> rfl
  | object fields =>
    simp only [move_object, parts, map_map]
    rfl
  | func typeParams params result =>
    simp only [move_func, parts, map_append, map_cons, map_nil, ← slotTypes_map]
    rfl
  | proc typeParams params =>
    simp only [move_proc, parts, map_append, ← slotTypes_map]
    rfl
  | union | tuple | named => simp [parts]
  | _ => rfl

/-- Besides its parts, moving changes a type only in the store that it stands for. -/
theorem head_move : (move moving type).head =
    { type.head with own := type.head.own.map (Sum.map id (move moving)) } := by
  cases type with
  | object fields =>
    simp only [move_object, head, map_map]
    rfl
  | func typeParams params result =>
    rw [move_func]
    exact congrArg₂ (Head.mk _ · · _) (map_head_mapType _ _) (map_head_mapType _ _)
  | proc typeParams params =>
    rw [move_proc]
    exact congrArg₂ (Head.mk _ · · _) (map_head_mapType _ _) (map_head_mapType _ _)
  | generic name bound =>
    simp only [move_generic, head, Option.isSome_map]
    rfl
  | _ => rfl

/-- Heads are alike exactly if they are after the change. -/
theorem alike_head_move (other : Ty) : (move moving type).head.Alike (move moving other).head ↔
    type.head.Alike other.head := by
  have own : ∀ first second : Option (Literal ⊕ Node), AlikeOwn
      (first.map (Sum.map id (move moving))) (second.map (Sum.map id (move moving))) ↔
        AlikeOwn first second := by
    rintro (_ | _ | first) (_ | _ | second) <;> try exact Iff.rfl
    exact Bool.eq_iff_iff.mp (moving.sameAs first second)
  rw [head_move, head_move]
  exact ⟨fun ⟨kind, typeParams, labels, same⟩ => ⟨kind, typeParams, labels, (own _ _).mp same⟩,
    fun ⟨kind, typeParams, labels, same⟩ => ⟨kind, typeParams, labels, (own _ _).mpr same⟩⟩

/-- Moved types are alike if the types are. -/
@[simp] theorem sameAs_move (other : Ty) :
    (move moving type).sameAs (move moving other) = type.sameAs other := by
  induction type using parts_induction generalizing other with
  | step type ih =>
    have inside : Forall₂ (fun part member =>
        (move moving part).sameAs (move moving member) = true) type.parts other.parts ↔
        Forall₂ (fun part member => part.sameAs member = true) type.parts other.parts :=
      ⟨fun all => forall₂_imp_of_mem all fun part hp member _ => (ih part hp member ▸ ·),
        fun all => forall₂_imp_of_mem all fun part hp member _ => (ih part hp member ▸ ·)⟩
    rw [Bool.eq_iff_iff, sameAs_iff, sameAs_iff, parts_move, parts_move,
      forall₂_map_left_iff, forall₂_map_right_iff, inside, alike_head_move]

/-- The members of a type become the members of the changed type. -/
theorem flatten_move : (move moving type).flatten = type.flatten.map (move moving) := by
  induction type using parts_induction with
  | step type ih =>
  cases type with
  | union members =>
    rw [move_union, flatten, flatten, flattenList_eq, flattenList_eq, flatMap_map, map_flatMap]
    exact flatMap_congr ih
  | _ => rfl

/-- So do the members of several types. -/
theorem flattenList_move (types : List Ty) :
    flattenList (types.map (move moving)) = (flattenList types).map (move moving) := by
  rw [flattenList_eq, flattenList_eq, flatMap_map, map_flatMap]
  exact flatMap_congr fun type _ => flatten_move moving type

/-- Types that are alike stay so, and others stay apart. -/
theorem distinct_move (types : List Ty) :
    distinct (types.map (move moving)) = (distinct types).map (move moving) := by
  have add (kept : List Ty) (type : Ty) : addDistinct (kept.map (move moving)) (move moving type) =
      (addDistinct kept type).map (move moving) := by
    simp only [addDistinct, any_map, Function.comp_def, sameAs_move]
    split
    · rfl
    · rw [map_append, map_singleton]
  exact foldl_map.trans (@foldl_hom _ _ _ (List.map (move moving)) _ _ types [] add)

/-- Members are put together alike. -/
theorem collapse_move (types : List Ty) :
    collapse (types.map (move moving)) = move moving (collapse types) := by
  match types with
  | [] => rfl
  | [type] => rfl
  | first :: second :: rest => simp [collapse]

/-- The union of changed types is the changed union. -/
@[simp] theorem unionOf_move (types : List Ty) :
    unionOf (types.map (move moving)) = move moving (unionOf types) := by
  rw [unionOf, unionOf, flattenList_move, distinct_move, collapse_move]

@[simp] theorem orNil_move : (move moving type).orNil = move moving type.orNil :=
  unionOf_move moving [type, .nil]

/-- Literals are widened alike. -/
@[simp] theorem widen_move : (move moving type).widen = move moving type.widen := by
  induction type using parts_induction with
  | step type ih =>
  cases type with
  | literal value => cases value <;> rfl
  | union members =>
    have inner : (members.map (move moving)).map widen = (members.map widen).map (move moving) := by
      rw [map_map, map_map]
      exact map_congr_left ih
    rw [move_union, widen, widen, widenList_eq, widenList_eq, inner, unionOf_move]
  | tuple elements =>
    have inner :
        (elements.map (move moving)).map widen = (elements.map widen).map (move moving) := by
      rw [map_map, map_map]
      exact map_congr_left ih
    rw [move_tuple, widen, widen, widenList_eq, widenList_eq, inner, move_tuple]
  | array element => rw [move_array, widen, widen, ih element mem_cons_self, move_array]
  | object fields =>
    rw [move_object, widen, widen, widenFields_eq, widenFields_eq, move_object, map_map, map_map]
    refine congrArg object (map_congr_left fun field hf => ?_)
    show (⟨field.name, (move moving field.type).widen, field.optional⟩ : Field Ty) =
      ⟨field.name, move moving field.type.widen, field.optional⟩
    rw [ih field.type (mem_map_of_mem hf)]
  | _ => rfl

/-- Bindings are looked up by name, which is the same in every moving. -/
theorem lookup_move (bindings : Bindings) (name : String) :
    (bindings.map (move moving)).lookup name = (bindings.lookup name).map (move moving) := by
  induction bindings with
  | nil => rfl
  | cons binding bindings ih =>
    obtain ⟨bound, type⟩ := binding
    rw [map_cons, move_pair, ScriptCheck.move_string, lookup_cons, lookup_cons, ih]
    cases name == bound <;> rfl

/-- The same names are hidden. -/
theorem unshadowed_move (bindings : Bindings) (typeParams : List (Slot Ty)) :
    unshadowed (bindings.map (move moving)) (typeParams.map (move moving)) =
      (unshadowed bindings typeParams).map (move moving) := by
  simp only [unshadowed, filter_map, any_map, Function.comp_def, Slot.name_move,
    move_fst, ScriptCheck.move_string]

section Substitution

variable {moving}

/-- Parameters are substituted in alike if their types are. -/
theorem substituteSlots_move (inner : ∀ type ∈ slotTypes slots,
    (move moving type).substitute (bindings.map (move moving)) =
      move moving (type.substitute bindings)) :
    substituteSlots (slots.map (move moving)) (bindings.map (move moving)) =
      (substituteSlots slots bindings).map (move moving) := by
  rw [substituteSlots_eq, substituteSlots_eq, map_map, map_map]
  refine map_congr_left fun slot hs => ?_
  obtain ⟨name, type⟩ := slot
  cases type with
  | none => rfl
  | some type =>
    show (⟨name, some ((move moving type).substitute (bindings.map (move moving)))⟩ : Slot Ty) =
      ⟨name, some (move moving (type.substitute bindings))⟩
    rw [inner type (mem_slotTypes.mpr ⟨_, hs, rfl⟩)]

/-- So are types in a list. -/
theorem substituteList_move (types : List Ty) (inner : ∀ type ∈ types,
    (move moving type).substitute (bindings.map (move moving)) =
      move moving (type.substitute bindings)) :
    substituteList (types.map (move moving)) (bindings.map (move moving)) =
      (substituteList types bindings).map (move moving) := by
  rw [substituteList_eq, substituteList_eq, map_map, map_map]
  exact map_congr_left inner

end Substitution

/-- Type parameters are replaced by the changed types: by induction on the type. -/
@[simp] theorem substitute_move (bindings : Bindings) :
    (move moving type).substitute (bindings.map (move moving)) =
      move moving (type.substitute bindings) := by
  induction type using parts_induction generalizing bindings with
  | step type ih =>
  cases type with
  | generic name bound =>
    rw [move_generic, substitute, substitute, lookup_move]
    cases bindings.lookup name with
    | none => simp
    | some type => rfl
  | union members =>
    rw [move_union, substitute, substitute, isEmpty_map]
    split
    · rw [move_union]
    · rw [substituteList_move members fun type ht => ih type ht bindings, unionOf_move]
  | tuple elements =>
    rw [move_tuple, substitute, substitute,
      substituteList_move elements fun type ht => ih type ht bindings, move_tuple]
  | named name args origin =>
    rw [move_named, substitute, substitute,
      substituteList_move args fun type ht => ih type ht bindings, move_named]
  | array inner | iterator inner | plan inner | readonly inner =>
    simp only [move_array, move_iterator, move_plan, move_readonly, substitute,
      ih inner mem_cons_self]
  | nominal name inner => simp only [move_nominal, substitute, ih inner mem_cons_self]
  | indexer key value =>
    simp only [parts, forall_mem_cons] at ih
    simp only [move_indexer, substitute, ih.1, ih.2.1]
  | object fields =>
    rw [move_object, substitute, substitute, substituteFields_eq, substituteFields_eq, move_object,
      map_map, map_map]
    refine congrArg object (map_congr_left fun field hf => ?_)
    show (⟨field.name, (move moving field.type).substitute _, field.optional⟩ : Field Ty) =
      ⟨field.name, move moving (field.type.substitute bindings), field.optional⟩
    rw [ih field.type (mem_map_of_mem hf)]
  | func typeParams params result =>
    simp only [parts, forall_mem_append, forall_mem_cons] at ih
    rw [move_func, substitute, substitute, unshadowed_move,
      substituteSlots_move fun type ht => ih.1.2 type ht _, ih.2.1, move_func]
  | proc typeParams params =>
    simp only [parts, forall_mem_append] at ih
    rw [move_proc, substitute, substitute, unshadowed_move,
      substituteSlots_move fun type ht => ih.2 type ht _, move_proc]
  | _ => rfl

/-- A type loses its own type parameters alike. -/
@[simp] theorem eraseGenerics_move :
    (move moving type).eraseGenerics = move moving type.eraseGenerics := by
  have fallbacks_move (typeParams : List (Slot Ty)) :
      fallbacks (typeParams.map (move moving)) = (fallbacks typeParams).map (move moving) := by
    simp only [fallbacks, map_map, Function.comp_def, Slot.name_move,
      Slot.typeOrUnknown_move, move_pair, ScriptCheck.move_string]
  cases type with
  | func typeParams params result =>
    rw [move_func, eraseGenerics, eraseGenerics, isEmpty_map]
    split
    · rw [move_func]
    · rw [fallbacks_move, ← substitute_move, move_func, map_nil]
  | proc typeParams params =>
    rw [move_proc, eraseGenerics, eraseGenerics, isEmpty_map]
    split
    · rw [move_proc]
    · rw [fallbacks_move, ← substitute_move, move_proc, map_nil]
  | _ => rfl

/-- What is called takes the changed parameters. -/
@[simp] theorem signature?_move :
    (move moving type).signature? = type.signature?.map (move moving) := by
  cases type with
  | func | proc => simp [signature?]
  | _ => rfl

@[simp] theorem callback_move : callback (move moving type) = move moving (callback type) := by
  simp only [callback, move_func, map_nil, map_singleton, move_unknown]
  rfl

section Mentions

variable {moving}

/-- The same names are mentioned in a list of types, if in each of them. -/
theorem mentionsList_move (types : List Ty) (same : ∀ type ∈ types,
    (move moving type).mentions names = type.mentions names) :
    mentionsList names (types.map (move moving)) = mentionsList names types := by
  induction types with
  | nil => rfl
  | cons type types ih =>
    rw [forall_mem_cons] at same
    rw [map_cons, mentionsList, mentionsList, same.1, ih same.2]

theorem mentionsFields_move (fields : List (Field Ty)) (same : ∀ type ∈ fields.map Field.type,
    (move moving type).mentions names = type.mentions names) :
    mentionsFields names (fields.map (move moving)) = mentionsFields names fields := by
  induction fields with
  | nil => rfl
  | cons field fields ih =>
    rw [map_cons, forall_mem_cons] at same
    show ((move moving field.type).mentions names || _) = (field.type.mentions names || _)
    rw [same.1, ih same.2]

theorem mentionsSlots_move (slots : List (Slot Ty)) (same : ∀ type ∈ slotTypes slots,
    (move moving type).mentions names = type.mentions names) :
    mentionsSlots names (slots.map (move moving)) = mentionsSlots names slots := by
  induction slots with
  | nil => rfl
  | cons slot slots ih =>
    rw [forall_mem_slotTypes_cons] at same
    obtain ⟨name, type⟩ := slot
    cases type with
    | none => exact ih same.2
    | some type =>
      show ((move moving type).mentions names || _) = (type.mentions names || _)
      rw [same.1 type rfl, ih same.2]

end Mentions

/-- The same type parameters are mentioned. -/
@[simp] theorem mentions_move (names : List String) :
    (move moving type).mentions names = type.mentions names := by
  induction type using parts_induction with
  | step type ih =>
  cases type with
  | union members => rw [move_union, mentions, mentions, mentionsList_move members ih]
  | tuple elements => rw [move_tuple, mentions, mentions, mentionsList_move elements ih]
  | named name args origin => rw [move_named, mentions, mentions, mentionsList_move args ih]
  | object fields => rw [move_object, mentions, mentions, mentionsFields_move fields ih]
  | array inner | iterator inner | plan inner | readonly inner | nominal _ inner =>
    exact ih inner mem_cons_self
  | indexer key value =>
    simp only [parts, forall_mem_cons] at ih
    rw [move_indexer, mentions, mentions, ih.1, ih.2.1]
  | func typeParams params result =>
    simp only [parts, forall_mem_append, forall_mem_cons] at ih
    rw [move_func, mentions, mentions, mentionsSlots_move params ih.1.2, ih.2.1]
  | proc typeParams params =>
    simp only [parts, forall_mem_append] at ih
    rw [move_proc, mentions, mentions, mentionsSlots_move params ih.2]
  | generic name bound => rw [move_generic, mentions, mentions]
  | _ => rfl

section Text

variable {moving}

theorem textList_move (types : List Ty)
    (same : ∀ type ∈ types, (move moving type).text = type.text) :
    textList (types.map (move moving)) = textList types := by
  induction types with
  | nil => rfl
  | cons type types ih =>
    rw [forall_mem_cons] at same
    rw [map_cons, textList, textList, same.1, ih same.2]

/-- Fields are written alike if their types are. -/
theorem textFields_move (fields : List (Field Ty))
    (same : ∀ type ∈ fields.map Field.type, (move moving type).text = type.text) :
    textFields (fields.map (move moving)) = textFields fields := by
  induction fields with
  | nil => rfl
  | cons field fields ih =>
    rw [map_cons, forall_mem_cons] at same
    show (field.name ++ _ ++ ": " ++ (move moving field.type).text) :: _ =
      (field.name ++ _ ++ ": " ++ field.type.text) :: _
    rw [same.1, ih same.2]

section

variable (slots : List (Slot Ty))
  (same : ∀ type ∈ slotTypes slots, (move moving type).text = type.text)
include slots same

theorem textParams_move : textParams (slots.map (move moving)) = textParams slots := by
  induction slots with
  | nil => rfl
  | cons slot slots ih =>
    rw [forall_mem_slotTypes_cons] at same
    obtain ⟨name, type⟩ := slot
    cases type with
    | none => exact congrArg (name :: ·) (ih same.2)
    | some type =>
      show (name ++ ": " ++ (move moving type).text) :: _ = (name ++ ": " ++ type.text) :: _
      rw [same.1 type rfl, ih same.2]

theorem textBounds_move : textBounds (slots.map (move moving)) = textBounds slots := by
  induction slots with
  | nil => rfl
  | cons slot slots ih =>
    rw [forall_mem_slotTypes_cons] at same
    obtain ⟨name, type⟩ := slot
    cases type with
    | none => exact congrArg (name :: ·) (ih same.2)
    | some type =>
      show (name ++ " extends " ++ (move moving type).text) :: _ =
        (name ++ " extends " ++ type.text) :: _
      rw [same.1 type rfl, ih same.2]

end

end Text

/-- A type is shown in the same words in every moving. -/
@[simp] theorem text_move : (move moving type).text = type.text := by
  induction type using parts_induction with
  | step type ih =>
  cases type with
  | union members => rw [move_union, text, text, isEmpty_map, textList_move members ih]
  | tuple elements => rw [move_tuple, text, text, textList_move elements ih]
  | named name args origin => rw [move_named, text, text, isEmpty_map, textList_move args ih]
  | object fields => rw [move_object, text, text, isEmpty_map, textFields_move fields ih]
  | array element =>
    have bracketed : (move moving element).needsParentheses = element.needsParentheses := by
      cases element <;> rfl
    rw [move_array, text, text, bracketed, ih element mem_cons_self]
  | iterator inner | plan inner | readonly inner =>
    simp only [move_iterator, move_plan, move_readonly, text, ih inner mem_cons_self]
  | indexer key value =>
    simp only [parts, forall_mem_cons] at ih
    rw [move_indexer, text, text, ih.1, ih.2.1]
  | func typeParams params result =>
    simp only [parts, forall_mem_append, forall_mem_cons] at ih
    rw [move_func, text, text, isEmpty_map, textBounds_move typeParams ih.1.1,
      textParams_move params ih.1.2, ih.2.1]
  | proc typeParams params =>
    simp only [parts, forall_mem_append] at ih
    rw [move_proc, text, text, isEmpty_map, textBounds_move typeParams ih.1,
      textParams_move params ih.2]
  | _ => rfl

end Ty

end Types

section Values

/-- The binding with all nodes replaced. -/
def Binding.moved (moving : Moving) : Binding → Binding
  | declared declaration => .declared (move moving declaration)
  | parameter holder index => .parameter (move moving holder) index
  | .type named params => .type (move moving named) (params.map (move moving))
  | importedModule importing => .importedModule (move moving importing)
  | loopItem forLoop => .loopItem (move moving forLoop)

instance : Movable Binding := ⟨Binding.moved⟩

/-- The error with all nodes replaced. -/
def LookupError.moved (moving : Moving) : LookupError → LookupError
  | unknownName => .unknownName
  | unknownModule importing path => .unknownModule (move moving importing) path
  | unknownExport importing path name => .unknownExport (move moving importing) path name
  | usedTooEarly found => .usedTooEarly (move moving found)
  | usedInOwnValue found => .usedInOwnValue (move moving found)

instance : Movable LookupError := ⟨LookupError.moved⟩

instance {ε α : Type} [Movable ε] [Movable α] : Movable (Except ε α) where
  move
    | moving, .ok value => .ok (move moving value)
    | moving, .error error => .error (move moving error)

instance : Movable Situation where
  move moving situation :=
    ⟨situation.busy.map (move moving), situation.expectations.map (move moving)⟩

instance : Movable Call where
  move moving call :=
    ⟨move moving call.callee, move moving call.subject, call.typeArgs.map (move moving),
      call.args.map (move moving), call.receiver.map (move moving)⟩

instance : Movable MethodCall where
  move moving method :=
    ⟨move moving method.receiver, move moving method.receiverType, move moving method.function⟩

instance : Movable Deeper.GenericArgument where
  move moving argument := ⟨argument.index, move moving argument.paramType, move moving argument.arg⟩

/-- The broken rule with all nodes replaced. -/
def Fault.moved (moving : Moving) : Fault → Fault
  | unassignable destination value => .unassignable (move moving destination) (move moving value)
  | nonBooleanCondition type => .nonBooleanCondition (move moving type)
  | notIterable type => .notIterable (move moving type)
  | missingProperty name type => .missingProperty name (move moving type)
  | invalidIndex base key => .invalidIndex (move moving base) (move moving key)
  | notCallable type => .notCallable (move moving type)
  | operands operator left right => .operands operator (move moving left) (move moving right)
  | operand operator type => .operand operator (move moving type)
  | other => other

instance : Movable Fault := ⟨Fault.moved⟩

instance : Movable Problem where
  move moving problem := ⟨move moving problem.node, move moving problem.fault⟩

instance : Movable Binder where
  move moving binder := ⟨binder.name, binder.space, move moving binder.node⟩

end Values

section Matching

variable {moving : Moving}

/-- What stands at the same place in two lists stands there after every change. -/
theorem zip_move (lefts : List α) (rights : List β) :
    (lefts.map (move moving)).zip (rights.map (move moving)) =
      (lefts.zip rights).map (move moving) := zip_map

/-- Items keep their places. -/
theorem zipIdx_move (items : List α) :
    (items.map (move moving)).zipIdx = items.zipIdx.map (move moving) := by
  rw [zipIdx_map]
  rfl

namespace Ty

/-- Arguments are bound to the same names. -/
theorem argumentBindings_move (params : List (Slot Ty)) (args : List Ty) :
    argumentBindings (params.map (move moving)) (args.map (move moving)) =
      (argumentBindings params args).map (move moving) := by
  induction params generalizing args with
  | nil => rfl
  | cons param params ih =>
    cases args with
    | nil =>
      have rest := ih []
      rw [map_nil] at rest
      simp only [map_cons, map_nil, argumentBindings, rest, Slot.typeOrUnknown_move]
      rfl
    | cons arg args =>
      simp only [map_cons, argumentBindings, ih]
      rfl

/-- Only the first binding of a name counts. -/
theorem bindFirst_move (bound : Bindings) (name : String) (type : Ty) :
    bindFirst (bound.map (move moving)) name (move moving type) =
      (bindFirst bound name type).map (move moving) := by
  simp only [bindFirst, any_map, Function.comp_def, move_fst, ScriptCheck.move_string]
  split
  · rfl
  · rw [map_append]
    rfl

/-- Names without a binding get the changed bound. -/
theorem completeBindings_move (typeParams : List (Slot Ty)) (bound : Bindings) :
    completeBindings (typeParams.map (move moving)) (bound.map (move moving)) =
      (completeBindings typeParams bound).map (move moving) := by
  rw [completeBindings, completeBindings, map_map, map_map]
  refine map_congr_left fun param _ => ?_
  simp only [Function.comp_apply, Slot.name_move, lookup_move, Slot.typeOrUnknown_move, move_pair,
    ScriptCheck.move_string, Option.getD_map]

/-- The same parameters are compared. -/
theorem slotPairs_move (params args : List (Slot Ty)) :
    slotPairs (params.map (move moving)) (args.map (move moving)) =
      (slotPairs params args).map (move moving) := by
  rw [slotPairs, slotPairs, zip_move, filterMap_map, map_filterMap]
  refine congrArg (List.filterMap · _) (funext fun pair => ?_)
  simp only [Function.comp_apply, move_fst, move_snd, Slot.type_move]
  cases pair.1.type <;> cases pair.2.type <;> rfl

theorem fieldPairs_move (params args : List (Field Ty)) :
    fieldPairs (params.map (move moving)) (args.map (move moving)) =
      (fieldPairs params args).map (move moving) := by
  rw [fieldPairs, fieldPairs, filterMap_map, map_filterMap]
  refine congrArg (List.filterMap · _) (funext fun param => ?_)
  simp only [Function.comp_apply, find?_map, Function.comp_def, Field.name_move, Option.map_map]
  rfl

theorem isOpened_move (type : Ty) : (move moving type).isOpened = type.isOpened := by
  cases type <;> rfl

end Ty

namespace Deeper

/-- The same arguments decide about type parameters. -/
theorem genericArguments_move (names : List String) (params : List (Slot Ty)) (args : List Node) :
    genericArguments names (params.map (move moving)) (args.map (move moving)) =
      (genericArguments names params args).map (move moving) := by
  rw [genericArguments, genericArguments, zip_move, zipIdx_move, filterMap_map, map_filterMap]
  refine congrArg (List.filterMap · _) (funext fun row => ?_)
  obtain ⟨⟨param, arg⟩, index⟩ := row
  show (param.type.map (move moving)).bind _ = (param.type.bind _).map (move moving)
  cases param.type with
  | none => rfl
  | some type =>
    simp only [Option.map_some, Option.bind_some, Ty.mentions_move]
    split <;> rfl

end Deeper

end Matching

section Standing

/-- Everything stays in its place. -/
def Moving.standing : Moving := ⟨id, id, fun _ _ => rfl⟩

/-- A list stays as it is if its items do. -/
theorem map_standing {values : List α} (same : ∀ value ∈ values, move .standing value = value) :
    values.map (move .standing) = values :=
  (map_congr_left same).trans (map_id' values)

theorem map_standing_option {value : Option α}
    (same : ∀ inner ∈ value, move .standing inner = inner) :
    value.map (move .standing) = value := by
  cases value with
  | none => rfl
  | some inner => exact congrArg some (same inner rfl)

theorem Slot.map_standing {slots : List (Slot Ty)}
    (same : ∀ type ∈ slotTypes slots, move .standing type = type) :
    slots.map (move .standing) = slots := by
  refine ScriptCheck.map_standing fun slot hs => ?_
  obtain ⟨name, type⟩ := slot
  cases type with
  | none => rfl
  | some type => exact congrArg (Slot.mk name ∘ some) (same type (mem_slotTypes.mpr ⟨_, hs, rfl⟩))

/-- Where everything stays in its place, types do. -/
@[simp] theorem Ty.move_standing (type : Ty) : move .standing type = type := by
  induction type using parts_induction with
  | step type ih =>
    have inside : move .standing type = type.mapParts (move .standing) := by
      cases type <;> simp only [move_union, move_array, move_tuple, move_object, move_indexer,
        move_func, move_proc, move_named, move_nominal, move_generic, move_iterator, move_plan,
        move_readonly, mapParts] <;> rfl
    rw [inside, mapParts_congr ih]
    exact mapParts_id type

theorem Call.move_standing (call : Call) : move .standing call = call := by
  obtain ⟨callee, subject, typeArgs, args, receiver⟩ := call
  show Call.mk callee (move .standing subject) (typeArgs.map (move .standing))
    (args.map (move .standing)) (receiver.map (move .standing)) = _
  rw [Ty.move_standing, map_standing fun _ _ => rfl, map_standing fun _ _ => rfl,
    map_standing_option fun type _ => Ty.move_standing type]

theorem Binding.move_standing (binding : Binding) : move .standing binding = binding := by
  cases binding with
  | type type params =>
    show Binding.type (move .standing type) (params.map (move .standing)) = _
    rw [Ty.move_standing, Slot.map_standing fun type _ => Ty.move_standing type]
  | _ => rfl

theorem Lookup.move_standing (lookup : Lookup) : move .standing lookup = lookup := by
  rcases lookup with error | binding
  · cases error with
    | usedTooEarly found => exact congrArg (Except.error <| LookupError.usedTooEarly ·) found.move_standing
    | usedInOwnValue found => exact congrArg (Except.error <| LookupError.usedInOwnValue ·) found.move_standing
    | _ => rfl
  · exact congrArg Except.ok (Binding.move_standing binding)

end Standing

section Faults

variable (moving : Moving) (fault : Fault)

/-- A fault keeps its kind. -/
theorem Fault.kind_move : (move moving fault).kind = fault.kind := by
  cases fault <;> rfl

/-- What is said about a broken rule does not change with the nodes. -/
theorem Fault.message_move : (move moving fault).message = fault.message := by
  show (fault.moved moving).message = fault.message
  unfold Fault.message
  cases fault with
  | unassignable | nonBooleanCondition | notIterable | missingProperty | invalidIndex | notCallable
  | operands | operand => simp only [Fault.moved, Ty.text_move]
  | _ => rfl

end Faults

end ScriptCheck
