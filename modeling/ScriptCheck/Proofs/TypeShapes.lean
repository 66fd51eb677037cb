import ScriptCheck.Proofs.TypeParts
import ScriptCheck.Scope.Inquiry
import Mathlib.Data.List.Forall2

/-!
# The shapes of types

A type is its shape with its parts filled in. Types are alike when their shapes are and
their parts are one by one, so whatever replaces the parts of types and leaves their shapes
alone is followed through comparisons without looking at the kinds of types.
-/

namespace ScriptCheck

open List

theorem Number.equals_symm : ∀ {left right : Number}, left.equals right = true →
    right.equals left = true
  | .infinite _, .infinite _, same => BEq.symm same
  | .finite _ _ _, .finite _ _ _, same => by
    simp only [Number.equals, Bool.and_eq_true, Bool.or_eq_true, beq_iff_eq] at same ⊢
    obtain ⟨⟨rfl, rfl⟩, hs⟩ := same
    exact ⟨⟨rfl, rfl⟩, hs.imp_left Eq.symm⟩

theorem Literal.equals_symm {left right : Literal} (same : left.equals right = true) :
    right.equals left = true := by
  cases left <;> cases right <;> simp_all [Literal.equals, Number.equals_symm]

theorem Node.sameAs_symm {left right : Node} (same : left.sameAs right = true) :
    right.sameAs left = true := by
  simp only [sameAs, Bool.and_eq_true, beq_iff_eq] at same ⊢
  exact ⟨same.1.symm, BEq.symm same.2⟩

/-- The object entry with another type in the place of its own. -/
def Field.mapType (replace : Ty → Ty) (field : Field Ty) : Field Ty :=
  { field with type := replace field.type }

@[simp] theorem Field.name_mapType (replace : Ty → Ty) (field : Field Ty) :
    (field.mapType replace).name = field.name := rfl

/-- The parameter with another type in the place of its own, if it has one. -/
def Slot.mapType (replace : Ty → Ty) (slot : Slot Ty) : Slot Ty :=
  { slot with type := slot.type.map replace }

/-- The types of parameters are replaced one by one. -/
theorem slotTypes_map (replace : Ty → Ty) (slots : List (Slot Ty)) :
    slotTypes (slots.map (Slot.mapType replace)) = (slotTypes slots).map replace := by
  induction slots with
  | nil => rfl
  | cons slot slots ih =>
    obtain ⟨name, type⟩ := slot
    cases type <;> simpa [slotTypes, Slot.mapType] using ih

theorem slotTypes_cons (slot : Slot Ty) (slots : List (Slot Ty)) :
    slotTypes (slot :: slots) = slot.type.toList ++ slotTypes slots := by
  obtain ⟨name, type⟩ := slot
  cases type <;> rfl

/-- The name of a parameter, and whether it has a type. -/
def Slot.head (slot : Slot Ty) : String × Bool := (slot.name, slot.type.isSome)

/-- The name of an object entry, and whether it may be missing. -/
def Field.head (field : Field Ty) : String × Bool := (field.name, field.optional)

/-- What a type is besides its parts. -/
structure Ty.Head where
  kind : Nat
  typeParams : List (String × Bool)
  /-- The names in the type, other than those of type parameters. -/
  labels : List (String × Bool)
  /-- The value or the store that the type stands for. -/
  own : Option (Literal ⊕ Node)

namespace Ty

variable {left right type : Ty} {replace other : Ty → Ty} {lefts rights : List (Slot Ty)}

/-- The type with other types in the place of its parts. -/
def mapParts (replace : Ty → Ty) : Ty → Ty
  | union members => .union (members.map replace)
  | array element => .array (replace element)
  | tuple elements => .tuple (elements.map replace)
  | object fields => .object (fields.map (Field.mapType replace))
  | indexer key value => .indexer (replace key) (replace value)
  | func typeParams params result =>
    .func (typeParams.map (Slot.mapType replace)) (params.map (Slot.mapType replace))
      (replace result)
  | proc typeParams params =>
    .proc (typeParams.map (Slot.mapType replace)) (params.map (Slot.mapType replace))
  | named name args origin => .named name (args.map replace) origin
  | nominal name inner => .nominal name (replace inner)
  | generic name bound => .generic name (bound.map replace)
  | iterator inner => .iterator (replace inner)
  | plan inner => .plan (replace inner)
  | readonly inner => .readonly (replace inner)
  | other => other

@[simp] theorem parts_mapParts (replace : Ty → Ty) (type : Ty) :
    (type.mapParts replace).parts = type.parts.map replace := by
  cases type with
  | object fields => simp [mapParts, parts, Field.mapType]
  | func typeParams params result => simp [mapParts, parts, slotTypes_map]
  | proc typeParams params => simp [mapParts, parts, slotTypes_map]
  | generic name bound => cases bound <;> rfl
  | _ => rfl

@[simp] theorem isNamed_mapParts (replace : Ty → Ty) (type : Ty) :
    (type.mapParts replace).isNamed = type.isNamed := by
  cases type <;> rfl

theorem mapType_congr (same : ∀ part ∈ slotTypes slots, replace part = other part) :
    slots.map (Slot.mapType replace) = slots.map (Slot.mapType other) := by
  refine map_congr_left fun slot hs => ?_
  obtain ⟨name, type⟩ := slot
  cases type with
  | none => rfl
  | some type => simp [Slot.mapType, same type (mem_slotTypes.mpr ⟨_, hs, rfl⟩)]

/-- Only what becomes of the parts matters. -/
theorem mapParts_congr (same : ∀ part ∈ type.parts, replace part = other part) :
    type.mapParts replace = type.mapParts other := by
  cases type with
  | object fields =>
    have hf : fields.map (Field.mapType replace) = fields.map (Field.mapType other) :=
      map_congr_left fun field hf => by
        simp [Field.mapType, same field.type (mem_map_of_mem hf)]
    simp [mapParts, hf]
  | func typeParams params result =>
    simp only [parts, mem_append, mem_singleton] at same
    simp only [mapParts, mapType_congr fun part hp => same part (.inl (.inl hp)),
      mapType_congr fun part hp => same part (.inl (.inr hp)), same result (.inr rfl)]
  | proc typeParams params =>
    simp only [parts, mem_append] at same
    simp only [mapParts, mapType_congr fun part hp => same part (.inl hp),
      mapType_congr fun part hp => same part (.inr hp)]
  | union members | tuple members => simpa [mapParts, parts] using same
  | named name args origin => simpa [mapParts, parts] using same
  | generic name bound =>
    cases bound with
    | none => rfl
    | some bound => simpa [mapParts, parts] using same
  | _ => simp_all [mapParts, parts]

theorem mapParts_id (type : Ty) : type.mapParts id = type := by
  have hf : Field.mapType id = id := rfl
  have hs : Slot.mapType id = id := by
    funext slot
    simp [Slot.mapType]
  cases type <;> simp [mapParts, hf, hs]

/-- A type without parts stays as it is. -/
theorem mapParts_eq_self (none : type.parts = []) : type.mapParts replace = type :=
  (mapParts_congr (by simp [none])).trans (mapParts_id type)

def head (type : Ty) : Head where
  kind := type.ctorIdx
  typeParams := match type with
    | func typeParams _ _ => typeParams.map Slot.head
    | proc typeParams _ => typeParams.map Slot.head
    | _ => []
  labels := match type with
    | object fields => fields.map Field.head
    | func _ params _ => params.map Slot.head
    | proc _ params => params.map Slot.head
    | named name _ _ => [(name, true)]
    | nominal name _ => [(name, true)]
    | generic name bound => [(name, bound.isSome)]
    | store name _ => [(name, true)]
    | _ => []
  own := match type with
    | literal value => some (.inl value)
    | store _ declaration => some (.inr declaration)
    | _ => none

theorem map_head_mapType (replace : Ty → Ty) (slots : List (Slot Ty)) :
    (slots.map (Slot.mapType replace)).map Slot.head = slots.map Slot.head := by
  simp [Slot.head, Slot.mapType, Function.comp_def]

@[simp] theorem head_mapParts (replace : Ty → Ty) (type : Ty) :
    (type.mapParts replace).head = type.head := by
  cases type with
  | func | proc =>
    simp only [mapParts, head, map_head_mapType]
    rfl
  | object =>
    simp only [mapParts, head, map_map]
    rfl
  | generic =>
    simp only [mapParts, head, Option.isSome_map]
    rfl
  | _ => rfl

/-- The type without its parts, in the place of which nothing is known. -/
def shape (type : Ty) : Ty := type.mapParts fun _ => .unknown

@[simp] theorem head_shape (type : Ty) : type.shape.head = type.head := head_mapParts _ type

/-- Whether substituting in a type leaves its kind alone. A type parameter is replaced as a
whole, and a union is put together anew. -/
def isFixed : Ty → Bool
  | generic _ _ => false
  | union _ => false
  | _ => true

theorem isUnion_of_isFixed (fixed : type.isFixed = true) : type.isUnion = false := by
  cases type with
  | union => cases fixed
  | _ => rfl

/-- The type parameters of a signature. -/
def ownSlots : Ty → List (Slot Ty)
  | func typeParams _ _ => typeParams
  | proc typeParams _ => typeParams
  | _ => []

/-- The parts that substituting leaves alone: the bounds of a signature's own type
parameters. -/
def ownBounds : Ty → List Ty
  | func typeParams _ _ => slotTypes typeParams
  | proc typeParams _ => slotTypes typeParams
  | _ => []

/-- The parts that substituting goes into. -/
def openParts : Ty → List Ty
  | func _ params result => slotTypes params ++ [result]
  | proc _ params => slotTypes params
  | type => type.parts

/-- The types inside a type where its type parameters occur. Bounds do not count. -/
def shownParts : Ty → List Ty
  | generic _ _ => []
  | type => type.openParts

/-- The bindings that hold inside a type. -/
def innerBindings (bindings : Bindings) : Ty → Bindings
  | func typeParams _ _ => unshadowed bindings typeParams
  | proc typeParams _ => unshadowed bindings typeParams
  | _ => bindings

theorem ownBounds_eq (type : Ty) : type.ownBounds = slotTypes type.ownSlots := by
  cases type <;> rfl

theorem parts_eq (type : Ty) : type.parts = type.ownBounds ++ type.openParts := by
  cases type <;> simp [parts, ownBounds, openParts]

theorem head_substitute (fixed : type.isFixed = true) (bindings : Bindings) :
    (type.substitute bindings).head = type.head := by
  cases type with
  | generic | union => cases fixed
  | object =>
    simp only [substitute, head, substituteFields_eq, map_map]
    rfl
  | func | proc =>
    simp only [substitute, head, substituteSlots_eq]
    exact congrArg (Head.mk _ _ · _) (map_head_mapType (·.substitute _) _)
  | _ => rfl

theorem parts_substitute (fixed : type.isFixed = true) (bindings : Bindings) :
    (type.substitute bindings).parts =
      type.ownBounds ++ type.openParts.map (·.substitute (type.innerBindings bindings)) := by
  have hs : ∀ (slots : List (Slot Ty)) (fewer : Bindings),
      slotTypes (substituteSlots slots fewer) = (slotTypes slots).map (·.substitute fewer) := by
    intro slots fewer
    rw [substituteSlots_eq]
    exact slotTypes_map _ slots
  cases type with
  | generic | union => cases fixed
  | tuple | named => simp [substitute, parts, ownBounds, openParts, innerBindings, substituteList_eq]
  | object => simp [substitute, parts, ownBounds, openParts, innerBindings, substituteFields_eq]
  | func | proc => simp [substitute, parts, ownBounds, openParts, innerBindings, hs]
  | _ => rfl

theorem sameList_iff {lefts rights : List Ty} : sameList lefts rights = true ↔
    Forall₂ (fun left right => left.sameAs right = true) lefts rights := by
  induction lefts generalizing rights with
  | nil => cases rights <;> simp [sameList]
  | cons left lefts ih => cases rights <;> simp [sameList, ih]

theorem sameFields_iff {lefts rights : List (Field Ty)} : sameFields lefts rights = true ↔
    lefts.map Field.head = rights.map Field.head ∧
      Forall₂ (fun left right => left.sameAs right = true) (lefts.map Field.type)
        (rights.map Field.type) := by
  induction lefts generalizing rights with
  | nil => cases rights <;> simp [sameFields]
  | cons left lefts ih =>
    cases rights with
    | nil => simp [sameFields]
    | cons right rights =>
      simp only [sameFields, map_cons, forall₂_cons, Bool.and_eq_true, Field.head,
        List.cons.injEq, Prod.mk.injEq, beq_iff_eq, ih]
      tauto

theorem sameSlots_iff : sameSlots lefts rights = true ↔
    lefts.map Slot.head = rights.map Slot.head ∧
      Forall₂ (fun left right => left.sameAs right = true) (slotTypes lefts)
        (slotTypes rights) := by
  induction lefts generalizing rights with
  | nil => cases rights <;> simp [sameSlots, slotTypes]
  | cons left lefts ih =>
    cases rights with
    | nil => simp [sameSlots]
    | cons right rights =>
      obtain ⟨leftName, leftType⟩ := left
      obtain ⟨rightName, rightType⟩ := right
      cases leftType <;> cases rightType <;>
        simp [sameSlots, sameOption, Slot.head, ih, slotTypes_cons] <;> tauto

/-- Parameters with types in the same places have equally many. -/
theorem length_slotTypes (same : lefts.map Slot.head = rights.map Slot.head) :
    (slotTypes lefts).length = (slotTypes rights).length := by
  have counted (slots : List (Slot Ty)) :
      (slotTypes slots).length = ((slots.map Slot.head).filter Prod.snd).length := by
    induction slots with
    | nil => rfl
    | cons slot slots ih =>
      obtain ⟨name, type⟩ := slot
      cases type <;> simpa [slotTypes_cons, Slot.head] using ih
  rw [counted, counted, same]

/-- Lists in two pieces are related one by one when the pieces are, if the first pieces are
equally long. -/
theorem forall₂_append_iff (hl : first.length = second.length) :
    Forall₂ related (first ++ rest) (second ++ others) ↔
      Forall₂ related first second ∧ Forall₂ related rest others := by
  induction first generalizing second with
  | nil =>
    obtain rfl : second = [] := length_eq_zero_iff.mp hl.symm
    simp
  | cons head first ih =>
    cases second with
    | nil => cases hl
    | cons _ second => simp [ih (Nat.succ.inj hl), and_assoc]

/-- Types of one kind. -/
inductive SameKind : Ty → Ty → Prop
  | string : SameKind .string .string
  | number : SameKind .number .number
  | boolean : SameKind .boolean .boolean
  | nil : SameKind .nil .nil
  | unknown : SameKind .unknown .unknown
  | any : SameKind .any .any
  | escape : SameKind .escape .escape
  | literal (left right : Literal) : SameKind (.literal left) (.literal right)
  | union (lefts rights : List Ty) : SameKind (.union lefts) (.union rights)
  | array (left right : Ty) : SameKind (.array left) (.array right)
  | tuple (lefts rights : List Ty) : SameKind (.tuple lefts) (.tuple rights)
  | object (lefts rights : List (Field Ty)) : SameKind (.object lefts) (.object rights)
  | indexer (leftKey leftValue rightKey rightValue : Ty) :
    SameKind (.indexer leftKey leftValue) (.indexer rightKey rightValue)
  | func (leftTypeParams leftParams rightTypeParams rightParams : List (Slot Ty))
      (leftResult rightResult : Ty) :
    SameKind (.func leftTypeParams leftParams leftResult)
      (.func rightTypeParams rightParams rightResult)
  | proc (leftTypeParams leftParams rightTypeParams rightParams : List (Slot Ty)) :
    SameKind (.proc leftTypeParams leftParams) (.proc rightTypeParams rightParams)
  | named (leftName rightName : String) (lefts rights : List Ty) (leftOrigin rightOrigin : Node) :
    SameKind (.named leftName lefts leftOrigin) (.named rightName rights rightOrigin)
  | nominal (leftName rightName : String) (left right : Ty) :
    SameKind (.nominal leftName left) (.nominal rightName right)
  | generic (leftName rightName : String) (left right : Option Ty) :
    SameKind (.generic leftName left) (.generic rightName right)
  | iterator (left right : Ty) : SameKind (.iterator left) (.iterator right)
  | plan (left right : Ty) : SameKind (.plan left) (.plan right)
  | readonly (left right : Ty) : SameKind (.readonly left) (.readonly right)
  | store (leftName rightName : String) (left right : Node) :
    SameKind (.store leftName left) (.store rightName right)

namespace SameKind

theorem ctorIdx (kind : SameKind left right) : left.ctorIdx = right.ctorIdx := by
  cases kind <;> rfl

theorem of_ctorIdx (same : left.ctorIdx = right.ctorIdx) : SameKind left right := by
  cases left <;> cases right <;> first | (cases same; done) | constructor

/-- Types that are alike are of one kind, so what is shown of them need not look at pairs of
different kinds. -/
theorem of_sameAs (same : left.sameAs right = true) : SameKind left right := by
  revert same
  fun_cases sameAs left right
  case case23 => exact nofun
  all_goals
    intro _
    constructor

end SameKind

/-- The values or stores that two types stand for are alike, if there are any. -/
def AlikeOwn : Option (Literal ⊕ Node) → Option (Literal ⊕ Node) → Prop
  | some (.inl value), some (.inl other) => value.equals other = true
  | some (.inr declaration), some (.inr other) => declaration.sameAs other = true
  | none, none => True
  | _, _ => False

/-- What two types are besides their parts is alike. -/
structure Head.Alike (head other : Head) : Prop where
  kind : head.kind = other.kind
  typeParams : head.typeParams = other.typeParams
  labels : head.labels = other.labels
  own : AlikeOwn head.own other.own

theorem Head.Alike.symm {head other : Head} (alike : head.Alike other) : other.Alike head where
  kind := alike.kind.symm
  typeParams := alike.typeParams.symm
  labels := alike.labels.symm
  own := by
    have own := alike.own
    revert own
    rcases head.own with _ | _ | _ <;> rcases other.own with _ | _ | _ <;>
      first | exact id | exact Literal.equals_symm | exact Node.sameAs_symm

/-- Types of one kind are alike when what they are besides their parts is, and their parts are one
by one. -/
theorem SameKind.sameAs_iff (kind : SameKind left right) :
    left.sameAs right = true ↔ left.head.Alike right.head ∧
      Forall₂ (fun left right => left.sameAs right = true) left.parts right.parts := by
  have alike : left.head.Alike right.head ↔ left.head.typeParams = right.head.typeParams ∧
      left.head.labels = right.head.labels ∧ AlikeOwn left.head.own right.head.own :=
    ⟨fun alike => ⟨alike.typeParams, alike.labels, alike.own⟩,
      fun ⟨typeParams, labels, own⟩ => ⟨kind.ctorIdx, typeParams, labels, own⟩⟩
  rw [alike]
  cases kind with
  | string | number | boolean | nil | unknown | any | escape | literal | store =>
    simp [head, sameAs, parts, AlikeOwn]
  | array | iterator | plan | readonly => simp [head, sameAs, parts, AlikeOwn]
  | indexer | nominal => simp [head, sameAs, parts, AlikeOwn]
  | union | tuple => simp [head, sameAs, parts, AlikeOwn, sameList_iff]
  | object => simp [head, sameAs, parts, AlikeOwn, sameFields_iff]
  | named => simp [head, sameAs, parts, AlikeOwn, sameList_iff]
  | generic leftName rightName left right =>
    cases left <;> cases right <;> simp [head, sameAs, sameOption, parts, AlikeOwn]
  | func leftTypeParams leftParams =>
    simp only [head, sameAs, parts, AlikeOwn, Bool.and_eq_true, and_true]
    rw [sameSlots_iff, @sameSlots_iff leftParams]
    constructor
    · rintro ⟨⟨⟨hts, htp⟩, hs, hp⟩, hr⟩
      exact ⟨⟨hts, hs⟩, rel_append (rel_append htp hp) (.cons hr .nil)⟩
    · rintro ⟨⟨hts, hs⟩, hparts⟩
      have ht := length_slotTypes hts
      rw [forall₂_append_iff (by simp [ht, length_slotTypes hs]), forall₂_append_iff ht] at hparts
      exact ⟨⟨⟨hts, hparts.1.1⟩, hs, hparts.1.2⟩, by simpa using hparts.2⟩
  | proc leftTypeParams leftParams =>
    simp only [head, sameAs, parts, AlikeOwn, Bool.and_eq_true, and_true]
    rw [sameSlots_iff, @sameSlots_iff leftParams]
    constructor
    · rintro ⟨⟨hts, htp⟩, hs, hp⟩
      exact ⟨⟨hts, hs⟩, rel_append htp hp⟩
    · rintro ⟨⟨hts, hs⟩, hparts⟩
      rw [forall₂_append_iff (length_slotTypes hts)] at hparts
      exact ⟨⟨hts, hparts.1⟩, hs, hparts.2⟩

/-- Types are alike when what they are besides their parts is, and their parts are one by one. -/
theorem sameAs_iff : left.sameAs right = true ↔ left.head.Alike right.head ∧
    Forall₂ (fun left right => left.sameAs right = true) left.parts right.parts := by
  constructor
  · intro same
    exact (SameKind.of_sameAs same).sameAs_iff.mp same
  · intro both
    exact (SameKind.of_ctorIdx both.1.kind).sameAs_iff.mpr both

/-- Items that are related one by one are so in another way, if this follows for the items
of the two lists. -/
theorem forall₂_imp_of_mem {related other : α → α → Prop} (all : Forall₂ related firsts seconds)
    (implies : ∀ first ∈ firsts, ∀ second ∈ seconds, related first second → other first second) :
    Forall₂ other firsts seconds := by
  induction all with
  | nil => exact .nil
  | cons head _ ih =>
    refine .cons (implies _ mem_cons_self _ mem_cons_self head) (ih ?_)
    intro first hf second hs
    exact implies first (mem_cons_of_mem _ hf) second (mem_cons_of_mem _ hs)

/-- Types are alike in both directions. -/
theorem sameAs_symm (left : Ty) :
    ∀ right : Ty, left.sameAs right = true → right.sameAs left = true := by
  induction left using parts_induction with
  | step left ih =>
    intro right same
    obtain ⟨alike, inside⟩ := sameAs_iff.mp same
    have flipped : Forall₂ (fun part other => other.sameAs part = true) left.parts right.parts :=
      forall₂_imp_of_mem inside fun part hp other _ => ih part hp other
    exact sameAs_iff.mpr ⟨alike.symm, flipped.flip⟩

end Ty

end ScriptCheck
