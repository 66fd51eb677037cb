import ScriptCheck.Proofs.FullTypes

/-!
# Types that are alike

Types that are alike, or one and the same, cannot be told apart by comparing them: they are
of one kind, and what comparisons of them come to is again alike, one by one.
-/

namespace ScriptCheck

open List

theorem Number.equals_trans : ∀ {first second third : Number}, first.equals second = true →
    second.equals third = true → first.equals third = true
  | .infinite _, .infinite _, .infinite _, same, too => by
    simp only [Number.equals, beq_iff_eq] at same too ⊢
    exact same.trans too
  | .finite _ _ _, .finite _ _ _, .finite _ _ _, same, too => by
    simp only [Number.equals, Bool.and_eq_true, Bool.or_eq_true, beq_iff_eq] at same too ⊢
    obtain ⟨⟨rfl, rfl⟩, hs⟩ := same
    obtain ⟨⟨rfl, rfl⟩, ht⟩ := too
    refine ⟨⟨rfl, rfl⟩, ?_⟩
    rcases hs with rfl | hz
    · exact ht
    · exact .inr hz

theorem Literal.equals_trans : ∀ {first second third : Literal}, first.equals second = true →
    second.equals third = true → first.equals third = true
  | .number _, .number _, .number _, same, too => Number.equals_trans same too
  | .string _, .string _, .string _, same, too => by
    simp only [Literal.equals, beq_iff_eq] at same too ⊢
    exact same.trans too
  | .boolean _, .boolean _, .boolean _, same, too => by
    simp only [Literal.equals, beq_iff_eq] at same too ⊢
    exact same.trans too

theorem Node.sameAs_trans {first second third : Node} (same : first.sameAs second = true)
    (too : second.sameAs third = true) : first.sameAs third = true := by
  simp only [sameAs, Bool.and_eq_true, beq_iff_eq] at same too ⊢
  exact ⟨same.1.trans too.1, BEq.trans same.2 too.2⟩

namespace Ty

/-- Lists that are related to one list are related one by one, if their items are so through
its items. -/
theorem forall₂_through {before after through : α → α → Prop} {firsts seconds thirds : List α}
    (all : Forall₂ before firsts seconds) (too : Forall₂ after seconds thirds)
    (both : ∀ second ∈ seconds, ∀ {first third}, before first second → after second third →
      through first third) : Forall₂ through firsts thirds := by
  induction all generalizing thirds with
  | nil =>
    cases too
    exact .nil
  | cons head _ ih =>
    cases too with | cons next rest =>
    exact .cons (both _ mem_cons_self head next)
      (ih rest fun second hs => both second (mem_cons_of_mem _ hs))

theorem Head.Alike.trans {first second third : Head} (alike : first.Alike second)
    (too : second.Alike third) : first.Alike third where
  kind := alike.kind.trans too.kind
  typeParams := alike.typeParams.trans too.typeParams
  labels := alike.labels.trans too.labels
  own := by
    have own := alike.own
    have next := too.own
    revert own next
    rcases first.own with _ | _ | _ <;> rcases second.own with _ | _ | _ <;>
      rcases third.own with _ | _ | _ <;>
      first | exact fun same => same.elim | exact fun _ same => same.elim |
        exact fun same _ => same | exact Literal.equals_trans | exact Node.sameAs_trans

/-- Types that are alike to the same type are alike. -/
theorem sameAs_trans (first : Ty) : ∀ second third : Ty, first.sameAs second = true →
    second.sameAs third = true → first.sameAs third = true := by
  induction first using parts_induction with
  | step first ih =>
    intro second third same too
    obtain ⟨alike, inside⟩ := sameAs_iff.mp same
    obtain ⟨next, rest⟩ := sameAs_iff.mp too
    have known := forall₂_imp_of_mem inside fun part hp _ _ same => And.intro hp same
    exact sameAs_iff.mpr ⟨alike.trans next,
      forall₂_through known rest fun _ _ _ _ ⟨hp, same⟩ => ih _ hp _ _ same⟩

section Heads

variable {params others : List (Slot Ty)}

/-- Parameters with types in the same places have related types, if these are related one by
one. -/
theorem forall₂_slots (heads : params.map Slot.head = others.map Slot.head)
    (all : Forall₂ related (slotTypes params) (slotTypes others)) :
    Forall₂ (fun slot other => Option.Rel related slot.type other.type) params others := by
  induction params generalizing others with
  | nil =>
    cases others with
    | nil => exact .nil
    | cons => cases heads
  | cons param params ih =>
    cases others with
    | nil => cases heads
    | cons other others =>
      obtain ⟨name, type⟩ := param
      obtain ⟨otherName, otherType⟩ := other
      simp only [map_cons, List.cons.injEq, Slot.head, Prod.mk.injEq] at heads
      rw [slotTypes_cons, slotTypes_cons] at all
      cases type <;> cases otherType
      · exact .cons .none (ih heads.2 all)
      · cases heads.1.2
      · cases heads.1.2
      · cases all with | cons first rest => exact .cons (.some first) (ih heads.2 rest)

/-- Object entries are related, if their types are related one by one. -/
theorem forall₂_fields (heads : fields.map Field.head = entries.map Field.head)
    (all : Forall₂ related (fields.map Field.type) (entries.map Field.type)) :
    Forall₂ (fun field entry => field.head = entry.head ∧ related field.type entry.type)
      fields entries := by
  rw [← forall₂_eq_eq_eq, forall₂_map_left_iff, forall₂_map_right_iff] at heads
  rw [forall₂_map_left_iff, forall₂_map_right_iff] at all
  induction heads with
  | nil => exact .nil
  | cons head _ ih =>
    cases all with | cons first rest =>
    exact .cons ⟨head, first⟩ (ih rest)

/-- Parameters with the same names are found by the same names. -/
theorem any_name_eq (heads : params.map Slot.head = others.map Slot.head) (name : String) :
    params.any (·.name == name) = others.any (·.name == name) := by
  have found : ∀ slots : List (Slot Ty),
      slots.any (·.name == name) = (slots.map Slot.head).any (·.1 == name) :=
    fun slots => by rw [any_map]; rfl
  rw [found, found, heads]

end Heads

/-- Two types are of one kind and agree in all but their parts: they are alike there, or one
and the same. A type need not be alike to itself, since the number that is none differs from
itself. -/
def SameHead (left right : Ty) : Prop :=
  left.shape = right.shape ∨ left.shape.sameAs right.shape = true

namespace SameHead

variable {first second third left right : Ty}

theorem symm (same : SameHead left right) : SameHead right left :=
  same.imp Eq.symm (sameAs_symm _ _)

theorem trans (same : SameHead first second) (too : SameHead second third) :
    SameHead first third := by
  unfold SameHead at *
  rcases same with same | same
  · rwa [same]
  · rcases too with too | too
    · exact .inr (too ▸ same)
    · exact .inr (sameAs_trans _ _ _ same too)

theorem heads (same : SameHead left right) : left.head = right.head ∨ left.head.Alike right.head := by
  rcases same with same | same
  · exact .inl (by rw [← head_shape left, same, head_shape])
  · exact .inr (by simpa using (sameAs_iff.mp same).1)

/-- What two types are besides their parts is the same, and so is the number of their parts. -/
theorem of_heads (heads : left.head = right.head ∨ left.head.Alike right.head)
    (length : left.parts.length = right.parts.length) : SameHead left right := by
  have alike (heads : left.head.Alike right.head) : SameHead left right := by
    refine .inr (sameAs_iff.mpr ⟨by rwa [head_shape, head_shape], ?_⟩)
    rw [shape, shape, parts_mapParts, parts_mapParts, forall₂_map_left_iff, forall₂_map_right_iff]
    exact forall₂_iff_zip.mpr ⟨length, fun _ => rfl⟩
  rcases heads with same | heads
  · have labels := congrArg Head.labels same
    have own := congrArg Head.own same
    cases SameKind.of_ctorIdx (congrArg Head.kind same) with
    | literal =>
      cases own
      exact .inl rfl
    | store =>
      cases own
      cases labels
      exact .inl rfl
    | _ => exact alike ⟨rfl, congrArg Head.typeParams same, labels, trivial⟩
  · exact alike heads

theorem sameKind (same : SameHead left right) : SameKind left right :=
  .of_ctorIdx (same.heads.elim (congrArg Head.kind) Head.Alike.kind)

/-- The type parameters have the same names. -/
theorem typeParams (same : SameHead left right) : left.head.typeParams = right.head.typeParams :=
  same.heads.elim (congrArg Head.typeParams) Head.Alike.typeParams

/-- The other names are the same as well. -/
theorem labels (same : SameHead left right) : left.head.labels = right.head.labels :=
  same.heads.elim (congrArg Head.labels) Head.Alike.labels

theorem isNamed (same : SameHead left right) : left.isNamed = right.isNamed := by
  cases same.sameKind <;> rfl

/-- Type parameters of the same kind have one name. -/
theorem generic (same : SameHead (.generic name bound) (.generic other otherBound)) :
    name = other :=
  congrArg Prod.fst (List.cons.inj same.labels).1

theorem isFixed (same : SameHead left right) : left.isFixed = right.isFixed := by
  cases same.sameKind <;> rfl

/-- As many parts are left alone by substituting. -/
theorem length_ownBounds (same : SameHead left right) :
    left.ownBounds.length = right.ownBounds.length := by
  cases same.sameKind with
  | func | proc => exact length_slotTypes same.typeParams
  | _ => rfl

end SameHead

/-- The members of two types are related, if related types agree in all but their parts, which
are related one by one. -/
theorem forall₂_flatten (head : ∀ {type other}, related type other → SameHead type other)
    (inside : ∀ {type other}, related type other → Forall₂ related type.parts other.parts)
    (hr : related left right) : Forall₂ related left.flatten right.flatten := by
  induction left using parts_induction generalizing right with
  | step left ih =>
    cases (head hr).sameKind with
    | union =>
      have inner := forall₂_imp_of_mem (inside hr) fun member hm _ _ => ih member hm
      simp only [flatten, flattenList_eq]
      exact rel_flatMap inner fun _ _ members => members
    | _ => exact .cons hr .nil

/-- The members of types that are alike are alike. -/
theorem sameAs_flatten {left right : Ty} (same : left.sameAs right = true) :
    Forall₂ (fun left right => left.sameAs right = true) left.flatten right.flatten :=
  forall₂_flatten
    (fun same => .of_heads (.inr (sameAs_iff.mp same).1) (sameAs_iff.mp same).2.length_eq)
    (fun same => (sameAs_iff.mp same).2) same

/-- Types that cannot be told apart by comparing them: they agree in all but their parts, and
their parts cannot be told apart, one by one. -/
inductive Like : Ty → Ty → Prop
  | intro {left right : Ty} : SameHead left right → Forall₂ Like left.parts right.parts →
      Like left right

namespace Like

variable {first second third left right : Ty}

theorem head (like : Like left right) : SameHead left right := by
  cases like with | intro head _ => exact head

/-- The parts of types that cannot be told apart cannot be told apart. -/
theorem parts (like : Like left right) : Forall₂ Like left.parts right.parts := by
  cases like with | intro _ inside => exact inside

theorem refl (type : Ty) : Like type type := by
  induction type using parts_induction with
  | step type ih => exact .intro (.inl rfl) (forall₂_same.mpr ih)

/-- Types that are alike cannot be told apart. -/
theorem of_sameAs (same : left.sameAs right = true) : Like left right := by
  induction left using parts_induction generalizing right with
  | step left ih =>
    obtain ⟨head, inside⟩ := sameAs_iff.mp same
    exact .intro (.of_heads (.inr head) inside.length_eq)
      (forall₂_imp_of_mem inside fun part hp _ _ => ih part hp)

theorem symm (like : Like left right) : Like right left := by
  induction left using parts_induction generalizing right with
  | step left ih =>
    have flipped : Forall₂ (fun part other => Like other part) left.parts right.parts :=
      forall₂_imp_of_mem like.parts fun part hp _ _ => ih part hp
    exact .intro like.head.symm flipped.flip

theorem trans (like : Like first second) (too : Like second third) : Like first third := by
  induction second using parts_induction generalizing first third with
  | step second ih =>
    exact .intro (like.head.trans too.head)
      (forall₂_through like.parts too.parts fun part hp _ _ => ih part hp)

theorem sameAs_left (like : Like first second) (same : first.sameAs third = true) :
    second.sameAs third = true := by
  induction first using parts_induction generalizing second third with
  | step first ih =>
    obtain ⟨head, inside⟩ := sameAs_iff.mp same
    refine sameAs_iff.mpr ⟨?_, forall₂_through like.parts.flip inside fun part hp _ _ => ih part hp⟩
    rcases like.head.heads with same | same
    · rwa [← same]
    · exact same.symm.trans head

/-- Types that are alike stay so when others are taken that cannot be told apart from them. -/
theorem sameAs (like : Like first left) (too : Like second right)
    (same : first.sameAs second = true) : left.sameAs right = true :=
  sameAs_symm _ _ (too.sameAs_left (sameAs_symm _ _ (like.sameAs_left same)))

theorem isNamed (like : Like left right) : left.isNamed = right.isNamed := like.head.isNamed

/-- The members of types that cannot be told apart cannot be told apart. -/
theorem flatten (like : Like left right) : Forall₂ Like left.flatten right.flatten :=
  forall₂_flatten head parts like

/-- Unions of members that cannot be told apart cannot be told apart. -/
theorem union (all : Forall₂ Like members others) : Like (.union members) (.union others) :=
  .intro (.of_heads (.inl rfl) all.length_eq) all

section

variable {types others : List Ty} (all : Forall₂ Like types others)
include all

theorem distinct : Forall₂ Like (Ty.distinct types) (Ty.distinct others) := by
  refine rel_foldl (fun kept others all left right like => ?_) .nil all
  have known : kept.any (·.sameAs left) = others.any (·.sameAs right) := by
    induction all with
    | nil => rfl
    | cons first _ ih =>
      rw [any_cons, any_cons, ih]
      refine congrArg (· || _) (Bool.eq_iff_iff.mpr ⟨first.sameAs like, first.symm.sameAs like.symm⟩)
  unfold Ty.addDistinct
  rw [known]
  split
  · exact all
  · exact rel_append all (.cons like .nil)

theorem collapse : Like (Ty.collapse types) (Ty.collapse others) := by
  cases all with
  | nil => exact union .nil
  | cons first rest =>
    cases rest with
    | nil => exact first
    | cons second rest => exact union (.cons first (.cons second rest))

theorem unionOf : Like (Ty.unionOf types) (Ty.unionOf others) := by
  have members : Forall₂ Like (flattenList types) (flattenList others) := by
    rw [flattenList_eq, flattenList_eq]
    exact rel_flatMap all fun _ _ like => like.flatten
  exact collapse (distinct members)

end

end Like

/-- Bindings of the same names to types that cannot be told apart. -/
def LikeBindings (bindings others : Bindings) : Prop :=
  Forall₂ (fun binding other => binding.1 = other.1 ∧ Like binding.2 other.2) bindings others

namespace LikeBindings

variable {bindings others : Bindings}

theorem lookup (like : LikeBindings bindings others) (name : String) :
    Option.Rel Like (bindings.lookup name) (others.lookup name) := by
  induction like with
  | nil => exact .none
  | cons head _ ih =>
    obtain ⟨hn, ht⟩ := head
    rw [lookup_cons, lookup_cons, hn]
    split
    · exact .some ht
    · exact ih

/-- Signatures whose type parameters have the same names leave the same bindings alone. -/
theorem unshadowed (like : LikeBindings bindings others)
    (heads : typeParams.map Slot.head = otherParams.map Slot.head) :
    LikeBindings (Ty.unshadowed bindings typeParams) (Ty.unshadowed others otherParams) := by
  unfold Ty.unshadowed
  induction like with
  | nil => exact .nil
  | cons head rest ih =>
    rw [filter_cons, filter_cons, head.1, any_name_eq heads]
    split
    · exact .cons head ih
    · exact ih

/-- The bindings that hold inside types of the same kind. -/
theorem inner (like : LikeBindings bindings others) (same : SameHead left right) :
    LikeBindings (left.innerBindings bindings) (right.innerBindings others) := by
  cases same.sameKind with
  | func | proc => exact like.unshadowed same.typeParams
  | _ => exact like

end LikeBindings

namespace Like

variable {bindings others : Bindings}

/-- Putting types in the place of type parameters leads from types that cannot be told apart
to such types. -/
theorem substitute (like : Like left right) (bound : LikeBindings bindings others) :
    Like (left.substitute bindings) (right.substitute others) := by
  induction left using parts_induction generalizing right bindings others with
  | step left ih =>
    by_cases fixed : left.isFixed = true
    · have also : right.isFixed = true := like.head.isFixed ▸ fixed
      have length := like.head.length_ownBounds
      have inside := like.parts
      rw [parts_eq left, parts_eq right, forall₂_append_iff length] at inside
      have replaced : Forall₂ Like (left.substitute bindings).parts
          (right.substitute others).parts := by
        rw [parts_substitute fixed, parts_substitute also, forall₂_append_iff length,
          forall₂_map_left_iff, forall₂_map_right_iff]
        refine ⟨inside.1, forall₂_imp_of_mem inside.2 fun part hp _ _ hl => ?_⟩
        exact ih part (parts_eq left ▸ mem_append_right _ hp) hl (bound.inner like.head)
      refine .intro (.of_heads ?_ replaced.length_eq) replaced
      rw [head_substitute fixed, head_substitute also]
      exact like.head.heads
    · cases like.head.sameKind with
      | generic name otherName =>
        obtain rfl : name = otherName := like.head.generic
        rw [Ty.substitute, Ty.substitute]
        have found := bound.lookup name
        cases hb : bindings.lookup name <;> cases ho : others.lookup name <;>
          rw [hb, ho] at found
        · exact like
        · cases found
        · cases found
        · cases found with | some found => exact found
      | union =>
        have empty : bindings.isEmpty = others.isEmpty := by cases bound <;> rfl
        rw [Ty.substitute, Ty.substitute, empty]
        split
        · exact like
        · rw [substituteList_eq, substituteList_eq]
          refine unionOf ?_
          rw [forall₂_map_left_iff, forall₂_map_right_iff]
          exact forall₂_imp_of_mem like.parts fun part hp _ _ like => ih part hp like bound
      | _ => exact absurd rfl fixed

end Like

end Ty

end ScriptCheck
