import Mathlib.Data.List.Nodup
import Mathlib.Data.List.Perm.Subperm
import ScriptCheck.Proofs.ReadingCourses
import ScriptCheck.Proofs.Tokens

/-!
# Tables of nodes

While a text is read, nodes are loose until a later node takes them as its children, and no node
is ever taken twice. Loose nodes follow one another in the text, so that the node that takes them
spans them all. Only a switch may take its nodes in another order, and may leave out some of
them: a default takes the place of an earlier one.
-/

namespace ScriptCheck

open List

/-- All ids that the rows of a table name as children, row by row. -/
def taken (sprouts : Array Sprout) : List NodeId :=
  sprouts.toList.flatMap fun sprout => sprout.form.children

/-- A table in which each node is the child of one other at most, which comes after it,
and the nodes that are nobody's child yet. -/
structure Grove (sprouts : Array Sprout) (loose : List NodeId) : Prop where
  /-- Children come before their parents. -/
  below : ∀ (id : NodeId) (sprout : Sprout), sprouts[id]? = some sprout →
    ∀ child ∈ sprout.form.children, child < id
  /-- No node is taken twice, and the loose ones are not taken. -/
  distinct : (taken sprouts ++ loose).Nodup
  /-- The loose nodes are in the table. -/
  known : ∀ id ∈ loose, id < sprouts.size

/-- The bytes that a row covers. -/
def spanAt (sprouts : Array Sprout) (id : NodeId) : Span :=
  (sprouts[id]?.map Sprout.span).getD default

/-- Nodes that follow one another in a range of the text. -/
structure Strip (sprouts : Array Sprout) (start : Nat) (ids : List NodeId) (stop : Nat) : Prop where
  inside : ∀ id ∈ ids, start ≤ (spanAt sprouts id).start ∧
    (spanAt sprouts id).start < (spanAt sprouts id).stop ∧ (spanAt sprouts id).stop ≤ stop
  inOrder : ids.Pairwise fun first second => (spanAt sprouts first).stop ≤ (spanAt sprouts second).start

/-- The lists of children that follow one another in the text. The default of a switch may stand
anywhere among the cases. -/
def Form.sequences : Form → List (List NodeId)
  | .switch value cases otherwise => [value :: cases, value :: otherwise.toList]
  | form => [form.children]

theorem Form.sublist_of_mem_sequences {form : Form} {sequence : List NodeId}
    (hs : sequence ∈ form.sequences) : sequence.Sublist form.children := by
  unfold sequences at hs
  split at hs
  · rcases mem_pair.mp hs with rfl | rfl
    · exact sublist_append_left _ _
    · exact (sublist_append_right _ _).cons_cons _
  · exact mem_singleton.mp hs ▸ .refl _

/-- Whether the form is a switch. -/
def Form.isSwitch : Form → Bool
  | switch _ _ _ => true
  | _ => false

/-- The children of a row stand inside it and apart from each other. -/
def Laid (sprouts : Array Sprout) (sprout : Sprout) : Prop :=
  ∃ order, Strip sprouts sprout.span.start order sprout.span.stop ∧ sprout.form.children ⊆ order ∧
    ∀ sequence ∈ sprout.form.sequences, sequence.Sublist order

/-- A default word that stands in a row and in none of its children. -/
structure OwnDefault (sprouts : Array Sprout) (sprout : Sprout) (word : Token) : Prop where
  isDefault : word.kind = .keyword "default"
  inside : sprout.span.contains word.span.start = true
  outside : ∀ child ∈ sprout.form.children, (spanAt sprouts child).contains word.span.start = false

/-- A switch with two default words of its own. -/
def Doubled (tokens : List Token) (sprouts : Array Sprout) (sprout : Sprout) : Prop :=
  sprout.form.isSwitch = true ∧ ∃ first ∈ tokens, ∃ second ∈ tokens,
    first.span.start ≠ second.span.start ∧ OwnDefault sprouts sprout first ∧
      OwnDefault sprouts sprout second

/-- A grove that is still being read. -/
structure Undergrowth (tokens : List Token) (sprouts : Array Sprout) (loose : List NodeId) : Prop
    extends Grove sprouts loose where
  /-- No node is a whole file. -/
  inner : ∀ (id : NodeId) (sprout : Sprout), sprouts[id]? = some sprout →
    sprout.form.isModule = false
  /-- Every node has characters of its own or of its children. -/
  laid : ∀ (id : NodeId) (sprout : Sprout), sprouts[id]? = some sprout →
    sprout.span.start < sprout.span.stop ∧ Laid sprouts sprout
  /-- No node is lost but defaults of which a switch has two. -/
  kept : (∀ id < sprouts.size, id ∈ taken sprouts ++ loose) ∨
    ∃ (id : NodeId) (sprout : Sprout), sprouts[id]? = some sprout ∧ Doubled tokens sprouts sprout

namespace Grove

variable {sprouts : Array Sprout} {loose fewer : List NodeId}

/-- Every child is in the table. -/
theorem lt_of_mem_taken (grove : Grove sprouts loose) {id : NodeId} (hi : id ∈ taken sprouts) :
    id < sprouts.size := by
  obtain ⟨sprout, hs, hc⟩ := mem_flatMap.mp hi
  obtain ⟨row, hr, rfl⟩ := getElem_of_mem hs
  have hb := grove.below row _ (by simp) id hc
  exact Nat.lt_trans hb (by simpa using hr)

/-- Loose nodes may be forgotten. -/
theorem forget (grove : Grove sprouts loose) (hf : fewer.Subperm loose) : Grove sprouts fewer where
  below := grove.below
  distinct := by
    have hs : (taken sprouts ++ fewer).Subperm (taken sprouts ++ loose) := by
      obtain ⟨kept, hp, hk⟩ := hf
      exact ⟨taken sprouts ++ kept, hp.append_left _, hk.append_left _⟩
    obtain ⟨kept, hp, hk⟩ := hs
    exact hp.nodup_iff.mp (grove.distinct.sublist hk)
  known := fun id hi => grove.known id (hf.subset hi)

/-- A new node takes loose nodes as its children and is loose itself. -/
theorem push {span : Span} (grove : Grove sprouts (rest ++ form.children)) :
    Grove (sprouts.push ⟨form, span⟩) (rest ++ [sprouts.size]) where
  below := by
    intro id sprout hs child hc
    rw [Array.getElem?_push] at hs
    split at hs
    · next he =>
      cases hs
      exact he ▸ grove.known child (mem_append_right _ hc)
    · exact grove.below id sprout hs child hc
  distinct := by
    have ht : taken (sprouts.push ⟨form, span⟩) = taken sprouts ++ form.children := by
      simp [taken]
    have hp : (taken sprouts ++ form.children ++ rest).Perm
        (taken sprouts ++ (rest ++ form.children)) := by
      rw [append_assoc]
      exact perm_append_comm.append_left _
    have hn : sprouts.size ∉ taken sprouts ++ form.children ++ rest := by
      intro hm
      rcases mem_append.mp (hp.mem_iff.mp hm) with hm | hm
      · exact Nat.lt_irrefl _ (grove.lt_of_mem_taken hm)
      · exact Nat.lt_irrefl _ (grove.known _ hm)
    rw [ht, ← append_assoc]
    simpa using (hp.nodup_iff.mpr grove.distinct).concat hn
  known := by
    intro id hi
    rw [Array.size_push]
    rcases mem_append.mp hi with hi | hi
    · exact Nat.lt_succ_of_lt (grove.known id (mem_append_left _ hi))
    · simp_all

end Grove

/-- The rows of a table stand in another one as well. -/
structure Keeps (sprouts later : Array Sprout) : Prop where
  size : sprouts.size ≤ later.size
  spans : ∀ id < sprouts.size, spanAt later id = spanAt sprouts id

section Layout

variable {sprouts later : Array Sprout} {sprout : Sprout}

theorem Keeps.push (sprouts : Array Sprout) (sprout : Sprout) : Keeps sprouts (sprouts.push sprout) where
  size := by simp
  spans id known := by rw [spanAt, spanAt, Array.getElem?_push_lt known, Array.getElem?_eq_getElem known]

theorem spanAt_size (sprouts : Array Sprout) (sprout : Sprout) :
    spanAt (sprouts.push sprout) sprouts.size = sprout.span := by simp [spanAt]

/-- What is not in the table covers nothing. -/
theorem lt_size_of_spanAt {id : NodeId} (filled : (spanAt sprouts id).start < (spanAt sprouts id).stop) :
    id < sprouts.size := by
  by_contra unknown
  rw [spanAt, Array.getElem?_eq_none (Nat.le_of_not_lt unknown)] at filled
  cases filled

namespace Strip

theorem nil : Strip sprouts start [] stop := ⟨nofun, .nil⟩

theorem keep (strip : Strip sprouts start ids stop) (keeps : Keeps sprouts later) :
    Strip later start ids stop := by
  have same : ∀ id ∈ ids, spanAt later id = spanAt sprouts id := fun id hi =>
    keeps.spans id (lt_size_of_spanAt (strip.inside id hi).2.1)
  refine ⟨fun id hi => same id hi ▸ strip.inside id hi, ?_⟩
  exact strip.inOrder.imp_of_mem fun hf hs before => by rwa [same _ hf, same _ hs]

theorem widen (strip : Strip sprouts start ids stop) (hs : start' ≤ start) (he : stop ≤ stop') :
    Strip sprouts start' ids stop' where
  inside id hi := by
    have := strip.inside id hi
    omega
  inOrder := strip.inOrder

/-- Nodes are followed by others. -/
theorem append {middle next : Nat} (strip : Strip sprouts start ids middle)
    (more : Strip sprouts next others stop) (hs : start ≤ next) (hm : middle ≤ next)
    (he : middle ≤ stop) : Strip sprouts start (ids ++ others) stop where
  inside := by
    refine forall_mem_append.mpr ⟨fun id hi => ?_, fun id hi => ?_⟩
    · have := strip.inside id hi
      omega
    · have := more.inside id hi
      omega
  inOrder := pairwise_append.mpr ⟨strip.inOrder, more.inOrder, fun first hf second hn => by
    have := strip.inside first hf
    have := more.inside second hn
    omega⟩

end Strip

theorem Laid.keep (laid : Laid sprouts sprout) (keeps : Keeps sprouts later) : Laid later sprout := by
  obtain ⟨order, strip, rest⟩ := laid
  exact ⟨order, strip.keep keeps, rest⟩

theorem OwnDefault.keep (own : OwnDefault sprouts sprout word) (keeps : Keeps sprouts later)
    (known : ∀ child ∈ sprout.form.children, child < sprouts.size) :
    OwnDefault later sprout word where
  isDefault := own.isDefault
  inside := own.inside
  outside child hc := by
    rw [keeps.spans child (known child hc)]
    exact own.outside child hc

theorem Doubled.keep (doubled : Doubled tokens sprouts sprout) (keeps : Keeps sprouts later)
    (known : ∀ child ∈ sprout.form.children, child < sprouts.size) :
    Doubled tokens later sprout := by
  obtain ⟨switch, first, hf, second, hs, differ, own, own'⟩ := doubled
  exact ⟨switch, first, hf, second, hs, differ, own.keep keeps known, own'.keep keeps known⟩

end Layout

namespace Undergrowth

variable {tokens : List Token} {sprouts : Array Sprout} {rest order : List NodeId} {form : Form}
  {span : Span}

/-- Nothing has been read. -/
theorem empty : Undergrowth tokens #[] [] where
  below := by simp
  distinct := by simp [taken]
  known := by simp
  inner := by simp
  laid := by simp
  kept := by simp

/-- A new node that is no whole file takes loose nodes as its children. -/
theorem push (grove : Undergrowth tokens sprouts (rest ++ order)) (hm : form.isModule = false)
    (filled : span.start < span.stop) (strip : Strip sprouts span.start order span.stop)
    (children : form.children.Subperm order)
    (sequences : ∀ sequence ∈ form.sequences, sequence.Sublist order)
    (all : order ⊆ form.children ∨ Doubled tokens sprouts ⟨form, span⟩) :
    Undergrowth tokens (sprouts.push ⟨form, span⟩) (rest ++ [sprouts.size]) where
  toGrove := (grove.toGrove.forget ((subperm_append_left rest).mpr children)).push
  inner := by
    intro id sprout hs
    rw [Array.getElem?_push] at hs
    split at hs
    · cases hs
      exact hm
    · exact grove.inner id sprout hs
  laid := by
    have keeps := Keeps.push sprouts ⟨form, span⟩
    intro id sprout hs
    rw [Array.getElem?_push] at hs
    split at hs
    · cases hs
      exact ⟨filled, order, strip.keep keeps, children.subset, sequences⟩
    · exact (grove.laid id sprout hs).imp_right (·.keep keeps)
  kept := by
    have keeps := Keeps.push sprouts ⟨form, span⟩
    rcases grove.kept with whole | ⟨id, sprout, hs, doubled⟩
    · rcases all with all | doubled
      · refine .inl fun id hi => ?_
        have ht : taken (sprouts.push ⟨form, span⟩) = taken sprouts ++ form.children := by
          simp [taken]
        rw [Array.size_push] at hi
        rcases Nat.lt_succ_iff_lt_or_eq.mp hi with hi | rfl
        · have listed := whole id hi
          simp only [ht, mem_append] at listed ⊢
          have := @all id
          tauto
        · simp
      · exact .inr ⟨sprouts.size, _, Array.getElem?_push_size, doubled.keep keeps fun child hc =>
          grove.known child (mem_append_right _ (children.subset hc))⟩
    · have hl := (Array.getElem?_eq_some_iff.mp hs).1
      refine .inr ⟨id, sprout, ?_, doubled.keep keeps fun child hc =>
        Nat.lt_trans (grove.below id sprout hs child hc) hl⟩
      rwa [Array.getElem?_push_lt hl, ← Array.getElem?_eq_getElem hl]

end Undergrowth

namespace Reader

variable {α β σ : Type} {next : α → Reader β} {first : Reader α}

/-- A reader that grows no nodes. -/
def Quiet (reader : Reader α) : Prop :=
  ∀ surroundings progress value later, reader surroundings progress = .ok (value, later) →
    later.sprouts = progress.sprouts

/-- The steps of a reading that goes on after another. -/
theorem bind_ok (run : (first >>= next) surroundings progress = .ok (value, later)) :
    ∃ between inner, first surroundings progress = .ok (inner, between) ∧
      next inner surroundings between = .ok (value, later) := by
  change andThen first next surroundings progress = _ at run
  unfold andThen at run
  split at run
  · cases run
  · next inner between hf => exact ⟨between, inner, hf, run⟩

theorem goAstray_ne_ok (fault : SyntaxFault) (surroundings : Surroundings) (progress : Progress)
    (found : α × Progress) : goAstray fault surroundings progress ≠ .ok found := nofun

namespace Quiet

theorem pure (value : α) : Quiet (pure value : Reader α) := by
  intro surroundings progress found later run
  cases run
  rfl

theorem bind (quiet : first.Quiet) (goesOn : ∀ value, (next value).Quiet) :
    (first >>= next).Quiet := by
  intro surroundings progress value later run
  obtain ⟨between, inner, hf, hn⟩ := bind_ok run
  exact (goesOn inner _ _ _ _ hn).trans (quiet _ _ _ _ hf)

/-- A reader that only fails. -/
theorem of_fails {reader : Reader α}
    (fails : ∀ surroundings progress found, reader surroundings progress ≠ .ok found) : reader.Quiet :=
  fun surroundings progress _ _ run => absurd run (fails surroundings progress _)

theorem goAstray (fault : SyntaxFault) : (goAstray fault : Reader α).Quiet :=
  of_fails (goAstray_ne_ok fault)

theorem remaining : remaining.Quiet := by
  intro surroundings progress value later run
  cases run
  rfl

end Quiet

theorem quiet_front : front.Quiet := by
  intro surroundings progress value later run
  unfold front at run
  split at run <;> cases run
  rfl

theorem quiet_peek : peek.Quiet := .bind quiet_front fun _ => .pure _

theorem quiet_peekSecond : peekSecond.Quiet := by
  intro surroundings progress value later run
  unfold peekSecond at run
  split at run <;> cases run <;> rfl

theorem quiet_place : place.Quiet := .bind quiet_front fun _ => .pure _

theorem quiet_allowsProcLiterals : allowsProcLiterals.Quiet := by
  intro surroundings progress value later run
  cases run
  rfl

theorem quiet_advance : advance.Quiet := by
  intro surroundings progress value later run
  unfold advance at run
  split at run
  · cases run
  · split at run <;> cases run <;> rfl

theorem unexpected_ne_ok (wanted : String) (surroundings : Surroundings) (progress : Progress)
    (found : α × Progress) : unexpected wanted surroundings progress ≠ .ok found := by
  intro run
  obtain ⟨between, token, -, hf⟩ := bind_ok run
  cases hf

theorem quiet_unexpected (wanted : String) : (unexpected wanted : Reader α).Quiet :=
  .of_fails (unexpected_ne_ok wanted)

theorem quiet_isAt (kind : TokenKind) : (isAt kind).Quiet := .bind quiet_peek fun _ => .pure _

/-- What holds after a turn of a loop. -/
def Turn.Holds (going : σ → Progress → Prop) (result : β → Progress → Prop) :
    Turn σ β → Progress → Prop
  | .again state => going state
  | .finished value => result value

section Loop

variable {turn : σ → Reader (Turn σ β)} {surroundings : Surroundings}
  {going : σ → Progress → Prop} {result : β → Progress → Prop}
  (turns : ∀ state progress outcome later,
    turn state surroundings progress = .ok (outcome, later) →
      going state progress → outcome.Holds going result later)
  {progress later : Progress} {value : β} {state : σ}
include turns

/-- What each turn of a loop leaves to the next one holds until the end. -/
theorem loopWithin_ok (limit : Nat)
    (run : loopWithin turn limit state surroundings progress = .ok (value, later))
    (held : going state progress) : result value later := by
  induction limit generalizing state progress with
  | zero => exact absurd run (goAstray_ne_ok _ _ _ _)
  | succ limit ih =>
    obtain ⟨_, left, ⟨⟩, run⟩ := bind_ok run
    obtain ⟨between, outcome, turned, run⟩ := bind_ok run
    have held := turns _ _ _ _ turned held
    cases outcome with
    | finished value =>
      cases run
      exact held
    | again next =>
      obtain ⟨_, remaining, ⟨⟩, run⟩ := bind_ok run
      split at run
      · exact ih run held
      · cases run

theorem loop_ok (run : loop turn state surroundings progress = .ok (value, later))
    (held : going state progress) : result value later := by
  obtain ⟨_, limit, ⟨⟩, run⟩ := bind_ok run
  exact loopWithin_ok turns _ run held

end Loop

end Reader

end ScriptCheck
