import ScriptCheck.Grammar.Declarations

/-!
# The course of a reading

A reading looks at tokens, consumes them and completes nodes. What is known of the single steps
and kept by the ways of joining them is known of all readers of the grammar, which is shown here
once. Two readings are followed side by side: the same token kinds are looked at and the same
choices made on both sides. With them goes how many tokens are left at most, and which nodes
are at hand for the node that is completed next.
-/

namespace ScriptCheck

open List

/-- Readers that are joined can be grouped either way. -/
theorem Reader.andThen_andThen (first : Reader α) (next : α → Reader β) (last : β → Reader γ) :
    (first.andThen next).andThen last = first.andThen fun value => (next value).andThen last := by
  funext surroundings progress
  unfold andThen
  cases first surroundings progress <;> rfl

theorem Reader.andThen_done (reader : Reader α) : reader.andThen done = reader := by
  funext surroundings progress
  unfold andThen done
  cases reader surroundings progress <;> rfl

instance : LawfulMonad Reader :=
  LawfulMonad.mk' Reader Reader.andThen_done (fun _ _ => rfl) Reader.andThen_andThen

/-- Whether the form is the declaration of a store. -/
def Form.isStore : Form → Bool
  | storeDeclaration _ _ _ => true
  | _ => false

/-- Whether the form is a whole source file. -/
def Form.isModule : Form → Bool
  | module _ => true
  | _ => false

/-- Whether the form is made of an expression and what stands around it: an operator, a call, an
access or a cast. -/
def Form.isOperation : Form → Bool
  | pipe _ _ | binary _ _ _ | range _ _ | unary _ _ | cast _ _ => true
  | invocation _ _ _ | property _ _ _ | index _ _ _ => true
  | _ => false

/-- Whether the form may stand anywhere in a declaration and is no operation. -/
def Form.isInner (form : Form) : Bool := !form.isStore && !form.isModule && !form.isOperation

variable {form : Form}

theorem Form.isStore_of_isInner (inner : form.isInner = true) : form.isStore = false := by
  simp_all [Form.isInner]

theorem Form.isModule_of_isInner (inner : form.isInner = true) : form.isModule = false := by
  simp_all [Form.isInner]

theorem Form.isModule_of_isOperation (operation : form.isOperation = true) :
    form.isModule = false := by
  cases form <;> first | rfl | cases operation

theorem Form.isModule_of_isStore (store : form.isStore = true) : form.isModule = false := by
  cases form <;> first | rfl | cases store

theorem Form.isStore_of_isOperation (operation : form.isOperation = true) :
    form.isStore = false := by
  cases form <;> first | rfl | cases operation

/-- The nodes of a definition. -/
def Grammar.Definition.ids (defined : Grammar.Definition) : List NodeId :=
  defined.ascription.toList ++ [defined.value]

/-- The nodes of the arms of a switch. -/
def Grammar.Arms.ids (arms : Grammar.Arms) : List NodeId :=
  arms.cases.reverse ++ arms.otherwise.toList

namespace Reader

/-- How many tokens a turn of a loop may leave: fewer than before if the loop goes on. -/
def Turn.leaves {σ α : Type} (most : Nat) : Turn σ α → Nat
  | .again _ => most - 1
  | .finished _ => most

/-- What a loop has at hand after a turn. -/
def Turn.ids {σ β γ : Type} (going : σ → List γ) (back : β → List γ) : Turn σ β → List γ
  | .again state => going state
  | .finished result => back result

/-- What is known of two readings side by side, and how the single steps keep it. -/
structure Steps where
  /-- In a node that was opened at an offset, with the token at the front as it was seen and so
  many tokens left at most, the readers take the nodes at hand and hand back others, and leave so
  many tokens at most. -/
  reads : Option Nat → Option TokenKind → Nat → List NodeId → Reader α → Reader α →
    (α → Nat) → (α → List NodeId) → Prop
  /-- The two offsets may stand for each other as the start of a node that is opened where so many
  tokens are left. -/
  starts : Nat → Nat → Nat → Prop
  pure : back value = handed → most ≤ left value →
    reads since seen most handed (Pure.pure value) (Pure.pure value) left back
  fewer : reads since none most handed reader reader' left back →
    (∀ value, left value ≤ left' value) → reads since seen most handed reader reader' left' back
  /-- A first reader takes no nodes, and opens nodes of its own. -/
  andThen : reads none none most [] first first' middle between →
    (∀ value, reads since none (middle value) (handed ++ between value) (rest value) (rest' value)
      left back) → reads since seen most handed (first >>= rest) (first' >>= rest') left back
  /-- A first reader takes all nodes at hand. -/
  taking : reads since none most handed first first' middle between →
    (∀ value, reads since none (middle value) (between value) (rest value) (rest' value) left
      back) → reads since seen most handed (first >>= rest) (first' >>= rest') left back
  /-- A node is opened. -/
  place : (∀ {few : Nat}, few ≤ most → ∀ start start', starts few start start' →
      reads (some start) seen few [] (rest start) (rest' start') left back) →
    reads since seen most [] (Reader.place >>= rest) (Reader.place >>= rest') left back
  peek : (∀ kind, reads since (some kind) most handed (rest kind) (rest' kind) left back) →
    reads since seen most handed (Reader.peek >>= rest) (Reader.peek >>= rest') left back
  peekSecond : (∀ kind, reads since seen most handed (rest kind) (rest' kind) left back) →
    reads since seen most handed (Reader.peekSecond >>= rest) (Reader.peekSecond >>= rest') left
      back
  /-- A token that is not the end marker is consumed. -/
  advance : kind ≠ .endOfFile → reads since none (most - 1) handed (rest ()) (rest' ()) left back →
    reads since (some kind) most handed (Reader.advance >>= rest) (Reader.advance >>= rest') left
      back
  /-- Whatever is at the front, there are no more tokens left afterwards. -/
  pass : reads none none most [] Reader.advance Reader.advance (fun _ => most) fun _ => []
  unexpected (wanted : String) :
    reads since seen most handed (Reader.unexpected wanted) (Reader.unexpected wanted) left back
  /-- The nodes at hand are the children of the node that was opened, which has a token of its
  own or of theirs. -/
  grow {form : Form} :
    starts few start start' → form.children = handed → form.isInner = true → most ≤ few - 1 →
    reads (some start) none most handed (Reader.grow form start) (Reader.grow form start')
      (fun _ => most) fun id => [id]
  /-- Where an attempt fails, the front is as it was. -/
  attempt {between : α → List NodeId} : reads none none most [] tried tried' middle between →
    (∀ value, reads since none (middle value) (handed ++ between value) (rest (some value))
      (rest' (some value)) left back) →
    reads since seen most handed (rest none) (rest' none) left back →
    reads since seen most handed (Reader.attempt tried >>= rest) (Reader.attempt tried' >>= rest')
      left back
  withProcLiterals : reads since none most handed reader reader' left back →
    reads since seen most handed (Reader.withProcLiterals allowed reader)
      (Reader.withProcLiterals allowed reader') left back
  allowsProcLiterals :
    reads none none most [] Reader.allowsProcLiterals Reader.allowsProcLiterals (fun _ => most)
      fun _ => []
  /-- A loop hands back what its last turn does, if each turn leaves to the next one what it
  needs, and consumes a token before it goes on. -/
  loop (going : σ → List NodeId) (result : β → List NodeId) (start : σ) :
    (∀ {few : Nat}, few ≤ most → ∀ state, reads since none few (going state) (turn state)
      (turn' state) (Turn.leaves few) (Turn.ids going result)) →
    reads since none most (going start) (Reader.loop turn start) (Reader.loop turn' start)
      (fun _ => most) result
  /-- A reading that would be nested too deep has no tokens left. -/
  tooDeep : reads none none 0 []
    (Reader.goAstray .nestedTooDeeply) (Reader.goAstray .nestedTooDeeply) left back

namespace Steps

variable (course : Steps) {since : Option Nat} {seen : Option TokenKind} {kind : TokenKind}
  {most : Nat} {handed : List NodeId} {next next' : β → Reader α} {left : α → Nat}
  {back : α → List NodeId}
  {grammar grammar' : Grammar} {few start start' : Nat}

/-- The readers consume a token and complete a node. -/
abbrev one (most : Nat) (reader reader' : Reader NodeId) : Prop :=
  course.reads none none most [] reader reader' (fun _ => most - 1) fun id => [id]

/-- The readers consume a token and complete no nodes. -/
abbrev quiet (most : Nat) (reader reader' : Reader α) : Prop :=
  course.reads none none most [] reader reader' (fun _ => most - 1) fun _ => []

/-- A reading stops with what is at hand. -/
theorem stop (hb : back value = handed) (hl : left value = most) : course.reads since seen most
    handed (Pure.pure value) (Pure.pure value) left back := course.pure hb (Nat.le_of_eq hl.symm)

/-- The readers open a node and complete it, or one inside it. -/
theorem opened {next next' : Nat → Reader NodeId}
    (completes : ∀ {few : Nat}, few ≤ most → ∀ start start', course.starts few start start' →
      course.reads (some start) none few [] (next start) (next' start') (fun _ => few - 1)
        fun id => [id]) : course.one most (Reader.place >>= next) (Reader.place >>= next') :=
  course.place fun hf start start' hs =>
    course.fewer (completes hf start start' hs) fun _ => Nat.sub_le_sub_right hf 1

/-- A first reader neither takes nodes nor hands any back. -/
theorem after (asks : course.reads none none most [] first first' middle fun _ => [])
    (continues : ∀ value, course.reads since none (middle value) handed (next value) (next' value)
      left back) :
    course.reads since seen most handed (first >>= next) (first' >>= next') left back :=
  course.andThen asks fun value => by
    rw [append_nil]
    exact continues value

/-- The node that was opened is completed in the end. -/
theorem complete {left : NodeId → Nat} (hs : course.starts few start start')
    (children : form.children = handed) (inner : form.isInner = true)
    (enough : ∀ id, most ≤ left id ∧ most ≤ few - 1) :
    course.reads (some start) seen most handed (Reader.grow form start) (Reader.grow form start')
      left fun id => [id] :=
  course.fewer (course.grow hs children inner (enough 0).2) fun id => (enough id).1

/-- Readers that open nodes of their own may stand inside another node. -/
theorem inside (reads : course.reads none none most [] reader reader' left back) :
    course.reads since none most [] reader reader' left back := by
  rw [← bind_pure reader, ← bind_pure reader']
  exact course.andThen reads fun _ => course.stop rfl rfl

/-- What was seen of the front may be forgotten. -/
theorem forget (reads : course.reads since none most handed reader reader' left back) :
    course.reads since seen most handed reader reader' left back :=
  course.fewer reads fun _ => Nat.le_refl _

/-- A reading that asks whether a kind of token is at the front. -/
theorem isAt {next next' : Bool → Reader α}
    (found : course.reads since (some kind) most handed (next true) (next' true) left back)
    (missed : course.reads since none most handed (next false) (next' false) left back) :
    course.reads since seen most handed (isAt kind >>= next) (isAt kind >>= next') left back := by
  rw [Reader.isAt, bind_assoc, bind_assoc]
  refine course.peek fun ahead => ?_
  show course.reads since (some ahead) most handed (next (decide (ahead = kind)))
    (next' (decide (ahead = kind))) left back
  by_cases hk : ahead = kind
  · subst hk
    simpa using found
  · simpa [hk] using course.forget missed

theorem look : course.reads none none most [] (Reader.isAt kind) (Reader.isAt kind) (fun _ => most)
    fun _ => [] :=
  course.peek fun _ => course.stop rfl rfl

/-- A token of a kind that is eaten is consumed. -/
theorem ifEat (inside : kind ≠ .endOfFile)
    (found : course.reads since none (most - 1) handed taken taken' left back)
    (missed : course.reads since none most handed missing missing' left back) :
    course.reads since seen most handed (do if ← eatKind kind then taken else missing)
      (do if ← eatKind kind then taken' else missing') left back := by
  rw [Reader.eatKind, bind_assoc, bind_assoc]
  refine course.isAt ?_ missed
  rw [if_pos rfl, bind_assoc, bind_assoc]
  exact course.advance inside found

theorem eatKind : course.reads none none most [] (eatKind kind) (Reader.eatKind kind)
    (fun _ => most) fun _ => [] := by
  refine course.isAt ?_ (course.stop rfl rfl)
  rw [if_pos rfl]
  exact course.forget (course.after course.pass fun _ => course.stop rfl rfl)

/-- A mark that is expected is consumed, or the reading fails. -/
theorem expect (symbol : String) : course.quiet most (expect symbol) (Reader.expect symbol) :=
  course.ifEat nofun (course.stop rfl rfl) (course.unexpected _)

theorem expectKeyword (word : String) :
    course.quiet most (expectKeyword word) (Reader.expectKeyword word) :=
  course.ifEat nofun (course.stop rfl rfl) (course.unexpected _)

theorem expectWord (word : String) : course.quiet most (expectWord word) (Reader.expectWord word) :=
  course.ifEat nofun (course.stop rfl rfl) (course.unexpected _)

/-- A name is one token. -/
theorem identifier : course.quiet most identifier Reader.identifier := by
  refine course.peek fun kind => ?_
  split
  · exact course.advance nofun (course.stop rfl rfl)
  · exact course.unexpected _

theorem propertyName : course.quiet most propertyName Reader.propertyName := by
  refine course.peek fun kind => ?_
  split
  iterate 3 exact course.advance nofun (course.stop rfl rfl)
  exact course.unexpected _

theorem stringLiteral : course.quiet most stringLiteral Reader.stringLiteral := by
  refine course.peek fun kind => ?_
  split
  · exact course.advance nofun (course.stop rfl rfl)
  · exact course.unexpected _

/-- Marks are skipped as long as there are any. -/
theorem skipMarks (symbols : List String) :
    course.reads none none most [] (skipMarks symbols) (Reader.skipMarks symbols) (fun _ => most)
      fun _ => [] := by
  refine course.loop (fun _ => []) (fun _ => []) () fun {few} _ _ => course.peek fun kind => ?_
  split
  · split
    · exact course.advance nofun (course.stop rfl rfl)
    · exact course.stop rfl rfl
  · exact course.stop rfl rfl

/-- A list consumes its closing mark, and after each item a comma or nothing more. -/
theorem commaList (close : String) (items : ∀ {few : Nat}, few ≤ most → course.one few item item') :
    course.reads none none most [] (commaList close item) (Reader.commaList close item')
      (fun _ => most - 1) id := by
  refine course.andThen (course.loop List.reverse List.reverse [] fun {few} hf _ => course.isAt
    (course.stop rfl rfl) ?_) fun _ => course.after (course.expect close) fun _ =>
      course.stop rfl rfl
  exact course.andThen (items hf) fun _ => course.ifEat nofun
    (course.pure reverse_cons (by simp only [Turn.leaves]; omega))
    (course.pure reverse_cons (by simp only [Turn.leaves]; omega))

/-- Items up to a closing mark: each of them consumes a token. -/
theorem itemsUntil (close : String) (separators : List String)
    (items : ∀ {few : Nat}, few ≤ most → course.one few item item') :
    course.reads none none most [] (itemsUntil close separators item)
      (Reader.itemsUntil close separators item') (fun _ => most) id := by
  refine course.andThen (course.loop List.reverse List.reverse [] fun {few} hf _ => course.ifEat
    nofun (course.pure rfl (Nat.sub_le _ _)) ?_) fun _ => course.stop rfl rfl
  exact course.andThen (items hf) fun _ => course.after (course.skipMarks separators) fun _ =>
    course.pure reverse_cons (Nat.le_refl _)

/-- An arm of a switch with a test. -/
theorem switchCase
    (expressions : ∀ {few : Nat}, few ≤ most →
      course.one few grammar.expression grammar'.expression) :
    course.one most grammar.switchCase grammar'.switchCase :=
  course.opened fun _ _ _ hs => course.after (course.expectKeyword _) fun _ =>
    course.andThen (expressions (by omega)) fun _ => course.after (course.expect _) fun _ =>
      course.andThen (expressions (by omega)) fun _ => course.complete hs rfl rfl (by omega)

/-- A switch is read like all else if it does not matter which nodes are at hand. -/
theorem switch_of_free
    (free : ∀ {most : Nat} {handed : List NodeId} (arms : Grammar.Arms),
      course.reads none none most handed (Pure.pure arms) (Pure.pure arms) (fun _ => most)
        Grammar.Arms.ids)
    (expressions : ∀ {few : Nat}, few ≤ most →
      course.one few grammar.expression grammar'.expression) (hs : course.starts few start start')
    (hf : most ≤ few) :
    course.reads (some start) none most [] (grammar.switch start) (grammar'.switch start')
      (fun _ => most - 1) fun id => [id] := by
  have arm {less : Nat} (hl : less ≤ most) (arms : Grammar.Arms) : course.reads none none less
      arms.ids (grammar.switchArm arms) (grammar'.switchArm arms) (fun _ => less - 1)
      Grammar.Arms.ids :=
    course.ifEat nofun (course.after (course.expect _) fun _ => course.andThen
        (expressions (by omega)) fun _ => course.fewer (free _) (by omega))
      (course.andThen (course.switchCase fun _ => expressions (by omega)) fun _ =>
        course.fewer (free _) (by omega))
  refine course.andThen (course.withProcLiterals (expressions (Nat.le_refl _))) fun value =>
    course.after (course.expect _) fun _ => course.andThen (course.withProcLiterals
      (course.loop Grammar.Arms.ids Grammar.Arms.ids ⟨[], none⟩ fun _ arms => ?_)) fun _ =>
        course.complete hs (by simp [Form.children, Grammar.Arms.ids]) rfl (by omega)
  exact course.ifEat nofun (course.pure rfl (Nat.sub_le _ _)) (course.taking (arm (by omega) arms)
    fun _ => course.after (course.skipMarks _) fun _ => course.stop rfl rfl)

end Steps

/-- Such forms may be grown too. -/
def Steps.Grows (course : Steps) (allowed : Form → Bool) : Prop :=
  ∀ (form : Form) {most few start start' : Nat}, allowed form = true →
    course.starts few start start' → most ≤ few - 1 →
    course.reads (some start) none most form.children (Reader.grow form start)
      (Reader.grow form start') (fun _ => most) fun id => [id]

/-- What is known of two readings side by side, and how it is kept. -/
structure Course extends Steps where
  /-- The arms of a switch are not taken in the order in which they are read. -/
  switch {grammar grammar' : Grammar} {most few start start' : Nat} :
    (∀ {few : Nat}, few ≤ most → toSteps.one few grammar.expression grammar'.expression) →
    starts few start start' → most ≤ few →
    reads (some start) none most [] (grammar.switch start) (grammar'.switch start')
      (fun _ => most - 1) fun id => [id]

end Reader

/-- What is known of the readings of two grammars that contain each other, where at most `depth`
tokens are left. -/
structure Grammar.Followed (course : Reader.Course) (grammar grammar' : Grammar) (depth : Nat) :
    Prop where
  expression {most : Nat} : most ≤ depth → course.one most grammar.expression grammar'.expression
  unary {most : Nat} : most ≤ depth → course.one most grammar.unary grammar'.unary
  typeExpression {most : Nat} : most ≤ depth →
    course.one most grammar.typeExpression grammar'.typeExpression
  typeMember {most : Nat} : most ≤ depth → course.one most grammar.typeMember grammar'.typeMember
  block {most : Nat} : most ≤ depth → course.one most grammar.block grammar'.block

namespace Grammar.Followed

variable {course : Reader.Course} {grammar grammar' : Grammar} {depth most few start start' : Nat}

section Types

variable (followed : Followed course grammar grammar' depth)
include followed

section

variable (hm : most ≤ depth + 1)
include hm

theorem ascription : course.reads none none most [] grammar.ascription
    grammar'.ascription (fun _ => most) Option.toList :=
  course.ifEat nofun (course.andThen (followed.typeExpression (by omega)) fun _ =>
    course.pure rfl (by omega)) (course.stop rfl rfl)

/-- A type parameter, with or without a bound. -/
theorem typeParam : course.one most grammar.typeParam grammar'.typeParam :=
  course.opened fun _ _ _ hs => course.after course.identifier fun _ =>
    course.ifEat nofun (course.andThen (followed.typeExpression (by omega)) fun _ =>
      course.complete hs rfl rfl (by omega)) (course.complete hs rfl rfl (by omega))

theorem typeParams : course.reads none none most [] grammar.typeParams
    grammar'.typeParams (fun _ => most) id :=
  course.ifEat nofun (course.fewer (course.commaList _ fun hf => followed.typeParam (by omega))
    (by omega)) (course.stop rfl rfl)

theorem param : course.one most grammar.param grammar'.param :=
  course.opened fun _ _ _ hs => course.after course.identifier fun _ =>
    course.andThen (followed.ascription (by omega)) fun _ => course.complete hs rfl rfl (by omega)

theorem params : course.reads none none most [] grammar.params
    grammar'.params (fun _ => most - 1) id :=
  course.after (course.expect _) fun _ =>
    course.fewer (course.commaList _ fun hf => followed.param (by omega)) (by omega)

theorem typeArgs : course.reads none none most [] grammar.typeArgs
    grammar'.typeArgs (fun _ => most - 1) id :=
  course.after (course.expect _) fun _ =>
    course.fewer (course.commaList _ fun hf => followed.typeExpression (by omega)) (by omega)

end

/-- The type of a function or a procedure, after its parameters. -/
theorem functionType (hs : course.starts few start start') (hm : most ≤ depth + 1)
    (hf : most ≤ few) (typeParams params : List NodeId) :
    course.reads (some start) none most (typeParams ++ params)
      (grammar.functionType start typeParams params)
      (grammar'.functionType start' typeParams params) (fun _ => most - 1) fun id => [id] :=
  course.ifEat nofun (course.andThen (followed.typeExpression (by omega)) fun _ =>
      course.complete hs rfl rfl (by omega))
    (course.after (course.expect _) fun _ => course.after (course.expect _) fun _ =>
      course.complete hs rfl rfl (by omega))

/-- A type that starts with a word. -/
theorem wordType (hs : course.starts few start start') (hm : most ≤ depth) (hf : most ≤ few - 1)
    (name : String) : course.reads (some start) none most [] (grammar.wordType start name)
      (grammar'.wordType start' name) (fun _ => most) fun id => [id] := by
  unfold Grammar.wordType
  split
  · exact course.complete hs rfl rfl (by omega)
  refine course.isAt ?_ (course.complete hs rfl rfl (by omega))
  rw [if_pos rfl, if_pos rfl]
  split
  · refine course.advance nofun (course.andThen (followed.typeExpression (by omega)) fun _ =>
      course.after (course.expect _) fun _ => ?_)
    split <;> exact course.complete hs rfl rfl (by omega)
  · exact course.forget (course.andThen (followed.typeArgs (by omega)) fun _ =>
      course.complete hs rfl rfl (by omega))

theorem objectTypeEntry (hm : most ≤ depth + 1) :
    course.one most grammar.objectTypeEntry grammar'.objectTypeEntry :=
  course.opened fun _ _ _ hs => course.after course.propertyName fun _ =>
    course.after course.eatKind fun _ => course.after (course.expect _) fun _ =>
      course.andThen (followed.typeExpression (by omega)) fun _ =>
        course.complete hs rfl rfl (by omega)

section

variable {kind : TokenKind} (inside : kind ≠ .endOfFile) (hs : course.starts few start start')
  (hm : most ≤ depth + 1) (hf : most ≤ few)
include inside hs hm hf

/-- An indexer is told from an object type by its second token. -/
theorem indexerType : course.reads (some start) (some kind) most [] (grammar.indexerType start)
      (grammar'.indexerType start') (fun _ => most - 1) fun id => [id] :=
  course.advance inside (course.after course.pass fun _ =>
    course.andThen (followed.typeExpression (by omega)) fun _ =>
      course.after (course.expect _) fun _ => course.after (course.expect _) fun _ =>
        course.andThen (followed.typeExpression (by omega)) fun _ =>
          course.after course.eatKind fun _ => course.after (course.expect _) fun _ =>
            course.complete hs rfl rfl (by omega))

/-- Where no function type can be read, the parenthesis is still at the front. -/
theorem parenthesizedType :
    course.reads (some start) (some kind) most [] (grammar.parenthesizedType start)
      (grammar'.parenthesizedType start') (fun _ => most - 1) fun id => [id] := by
  refine course.attempt (course.andThen (followed.params hm) fun params => ?_)
    (fun params => course.fewer (followed.functionType hs (by omega) (by omega) [] params)
      (by omega))
    (course.advance inside (course.andThen (followed.typeExpression (by omega)) fun _ =>
      course.after (course.expect _) fun _ => course.complete hs rfl rfl (by omega)))
  refine course.after course.look fun arrow => course.after course.look fun brace => ?_
  split
  · exact course.pure rfl (Nat.sub_le _ _)
  · exact course.unexpected _

end

omit followed in
theorem negativeType (hs : course.starts few start start') (hf : most ≤ few) :
    course.reads (some start) none most [] (Grammar.negativeType start)
      (Grammar.negativeType start') (fun _ => most - 1) fun id => [id] := by
  refine course.peek fun kind => ?_
  split
  · exact course.advance nofun (course.complete hs rfl rfl (by omega))
  · exact course.unexpected _

/-- A type that no mark follows: one case for each kind of token at the front. -/
theorem typeAtom (hm : most ≤ depth + 1) : course.one most grammar.typeAtom grammar'.typeAtom := by
  refine course.opened fun hf start start' hs => course.peek fun kind => ?_
  split
  · exact course.advance nofun (followed.wordType hs (by omega) (by omega) _)
  iterate 4 exact course.advance nofun (course.complete hs rfl rfl (by omega))
  · exact course.advance nofun (course.fewer (negativeType hs (by omega)) (by omega))
  · exact course.advance nofun (course.complete hs rfl rfl (by omega))
  · exact course.advance nofun (course.andThen (course.commaList _ fun hf =>
      followed.typeExpression (by omega)) fun _ => course.complete hs rfl rfl (by omega))
  · refine course.peekSecond fun second => ?_
    split
    · exact followed.indexerType nofun hs (by omega) (by omega)
    · exact course.advance nofun (course.andThen (course.commaList _ fun hf =>
        followed.objectTypeEntry (by omega)) fun _ => course.complete hs rfl rfl (by omega))
  · exact course.andThen (followed.typeParams (by omega)) fun _ =>
      course.andThen (followed.params (by omega))
      fun _ => course.fewer (followed.functionType hs (by omega) (by omega) _ _) (by omega)
  · exact followed.parenthesizedType nofun hs (by omega) (by omega)
  · exact course.unexpected _

/-- A member of a union, with brackets of arrays behind it. -/
theorem readTypeMember (hm : most ≤ depth + 1) :
    course.one most grammar.readTypeMember grammar'.readTypeMember := by
  refine course.opened fun hf start start' hs => course.ifEat nofun
    (course.andThen (followed.typeMember (by omega)) fun _ => course.complete hs rfl rfl (by omega))
    (course.andThen (followed.typeAtom (by omega)) fun atom =>
      course.loop (fun id => [id]) _ atom fun _ element => ?_)
  refine course.isAt (course.peekSecond fun second => ?_) (course.peekSecond fun second => ?_)
  · split
    · exact course.advance nofun (course.after course.pass fun _ =>
        course.taking (course.grow hs rfl rfl (by omega)) fun _ => course.stop rfl rfl)
    · exact course.stop rfl rfl
  · exact course.stop rfl rfl

/-- A type expression, with its members. -/
theorem readTypeExpression (hm : most ≤ depth + 1) :
    course.one most grammar.readTypeExpression grammar'.readTypeExpression := by
  refine course.opened fun hf start start' hs => course.after course.eatKind fun _ =>
    course.andThen (followed.readTypeMember (by omega)) fun first => course.isAt ?_
      (course.stop rfl rfl)
  refine course.forget (course.taking (course.loop List.reverse List.reverse [first]
    fun _ members => ?_) fun _ => course.complete hs rfl rfl (by omega))
  exact course.ifEat nofun (course.andThen (followed.readTypeMember (by omega)) fun _ =>
    course.pure reverse_cons (Nat.sub_le _ _)) (course.stop rfl rfl)

end Types

section Expressions

variable (followed : Followed course grammar grammar' depth) {handed : List NodeId}
  {kind : TokenKind}
include followed

/-- A name, its type and its value. -/
theorem definition (hm : most ≤ depth + 1) : course.reads none none most [] grammar.definition
    grammar'.definition (fun _ => most - 1) Definition.ids :=
  course.after course.identifier fun _ => course.andThen (followed.ascription (by omega)) fun _ =>
    course.after (course.expect _) fun _ => course.andThen (followed.expression (by omega))
      fun _ => course.pure rfl (by omega)

theorem args (hm : most ≤ depth + 1) : course.reads none none most [] grammar.args grammar'.args
    (fun _ => most - 1) id :=
  course.after (course.expect _) fun _ => course.withProcLiterals
    (course.fewer (course.commaList _ fun hf => followed.expression (by omega)) (by omega))

theorem condition (hm : most ≤ depth) : course.one most grammar.condition grammar'.condition :=
  course.withProcLiterals (followed.expression hm)

theorem bracedExpression (hm : most ≤ depth + 1) :
    course.one most grammar.bracedExpression grammar'.bracedExpression :=
  course.after (course.expect _) fun _ =>
    course.andThen (course.withProcLiterals (followed.expression (by omega))) fun _ =>
      course.after (course.expect _) fun _ => course.pure rfl (by omega)

section

variable (hm : most ≤ depth)
  (outcomes : ∀ {few : Nat}, few ≤ most → course.one few outcome outcome')
include hm outcomes

theorem branch : course.one most (grammar.branch outcome) (grammar'.branch outcome') :=
  course.opened fun _ _ _ hs => course.andThen (followed.condition (by omega)) fun _ =>
    course.andThen (outcomes (by omega)) fun _ => course.complete hs rfl rfl (by omega)

/-- The branches of a condition. Each of them has a token of its own. -/
theorem branches :
    course.reads none none most [] (grammar.branches outcome) (grammar'.branches outcome')
      (fun _ => most) fun arms => arms.cases ++ arms.otherwise.toList := by
  refine course.loop List.reverse _ [] fun _ cases =>
    course.andThen (followed.branch (by omega) fun _ => outcomes (by omega)) fun _ =>
      course.ifEat nofun (course.ifEat nofun (course.pure reverse_cons ?_)
        (course.andThen (outcomes (by omega)) fun _ => course.pure (by simp [Reader.Turn.ids]) ?_))
        (course.pure (by simp [Reader.Turn.ids]) ?_)
  all_goals
    simp only [Reader.Turn.leaves]
    omega

end

/-- The body of a function literal, after its head. -/
theorem functionBody (hs : course.starts few start start') (hm : most ≤ depth) (hf : most ≤ few)
    (typeParams params : List NodeId) (result : Option NodeId) :
    course.reads (some start) none most (typeParams ++ params ++ result.toList)
      (grammar.functionBody start typeParams params result)
      (grammar'.functionBody start' typeParams params result) (fun _ => most - 1)
      fun id => [id] := by
  refine course.ifEat nofun (course.andThen (followed.expression (by omega)) fun _ =>
    course.complete hs rfl rfl (by omega)) (course.after course.look fun brace => ?_)
  split
  · next opens =>
    obtain rfl := Option.isNone_iff_eq_none.mp (Bool.and_eq_true_iff.mp opens).1
    exact course.andThen (followed.block hm) fun _ =>
      course.complete hs (by simp [Form.children]) rfl (by omega)
  · exact course.unexpected _

/-- The head of a function literal, if an arrow or a block follows. -/
theorem lambdaHead (hm : most ≤ depth + 1) : course.reads none none most [] grammar.lambdaHead
    grammar'.lambdaHead (fun _ => most - 1) fun head => head.1 ++ head.2.toList := by
  refine course.andThen (followed.params hm) fun params =>
    course.andThen (followed.ascription (by omega)) fun result => course.after course.look
      fun brace => course.after course.allowsProcLiterals fun allowed =>
        course.after course.look fun arrow => ?_
  split
  · exact course.stop rfl rfl
  · exact course.unexpected _

/-- Where no function literal can be read, the parenthesis is still at the front. -/
theorem parenthesized (inside : kind ≠ .endOfFile) (hs : course.starts few start start')
    (hm : most ≤ depth + 1) (hf : most ≤ few) :
    course.reads (some start) (some kind) most [] (grammar.parenthesized start)
      (grammar'.parenthesized start') (fun _ => most - 1) fun id => [id] :=
  course.attempt (followed.lambdaHead hm)
    (fun _ => course.fewer (followed.functionBody hs (by omega) (by omega) [] _ _) (by omega))
    (course.advance inside (course.andThen
      (course.withProcLiterals (followed.expression (by omega))) fun _ =>
        course.after (course.expect _) fun _ => course.complete hs rfl rfl (by omega)))

theorem objectEntry (hm : most ≤ depth + 1) :
    course.one most grammar.objectEntry grammar'.objectEntry :=
  course.opened fun _ _ _ hs => course.after course.propertyName fun _ =>
    course.ifEat nofun (course.andThen (followed.expression (by omega)) fun _ =>
        course.complete hs rfl rfl (by omega))
      (course.taking (course.grow hs rfl rfl (by omega)) fun _ =>
        course.complete hs rfl rfl (by omega))

/-- A function with one bare parameter, or a name alone. -/
theorem named (inside : kind ≠ .endOfFile) (hs : course.starts few start start')
    (hm : most ≤ depth + 1) (hf : most ≤ few) (name : String) :
    course.reads (some start) (some kind) most [] (grammar.named start name)
      (grammar'.named start' name) (fun _ => most - 1) fun id => [id] := by
  refine course.peekSecond fun next => course.advance inside ?_
  split
  · exact course.taking (course.grow hs rfl rfl (by omega)) fun _ =>
      course.after course.pass fun _ => course.andThen (followed.expression (by omega)) fun _ =>
        course.complete hs rfl rfl (by omega)
  · exact course.complete hs rfl rfl (by omega)

/-- An expression without operators: one case for each kind of token at the front. -/
theorem primary (hm : most ≤ depth + 1) : course.one most grammar.primary grammar'.primary := by
  refine course.opened fun hf start start' hs => course.peek fun kind => ?_
  split
  iterate 7 exact course.advance nofun (course.complete hs rfl rfl (by omega))
  · exact followed.named (by nofun) hs (by omega) (by omega) _
  · exact course.andThen (followed.typeParams (by omega)) fun _ =>
      course.andThen (followed.params (by omega))
      fun _ => course.andThen (followed.ascription (by omega)) fun _ =>
        course.fewer (followed.functionBody hs (by omega) (by omega) _ _ _) (by omega)
  · exact followed.parenthesized nofun hs (by omega) (by omega)
  · exact course.advance nofun (course.andThen (course.withProcLiterals
      (course.commaList _ fun hf => followed.expression (by omega))) fun _ =>
        course.complete hs rfl rfl (by omega))
  · exact course.advance nofun (course.andThen (course.withProcLiterals
      (course.commaList _ fun hf => followed.objectEntry (by omega))) fun _ =>
        course.complete hs rfl rfl (by omega))
  · exact course.advance nofun (course.andThen (followed.branches (by omega) fun hf =>
      followed.bracedExpression (by omega)) fun _ => course.complete hs rfl rfl (by omega))
  · exact course.advance nofun (course.fewer (course.switch
      (fun _ => followed.expression (by omega)) hs (by omega)) (by omega))
  · exact course.advance nofun (course.andThen (followed.definition (by omega)) fun _ =>
      course.after (course.expect _) fun _ => course.andThen (followed.expression (by omega))
        fun _ => course.complete hs (by simp [Form.children, Definition.ids]) rfl (by omega))
  · exact course.unexpected _

theorem bracketed (hm : most ≤ depth) : course.one most grammar.bracketed grammar'.bracketed :=
  course.andThen (course.withProcLiterals (followed.expression hm)) fun _ =>
    course.after (course.expect _) fun _ => course.pure rfl (by omega)

/-- What follows an expression has a token of its own, and takes the expression as a child. -/
theorem postfixForm (hm : most ≤ depth + 1) (subject : NodeId) {next next' : Option Form → Reader α}
    (found : ∀ form : Form, form.isOperation = true → ∀ few ≤ most - 1,
      course.reads since none few form.children (next (some form)) (next' (some form)) left back)
    (missed : course.reads since none most [subject] (next none) (next' none) left back) :
    course.reads since none most [subject] (grammar.postfixForm subject >>= next)
      (grammar'.postfixForm subject >>= next') left back := by
  simp only [Grammar.postfixForm, bind_assoc]
  refine course.peek fun kind => ?_
  split
  · simp only [bind_assoc, pure_bind]
    exact course.andThen (followed.args hm) fun args =>
      found (.invocation subject [] args) rfl _ (Nat.le_refl _)
  · simp only [bind_assoc, Grammar.callTypeArgs]
    refine course.attempt (?_ : course.reads none none most [] _ _ (fun _ => most - 1) id)
      (fun typeArgs => ?_) (course.forget missed)
    · refine course.andThen (followed.typeArgs hm) fun typeArgs =>
        course.after course.look fun call => ?_
      split
      · exact course.stop rfl rfl
      · exact course.unexpected _
    · simp only [bind_assoc, pure_bind]
      exact course.andThen (followed.args (by omega)) fun args =>
        found (.invocation subject typeArgs args) rfl _ (by omega)
  · simp only [bind_assoc, pure_bind]
    exact course.advance nofun (course.after course.propertyName fun name =>
      found (.property subject name false) rfl _ (Nat.sub_le _ _))
  · simp only [bind_assoc]
    refine course.advance nofun (course.after course.eatKind fun opened => ?_)
    split
    · simp only [bind_assoc, pure_bind]
      exact course.andThen (followed.bracketed (by omega)) fun key =>
        found (.index subject key true) rfl _ (by omega)
    · simp only [bind_assoc, pure_bind]
      exact course.after course.propertyName fun name =>
        found (.property subject name true) rfl _ (by omega)
  · simp only [bind_assoc, pure_bind]
    exact course.advance nofun (course.andThen (followed.bracketed (by omega)) fun key =>
      found (.index subject key false) rfl _ (Nat.sub_le _ _))
  · simp only [pure_bind]
    exact course.forget missed

omit followed in
/-- An operator that is found at the front can be consumed. -/
theorem unaryOperatorAt {next next' : Option UnaryOperator → Reader α}
    (found : ∀ operator kind, kind ≠ .endOfFile →
      course.reads since (some kind) most handed (next (some operator)) (next' (some operator)) left
        back) (missed : course.reads since none most handed (next none) (next' none) left back) :
    course.reads since none most handed (Grammar.unaryOperatorAt >>= next)
      (Grammar.unaryOperatorAt >>= next') left back := by
  rw [Grammar.unaryOperatorAt, bind_assoc, bind_assoc]
  refine course.peek fun kind => ?_
  split
  · exact found .not _ nofun
  · exact found .negate _ nofun
  · exact course.forget missed

omit followed in
theorem operatorAt {next next' : Option BinaryOperator → Reader α}
    (found : ∀ operator kind, kind ≠ .endOfFile →
      course.reads since (some kind) most handed (next (some operator)) (next' (some operator)) left
        back) (missed : course.reads since none most handed (next none) (next' none) left back) :
    course.reads since none most handed (Grammar.operatorAt choices >>= next)
      (Grammar.operatorAt choices >>= next') left back := by
  rw [Grammar.operatorAt, bind_assoc, bind_assoc]
  refine course.peek fun kind => ?_
  split
  · next symbol =>
    show course.reads _ _ _ _ (next (choices.lookup symbol)) (next' (choices.lookup symbol)) _ _
    cases choices.lookup symbol with
    | none => exact course.forget missed
    | some operator => exact found operator _ nofun
  · exact course.forget missed

section Operations

variable (operations : course.Grows Form.isOperation)
include operations

section

variable (hm : most ≤ depth + 1)
include hm

/-- An expression with calls and accesses behind it. Each of them takes what was read so far. -/
theorem chain : course.one most grammar.chain grammar'.chain := by
  refine course.opened fun hf start start' hs =>
    course.andThen (followed.primary (by omega)) fun first =>
      course.loop (fun id => [id]) _ first fun _ subject =>
      followed.postfixForm (by omega) subject (fun form operation _ _ => ?_) (course.stop rfl rfl)
  exact course.taking (operations form operation hs (by omega)) fun _ =>
    course.pure rfl (by simpa only [Reader.Turn.leaves])

theorem cast : course.one most grammar.cast grammar'.cast := by
  refine course.opened fun hf start start' hs =>
    course.andThen (followed.chain operations (by omega)) fun first =>
      course.loop (fun id => [id]) _ first fun _ inner => ?_
  exact course.ifEat nofun (course.andThen (followed.typeExpression (by omega)) fun _ =>
    course.taking (operations (.cast _ _) rfl hs (by omega)) fun _ =>
      course.pure rfl (Nat.sub_le _ _)) (course.stop rfl rfl)

theorem readUnary : course.one most grammar.readUnary grammar'.readUnary :=
  course.opened fun _ _ _ hs => unaryOperatorAt
    (fun _ _ inside => course.advance inside (course.andThen (followed.unary (by omega)) fun _ =>
      course.fewer (operations (.unary _ _) rfl hs (by omega)) (by omega)))
    (course.inside (followed.cast operations (by omega)))

/-- Operations by level of precedence: by induction on the levels. -/
theorem operation (levels : List Level) :
    course.one most (grammar.operation levels) (grammar'.operation levels) := by
  induction levels generalizing most with
  | nil => exact followed.readUnary operations hm
  | cons level tighter ih =>
    cases level with
    | operators choices =>
      refine course.opened fun hf start start' hs => course.andThen (ih (by omega)) fun first =>
        course.loop (fun id => [id]) _ first fun _ left => ?_
      exact operatorAt (fun _ _ inside => course.advance inside (course.andThen (ih (by omega))
        fun _ => course.taking (operations (.binary _ _ _) rfl hs (by omega)) fun _ =>
          course.pure rfl (Nat.sub_le _ _))) (course.stop rfl rfl)
    | range =>
      exact course.opened fun hf start start' hs => course.andThen (ih (by omega)) fun first =>
        course.ifEat nofun (course.andThen (ih (by omega)) fun _ =>
          course.fewer (operations (.range _ _) rfl hs (by omega)) (by omega))
          (course.stop rfl rfl)

theorem readExpression : course.one most grammar.readExpression grammar'.readExpression := by
  refine course.opened fun hf start start' hs =>
    course.andThen (followed.operation operations (by omega) _) fun first =>
      course.loop (fun id => [id]) _ first fun _ value => ?_
  exact course.ifEat nofun (course.andThen (followed.operation operations (by omega) _) fun _ =>
    course.taking (operations (.pipe _ _) rfl hs (by omega)) fun _ =>
      course.pure rfl (Nat.sub_le _ _)) (course.stop rfl rfl)

end

end Operations

end Expressions

section Declarations

variable (followed : Followed course grammar grammar' depth)
include followed

/-- A statement starts with its keyword or is an expression. -/
theorem statement (hm : most ≤ depth) : course.one most grammar.statement grammar'.statement := by
  refine course.opened fun {few} hf start start' hs => course.peek fun kind => ?_
  have declares (constant : Bool) : course.reads (some start) none (few - 1) []
      (grammar.localDeclaration start constant) (grammar'.localDeclaration start' constant)
      (fun _ => few - 1) fun id => [id] :=
    course.andThen (followed.definition (by omega)) fun _ => course.complete hs rfl rfl (by omega)
  split
  · exact course.advance nofun (declares true)
  · exact course.advance nofun (declares false)
  · exact course.advance nofun (course.andThen (followed.branches (by omega) fun hf =>
      followed.block (by omega)) fun _ => course.complete hs rfl rfl (by omega))
  · exact course.advance nofun (course.after course.identifier fun _ =>
      course.after (course.expectKeyword _) fun _ =>
        course.andThen (followed.condition (by omega)) fun _ =>
          course.andThen (followed.block (by omega)) fun _ => course.complete hs rfl rfl (by omega))
  · exact course.advance nofun (course.andThen (followed.condition (by omega)) fun _ =>
      course.andThen (followed.block (by omega)) fun _ => course.complete hs rfl rfl (by omega))
  · exact course.forget (course.andThen (followed.expression (by omega)) fun target =>
      course.ifEat nofun (course.andThen (followed.expression (by omega)) fun _ =>
        course.complete hs rfl rfl (by omega)) (course.complete hs rfl rfl (by omega)))

theorem readBlock (hm : most ≤ depth + 1) : course.one most grammar.readBlock grammar'.readBlock :=
  course.opened fun _ _ _ hs => course.after (course.expect _) fun _ =>
    course.andThen (course.withProcLiterals (course.itemsUntil _ _ fun hf =>
      followed.statement (by omega))) fun _ => course.complete hs rfl rfl (by omega)

theorem namedFunc (hm : most ≤ depth + 1) : course.one most grammar.namedFunc grammar'.namedFunc :=
  course.opened fun _ _ _ hs => course.andThen (followed.typeParams (by omega)) fun _ =>
    course.andThen (followed.params (by omega)) fun _ =>
      course.andThen (followed.ascription (by omega)) fun _ =>
        course.after (course.expect _) fun _ => course.andThen (followed.expression (by omega))
          fun _ => course.complete hs rfl rfl (by omega)

theorem namedProc (hm : most ≤ depth + 1) : course.one most grammar.namedProc grammar'.namedProc :=
  course.opened fun _ _ _ hs => course.andThen (followed.typeParams (by omega)) fun _ =>
    course.andThen (followed.params (by omega)) fun _ => course.andThen (followed.block (by omega))
      fun _ => course.complete hs rfl rfl (by omega)

omit followed in
theorem importItem : course.one most Grammar.importItem Grammar.importItem :=
  course.opened fun _ _ _ hs => course.after course.identifier fun _ =>
    course.ifEat nofun
      (course.after course.identifier fun _ => course.complete hs rfl rfl (by omega))
      (course.complete hs rfl rfl (by omega))

omit followed in
/-- Names from a module, or a module as a whole. -/
theorem importDeclaration (hs : course.starts few start start') (hf : most ≤ few) :
    course.reads (some start) none most [] (Grammar.importDeclaration start)
      (Grammar.importDeclaration start') (fun _ => most) fun id => [id] :=
  course.ifEat nofun
    (course.andThen (course.commaList _ fun _ => importItem) fun _ =>
      course.after (course.expectWord _) fun _ => course.after course.stringLiteral fun _ =>
        course.complete hs rfl rfl (by omega))
    (course.after course.stringLiteral fun _ => course.after (course.expectKeyword _) fun _ =>
      course.after course.identifier fun _ => course.complete hs rfl rfl (by omega))

theorem testDeclaration (hs : course.starts few start start') (hm : most ≤ depth)
    (hf : most ≤ few) : course.reads (some start) none most [] (grammar.testDeclaration start)
      (grammar'.testDeclaration start') (fun _ => most) fun id => [id] :=
  course.ifEat nofun
    (course.after course.stringLiteral fun _ => course.after (course.expect _) fun _ =>
      course.andThen (followed.expression (by omega)) fun _ =>
        course.complete hs rfl rfl (by omega))
    (course.ifEat nofun (course.after course.stringLiteral fun _ =>
      course.andThen (followed.block (by omega)) fun _ => course.complete hs rfl rfl (by omega))
      (course.unexpected _))

omit followed in
theorem accessWord : course.quiet most Grammar.accessWord Grammar.accessWord :=
  course.ifEat nofun (course.stop rfl rfl) (course.ifEat nofun
    (course.stop rfl rfl) (course.ifEat nofun (course.stop rfl rfl) (course.unexpected _)))

/-- A member of a store, with its access. -/
theorem storeMember (hm : most ≤ depth) :
    course.one most grammar.storeMember grammar'.storeMember :=
  course.opened fun _ _ _ hs => course.after accessWord fun _ => course.ifEat nofun
    (course.after course.identifier fun _ => course.andThen (followed.namedFunc (by omega))
      fun _ => course.complete hs rfl rfl (by omega))
    (course.ifEat nofun
      (course.after course.identifier fun _ => course.andThen (followed.namedProc (by omega))
        fun _ => course.complete hs rfl rfl (by omega))
      (course.andThen (followed.definition (by omega)) fun _ =>
        course.complete hs rfl rfl (by omega)))

variable (stores : course.Grows Form.isStore)

include stores

/-- A declaration that may be exported. -/
theorem exportable (hs : course.starts few start start') (hm : most ≤ depth) (hf : most ≤ few) :
    course.reads (some start) none most [] (grammar.exportable start) (grammar'.exportable start')
      (fun _ => most - 1) fun id => [id] := by
  have declares (constant exported : Bool) : course.reads (some start) none (most - 1) []
      (grammar.valueDeclaration start constant exported)
      (grammar'.valueDeclaration start' constant exported) (fun _ => most - 1) fun id => [id] :=
    course.andThen (followed.definition (by omega)) fun _ => course.complete hs rfl rfl (by omega)
  refine course.after course.eatKind fun exported => course.peek fun kind => ?_
  split
  · exact course.advance nofun (course.after course.identifier fun _ =>
      course.andThen (followed.typeParams (by omega)) fun _ =>
        course.after (course.expect _) fun _ =>
          course.andThen (followed.typeExpression (by omega)) fun _ =>
            course.complete hs rfl rfl (by omega))
  · exact course.advance nofun (course.after (course.expectKeyword _) fun _ =>
      course.after course.identifier fun _ => course.after (course.expect _) fun _ =>
        course.andThen (followed.typeExpression (by omega)) fun _ =>
          course.after (course.expect _) fun _ => course.complete hs rfl rfl (by omega))
  · exact course.advance nofun (course.after course.identifier fun _ =>
      course.andThen (followed.namedFunc (by omega)) fun _ => course.complete hs rfl rfl (by omega))
  · exact course.advance nofun (course.after course.identifier fun _ =>
      course.andThen (followed.namedProc (by omega)) fun _ => course.complete hs rfl rfl (by omega))
  · exact course.advance nofun (declares true exported)
  · exact course.advance nofun (declares false exported)
  · exact course.advance nofun (course.after course.identifier fun _ =>
      course.after (course.expect _) fun _ => course.andThen (course.itemsUntil _ _ fun hf =>
        followed.storeMember (by omega)) fun _ =>
          course.fewer (stores (.storeDeclaration _ _ _) rfl hs (by omega)) (by omega))
  · exact course.unexpected _

theorem declaration (hm : most ≤ depth) :
    course.one most grammar.declaration grammar'.declaration :=
  course.opened fun _ _ _ hs => course.ifEat nofun (importDeclaration hs (by omega))
    (course.ifEat nofun (course.andThen (followed.block (by omega)) fun _ =>
      course.after course.eatKind fun _ => course.complete hs rfl rfl (by omega))
    (course.ifEat nofun (followed.testDeclaration hs (by omega) (by omega))
      (followed.exportable stores hs (by omega) (by omega))))

/-- The declarations of a file. -/
theorem declarations (hm : most ≤ depth) : course.reads none none most [] grammar.declarations
    grammar'.declarations (fun _ => most) id := by
  refine course.andThen (course.loop List.reverse List.reverse [] fun {few} hf found => course.isAt
    (course.stop rfl rfl) ?_) fun _ => course.stop rfl rfl
  exact course.andThen (followed.declaration stores (by omega)) fun _ =>
    course.after (course.skipMarks _) fun _ => course.pure reverse_cons (Nat.le_refl _)

end Declarations

/-- One more level of nesting. -/
theorem nested_succ {depth inner inner' : Nat} (operations : course.Grows Form.isOperation)
    (followed : Followed course (Grammar.nested inner) (Grammar.nested inner') depth) :
    Followed course (Grammar.nested (inner + 1)) (Grammar.nested (inner' + 1)) (depth + 1) where
  expression := followed.readExpression operations
  unary := followed.readUnary operations
  typeExpression := followed.readTypeExpression
  typeMember := followed.readTypeMember
  block := followed.readBlock

/-- A grammar is deep enough for as many tokens as it may nest readings. -/
theorem nested (operations : course.Grows Form.isOperation) (depth : Nat) :
    Followed course (Grammar.nested depth) (Grammar.nested depth) depth := by
  induction depth with
  | zero =>
    have lost {most : Nat} (hm : most ≤ 0) : course.one most
        (Reader.goAstray .nestedTooDeeply) (Reader.goAstray .nestedTooDeeply) :=
      Nat.le_zero.mp hm ▸ course.tooDeep
    exact ⟨lost, lost, lost, lost, lost⟩
  | succ depth ih => exact ih.nested_succ operations

end Grammar.Followed

end ScriptCheck
