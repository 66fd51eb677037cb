import ScriptCheck.Proofs.Grove

/-!
# Nodes are read in order

A reader is handed some loose nodes and hands back others. The nodes that it is not handed stay
as they are, which is what lets the facts about readers be put together like the readers
themselves. A node is opened at a token that is still to be read, and completed when some tokens
have been read: so it starts before its children and is not empty.
-/

namespace ScriptCheck

open List

/-- How far the tokens have been read. -/
structure Cursor (tokens : List Token) (progress : Progress) : Prop where
  orderly : Token.Orderly tokens
  position : ∃ eaten, tokens = eaten ++ progress.pending ∧
    (∀ token ∈ eaten, token.span.start < token.span.stop ∧ token.span.stop ≤ progress.reached) ∧
    ∀ token ∈ progress.pending, progress.reached ≤ token.span.start

/-- A node may be opened at an offset while so many tokens are left. -/
def Opens (tokens : List Token) (few start : Nat) : Prop :=
  ∃ eaten front rest, tokens = eaten ++ front :: rest ∧ few = rest.length + 1 ∧
    start = front.span.start

namespace Cursor

variable {tokens rest : List Token} {progress : Progress} {token : Token}

theorem begin (orderly : Token.Orderly tokens) : Cursor tokens ⟨tokens, 0, #[]⟩ :=
  ⟨orderly, [], rfl, nofun, fun _ _ => Nat.zero_le _⟩

/-- The token at the front is consumed. -/
theorem eat (cursor : Cursor tokens progress) (ahead : progress.pending = token :: rest)
    (inside : token.kind ≠ .endOfFile) :
    Cursor tokens { progress with pending := rest, reached := token.span.stop } := by
  obtain ⟨eaten, split, before, after⟩ := cursor.position
  rw [ahead] at split after
  rw [forall_mem_cons] at after
  have filled := cursor.orderly.filled token (by simp [split]) inside
  refine ⟨cursor.orderly, eaten ++ [token], by simp [split], ?_, fun other ho => ?_⟩
  · refine forall_mem_append.mpr ⟨fun other ho => ?_, by simpa using filled⟩
    have := before other ho
    dsimp only
    omega
  · have ordered := cursor.orderly.before
    rw [split, pairwise_append, pairwise_cons] at ordered
    exact (ordered.2.1.1 other ho).2

/-- A node may be opened at the front. -/
theorem opens (cursor : Cursor tokens progress) (ahead : progress.pending = token :: rest) :
    Opens tokens progress.pending.length token.span.start ∧
      ∀ other ∈ progress.pending, token.span.start ≤ other.span.start := by
  obtain ⟨eaten, split, -, -⟩ := cursor.position
  rw [ahead] at split ⊢
  refine ⟨⟨eaten, token, rest, split, rfl, rfl⟩, forall_mem_cons.mpr ⟨Nat.le_refl _, ?_⟩⟩
  have ordered := cursor.orderly.before
  rw [split, pairwise_append, pairwise_cons] at ordered
  intro other ho
  have := ordered.2.1.1 other ho
  exact Nat.le_trans (Nat.le_of_lt this.1) this.2

/-- Where fewer tokens are left, the place at which a node was opened has been passed. -/
theorem lt_reached (cursor : Cursor tokens progress) (opens : Opens tokens few start)
    (passed : progress.pending.length ≤ few - 1) : start < progress.reached := by
  obtain ⟨eaten, split, before, -⟩ := cursor.position
  obtain ⟨earlier, front, rest, opened, rfl, rfl⟩ := opens
  have consumed : front ∈ eaten := by
    rcases append_eq_append_iff.mp (split.symm.trans opened) with
      ⟨more, rfl, later⟩ | ⟨more, rfl, later⟩
    · rw [later] at passed
      simp only [length_append, length_cons] at passed
      omega
    · cases more with
      | nil =>
        rw [nil_append] at later
        rw [← later, length_cons] at passed
        omega
      | cons first more =>
        cases later
        simp
  have := before front consumed
  omega

end Cursor

/-- What has been read: some loose nodes are at hand, which follow one another from an offset on,
and so many tokens are left at most. -/
structure Plot (tokens : List Token) (most : Nat) (progress : Progress) (start : Nat)
    (rest handed : List NodeId) : Prop
    extends Undergrowth tokens progress.sprouts (rest ++ handed), Cursor tokens progress where
  few : progress.pending.length ≤ most
  strip : Strip progress.sprouts start handed progress.reached
  ahead : ∀ token ∈ progress.pending, start ≤ token.span.start

/-- Reading goes on. -/
structure Grown (progress later : Progress) : Prop
    extends Keeps progress.sprouts later.sprouts where
  reached : progress.reached ≤ later.reached

theorem Grown.refl (progress : Progress) : Grown progress progress :=
  ⟨⟨Nat.le_refl _, fun _ _ => rfl⟩, Nat.le_refl _⟩

theorem Grown.trans (first : Grown progress between) (second : Grown between later) :
    Grown progress later where
  size := Nat.le_trans first.size second.size
  spans id known := (second.spans id (Nat.lt_of_lt_of_le known first.size)).trans
    (first.spans id known)
  reached := Nat.le_trans first.reached second.reached

/-- A token is consumed. -/
theorem Plot.eat {tokens after : List Token} (plot : Plot tokens most progress start rest handed)
    (ahead : progress.pending = token :: after) (inside : token.kind ≠ .endOfFile) :
    Plot tokens (most - 1) { progress with pending := after, reached := token.span.stop } start rest
        handed ∧
      Grown progress { progress with pending := after, reached := token.span.stop } := by
  have few := plot.few
  rw [ahead, length_cons] at few
  have cursor := plot.toCursor.eat ahead inside
  obtain ⟨eaten, split, -, later⟩ := plot.position
  have wide := plot.orderly.filled token (by simp [split, ahead]) inside
  have passed := later token (by simp [ahead])
  have reached : progress.reached ≤ token.span.stop := by omega
  refine ⟨{ plot.toUndergrowth, cursor with
    few := by dsimp only; omega
    strip := plot.strip.widen (Nat.le_refl _) reached
    ahead := fun other ho => plot.ahead other ?_ }, ⟨⟨Nat.le_refl _, fun _ _ => rfl⟩, reached⟩⟩
  rw [ahead]
  exact mem_cons_of_mem _ ho

/-- The node that was opened is completed. -/
theorem Plot.grow {most few start : Nat} (plot : Plot tokens most progress start rest order)
    (opens : Opens tokens few start) (passed : most ≤ few - 1) (inner : form.isModule = false)
    (children : form.children.Subperm order)
    (sequences : ∀ sequence ∈ form.sequences, sequence.Sublist order)
    (all : order ⊆ form.children ∨
      Doubled tokens progress.sprouts ⟨form, ⟨start, progress.reached⟩⟩) :
    Plot tokens most { progress with
        sprouts := progress.sprouts.push ⟨form, ⟨start, max progress.reached start⟩⟩ } start rest
        [progress.sprouts.size] ∧
      Grown progress { progress with
        sprouts := progress.sprouts.push ⟨form, ⟨start, max progress.reached start⟩⟩ } := by
  have filled := plot.lt_reached opens (Nat.le_trans plot.few passed)
  rw [Nat.max_eq_left (Nat.le_of_lt filled)]
  have keeps := Keeps.push progress.sprouts ⟨form, ⟨start, progress.reached⟩⟩
  refine ⟨{ plot.toUndergrowth.push inner filled plot.strip children sequences all, plot.toCursor with
    position := plot.position
    few := plot.few
    ahead := plot.ahead
    strip := ⟨?_, pairwise_singleton _ _⟩ }, ⟨keeps, Nat.le_refl _⟩⟩
  intro id hi
  rw [mem_singleton.mp hi, spanAt_size]
  exact ⟨Nat.le_refl _, filled, Nat.le_refl _⟩

namespace Reader

variable {tokens : List Token} {α β σ : Type} {since : Option Nat} {seen : Option TokenKind}
  {kind : TokenKind} {most : Nat} {handed : List NodeId} {reader : Reader α}
  {left left' : α → Nat} {back : α → List NodeId} {between : β → List NodeId}
  {next : TokenKind → Reader α} {word : Token}

/-- A reader that takes the given loose nodes and hands back others. -/
def Gathers (tokens : List Token) (since : Option Nat) (seen : Option TokenKind) (most : Nat)
    (handed : List NodeId) (reader : Reader α) (left : α → Nat) (back : α → List NodeId) : Prop :=
  ∀ surroundings progress value later start rest,
    reader surroundings progress = .ok (value, later) →
    Plot tokens most progress start rest handed → (∀ opened ∈ since, start = opened) →
    (∀ kind ∈ seen, (progress.pending.map Token.kind).head? = some kind) →
      Plot tokens (left value) later start rest (back value) ∧ Grown progress later

/-- A reader is run while other nodes are at hand. Those that it hands back come behind them. -/
theorem Gathers.step (gathers : Gathers tokens none none most [] reader left back)
    (plot : Plot tokens most progress start rest handed)
    (run : reader surroundings progress = .ok (value, later)) :
    Plot tokens (left value) later start rest (handed ++ back value) ∧ Grown progress later ∧
      Strip later.sprouts progress.reached (back value) later.reached := by
  -- the nodes at hand end before the place that is reached
  have inner : Plot tokens most progress (max start progress.reached) (rest ++ handed) [] :=
    { plot with
      toUndergrowth := by rw [append_nil]; exact plot.toUndergrowth
      strip := .nil
      ahead := fun token ht => by
        obtain ⟨_, -, -, after⟩ := plot.position
        exact Nat.max_le.mpr ⟨plot.ahead token ht, after token ht⟩ }
  obtain ⟨found, grown⟩ := gathers _ _ _ _ _ _ run inner nofun nofun
  refine ⟨{ found with
    toUndergrowth := by rw [← append_assoc]; exact found.toUndergrowth
    strip := (plot.strip.keep grown.toKeeps).append found.strip (Nat.le_max_left _ _)
      (Nat.le_max_right _ _) grown.reached
    ahead := fun token ht => Nat.le_trans (Nat.le_max_left _ _) (found.ahead token ht) }, grown,
    found.strip.widen (Nat.le_max_right _ _) (Nat.le_refl _)⟩

namespace Gathers

/-- A value is handed back with the nodes at hand. -/
theorem done (he : back value = handed) (hl : most ≤ left value) :
    Gathers tokens since seen most handed (pure value) left back := by
  rintro surroundings progress _ _ start rest ⟨⟩ plot - -
  exact ⟨he ▸ { plot with few := Nat.le_trans plot.few hl }, .refl _⟩

theorem fewer (gathers : Gathers tokens since none most handed reader left back)
    (hl : ∀ value, left value ≤ left' value) :
    Gathers tokens since seen most handed reader left' back := by
  intro surroundings progress value later start rest run plot opened _
  obtain ⟨found, grown⟩ := gathers _ _ _ _ _ _ run plot opened nofun
  exact ⟨{ found with few := Nat.le_trans found.few (hl value) }, grown⟩

theorem taking {next : β → Reader α}
    (gathers : Gathers tokens since none most handed first middle between)
    (goesOn : ∀ value, Gathers tokens since none (middle value) (between value) (next value) left
      back) : Gathers tokens since seen most handed (first >>= next) left back := by
  intro surroundings progress value later start rest run plot opened _
  obtain ⟨between, inner, hf, hn⟩ := bind_ok run
  obtain ⟨found, grown⟩ := gathers _ _ _ _ _ _ hf plot opened nofun
  obtain ⟨found, grown'⟩ := goesOn inner _ _ _ _ _ _ hn found opened nofun
  exact ⟨found, grown.trans grown'⟩

theorem andThen {next : β → Reader α}
    (gathers : Gathers tokens none none most [] first middle between)
    (goesOn : ∀ value, Gathers tokens since none (middle value) (handed ++ between value)
      (next value) left back) :
    Gathers tokens since seen most handed (first >>= next) left back := by
  intro surroundings progress value later start rest run plot opened _
  obtain ⟨between, inner, hf, hn⟩ := bind_ok run
  obtain ⟨found, grown, -⟩ := gathers.step plot hf
  obtain ⟨found, grown'⟩ := goesOn inner _ _ _ _ _ _ hn found opened nofun
  exact ⟨found, grown.trans grown'⟩

/-- What follows on looking at the front knows the token there. -/
theorem front {next : Token → Reader α}
    (goesOn : ∀ surroundings progress value later start rest, ∀ token after,
      progress.pending = token :: after → next token surroundings progress = .ok (value, later) →
      Plot tokens most progress start rest handed → (∀ opened ∈ since, start = opened) →
      (∀ kind ∈ seen, (progress.pending.map Token.kind).head? = some kind) →
        Plot tokens (left value) later start rest (back value) ∧ Grown progress later) :
    Gathers tokens since seen most handed (front >>= next) left back := by
  intro surroundings progress value later start rest run plot opened known
  obtain ⟨between, token, hf, hn⟩ := bind_ok run
  unfold Reader.front at hf
  split at hf
  · cases hf
  · next after hp =>
    cases hf
    exact goesOn _ _ _ _ _ _ token _ hp hn plot opened known

theorem peek (goesOn : ∀ kind, Gathers tokens since (some kind) most handed (next kind) left back) :
    Gathers tokens since seen most handed (peek >>= next) left back := by
  rw [Reader.peek, bind_assoc]
  refine front fun _ _ _ _ _ _ token after ahead run plot opened _ => ?_
  refine goesOn token.kind _ _ _ _ _ _ run plot opened ?_
  simp [ahead]

/-- A node is opened at the front. -/
theorem place {next : Nat → Reader α}
    (goesOn : ∀ {few : Nat}, few ≤ most → ∀ start, Opens tokens few start →
      Gathers tokens (some start) seen few [] (next start) left back) :
    Gathers tokens since seen most [] (place >>= next) left back := by
  rw [Reader.place, bind_assoc]
  refine front fun _ _ _ _ _ _ token after ahead run plot _ known => ?_
  obtain ⟨opens, later⟩ := plot.opens ahead
  have before := plot.ahead token (by simp [ahead])
  obtain ⟨found, grown⟩ := goesOn plot.few token.span.start opens _ _ _ _ token.span.start _ run
    { plot with few := Nat.le_refl _, strip := .nil, ahead := later } (by simp) known
  exact ⟨{ found with
    strip := found.strip.widen before (Nat.le_refl _)
    ahead := fun other ho => Nat.le_trans before (found.ahead other ho) }, grown⟩

theorem peekSecond (goesOn : ∀ kind, Gathers tokens since seen most handed (next kind) left back) :
    Gathers tokens since seen most handed (peekSecond >>= next) left back := by
  intro surroundings progress value later start rest run plot opened known
  obtain ⟨between, kind, hf, hn⟩ := bind_ok run
  unfold Reader.peekSecond at hf
  split at hf <;> cases hf
  all_goals exact goesOn _ _ _ _ _ _ _ hn plot opened known

/-- A token that is not the end marker is consumed. -/
theorem advance {next : Unit → Reader α} (inside : kind ≠ .endOfFile)
    (goesOn : Gathers tokens since none (most - 1) handed (next ()) left back) :
    Gathers tokens since (some kind) most handed (advance >>= next) left back := by
  intro surroundings progress value later start rest run plot opened known
  obtain ⟨between, _, hf, hn⟩ := bind_ok run
  unfold Reader.advance at hf
  split at hf
  · cases hf
  next token after ahead =>
  obtain rfl : token.kind = kind := by simpa [ahead] using known kind rfl
  rw [if_neg inside] at hf
  cases hf
  obtain ⟨eaten, grown⟩ := plot.eat ahead inside
  obtain ⟨found, grown'⟩ := goesOn _ _ _ _ _ _ hn eaten opened nofun
  exact ⟨found, grown.trans grown'⟩

theorem pass : Gathers tokens none none most [] Reader.advance (fun _ => most) fun _ => [] := by
  intro surroundings progress value later start rest run plot _ _
  unfold Reader.advance at run
  split at run
  · cases run
  next token after ahead =>
  split at run
  · cases run
    exact ⟨plot, .refl _⟩
  · next inside =>
    cases run
    obtain ⟨eaten, grown⟩ := plot.eat ahead inside
    exact ⟨{ eaten with few := Nat.le_trans eaten.few (Nat.sub_le _ _) }, grown⟩

/-- A reader that only fails. -/
theorem of_fails (fails : ∀ surroundings progress found, reader surroundings progress ≠ .ok found) :
    Gathers tokens since seen most handed reader left back :=
  fun surroundings progress _ _ _ _ run _ => absurd run (fails surroundings progress _)

/-- The nodes at hand are the children of a new node. -/
theorem grow {form : Form} (opens : Opens tokens few start) (he : form.children = handed)
    (inner : form.isModule = false) (passed : most ≤ few - 1) :
    Gathers tokens (some start) none most handed (Reader.grow form start) (fun _ => most)
      fun id => [id] := by
  rintro surroundings progress _ _ _ rest ⟨⟩ plot opened -
  obtain rfl := opened start rfl
  exact plot.grow opens passed inner (he ▸ List.Subperm.refl _)
    (fun _ hs => he ▸ Form.sublist_of_mem_sequences hs) (.inl (he ▸ List.Subset.refl _))

/-- What is tried hands nodes back if it succeeds. -/
theorem attempt {next : Option β → Reader α}
    (gathers : Gathers tokens none none most [] tried middle between)
    (found : ∀ value, Gathers tokens since none (middle value) (handed ++ between value)
      (next (some value)) left back)
    (missed : Gathers tokens since seen most handed (next none) left back) :
    Gathers tokens since seen most handed (Reader.attempt tried >>= next) left back := by
  intro surroundings progress value later start rest run plot opened known
  obtain ⟨middle, outcome, hf, hn⟩ := bind_ok run
  unfold Reader.attempt at hf
  split at hf
  · next inner between hr =>
    cases hf
    obtain ⟨plot, grown, -⟩ := gathers.step plot hr
    obtain ⟨plot, grown'⟩ := found inner _ _ _ _ _ _ hn plot opened nofun
    exact ⟨plot, grown.trans grown'⟩
  · split at hf
    · cases hf
    · cases hf
      exact missed _ _ _ _ _ _ hn plot opened known

theorem withProcLiterals (gathers : Gathers tokens since none most handed reader left back) :
    Gathers tokens since seen most handed (Reader.withProcLiterals allowed reader) left back :=
  fun _ _ _ _ _ _ run plot opened _ => gathers _ _ _ _ _ _ run plot opened nofun

theorem allowsProcLiterals :
    Gathers tokens none none most [] Reader.allowsProcLiterals (fun _ => most) fun _ => [] := by
  rintro surroundings progress _ _ start rest ⟨⟩ plot - -
  exact ⟨plot, .refl _⟩

/-- A loop hands back what its last turn does, if each turn leaves to the next one what it
needs. -/
theorem loop (going : σ → List NodeId) (result : β → List NodeId)
    (gathers : ∀ state, Gathers tokens since none most (going state) (turn state) (Turn.leaves most)
      (Turn.ids going result)) (start : σ) :
    Gathers tokens since none most (going start) (Reader.loop turn start) (fun _ => most)
      result := by
  intro surroundings progress value later opened rest run plot since _
  refine @loop_ok _ _ _ _ (fun state reached => Plot tokens most reached opened rest (going state) ∧
      Grown progress reached)
    (fun value reached => Plot tokens most reached opened rest (result value) ∧
      Grown progress reached) (fun state reached outcome next turned held => ?_) _ _ _ _ run
    ⟨plot, .refl _⟩
  obtain ⟨plot, grown⟩ := gathers state _ _ _ _ _ _ turned held.1 since nofun
  cases outcome with
  | again state => exact ⟨{ plot with few := Nat.le_trans plot.few (Nat.sub_le _ _) },
      held.2.trans grown⟩
  | finished value => exact ⟨plot, held.2.trans grown⟩

end Gathers

/-- The steps of readers that gather nodes. -/
def gatheringSteps (tokens : List Token) : Steps where
  reads := fun since seen most handed reader _ left back =>
    Gathers tokens since seen most handed reader left back
  starts := fun few start _ => Opens tokens few start
  pure := .done
  fewer := .fewer
  andThen := .andThen
  taking := .taking
  place := fun gathers => .place fun hf start opens => gathers hf start start opens
  peek := .peek
  peekSecond := .peekSecond
  advance := .advance
  pass := .pass
  unexpected := fun wanted => .of_fails (unexpected_ne_ok wanted)
  grow := fun opens he inner passed => .grow opens he (Form.isModule_of_isInner inner) passed
  attempt := .attempt
  withProcLiterals := .withProcLiterals
  allowsProcLiterals := .allowsProcLiterals
  loop := fun going result start gathers => .loop going result (gathers (Nat.le_refl _)) start
  tooDeep := .of_fails (goAstray_ne_ok _)

/-- What comes of consuming a token of a kind. -/
theorem eatKind_ok (run : eatKind kind surroundings progress = .ok (found, later))
    (inside : kind ≠ .endOfFile) :
    (found = true ∧ ∃ token after, progress.pending = token :: after ∧ token.kind = kind ∧
      later = { progress with pending := after, reached := token.span.stop }) ∨
    found = false ∧ later = progress := by
  obtain ⟨between, here, looked, run⟩ := bind_ok run
  obtain ⟨_, ahead, peeked, looked⟩ := bind_ok looked
  obtain ⟨_, token, fronted, peeked⟩ := bind_ok peeked
  cases peeked
  cases looked
  unfold front at fronted
  split at fronted
  · cases fronted
  next after pending =>
  cases fronted
  by_cases same : token.kind = kind
  · rw [decide_eq_true same, if_pos rfl] at run
    obtain ⟨_, _, advanced, run⟩ := bind_ok run
    cases run
    rw [Reader.advance, pending] at advanced
    simp only [same, inside, if_false] at advanced
    cases advanced
    exact .inl ⟨rfl, token, after, pending, same, rfl⟩
  · rw [decide_eq_false same] at run
    cases run
    exact .inr ⟨rfl, rfl⟩

/-! ### The arms of a switch -/

/-- A default word that has been read, outside of the given nodes. -/
structure Word (tokens : List Token) (progress : Progress) (start : Nat) (ids : List NodeId)
    (word : Token) : Prop where
  listed : word ∈ tokens
  isDefault : word.kind = .keyword "default"
  after : start ≤ word.span.start
  before : word.span.start < progress.reached
  outside : ∀ id ∈ ids, (spanAt progress.sprouts id).contains word.span.start = false

/-- The nodes that are read later do not cover the word. -/
theorem Word.grow {start next : Nat} (read : Word tokens progress start ids word)
    (grown : Grown progress later) (strip : Strip progress.sprouts start ids progress.reached)
    (others : Strip later.sprouts next more later.reached) (behind : progress.reached ≤ next) :
    Word tokens later start (ids ++ more) word where
  listed := read.listed
  isDefault := read.isDefault
  after := read.after
  before := Nat.lt_of_lt_of_le read.before grown.reached
  outside := by
    refine forall_mem_append.mpr ⟨fun id hi => ?_, fun id hi => ?_⟩
    · rw [grown.spans id (lt_size_of_spanAt (strip.inside id hi).2.1)]
      exact read.outside id hi
    · have := others.inside id hi
      have := read.before
      simp only [Span.contains, Bool.and_eq_false_iff, decide_eq_false_iff_not]
      omega

/-- A default word is consumed. -/
theorem Word.new {after : List Token} (plot : Plot tokens most progress start rest ids)
    (ahead : progress.pending = word :: after) (isDefault : word.kind = .keyword "default") :
    Word tokens { progress with pending := after, reached := word.span.stop } start ids word ∧
      progress.reached ≤ word.span.start := by
  obtain ⟨eaten, split, -, later⟩ := plot.position
  have listed : word ∈ tokens := by simp [split, ahead]
  have reached := later word (by simp [ahead])
  have filled := plot.orderly.filled word listed (by rw [isDefault]; nofun)
  refine ⟨⟨listed, isDefault, plot.ahead word (by simp [ahead]), filled, fun id hi => ?_⟩, reached⟩
  have := plot.strip.inside id hi
  simp only [Span.contains, Bool.and_eq_false_iff, decide_eq_false_iff_not]
  omega

/-- The arms of a switch that have been read. They stand in the order in which they were read,
with the defaults that were replaced and the words before all defaults. -/
structure Served (tokens : List Token) (most : Nat) (progress : Progress) (start : Nat)
    (rest : List NodeId) (value : NodeId) (arms : Grammar.Arms) (order : List NodeId)
    (words : List Token) : Prop extends Plot tokens most progress start rest (value :: order) where
  cases : arms.cases.reverse.Sublist order
  otherwise : arms.otherwise.toList.Sublist order
  ids : arms.ids.Subperm order
  count : order.length = arms.cases.length + words.length
  latest : arms.otherwise = none ↔ words = []
  read : ∀ word ∈ words, Word tokens progress start (value :: order) word
  ascending : words.Pairwise fun first second => first.span.start < second.span.start

section Switch

variable {grammar : Grammar} {surroundings : Surroundings} {progress later : Progress}
  {start few : Nat} {rest order : List NodeId} {value : NodeId} {arms arms' : Grammar.Arms}
  {words : List Token}

section

variable (served : Served tokens most progress start rest value arms order words)
include served

/-- No node is read. -/
theorem Served.quiet (plot : Plot tokens most later start rest (value :: order ++ []))
    (grown : Grown progress later) :
    Served tokens most later start rest value arms order words := by
  rw [append_nil] at plot
  refine { served with toPlot := plot, read := fun word hw => ?_ }
  simpa using (served.read word hw).grow grown served.strip Strip.nil (Nat.le_refl _)

section

variable
  (expressions : ∀ {few : Nat}, few ≤ most → (gatheringSteps tokens).one few grammar.expression
    grammar.expression)
include expressions

/-- One more arm is read. -/
theorem Served.arm (run : grammar.switchArm arms surroundings progress = .ok (arms', later)) :
    ∃ order words, Served tokens most later start rest value arms' order words ∧
      Grown progress later := by
  obtain ⟨between, found, eats, goesOn⟩ := bind_ok run
  rcases eatKind_ok eats nofun with ⟨rfl, token, after, ahead, isDefault, rfl⟩ | ⟨rfl, rfl⟩
  · rw [if_pos rfl] at goesOn
    obtain ⟨_, _, colon, goesOn⟩ := bind_ok goesOn
    obtain ⟨_, outcome, reads, ends⟩ := bind_ok goesOn
    cases ends
    have inside : token.kind ≠ .endOfFile := by
      rw [isDefault]
      nofun
    obtain ⟨eaten, grown⟩ := served.toPlot.eat ahead inside
    obtain ⟨plot, grown', -⟩ := Gathers.step ((gatheringSteps tokens).expect _) eaten colon
    rw [append_nil] at plot
    obtain ⟨plot', grown'', strip⟩ := Gathers.step (expressions (by omega)) plot reads
    have whole := grown.trans (grown'.trans grown'')
    obtain ⟨word, passed⟩ := Word.new served.toPlot ahead isDefault
    refine ⟨order ++ [outcome], words ++ [token], { plot' with
      few := by have := plot'.few; omega
      cases := served.cases.trans (sublist_append_left _ _)
      otherwise := sublist_append_right _ _
      ids := (served.cases.append_right _).subperm
      count := by have := served.count; simp only [length_append, length_singleton]; omega
      latest := by simp
      read := forall_mem_append.mpr ⟨fun other ho => ?_, fun other ho => ?_⟩
      ascending := pairwise_append.mpr ⟨served.ascending, pairwise_singleton _ _,
        fun other ho last hl => ?_⟩ }, whole⟩
    · exact (served.read other ho).grow whole served.strip strip (grown.trans grown').reached
    · obtain rfl := mem_singleton.mp ho
      exact word.grow (grown'.trans grown'') eaten.strip strip grown'.reached
    · obtain rfl := mem_singleton.mp hl
      exact Nat.lt_of_lt_of_le (served.read other ho).before passed
  · rw [if_neg Bool.false_ne_true] at goesOn
    obtain ⟨_, arm, reads, ends⟩ := bind_ok goesOn
    cases ends
    obtain ⟨plot, grown, strip⟩ := Gathers.step ((gatheringSteps tokens).switchCase expressions)
      served.toPlot reads
    refine ⟨order ++ [arm], words, { plot with
      few := by have := plot.few; omega
      cases := by rw [reverse_cons]; exact served.cases.append_right _
      otherwise := served.otherwise.trans (sublist_append_left _ _)
      ids := ?_
      count := by have := served.count; simp only [length_append, length_cons, length_nil]; omega
      latest := served.latest
      read := fun other ho => (served.read other ho).grow grown served.strip strip (Nat.le_refl _)
      ascending := served.ascending }, grown⟩
    have swapped : (arms.cases.reverse ++ [arm] ++ arms.otherwise.toList).Perm
        (arms.ids ++ [arm]) := by
      rw [Grammar.Arms.ids, append_assoc, append_assoc]
      exact perm_append_comm.append_left _
    rw [Grammar.Arms.ids, reverse_cons]
    exact swapped.subperm.trans ((subperm_append_right _).mpr served.ids)

/-- All arms of a switch are read. -/
theorem Served.all
    (run : loop (fun arms => do
      if ← eat "\x7d" then return .finished arms
      else
        let next ← grammar.switchArm arms
        skipMarks [","]
        return .again next) arms surroundings progress = .ok (arms', later)) :
    ∃ order words, Served tokens most later start rest value arms' order words ∧
      Grown progress later := by
  refine @loop_ok _ _ _ _ (fun arms reached => ∃ order words,
      Served tokens most reached start rest value arms order words ∧ Grown progress reached)
    (fun arms reached => ∃ order words,
      Served tokens most reached start rest value arms order words ∧ Grown progress reached)
    (fun arms reached outcome next turned held => ?_) _ _ _ _ run ⟨order, words, served, .refl _⟩
  obtain ⟨order, words, served, grown⟩ := held
  obtain ⟨between, found, eats, goesOn⟩ := bind_ok turned
  obtain ⟨plot, eaten, -⟩ := Gathers.step (gatheringSteps tokens).eatKind served.toPlot eats
  have served := served.quiet plot eaten
  cases found with
  | true =>
    cases goesOn
    exact ⟨order, words, served, grown.trans eaten⟩
  | false =>
    rw [if_neg Bool.false_ne_true] at goesOn
    obtain ⟨_, next, read, goesOn⟩ := bind_ok goesOn
    obtain ⟨order, words, served, grown'⟩ := served.arm expressions read
    obtain ⟨_, _, skips, ends⟩ := bind_ok goesOn
    cases ends
    obtain ⟨plot, skipped, -⟩ := Gathers.step ((gatheringSteps tokens).skipMarks _) served.toPlot
      skips
    exact ⟨order, words, served.quiet plot skipped, grown.trans (eaten.trans (grown'.trans skipped))⟩

end

/-- A switch takes all arms that it was read with, or has two default words of its own. -/
theorem Served.taken :
    value :: order ⊆ (Form.switch value arms.cases.reverse arms.otherwise).children ∨
      Doubled tokens progress.sprouts
        ⟨.switch value arms.cases.reverse arms.otherwise, ⟨start, progress.reached⟩⟩ := by
  have known : ∀ child ∈ (Form.switch value arms.cases.reverse arms.otherwise).children,
      child ∈ value :: order :=
    forall_mem_cons.mpr ⟨mem_cons_self, fun child hc => mem_cons_of_mem _ (served.ids.subset hc)⟩
  have own : ∀ word ∈ words, OwnDefault progress.sprouts
      ⟨.switch value arms.cases.reverse arms.otherwise, ⟨start, progress.reached⟩⟩ word :=
    fun word hw =>
      { isDefault := (served.read word hw).isDefault
        inside := by
          have := (served.read word hw).before
          have := (served.read word hw).after
          simp only [Span.contains, Bool.and_eq_true, decide_eq_true_eq]
          omega
        outside := fun child hc => (served.read word hw).outside child (known child hc) }
  by_cases few : words.length ≤ 1
  · have latest : words.length ≤ arms.otherwise.toList.length := by
      cases last : arms.otherwise with
      | none => simp [served.latest.mp last]
      | some _ => simpa using few
    have all : arms.ids.Perm order := served.ids.perm_of_length_le (by
      have := served.count
      simp only [Grammar.Arms.ids, length_append, length_reverse]
      omega)
    exact .inl (cons_subset_cons value all.symm.subset)
  · obtain ⟨first, second, more, rfl⟩ : ∃ first second more, words = first :: second :: more := by
      rcases words with _ | ⟨first, _ | ⟨second, more⟩⟩
      · simp at few
      · simp at few
      · exact ⟨first, second, more, rfl⟩
    have earlier := (pairwise_cons.mp served.ascending).1 second mem_cons_self
    exact .inr ⟨rfl, first, (served.read first (by simp)).listed, second,
      (served.read second (by simp)).listed, Nat.ne_of_lt earlier, own first (by simp),
      own second (by simp)⟩

end

/-- A switch is read. -/
theorem Gathers.switch (expressions : ∀ {few : Nat}, few ≤ most →
      (gatheringSteps tokens).one few grammar.expression grammar.expression)
    (opens : Opens tokens few start) (hf : most ≤ few) :
    Gathers tokens (some start) none most [] (grammar.switch start) (fun _ => most - 1)
      fun id => [id] := by
  intro surroundings progress id later opened rest run plot since _
  obtain rfl := since start rfl
  obtain ⟨_, value, subject, goesOn⟩ := bind_ok run
  obtain ⟨plot, grown, -⟩ := Gathers.step
    (.withProcLiterals (expressions (Nat.le_refl most))) plot subject
  obtain ⟨_, _, opening, goesOn⟩ := bind_ok goesOn
  obtain ⟨plot, grown', -⟩ := Gathers.step ((gatheringSteps tokens).expect _) plot opening
  obtain ⟨_, arms, loops, ends⟩ := bind_ok goesOn
  have none : Served tokens (most - 1 - 1) _ opened rest value ⟨[], none⟩ [] [] :=
    { plot with
      cases := .refl _
      otherwise := .refl _
      ids := .refl _
      count := rfl
      latest := by simp
      read := nofun
      ascending := .nil }
  obtain ⟨order, words, served, grown''⟩ := none.all (fun hf => expressions (by omega)) loops
  cases ends
  have sequences : ∀ sequence ∈ (Form.switch value arms.cases.reverse arms.otherwise).sequences,
      sequence.Sublist (value :: order) := by
    intro sequence hs
    rcases mem_pair.mp hs with rfl | rfl
    · exact served.cases.cons_cons value
    · exact served.otherwise.cons_cons value
  have children : (Form.switch value arms.cases.reverse arms.otherwise).children.Subperm
      (value :: order) := (subperm_cons value).mpr served.ids
  obtain ⟨plot, completed⟩ := served.toPlot.grow opens (by omega) rfl children sequences
    served.taken
  exact ⟨{ plot with few := Nat.le_trans plot.few (Nat.sub_le _ _) },
    grown.trans (grown'.trans (grown''.trans completed))⟩

end Switch

/-- Readers that gather nodes, whatever they are compared with. -/
def gathering (tokens : List Token) : Course where
  toSteps := gatheringSteps tokens
  switch := fun expressions => .switch fun few => expressions few

end Reader

end ScriptCheck
