import ScriptCheck.Proofs.ReadingCourses

/-!
# Readings side by side

Two readings of a grammar are compared step by step. A comparison that holds of the single steps
and is kept by the ways of joining them holds of all readers of the grammar, however many tokens
are left and whichever nodes are at hand. The offsets at which nodes start are the only values
that may differ.
-/

namespace ScriptCheck

/-- A comparison of readers that all steps of reading respect, except that stores and operations
may not be grown. -/
structure Reader.Pairing where
  /-- The two readers are alike. -/
  pairs : Reader α → Reader α → Prop
  /-- The two offsets may stand for each other as the start of a node. -/
  starts : Nat → Nat → Prop
  pure (value : α) : pairs (pure value) (pure value)
  bind : pairs first first' →
    (∀ value, pairs (next value) (next' value)) → pairs (first >>= next) (first' >>= next')
  place :
    (∀ start start', starts start start' → pairs (next start) (next' start')) →
      pairs (Reader.place >>= next) (Reader.place >>= next')
  peek : pairs Reader.peek Reader.peek
  peekSecond : pairs Reader.peekSecond Reader.peekSecond
  advance : pairs Reader.advance Reader.advance
  unexpected (wanted : String) :
    pairs (Reader.unexpected wanted : Reader α) (Reader.unexpected wanted)
  grow (hs : starts start start')
    (inner : form.isInner = true) : pairs (Reader.grow form start) (Reader.grow form start')
  attempt : pairs reader reader' → pairs (Reader.attempt reader) (Reader.attempt reader')
  withProcLiterals (allowed : Bool) :
    pairs reader reader' →
      pairs (Reader.withProcLiterals allowed reader) (Reader.withProcLiterals allowed reader')
  allowsProcLiterals : pairs Reader.allowsProcLiterals Reader.allowsProcLiterals
  remaining : pairs Reader.remaining Reader.remaining
  goAstray (astray : fault.isAstray = true) :
    pairs (Reader.goAstray fault : Reader α) (Reader.goAstray fault)

namespace Reader.Pairing

variable (alike : Pairing) {α σ : Type} {turn turn' : σ → Reader (Turn σ α)}

theorem goOn (leftBefore : Nat) (hi : alike.pairs item item') :
    alike.pairs (goOn leftBefore item) (Reader.goOn leftBefore item') := by
  refine alike.bind alike.remaining fun left => ?_
  split
  · exact hi
  · exact alike.goAstray rfl

theorem loopWithin (ht : ∀ state, alike.pairs (turn state) (turn' state)) (limit : Nat)
    (state : σ) :
    alike.pairs (loopWithin turn limit state) (Reader.loopWithin turn' limit state) := by
  induction limit generalizing state with
  | zero => exact alike.goAstray rfl
  | succ limit ih =>
    refine alike.bind alike.remaining fun left => alike.bind (ht state) fun outcome => ?_
    cases outcome with
    | again next => exact alike.goOn left (ih next)
    | finished value => exact alike.pure value

theorem loop (start : σ) (ht : ∀ state, alike.pairs (turn state) (turn' state)) :
    alike.pairs (loop turn start) (Reader.loop turn' start) :=
  alike.bind alike.remaining fun limit => alike.loopWithin ht limit start

/-- A comparison of readers is kept through the whole course of a reading. -/
def steps : Steps where
  reads := fun _ _ _ _ reader reader' _ _ => alike.pairs reader reader'
  starts := fun _ => alike.starts
  pure := fun _ _ => alike.pure _
  fewer := fun same _ => same
  andThen := alike.bind
  taking := alike.bind
  place := fun next => alike.place (next (Nat.le_refl _))
  peek := alike.bind alike.peek
  peekSecond := alike.bind alike.peekSecond
  advance := fun _ next => alike.bind alike.advance fun _ => next
  pass := alike.advance
  unexpected := alike.unexpected
  grow := fun hs _ inner _ => alike.grow hs inner
  attempt := fun tried found missed => alike.bind (alike.attempt tried) fun outcome => by
    cases outcome with
    | none => exact missed
    | some value => exact found value
  withProcLiterals := alike.withProcLiterals _
  allowsProcLiterals := alike.allowsProcLiterals
  loop := fun _ _ start turns => alike.loop start (turns (Nat.le_refl _))
  tooDeep := alike.goAstray rfl

def course : Course where
  toSteps := alike.steps
  switch := alike.steps.switch_of_free fun _ => alike.pure _

theorem operations (grows : ∀ {start start' : Nat} (form : Form), form.isStore = false →
      alike.starts start start' → alike.pairs (Reader.grow form start) (Reader.grow form start')) :
    alike.course.Grows Form.isOperation :=
  fun form _ _ _ _ operation hs _ => grows form (Form.isStore_of_isOperation operation) hs

/-- The declarations of a file are read alike if stores are. -/
theorem declarations (followed : Grammar.Followed alike.course grammar grammar' depth)
    (stores : ∀ {start start' : Nat} (form : Form), form.isStore = true →
      alike.starts start start' → alike.pairs (Reader.grow form start) (Reader.grow form start')) :
    alike.pairs grammar.declarations grammar'.declarations :=
  followed.declarations (fun form _ _ _ _ store hs _ => stores form store hs) (Nat.zero_le depth)

end Reader.Pairing

end ScriptCheck
