import ScriptCheck.Proofs.RecastRules
import ScriptCheck.Proofs.Totality

/-!
# Layout does not matter

Two texts that consist of the same tokens are read in step, whatever stands between the tokens
and however they are quoted: the same readings are tried, the same nodes are grown, and a
reading that fails does so at the same token. Their scripts differ in spans only, and since
nothing that is asked about a script depends on spans, they have the same problems.
-/

namespace ScriptCheck

open List

/-- A row of a node table without its span. -/
def Entry.spanless (entry : Entry) : Form × Option NodeId := (entry.form, entry.parent)

/-- The same token of two texts: tokens of one kind at the same index. -/
structure Counterparts (tokens tokens' : List Token) (token token' : Token) : Prop where
  kind : token'.kind = token.kind
  index : ∃ index : Nat, tokens[index]? = some token ∧ tokens'[index]? = some token'

/-- Each token has its counterpart if the kinds of tokens are the same. -/
theorem Counterparts.of_kinds (kinds : tokens'.map Token.kind = tokens.map Token.kind) :
    Forall₂ (Counterparts tokens tokens') tokens tokens' := by
  have lengths : tokens.length = tokens'.length := by simpa using (congrArg List.length kinds).symm
  refine forall₂_iff_get.mpr ⟨lengths, fun index hi hi' => ⟨?_, index, ?_, ?_⟩⟩
  · have same := congrArg (·[index]?) kinds
    simpa [hi, hi'] using same
  · exact getElem?_eq_getElem hi
  · exact getElem?_eq_getElem hi'

namespace Reader

variable {tokens tokens' : List Token}

/-- Two readings that have come equally far: the same tokens are left, and the same nodes were
grown. -/
structure Abreast (tokens tokens' : List Token) (progress progress' : Progress) : Prop where
  pending : Forall₂ (Counterparts tokens tokens') progress.pending progress'.pending
  forms : progress'.sprouts.map Sprout.form = progress.sprouts.map Sprout.form

theorem Abreast.size_eq (abreast : Abreast tokens tokens' progress progress') :
    progress'.sprouts.size = progress.sprouts.size := by
  simpa using congrArg Array.size abreast.forms

/-- Two readings that end alike. -/
inductive SameOutcome (tokens tokens' : List Token) :
    Except SyntaxError (α × Progress) → Except SyntaxError (α × Progress) → Prop
  /-- Both give the same value. -/
  | read (value : α) {progress progress' : Progress}
    (abreast : Abreast tokens tokens' progress progress') :
    SameOutcome tokens tokens' (.ok (value, progress)) (.ok (value, progress'))
  /-- Both fail at the same token. -/
  | failed (fault : SyntaxFault) {token token' : Token}
    (here : Counterparts tokens tokens' token token') :
    SameOutcome tokens tokens' (.error ⟨fault, token.span⟩) (.error ⟨fault, token'.span⟩)
  /-- Both have lost their way. -/
  | lost {error : SyntaxError} (astray : error.fault.isAstray = true) :
    SameOutcome tokens tokens' (.error error) (.error error)

/-- Readers that end alike wherever they have come equally far. -/
def InStep (tokens tokens' : List Token) (reader reader' : Reader α) : Prop :=
  ∀ surroundings progress progress', Abreast tokens tokens' progress progress' →
    SameOutcome tokens tokens' (reader surroundings progress) (reader' surroundings progress')

namespace InStep

theorem bind {next next' : α → Reader β} (starts : InStep tokens tokens' first first')
    (continues : ∀ value, InStep tokens tokens' (next value) (next' value)) :
    InStep tokens tokens' (first >>= next) (first' >>= next') := by
  intro surroundings progress progress' abreast
  show SameOutcome tokens tokens' (first.andThen next surroundings progress)
    (first'.andThen next' surroundings progress')
  unfold andThen
  have outcome := starts surroundings progress progress' abreast
  generalize first surroundings progress = result, first' surroundings progress' = result'
    at outcome ⊢
  cases outcome with
  | read value later => exact continues value _ _ _ later
  | failed fault here => exact .failed fault here
  | lost astray => exact .lost astray

/-- Nodes that start at the same token start at different offsets. -/
theorem place {next next' : Nat → Reader α}
    (continues : ∀ start start', InStep tokens tokens' (next start) (next' start')) :
    InStep tokens tokens' (place >>= next) (Reader.place >>= next') := by
  rintro surroundings ⟨_, _, _⟩ ⟨_, _, _⟩ ⟨pending, forms⟩
  cases pending with
  | nil => exact .lost rfl
  | cons here rest => exact continues _ _ _ _ _ ⟨.cons here rest, forms⟩

theorem peek : InStep tokens tokens' peek Reader.peek := by
  rintro surroundings ⟨_, _, _⟩ ⟨_, _, _⟩ ⟨pending, forms⟩
  cases pending with
  | nil => exact .lost rfl
  | @cons token token' _ _ here rest =>
    show SameOutcome tokens tokens' (.ok (token.kind, _)) (.ok (token'.kind, _))
    rw [here.kind]
    exact .read token.kind ⟨.cons here rest, forms⟩

theorem peekSecond : InStep tokens tokens' peekSecond Reader.peekSecond := by
  rintro surroundings ⟨_, _, _⟩ ⟨_, _, _⟩ ⟨pending, forms⟩
  cases pending with
  | nil => exact .lost rfl
  | @cons token token' _ _ here rest =>
    cases rest with
    | nil =>
      show SameOutcome tokens tokens' (.ok (token.kind, _)) (.ok (token'.kind, _))
      rw [here.kind]
      exact .read token.kind ⟨.cons here .nil, forms⟩
    | @cons second second' _ _ next rest =>
      show SameOutcome tokens tokens' (.ok (second.kind, _)) (.ok (second'.kind, _))
      rw [next.kind]
      exact .read second.kind ⟨.cons here (.cons next rest), forms⟩

theorem advance : InStep tokens tokens' advance Reader.advance := by
  rintro surroundings ⟨_, _, _⟩ ⟨_, _, _⟩ ⟨pending, forms⟩
  cases pending with
  | nil => exact .lost rfl
  | @cons token token' _ _ here rest =>
    simp only [Reader.advance, here.kind]
    split
    · exact .read () ⟨.cons here rest, forms⟩
    · exact .read () ⟨rest, forms⟩

theorem unexpected (wanted : String) :
    InStep tokens tokens' (unexpected wanted : Reader α) (Reader.unexpected wanted) := by
  rintro surroundings ⟨_, _, _⟩ ⟨_, _, _⟩ ⟨pending, forms⟩
  cases pending with
  | nil => exact .lost rfl
  | @cons token token' _ _ here rest =>
    show SameOutcome tokens tokens' (.error ⟨.expected wanted token.kind, token.span⟩)
      (.error ⟨.expected wanted token'.kind, token'.span⟩)
    rw [here.kind]
    exact .failed _ here

/-- The same node is added on both sides, wherever it starts and ends. -/
theorem push (form : Form) (span span' : Progress → Span) :
    InStep tokens tokens'
      (fun _ progress => .ok (progress.sprouts.size,
        { progress with sprouts := progress.sprouts.push ⟨form, span progress⟩ }))
      (fun _ progress => .ok (progress.sprouts.size,
        { progress with sprouts := progress.sprouts.push ⟨form, span' progress⟩ })) := by
  intro surroundings progress progress' abreast
  show SameOutcome tokens tokens' (.ok (progress.sprouts.size, _)) (.ok (progress'.sprouts.size, _))
  rw [abreast.size_eq]
  refine .read _ ⟨abreast.pending, ?_⟩
  simp only [Array.map_push, abreast.forms]

theorem attempt (tried : InStep tokens tokens' reader reader') :
    InStep tokens tokens' (attempt reader) (Reader.attempt reader') := by
  intro surroundings progress progress' abreast
  unfold Reader.attempt
  have outcome := tried surroundings progress progress' abreast
  generalize reader surroundings progress = result, reader' surroundings progress' = result'
    at outcome ⊢
  cases outcome with
  | read value later => exact .read (some value) later
  | failed fault here =>
    show SameOutcome tokens tokens' (if fault.isAstray then _ else _)
      (if fault.isAstray then _ else _)
    split
    · exact .failed fault here
    · exact .read none abreast
  | lost astray =>
    simp only [astray, if_true]
    exact .lost astray

end InStep

/-- Readings of two texts with the same tokens. -/
def inStep (tokens tokens' : List Token) : Pairing where
  pairs := InStep tokens tokens'
  starts := fun _ _ => True
  pure := fun value _ _ _ abreast => .read value abreast
  bind := .bind
  place := fun continues => .place fun start start' => continues start start' trivial
  peek := .peek
  peekSecond := .peekSecond
  advance := .advance
  unexpected := .unexpected
  grow := fun _ _ => .push _ _ _
  attempt := .attempt
  withProcLiterals := fun _ like _ _ _ abreast => like _ _ _ abreast
  allowsProcLiterals := fun surroundings _ _ abreast => .read surroundings.procLiterals abreast
  remaining := fun _ progress _ abreast => by
    rw [Reader.remaining, Reader.remaining, ← abreast.pending.length_eq]
    exact .read progress.pending.length abreast
  goAstray := fun astray _ _ _ _ => .lost astray

end Reader

open Reader

/-- Whole files with the same tokens are read in step. -/
theorem inStep_wholeFile (tokens tokens' : List Token) (depth sourceEnd sourceEnd' : Nat) :
    InStep tokens tokens' ((Grammar.nested depth).wholeFile sourceEnd)
      ((Grammar.nested depth).wholeFile sourceEnd') :=
  .bind ((inStep tokens tokens').declarations
    (.nested ((inStep tokens tokens').operations fun form _ _ => .push form _ _) depth)
    fun form _ _ => .push form _ _)
    fun found => .push (.module found) (fun _ => ⟨0, sourceEnd⟩) fun _ => ⟨0, sourceEnd'⟩

section Tables

/-- The parents of nodes depend on their forms only. -/
theorem parentsOf_eq (sprouts : Array Sprout) :
    parentsOf sprouts = (sprouts.map Sprout.form).toList.zipIdx.foldl
      (fun known row => adopt known row.2 row.1.children)
      (Array.replicate (sprouts.map Sprout.form).size none) := by
  rw [parentsOf, Array.toList_map, zipIdx_map, foldl_map, Array.size_map]
  rfl

/-- Tables of the same nodes have the same rows apart from spans. -/
theorem spanless_ofSprouts (forms : sprouts'.map Sprout.form = sprouts.map Sprout.form)
    (path : FilePath) (root : NodeId) :
    (Script.ofSprouts path sprouts' root).entries.map Entry.spanless =
      (Script.ofSprouts path sprouts root).entries.map Entry.spanless := by
  have rows (sprouts : Array Sprout) :
      (Script.ofSprouts path sprouts root).entries.map Entry.spanless =
        (sprouts.map Sprout.form).mapIdx fun id form =>
          (form, ((parentsOf sprouts)[id]?).join) := by
    refine Array.ext_getElem? fun id => ?_
    simp only [Script.ofSprouts, Array.getElem?_map, Array.getElem?_mapIdx, Option.map_map]
    rfl
  rw [rows, rows, parentsOf_eq, parentsOf_eq, forms]

end Tables

/-- Two scripts of one path that are the same but for the spans of their nodes. -/
structure Script.LaidOutAs (script other : Script) : Prop where
  path : other.path = script.path
  root : other.root = script.root
  rows : other.entries.map Entry.spanless = script.entries.map Entry.spanless

/-- What is told about a problem besides its place in the text. -/
def Problem.told (problem : Problem) : NodeId × ProblemKind × String :=
  (problem.node.id, problem.fault.kind, problem.fault.message)

theorem Problem.told_move (recast : Recast) (problem : Problem) :
    (Movable.move recast problem).told = problem.told := by
  show (problem.node.id, (Movable.move recast problem.fault).kind,
    (Movable.move recast problem.fault).message) = _
  rw [Fault.kind_move, Fault.message_move]
  rfl

namespace Recast

variable {recast : Recast} (kept : ∀ node, ¬recast.Changes node)

include kept

/-- Rules find the moved problems everywhere if all operands stay as they are. -/
theorem problemsWithin_transfers {inspection : Inspection}
    (transfers : inspection.answers.TransfersTo recast.graft inspection.answers)
    (limit : Nat) (node : Node) : Inspection.Refinds recast (inspection.problemsWithin limit node)
      (inspection.problemsWithin limit (Movable.move recast node)) := by
  have keeps : recast.KeepsCalls inspection.answers inspection.answers :=
    ⟨fun _ changes => absurd changes (kept _), fun changes => absurd changes (kept _)⟩
  induction limit generalizing node with
  | zero => exact .pure trivial rfl
  | succ limit ih =>
    have same : (Movable.move recast node).form = node.form := not_not.mp (kept node)
    have children : (Movable.move recast node).children =
        node.children.map (Movable.move recast) := by
      rw [Node.children, Node.children, same, map_map]
      rfl
    unfold Inspection.problemsWithin
    rw [children]
    refine .bind (.mapM fun child _ => ih child) fun below _ => ?_
    have gathered : (Movable.move recast below).flatten = below.flatten.map (Movable.move recast) :=
      map_flatten.symm
    rw [gathered, isEmpty_map]
    let course := Inspection.recasting transfers (!below.flatten.isEmpty) keeps
    refine .bind (course.rules trivial same (fun _ _ _ => trivial) fun target _ _ =>
      course.assignmentTarget trivial (not_not.mp (kept (node.sibling target))))
      fun own _ => .pure trivial ?_
    exact map_append.symm

/-- The problems of a script are the moved ones if all operands stay as they are. -/
theorem problems?_transfers (steady : recast.Steady) (depth : Nat) (script : Script) :
    Inspection.Refinds recast (script.problems? depth)
      ((Movable.move recast script).problems? depth) := by
  have typed : (Deeper.within depth).TransfersTo recast.graft (Deeper.within depth) :=
    within_transfers steady le_rfl (fun _ => rfl) fun _ _ changes => absurd changes (kept _)
  have size : (Movable.move recast script).size = script.size := recast.size script
  unfold Script.problems?
  rw [size, Script.rootNode_recast]
  exact problemsWithin_transfers kept typed script.size script.rootNode

end Recast

section Replacing

variable {script other : Script} (like : script.LaidOutAs other) {imports : Imports}

include like

theorem Script.LaidOutAs.spanless_entry (id : NodeId) :
    (other.node id).entry.spanless = (script.node id).entry.spanless := by
  have rows := congrArg (·[id]?) like.rows
  simp only [Array.getElem?_map] at rows
  have read (script : Script) : (script.node id).entry.spanless =
      (script.entries[id]?.map Entry.spanless).getD (default : Entry).spanless :=
    (Option.getD_map Entry.spanless default _).symm
  rw [read, read, rows]

theorem Script.LaidOutAs.form (id : NodeId) : (other.node id).form = (script.node id).form :=
  congrArg Prod.fst (like.spanless_entry id)

theorem Script.LaidOutAs.recastAs : script.RecastAs other where
  path := like.path
  root := like.root
  whole := by
    rw [rootNode, like.root]
    exact like.form script.root
  size := by
    have sizes := congrArg Array.size like.rows
    simp only [Array.size_map] at sizes
    exact sizes
  parents id := congrArg Prod.snd (like.spanless_entry id)
  forms id := .inl (like.form id)

/-- Scripts that differ in their layout have the same problems at the same nodes. -/
theorem Script.LaidOutAs.told_problems
    (alike : ∀ specifier, imports other specifier = imports script specifier)
    (apart : ∀ importer specifier, imports importer specifier ≠ some script) (depth : Nat) :
    ((other.problems? depth).answer? imports).map (List.map Problem.told) =
      ((script.problems? depth).answer? imports).map (List.map Problem.told) := by
  have loads : script.LoadsAlike other imports imports := by
    intro importer path
    have unchanged : (imports importer path).map (script.swap other) = imports importer path := by
      cases found : imports importer path with
      | none => rfl
      | some target =>
        have differs : target ≠ script := fun same => apart importer path (same ▸ found)
        rw [Option.map_some, swap_of_ne differs]
    rw [unchanged]
    by_cases same : importer = script
    · rw [same, swap_self, alike]
    · rw [swap_of_ne same]
  let recast : Recast := .replacing like.recastAs loads (fun _ => True) (fun _ _ => trivial)
    (fun _ _ => trivial) fun {_ parent} here _ hp => ⟨by
      rw [like.form, ← here, ← Node.script_of_parent hp]
      rfl, fun _ _ => trivial⟩
  have kept (node : Node) : ¬recast.Changes node := by
    refine not_not.mpr ?_
    show ((script.swap other node.script).node node.id).form = (node.script.node node.id).form
    by_cases same : node.script = script
    · rw [same, swap_self, like.form]
    · rw [swap_of_ne same]
  have found := @Recast.answer?_eq recast _ trivial _ _ _ _
    (recast.problems?_transfers kept rfl depth script)
  have moved : Movable.move recast script = other := swap_self
  rw [moved] at found
  change (other.problems? depth).answer? imports =
    ((script.problems? depth).answer? imports).map _ at found
  rw [found, Option.map_map]
  refine congrArg (Option.map · _) (funext fun problems => ?_)
  rw [Function.comp_apply, move_list, map_map]
  exact map_congr_left fun problem _ => Problem.told_move recast problem

end Replacing

/-- A text that is cut into tokens is read from them alone, but for its length. -/
theorem parse_of_tokenize (cut : tokenize source = .ok tokens) (path : FilePath) :
    parse path source = Grammar.scriptOf path (Text.byteLength source.toList) tokens := by
  rw [parse, cut]

/-- Texts with the same tokens are read alike. Either both fail in the same words at the same
token, or both give scripts with the same nodes and links. These have the same problems in
the same words at the same nodes, as long as what they import is the same and does not import
them. -/
theorem layout_immaterial (path : FilePath) {source source' : String} {tokens tokens' : List Token}
    (cut : tokenize source = .ok tokens) (cut' : tokenize source' = .ok tokens')
    (kinds : tokens'.map Token.kind = tokens.map Token.kind) :
    (∃ error error', parse path source = .error error ∧ parse path source' = .error error' ∧
      error'.message = error.message ∧ ∃ (index : Nat) (token token' : Token),
        tokens[index]? = some token ∧ tokens'[index]? = some token' ∧
          error.span = token.span ∧ error'.span = token'.span) ∨
    ∃ script script', parse path source = .ok script ∧ parse path source' = .ok script' ∧
      script'.root = script.root ∧ script'.size = script.size ∧
      (∀ id : NodeId, script'.entries[id]?.map Entry.spanless =
        script.entries[id]?.map Entry.spanless) ∧
      ∀ imports : Imports, (∀ specifier, imports script' specifier = imports script specifier) →
        (∀ importer specifier, imports importer specifier ≠ some script) → ∀ depth,
          ((script'.problems? depth).answer? imports).map (List.map Problem.told) =
            ((script.problems? depth).answer? imports).map (List.map Problem.told) := by
  have lengths : tokens'.length = tokens.length := by simpa using congrArg List.length kinds
  have outcome := inStep_wholeFile tokens tokens' tokens.length (Text.byteLength source.toList)
    (Text.byteLength source'.toList) ⟨true⟩ ⟨tokens, 0, #[]⟩ ⟨tokens', 0, #[]⟩
    ⟨Counterparts.of_kinds kinds, rfl⟩
  have read := parse_of_tokenize cut path
  have read' := parse_of_tokenize cut' path
  unfold Grammar.scriptOf at read read'
  rw [lengths] at read'
  generalize (Grammar.nested tokens.length).wholeFile _ _ ⟨tokens, 0, #[]⟩ = result at outcome read
  generalize (Grammar.nested tokens.length).wholeFile _ _ ⟨tokens', 0, #[]⟩ = result'
    at outcome read'
  cases outcome with
  | failed fault here =>
    obtain ⟨index, ht, ht'⟩ := here.index
    exact .inl ⟨_, _, read, read', rfl, index, _, _, ht, ht', rfl, rfl⟩
  | lost astray =>
    rw [isAstray_of_parse read] at astray
    cases astray
  | @read root progress progress' abreast =>
    have like : (Script.ofSprouts path progress.sprouts root).LaidOutAs
        (Script.ofSprouts path progress'.sprouts root) :=
      ⟨rfl, rfl, spanless_ofSprouts abreast.forms path root⟩
    refine .inr ⟨_, _, read, read', rfl, ?_, fun id => ?_, fun imports => like.told_problems⟩
    · simpa [Script.size] using congrArg Array.size like.rows
    · simpa using congrArg (·[id]?) like.rows

/-- A text with two faults in it. -/
def closelyWritten : String := "import\x7ba\x7dfrom'lib'const x:number='one'+a"

/-- The same text with space between its tokens, a comment and other quotes. -/
def looselyWritten : String :=
  "import \x7b a \x7d from \"lib\" // a\n\nconst x : number = \"one\" + a"

/-- Every specifier names a module that exports nothing. -/
def emptyLibrary : Imports := fun _ _ => some (.empty ⟨"/lib.bgl"⟩)

theorem looselyWritten_told : ∃ script script', parse ⟨"/main.bgl"⟩ closelyWritten = .ok script ∧
    parse ⟨"/main.bgl"⟩ looselyWritten = .ok script' ∧ script'.size = script.size ∧
    ((script.problems? 20).answer? emptyLibrary).map List.length = some 2 ∧
    ((script'.problems? 20).answer? emptyLibrary).map (List.map Problem.told) =
      ((script.problems? 20).answer? emptyLibrary).map (List.map Problem.told) := by
  obtain ⟨kinds, size, count⟩ :
      (tokenize looselyWritten).toOption.map (List.map Token.kind) =
        (tokenize closelyWritten).toOption.map (List.map Token.kind) ∧
      (parse ⟨"/main.bgl"⟩ closelyWritten).toOption.map Script.size = some 8 ∧
      (parse ⟨"/main.bgl"⟩ closelyWritten).toOption.bind (fun script =>
        ((script.problems? 20).answer? emptyLibrary).map List.length) = some 2 := by
    decide +kernel
  cases hc : tokenize closelyWritten with
  | error error =>
    have failed : parse ⟨"/main.bgl"⟩ closelyWritten = .error error := by rw [parse, hc]
    rw [failed] at size
    cases size
  | ok tokens =>
    cases hl : tokenize looselyWritten with
    | error error =>
      rw [hl, hc] at kinds
      cases kinds
    | ok tokens' =>
      rw [hl, hc] at kinds
      rcases layout_immaterial ⟨"/main.bgl"⟩ hc hl (Option.some.inj kinds) with
        ⟨error, -, failed, -⟩ | ⟨script, script', read, read', -, sizes, -, told⟩
      · rw [failed] at size
        cases size
      · rw [read] at size count
        have apart : ∀ importer specifier, emptyLibrary importer specifier ≠ some script := by
          intro importer specifier same
          have small : (Script.empty ⟨"/lib.bgl"⟩).size = 8 :=
            Option.some.inj ((congrArg (Option.map Script.size) same).trans size)
          exact absurd small (by decide)
        exact ⟨script, script', read, read', sizes, count, told _ (fun _ => rfl) apart 20⟩

end ScriptCheck
