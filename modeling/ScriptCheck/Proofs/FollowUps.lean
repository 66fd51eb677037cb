import ScriptCheck.Proofs.ProblemPlaces
import ScriptCheck.Proofs.Readings
import ScriptCheck.Proofs.SettledRules

/-!
# Follow-ups that are not reported

A rule that is told of a fault below its node leaves out what may follow from that fault. All
that it still reports it would report anyway, so a script with all of its problems listed has
the reported ones among them, in the same order. A rule is told of faults only where some are
reported, so leaving out follow-ups never makes a script look clean.
-/

namespace ScriptCheck

open Inference

namespace Inspection

open Inference (Trims)

variable {imports : Imports} {inspection : Inspection} {node : Node}

/-- The problems of a node and of at most `limit` levels below it when no rule is told of a
fault below its node. -/
def allProblemsWithin (inspection : Inspection) : Nat → Node → Inference (List Problem)
  | 0, _ => return []
  | limit + 1, node => do
    let below ← node.children.mapM (inspection.allProblemsWithin limit)
    let own ← inspection.rules false node
    return own ++ below.flatten

/-- The reported problems of a node are among all of them. -/
theorem problemsWithin_trims (limit : Nat) (node : Node) :
    Trims imports (inspection.problemsWithin limit node)
      (inspection.allProblemsWithin limit node) := by
  induction limit generalizing node with
  | zero => exact .refl _
  | succ limit ih =>
    intro whole hw
    simp only [allProblemsWithin, answer?_bind, answer?_pure,
      Option.bind_eq_some_iff, Option.some.injEq] at hw
    obtain ⟨below, hb, own, ho, rfl⟩ := hw
    obtain ⟨reported, hr, fewerBelow⟩ := Trims.mapM (fun child _ => ih child) hb
    obtain ⟨kept, hk, fewerOwn⟩ := rules_trims (!reported.flatten.isEmpty) own ho
    refine ⟨kept ++ reported.flatten, ?_, fewerOwn.append fewerBelow⟩
    simp only [problemsWithin, answer?_bind, hr, hk, Option.bind_some, answer?_pure]

/-- Where nothing is reported there is nothing to report. -/
theorem allProblemsWithin_of_clean
    (clean : (inspection.problemsWithin limit node).answer? imports = some []) :
    (inspection.allProblemsWithin limit node).answer? imports = some [] := by
  induction limit generalizing node with
  | zero => rfl
  | succ limit ih =>
    -- nothing is reported below, so the rules of the node itself were not told of any fault
    obtain ⟨own, below⟩ := problemsWithin_clean clean
    have gathered := (gather_eq_nil_iff (inspection.allProblemsWithin limit)
      node.children).mpr fun child hc => ih (below child hc)
    simp only [answer?_bind, answer?_pure, Option.bind_eq_some_iff, Option.some.injEq] at gathered
    obtain ⟨found, hf, none⟩ := gathered
    simp only [allProblemsWithin, answer?_bind, hf, own, none, Option.bind_some,
      answer?_pure, List.append_nil]

end Inspection

/-- Where types are settled, so are all problems of a node. -/
theorem Modules.allProblemsWithin_ends {modules : Modules} (searchable : modules.Searchable)
    (limit : Nat) (hn : modules.Has node) :
    modules.Ends fun depth => (inspection depth).allProblemsWithin limit node := by
  induction limit generalizing node with
  | zero => exact .done trivial
  | succ limit ih =>
    unfold Inspection.allProblemsWithin
    refine .andThen (mapM_ends fun child hc => ih ?_) fun below _ =>
      .andThen (rules_ends searchable false hn) fun own _ => .done trivial
    rw [Has, Node.script_of_mem_children hc]
    exact hn

/-- All problems of a script, those that follow from others included, with inference going to
at most the given depth. -/
def Script.allProblems? (depth : Nat) (script : Script) : Inference (List Problem) :=
  (Inspection.mk (.within depth)).allProblemsWithin script.size script.rootNode

/-- The problems that are reported are all problems with some left out, in the same order, and
there are none of the one kind exactly if there are none of the other. They are reported
whenever all problems can be listed. All problems can be listed if none is reported, and
wherever analysis comes to an end. -/
theorem Script.problems_among_allProblems (imports : Imports) (script : Script) :
    (∀ depth all, (script.allProblems? depth).answer? imports = some all →
      ∃ reported, (script.problems? depth).answer? imports = some reported ∧
        reported.Sublist all ∧ (reported = [] ↔ all = [])) ∧
    (∀ depth, (script.problems? depth).answer? imports = some [] →
      (script.allProblems? depth).answer? imports = some []) ∧
    ∀ modules : Modules, modules.imports = imports → script ∈ modules.scripts →
      modules.Searchable → modules.Ends fun depth => script.allProblems? depth := by
  refine ⟨fun depth all ha => ?_, fun depth clean => Inspection.allProblemsWithin_of_clean clean,
    fun modules _ hs searchable => modules.allProblemsWithin_ends searchable script.size hs⟩
  obtain ⟨reported, hr, fewer⟩ := Inspection.problemsWithin_trims script.size script.rootNode all ha
  refine ⟨reported, hr, fewer, fun none => ?_, fun none => List.sublist_nil.mp (none ▸ fewer)⟩
  subst none
  exact Option.some.inj (ha.symm.trans (Inspection.allProblemsWithin_of_clean hr))

/-- A script with an unknown name in the place of a number. -/
def misspelledNumber : Script :=
  (Reading.first ⟨"/main.bgl"⟩ "const count = 1\nconst total: number = cuont + 1").script

/-- Neither the sum with the unknown name nor its use as a number is reported, though both
break a rule. -/
theorem misspelledNumber_followUps :
    ∃ all reported, (misspelledNumber.allProblems? 100).answer? .isolated = some all ∧
      (misspelledNumber.problems? 100).answer? .isolated = some reported ∧
      reported.Sublist all ∧ all.length = 3 ∧ reported.length = 1 := by
  obtain ⟨listed, said⟩ :
      ((misspelledNumber.allProblems? 100).answer? .isolated).map List.length = some 3 ∧
      ((misspelledNumber.problems? 100).answer? .isolated).map List.length = some 1 := by
    decide +kernel
  obtain ⟨all, ha, three⟩ := Option.map_eq_some_iff.mp listed
  obtain ⟨reported, hr, fewer, -⟩ :=
    (Script.problems_among_allProblems .isolated misspelledNumber).1 100 all ha
  rw [hr] at said
  exact ⟨all, reported, ha, hr, fewer, three, Option.some.inj said⟩

end ScriptCheck
