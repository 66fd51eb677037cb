import ScriptCheck.Program
import ScriptCheck.Proofs.Readings
import ScriptCheck.Proofs.SettledRules

/-!
# Analysis comes to an end

Inference and checking come to an end exactly on the scripts in whose types no search for a
property goes on for ever. In scripts whose aliases stand for types of their own there is no
such search, however they refer to each other. There is one where an alias stands for itself
inside a readonly type or a union.
-/

namespace ScriptCheck

open List Option Inference

namespace Modules

variable {modules : Modules}

/-- Every question has an answer that is there at all depths from some depth on. -/
structure AnalysisEnds (modules : Modules) : Prop where
  /-- Every node has a type, with its type parameters kept or not. -/
  types : ∀ node, modules.Has node → ∀ keepGenerics,
    modules.Ends fun depth => node.infer? depth keepGenerics
  /-- Every script is checked. -/
  problems : ∀ script ∈ modules.scripts, modules.Ends fun depth => script.problems? depth
  /-- Every type has a given property or not. -/
  properties : ∀ type, modules.Writes type → ∀ name,
    modules.Ends fun depth => (Deeper.within depth).propertyType .idle type name
  /-- Every type has something under a given key or not. -/
  indexes : ∀ type key, modules.Writes type → modules.Writes key →
    modules.Ends fun depth => (Deeper.within depth).indexType .idle type key

/-- Analysis comes to an end exactly if no search for a property goes on for ever. -/
theorem analysisEnds_iff_searchable (modules : Modules) :
    modules.AnalysisEnds ↔ modules.Searchable := by
  constructor
  · intro ends type ht name
    obtain ⟨found, -, enough, he⟩ := ends.properties type ht name
    exact (Ty.acc_of_property (enough + 1) (he enough (Nat.le_refl _))).1
  · intro searchable
    have typed := typed_idle searchable
    refine ⟨fun node hn keepGenerics => ?_, fun script hs => ?_, fun type ht name => ?_, ?_⟩
    · exact .andThen (typed.typeOf hn) fun type _ => .done trivial
    · have hr : modules.Has script.rootNode := hs
      exact problemsWithin_ends searchable script.size hr
    · exact (propertyType_settles_of_searchable searchable typed
        (Ty.writtenIn_iff_refersOnly.mp ht) name).ends
    · exact fun type key ht hk => (indexType_settles_of_searchable searchable typed
        (Ty.writtenIn_iff_refersOnly.mp ht) (Ty.writtenIn_iff_refersOnly.mp hk)).ends

end Modules

/-- Type expressions that give types of their own: no names, and nothing that a property is
looked for inside of. -/
def Form.isSolid : Form → Bool
  | .primitiveType _ | .literalType _ | .arrayType _ | .tupleType _ | .objectType _
  | .indexerType _ _ | .funcType _ _ _ | .procType _ _ | .iteratorType _ | .planType _ => true
  | _ => false

/-- Types that stay what they are when names are seen through and type parameters replaced,
and that no property is looked for inside of. -/
def Ty.isSolid : Ty → Bool
  | named _ _ _ => false
  | generic _ _ => false
  | readonly _ => false
  | union _ => false
  | _ => true

/-- Whether every alias of a script stands for a type of its own. -/
def Script.hasSolidAliases (script : Script) : Bool :=
  script.entries.toList.all fun entry =>
    match entry.form with
    | .typeDeclaration _ _ value nominal _ => nominal || (script.node value).form.isSolid
    | _ => true

namespace Ty

variable {type : Ty}

theorem isLayered_of_isSolid (solid : type.isSolid = true) : type.isLayered = false := by
  cases type <;> first | rfl | cases solid

theorem isSolid_substitute (solid : type.isSolid = true) (bindings : Bindings) :
    (type.substitute bindings).isSolid = true := by
  cases type <;> first | rfl | cases solid

end Ty

namespace Node

variable {node : Node}

/-- Lowering reads at least the outermost part of a type expression. -/
theorem lower_eq_lowerStep (node : Node) :
    ∃ limit, node.lower = lowerStep (lowerWithin limit) [] node := by
  have hp : 0 < node.loweringLimit := Nat.mul_pos (Nat.succ_pos _) (Nat.succ_pos _)
  obtain ⟨limit, hl⟩ := Nat.exists_eq_succ_of_ne_zero (Nat.ne_of_gt hp)
  exact ⟨limit, by rw [lower, hl]; rfl⟩

theorem lower_isSolid (solid : node.form.isSolid = true) : node.lower.isSolid = true := by
  obtain ⟨limit, hl⟩ := node.lower_eq_lowerStep
  rw [hl, lowerStep]
  cases hf : node.form with
  | primitiveType primitive => cases primitive <;> rfl
  | _ =>
    rw [hf] at solid
    first | rfl | cases solid

/-- A type parameter is not taken apart to look for a property. -/
theorem asTypeParameter_eq (param : Node) :
    (∃ name bound, param.asTypeParameter = .generic name bound) ∨ param.asTypeParameter = .unknown := by
  unfold asTypeParameter parameterType
  split
  · split
    · exact .inl ⟨_, _, rfl⟩
    · exact .inl ⟨_, _, rfl⟩
  · exact .inr rfl

/-- Where aliases stand for types of their own, so do the names of all declarations. -/
theorem namedTypeBinding_isSolid {declaration : Node}
    (solid : declaration.script.hasSolidAliases = true)
    (hb : declaration.namedTypeBinding = .type type params) : type.isSolid = true := by
  unfold namedTypeBinding at hb
  split at hb
  · next name typeParams value nominal exported hf =>
    cases hb
    split
    · rfl
    · next hn =>
      refine lower_isSolid ?_
      have hs : declaration.id < declaration.script.size := by
        by_contra hlt
        rw [form_of_size_le (Nat.le_of_not_lt hlt)] at hf
        cases hf
      have hentry := all_eq_true.mp solid declaration.script.entries[declaration.id]
        (Array.getElem_mem_toList hs)
      have he : declaration.script.entries[declaration.id].form = declaration.form := by
        simp only [form, entry, Array.getElem?_eq_getElem hs, getD_some]
      rw [he, hf] at hentry
      exact (Bool.or_eq_true_iff.mp hentry).resolve_left hn
  · cases hb
    rfl
  · cases hb
    rfl

end Node

namespace Modules

variable {modules : Modules}

/-- Where aliases stand for types of their own, nothing is looked for inside what a name
stands for. -/
theorem isLayered_of_named (solid : ∀ script ∈ modules.scripts, script.hasSolidAliases = true)
    {name : String} (ho : modules.Has origin) :
    ((Ty.named name args origin).expand.answer modules.imports).isLayered = false := by
  rw [Ty.expand, expansionLimit, Ty.expandWithin, Inquiry.answer_bind]
  split
  · next type params hr =>
    have stays : ∀ type : Ty, type.isNamed = false → type.isLayered = false →
        ((type.expandWithin 63).answer modules.imports).isLayered = false := by
      intro type hn hl
      rw [Ty.expandWithin_of_not_named hn 62]
      exact hl
    rcases Node.resolveIn_found modules.into ho name .type _ hr with
      ⟨param, -, rfl, rfl⟩ | ⟨declaration, hd, hb⟩
    · rcases param.asTypeParameter_eq with ⟨name, bound, he⟩ | he
      · rw [he]
        exact stays _ rfl rfl
      · rw [he]
        exact stays _ rfl rfl
    · have hsolid := Ty.isSolid_substitute
        (Node.namedTypeBinding_isSolid (solid _ hd) hb) (Ty.argumentBindings params args)
      refine stays _ ?_ (Ty.isLayered_of_isSolid hsolid)
      generalize type.substitute _ = given at hsolid
      cases given <;> first | rfl | cases hsolid
  · rfl

/-- Where aliases stand for types of their own, no search for a property goes on for ever,
however the aliases refer to each other. -/
theorem searchable_of_solid_aliases
    (solid : ∀ script ∈ modules.scripts, script.hasSolidAliases = true) : modules.Searchable := by
  intro type ht name
  induction type using Ty.parts_induction with
  | step type ih =>
    have inside : ∀ part ∈ type.parts, modules.Writes part →
        Acc (Ty.SearchedAfter modules.imports name) (part.expand.answer modules.imports) := by
      intro part hp hw
      cases hn : part.isNamed with
      | true =>
        cases part with
        | named name args origin =>
          exact Ty.acc_of_not_layered (isLayered_of_named solid ((Ty.writtenIn_iff.mp hw).1 origin rfl))
        | _ => cases hn
      | false =>
        rw [Ty.expand, expansionLimit, Ty.expandWithin_of_not_named hn 63]
        exact ih part hp hw
    refine ⟨_, fun inner after => ?_⟩
    cases after with
    | readonly =>
      exact inside _ (by simp [Ty.parts]) ((Ty.writtenIn_iff.mp ht).2 _ (by simp [Ty.parts]))
    | union earlier =>
      exact inside _ (by simp [Ty.parts]) ((Ty.writtenIn_iff.mp ht).2 _ (by simp [Ty.parts]))

end Modules

namespace Modules

/-- Scripts that are found by their paths. -/
def ofScripts (scripts : List Script)
    (read : ∀ script ∈ scripts, ∃ path source, parse path source = .ok script) : Modules where
  scripts
  imports := (Program.ofScripts scripts).imports
  read
  into := fun _ _ _ found => mem_of_find?_eq_some found

/-- The scripts that the given texts are read as. -/
def ofTexts (texts : List (FilePath × String))
    (faultless : texts.all (fun file => (Reading.first file.1 file.2).fault.isNone) = true) : Modules :=
  ofScripts (texts.map fun file => (Reading.first file.1 file.2).script) (by
    intro script hs
    obtain ⟨file, hf, rfl⟩ := mem_map.mp hs
    exact ⟨file.1, file.2, Reading.parse_of_faultless (all_eq_true.mp faultless file hf)⟩)

/-- Two scripts that import each other, with types that are made of each other and a
function that calls itself. -/
def intertwined : Modules :=
  ofTexts [(⟨"/a.bgl"⟩, "import { B } from './b'\nexport type A = \x7b b: B | nil, all: A[] \x7d\n" ++
      "export func f(a: A): A | nil => f(a)?.b?.a"),
    (⟨"/b.bgl"⟩, "import { A, f } from './a'\nexport type B = \x7b a: A, next: readonly B \x7d\n" ++
      "func g(b: B) => f(b.next.a)?.all")] (by decide +kernel)

/-- Types made of each other are no obstacle. -/
theorem intertwined_analysisEnds : intertwined.AnalysisEnds := by
  refine (analysisEnds_iff_searchable intertwined).mpr (searchable_of_solid_aliases ?_)
  exact all_eq_true.mp (by decide +kernel : intertwined.scripts.all Script.hasSolidAliases = true)

end Modules

namespace Inspection

variable {imports : Imports} {inspection : Inspection} {found : List Problem} {limit : Nat}

/-- The problems of a node are found only if its rules and the problems below it are. -/
theorem problemsWithin_answers
    (answered : (inspection.problemsWithin (limit + 1) node).answer? imports = some found) :
    (∃ faulty own, (inspection.rules faulty node).answer? imports = some own) ∧
      ∀ child ∈ node.children, ∃ below,
        (inspection.problemsWithin limit child).answer? imports = some below := by
  simp only [problemsWithin, answer?_bind, answer?_mapM, bind_eq_some_iff] at answered
  obtain ⟨below, hb, own, ho, -⟩ := answered
  refine ⟨⟨_, own, ho⟩, fun child hc => ?_⟩
  obtain ⟨problems, -, ha⟩ := mem_of_mapM_eq_some hb hc
  exact ⟨problems, ha⟩

/-- The problems of a script are found only if the rules are at each node that the way down
leads to. -/
theorem rules_answers_of_leads {script : Script} (leads : script.leads upper passed lower = true)
    (answered : (inspection.problemsWithin (limit + passed.length + 2) (script.node upper)).answer?
      imports = some found) :
    ∃ faulty own, (inspection.rules faulty (script.node lower)).answer? imports = some own := by
  have child : ∀ {id next : NodeId}, (script.node id).form.children.contains next = true →
      script.node next ∈ (script.node id).children := fun hc =>
    mem_map_of_mem (contains_iff_mem.mp hc)
  induction passed generalizing upper found with
  | nil =>
    obtain ⟨below, hb⟩ := (problemsWithin_answers answered).2 _ (child leads)
    exact (problemsWithin_answers hb).1
  | cons next rest ih =>
    obtain ⟨hn, hr⟩ := Bool.and_eq_true_iff.mp leads
    obtain ⟨below, hb⟩ := (problemsWithin_answers answered).2 _ (child hn)
    exact ih hr hb

end Inspection

section Endless

variable {imports : Imports} {node holder : Node} {name : String} {depth : Nat}

/-- A search that gets back to where it was does not come to an end. -/
theorem Ty.not_acc_of_searchedAfter_self (again : SearchedAfter imports name type type) :
    ¬ Acc (SearchedAfter imports name) type := by
  intro ends
  induction ends with
  | intro type _ ih => exact ih type again again

/-- Whatever type is found at the node, the search for the property in it does not come to an
end. -/
def Node.SearchedInVain (imports : Imports) (name : String) (node : Node) : Prop :=
  ∀ depth situation type, situation.busy.contains node = false →
    ((Deeper.within depth).typeOf situation node).answer? imports = some type →
    ¬ Acc (Ty.SearchedAfter imports name) (type.expand.answer imports)

/-- No property is found, in whatever situation, where the search for it does not come to an
end. -/
theorem Node.SearchedInVain.property (vain : node.SearchedInVain imports name)
    (idle : situation.busy.contains node = false)
    (typed : ((Deeper.within depth).typeOf situation node).answer? imports = some type) :
    ((Deeper.within depth).propertyType situation (type.expand.answer imports) name).answer?
      imports = none :=
  eq_none_iff_forall_ne_some.mpr fun _ found =>
    vain depth situation type idle typed (Ty.acc_of_property (depth + 1) found).1

section Access

variable {subject : NodeId} (form : node.form = .property subject name false)
  (vain : (node.sibling subject).SearchedInVain imports name)
include form vain

/-- The type of such a property is never found. -/
theorem Node.infer_of_searchedInVain (other : subject ≠ node.id) (keepGenerics : Bool) :
    (node.infer? depth keepGenerics).answer? imports = none := by
  refine eq_none_iff_forall_ne_some.mpr fun found hf => ?_
  rw [infer?, answer?_bind, bind_eq_some_iff] at hf
  obtain ⟨type, htype, -⟩ := hf
  cases depth with
  | zero => cases htype
  | succ depth =>
    change ((Deeper.within depth).nodeType .idle node).answer? _ = _ at htype
    rw [Deeper.nodeType, if_neg (by simp [Situation.idle]), Deeper.formType, form] at htype
    simp only [Inquirer.expand, answer?_bind, answer?_lift,
      bind_eq_some_iff, Deeper.accessType, Option.some.injEq, Bool.false_eq_true,
      if_false] at htype
    obtain ⟨base, hbase, _, rfl, part, hpart, -⟩ := htype
    have idle : (Situation.mk [node] []).busy.contains (node.sibling subject) = false := by
      simp [BEq.beq, sameAs, sibling, other]
    cases (vain.property idle hbase).symm.trans hpart

/-- Nor are the problems of a node that looks for it. -/
theorem Inspection.rules_of_searchedInVain
    (plain : (Inspection.mk (Deeper.within depth)).isMethod node = pure false) (faulty : Bool) :
    ((Inspection.mk (Deeper.within depth)).rules faulty node).answer? imports = none := by
  refine eq_none_iff_forall_ne_some.mpr fun found hf => ?_
  rw [rules, form] at hf
  dsimp only at hf
  rw [property, plain] at hf
  simp only [pure_bind, Bool.false_eq_true, if_false, expandedType, typeOf, accessedBase,
    Inquirer.expand, answer?_bind, answer?_lift, bind_eq_some_iff] at hf
  obtain ⟨_, ⟨type, htype, hbase⟩, hrest⟩ := hf
  cases hbase
  have idle : Situation.idle.busy.contains (node.sibling subject) = false := rfl
  have known : (type.expand.answer imports).isUnknown = false := by
    rw [Bool.eq_false_iff]
    intro unknown
    refine vain depth _ type idle htype (Ty.acc_of_not_layered ?_)
    cases he : type.expand.answer imports with
    | unknown => rfl
    | _ => rw [he] at unknown; cases unknown
  rw [known, Bool.and_false, if_neg (by simp), answer?_bind, vain.property idle htype] at hrest
  cases hrest

end Access

/-- A parameter that a type is written for has this type wherever it is used. -/
theorem Deeper.typeOf_annotated (form : node.form = .identifier name)
    (found : (node.resolve name).answer imports = .ok (.parameter holder index))
    (literal : holder.literalParams? = some params) (place : params[index]? = some param)
    (written : (holder.sibling param).form = .param declared (some ascription))
    (idle : situation.busy.contains node = false)
    (answered : ((within depth).typeOf situation node).answer? imports = some type) :
    type = (holder.sibling ascription).lower := by
  cases depth with
  | zero => cases answered
  | succ depth =>
    change ((within depth).nodeType situation node).answer? _ = _ at answered
    rw [nodeType, idle, if_neg (by simp), formType, form] at answered
    dsimp only [Inquirer.resolve] at answered
    rw [answer?_bind, answer?_lift, bind_some, found] at answered
    change ((within depth).paramType _ holder index).answer? _ = _ at answered
    simp only [paramType, literal, bind_some, place, written, Inquirer.lowering,
      answer?_pure, Option.some.injEq] at answered
    exact answered.symm

end Endless

deriving instance DecidableEq for Script
deriving instance DecidableEq for Node

/-- The name without arguments that a readonly type is made of, with where it is written. -/
def Ty.readonlyName? : Ty → Option (String × Node)
  | readonly (named name [] origin) => some (name, origin)
  | _ => none

theorem Ty.eq_of_readonlyName? {type : Ty} (named : type.readonlyName? = some (name, origin)) :
    type = .readonly (.named name [] origin) := by
  unfold readonlyName? at named
  split at named <;> cases named
  rfl

/-- The parameter that a lookup finds. -/
def Lookup.parameter? : Lookup → Option (Node × Nat)
  | .ok (.parameter holder index) => some (holder, index)
  | _ => none

theorem Lookup.eq_of_parameter? {lookup : Lookup}
    (found : lookup.parameter? = some (holder, index)) :
    lookup = .ok (.parameter holder index) := by
  unfold parameter? at found
  split at found <;> cases found
  rfl

namespace Modules

/-- The script with an alias that stands for itself in a readonly type, in which a property
is looked for. -/
def readonlyAlias : Script :=
  (Reading.first ⟨"/main.bgl"⟩ "type R = readonly R\nfunc f(r: R) => r.x").script

/-- Where an alias stands for itself in a readonly type, a property of it has no type at any
depth, and the script is not checked at any depth. -/
theorem readonlyAlias_endless :
    parse ⟨"/main.bgl"⟩ "type R = readonly R\nfunc f(r: R) => r.x" = .ok readonlyAlias ∧
    (readonlyAlias.node 6).form = .property 5 "x" false ∧
    (∀ depth keepGenerics, ((readonlyAlias.node 6).infer? depth keepGenerics).answer?
      (Program.ofScripts [readonlyAlias]).imports = none) ∧
    ∀ depth, (readonlyAlias.problems? depth).answer?
      (Program.ofScripts [readonlyAlias]).imports = none := by
  have read : parse ⟨"/main.bgl"⟩ "type R = readonly R\nfunc f(r: R) => r.x" = .ok readonlyAlias :=
    Reading.parse_of_faultless (by decide +kernel)
  refine ⟨read, ?_⟩
  obtain ⟨form, use, literal, param, found, opened, again, leads, size, parent, func⟩ :
      let imports := (Program.ofScripts [readonlyAlias]).imports
      let node := readonlyAlias.node
      (node 6).form = .property 5 "x" false ∧ (node 5).form = .identifier "r" ∧
      (node 7).literalParams? = some [4] ∧ (node 4).form = .param "r" (some 3) ∧
      (((node 5).resolve "r").answer imports).parameter? = some (node 7, 0) ∧
      ((node 3).lower.expand.answer imports).readonlyName? = some ("R", node 0) ∧
      ((Ty.named "R" [] (node 0)).expand.answer imports).readonlyName? = some ("R", node 0) ∧
      readonlyAlias.leads readonlyAlias.root [8, 7] 6 = true ∧ readonlyAlias.size = 10 ∧
      (node 6).parent = some (node 7) ∧ (node 7).form = .func [] [4] none 6 := by decide +kernel
  generalize (Program.ofScripts [readonlyAlias]).imports = imports at *
  -- the script is only evaluated above
  generalize readonlyAlias = script at *
  have vain : ((script.node 6).sibling 5).SearchedInVain imports "x" := by
    intro depth situation type idle answered
    rw [Deeper.typeOf_annotated use (Lookup.eq_of_parameter? found) literal rfl param idle answered]
    have step : Ty.SearchedAfter imports "x" _ (.readonly (.named "R" [] (script.node 0))) :=
      .readonly
    rw [Ty.eq_of_readonlyName? again] at step
    exact Ty.eq_of_readonlyName? opened ▸ Ty.not_acc_of_searchedAfter_self step
  refine ⟨form, fun depth => Node.infer_of_searchedInVain form vain (Nat.succ_ne_self 5).symm,
    fun depth => ?_⟩
  refine eq_none_iff_forall_ne_some.mpr fun problems hp => ?_
  rw [Script.problems?, size] at hp
  obtain ⟨faulty, own, answered⟩ := @Inspection.rules_answers_of_leads _ _ _ 6 _ _ _ _ leads hp
  have plain : (Inspection.mk (Deeper.within depth)).isMethod (script.node 6) = pure false := by
    rw [Inspection.isMethod, parent]
    simp only [func]
  cases (Inspection.rules_of_searchedInVain form vain plain faulty).symm.trans answered

end Modules

end ScriptCheck
