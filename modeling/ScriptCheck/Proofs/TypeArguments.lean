import ScriptCheck.Program
import ScriptCheck.Proofs.CleanScripts
import ScriptCheck.Workspace.Source

/-!
# Bounds of type parameters at calls

A call binds the type parameters of what it calls. Type arguments that are written out
are compared with the bounds as they were declared. Type arguments that are found from
the arguments of the call are not compared with any bound.
-/

namespace ScriptCheck

open List Inference

/-- Whether each type parameter is bound to a type that its bound accepts, when the
bindings are put into the bound. -/
def Ty.keepsBounds (typeParams : List (Slot Ty)) (bindings : Bindings) : Inquiry Bool :=
  (typeParams.zip bindings).allM fun (param, binding) =>
    match param.type with
    | none => return true
    | some bound => (bound.substitute bindings).subsumes binding.2 false

/-- Whether the call at a node keeps the bounds of the type parameters that it binds. There
is nothing to say about a node that calls nothing with a signature. -/
def Deeper.callKeepsBounds? (deeper : Deeper) (node : Node) : Inference (Option Bool) := do
  match ← deeper.call? .idle node with
  | none => return none
  | some call =>
    match call.subject.signature? with
    | none => return none
    | some (typeParams, params) =>
      let bindings ← deeper.bindTypeParams .idle call typeParams params true
      return some (← Ty.keepsBounds typeParams bindings)

namespace Inspection

variable {imports : Imports} {inspection : Inspection} {node : Node} {call : Call}
  {typeParams params : List (Slot Ty)}

/-- A value is found assignable exactly when its type is subsumed. -/
theorem assignable_clean_iff :
    (assignable false place destination value).answer? imports = some [] ↔
      (destination.subsumes value false).answer imports = true := by
  unfold assignable
  simp only [Inquirer.subsumes, Bool.false_and, Bool.false_eq_true, if_false, answer?_bind,
    answer?_lift, Option.bind_some]
  cases (destination.subsumes value false).answer imports <;> simp

/-- The type arguments written at a call are found in order exactly when each of them is
accepted by the bound declared for it. -/
theorem typeArguments_clean_iff :
    (typeArguments call typeParams).answer? imports = some [] ↔
      ∀ row ∈ typeParams.zip call.typeArgs, ∀ bound, row.1.type = some bound →
        (bound.subsumes row.2.lower false).answer imports = true := by
  unfold typeArguments
  rw [gather_eq_nil_iff]
  refine forall₂_congr fun row _ => ?_
  cases row with
  | mk param arg =>
    cases ht : param.type with
    | none => simp [ht]
    | some bound =>
      simp only [ht, Option.some.injEq, forall_eq']
      exact assignable_clean_iff

/-- A signature is kept only if no type argument is written or one for each parameter, and
those written are in order. -/
theorem typeArguments_of_signature_clean
    (clean : (inspection.signature false node call typeParams params).answer? imports = some [])
    (written : call.typeArgs ≠ []) :
    call.typeArgs.length = typeParams.length ∧
      (typeArguments call typeParams).answer? imports = some [] := by
  unfold signature at clean
  split at clean
  · simp at clean
  · rename_i hc
    have hl : call.typeArgs.length = typeParams.length := by
      simpa [written] using hc
    refine ⟨hl, ?_⟩
    simp only [answer?_bind, Option.bind_eq_some_iff] at clean
    obtain ⟨found, hf, rest⟩ := clean
    split at rest
    · simp at rest
    · simp only [answer?_bind, answer?_pure, Option.bind_eq_some_iff,
        Option.some.injEq, append_eq_nil_iff] at rest
      obtain ⟨_, -, he, -⟩ := rest
      rw [hf, he]

/-- A call of something with a signature is in order only if the signature is kept. -/
theorem signature_of_calling_clean
    (clean : (inspection.calling false node call).answer? imports = some [])
    (called : call.subject.signature? = some (typeParams, params)) :
    (inspection.signature false node call typeParams params).answer? imports = some [] := by
  unfold calling at clean
  cases hs : call.subject with
  | func calledTypeParams calledParams result =>
    rw [hs] at called clean
    cases called
    exact clean
  | proc calledTypeParams calledParams =>
    rw [hs] at called clean
    cases called
    simp only [answer?_bind, answer?_pure, Option.bind_eq_some_iff,
      Option.some.injEq, append_eq_nil_iff] at clean
    obtain ⟨_, hk, -, rfl⟩ := clean
    exact hk
  | _ =>
    rw [hs] at called
    cases called

end Inspection

namespace Deeper

variable {deeper : Deeper} {imports : Imports} {node : Node} {call : Call}
  {typeParams params : List (Slot Ty)} {bindings : Bindings}

/-- Only invocations and pipes make calls. -/
theorem form_of_call (called : (deeper.call? situation node).answer? imports = some (some call)) :
    (∃ subject typeArgs args, node.form = .invocation subject typeArgs args) ∨
      ∃ value function, node.form = .pipe value function := by
  unfold call? at called
  split at called
  · rename_i hf
    exact .inl ⟨_, _, _, hf⟩
  · rename_i hf
    exact .inr ⟨_, _, hf⟩
  · simp at called

/-- With as many type arguments written as there are type parameters, each parameter is
bound to the type written at its place. -/
theorem bindings_of_written (written : call.typeArgs ≠ [])
    (count : call.typeArgs.length = typeParams.length)
    (bound : (deeper.bindTypeParams .idle call typeParams params withLiterals).answer? imports =
      some bindings) :
    bindings = (typeParams.zip call.typeArgs).map fun row => (row.1.name, row.2.lower) := by
  unfold bindTypeParams at bound
  have hp : typeParams.isEmpty = false := by
    cases typeParams with
    | nil => exact absurd (eq_nil_of_length_eq_zero count) written
    | cons _ _ => rfl
  have ha : call.typeArgs.isEmpty = false := by simpa using written
  simp only [hp, ha, Bool.false_eq_true, if_false, Bool.not_false, if_true,
    Inquirer.writtenBindings, answer?_pure, Option.some.injEq] at bound
  rw [← bound]
  refine ext_getElem (by simp [count]) ?_
  intro index hl hr
  have hi : index < call.typeArgs.length := by simp at hr; omega
  simp [hi]

end Deeper

namespace Script

variable {imports : Imports} {depth : Nat} {script : Script} {node : Node} {call : Call}
  {typeParams params : List (Slot Ty)} {bindings : Bindings}

/-- In a script without problems every call is found to be in order. -/
theorem calling_clean (clean : (script.problems? depth).answer? imports = some [])
    (inside : script.rootNode.Encloses node)
    (called : ((Deeper.within depth).call? .idle node).answer? imports = some (some call)) :
    (Inspection.calling ⟨.within depth⟩ false node call).answer? imports = some [] := by
  have hf := Deeper.form_of_call called
  have hk : script.contains node.id = true := by
    refine contains_of_form inside fun he => ?_
    rw [he] at hf
    rcases hf with ⟨_, _, _, hf⟩ | ⟨_, _, hf⟩ <;> cases hf
  have hr := rules_clean clean inside hk
  have hi : (Inspection.invocation ⟨.within depth⟩ false node).answer? imports = some [] := by
    unfold Inspection.rules at hr
    rcases hf with ⟨_, _, _, hf⟩ | ⟨_, _, hf⟩ <;> (rw [hf] at hr; exact hr)
  unfold Inspection.invocation at hi
  simpa only [answer?_bind, called, Option.bind_some] using hi

/-- In a script without problems a call whose type arguments are written out binds each
type parameter to a type that its bound accepts. The bound is the declared one; where the
bindings leave the declared bounds as they are, all bounds are kept. -/
theorem keepsBounds_of_written_type_arguments
    (clean : (script.problems? depth).answer? imports = some [])
    (inside : script.rootNode.Encloses node)
    (called : ((Deeper.within depth).call? .idle node).answer? imports = some (some call))
    (signature : call.subject.signature? = some (typeParams, params))
    (bound : ((Deeper.within depth).bindTypeParams .idle call typeParams params true).answer?
      imports = some bindings)
    (written : call.typeArgs ≠ []) :
    (∀ row ∈ typeParams.zip bindings, ∀ declared, row.1.type = some declared →
      (declared.subsumes row.2.2 false).answer imports = true) ∧
    ((∀ param ∈ typeParams, ∀ declared, param.type = some declared →
      declared.substitute bindings = declared) →
      (Ty.keepsBounds typeParams bindings).answer imports = true) := by
  have hc := calling_clean clean inside called
  have hs := Inspection.signature_of_calling_clean hc signature
  obtain ⟨count, hw⟩ := Inspection.typeArguments_of_signature_clean hs written
  have hb := Deeper.bindings_of_written written count bound
  have hd : ∀ row ∈ typeParams.zip bindings, ∀ declared, row.1.type = some declared →
      (declared.subsumes row.2.2 false).answer imports = true := by
    rw [Inspection.typeArguments_clean_iff] at hw
    intro row hr declared ht
    obtain ⟨index, hi, rfl⟩ := getElem_of_mem hr
    have hz : index < (typeParams.zip call.typeArgs).length := by
      simp only [length_zip] at hi ⊢
      omega
    have hfits := hw _ (getElem_mem hz) declared
    simp only [getElem_zip] at hfits ht ⊢
    subst hb
    simpa using hfits ht
  refine ⟨hd, fun closed => ?_⟩
  unfold Ty.keepsBounds
  rw [Inquiry.answer_allM, all_eq_true]
  intro row hr
  cases ht : row.1.type with
  | none => simp [ht]
  | some declared =>
    have hm : row.1 ∈ typeParams := (of_mem_zip hr).1
    simp only [ht]
    rw [closed row.1 hm declared ht]
    exact hd row hr declared ht

/-- A script with a call whose type argument is written out. -/
def writtenTypeArgument : Script :=
  (Reading.first ⟨"/main.bgl"⟩
    "func f<T extends string>(a: T) => a\nconst x = f<string>('a')").script

/-- The bound of a written type argument that is accepted is kept. -/
theorem writtenTypeArgument_keepsBounds :
    ∃ call typeParams params bindings,
      (writtenTypeArgument.problems? 100).answer? .isolated = some [] ∧
      writtenTypeArgument.rootNode.Encloses (writtenTypeArgument.node 10) ∧
      ((Deeper.within 100).call? .idle (writtenTypeArgument.node 10)).answer? .isolated =
        some (some call) ∧
      call.subject.signature? = some (typeParams, params) ∧
      ((Deeper.within 100).bindTypeParams .idle call typeParams params true).answer?
        .isolated = some bindings ∧
      call.typeArgs ≠ [] ∧ (Ty.keepsBounds typeParams bindings).answer .isolated = true := by
  obtain ⟨hc, hl, found⟩ :
      ((writtenTypeArgument.problems? 100).answer? .isolated).map List.isEmpty = some true ∧
      writtenTypeArgument.leads writtenTypeArgument.root [11] 10 = true ∧
      ((((Deeper.within 100).call? .idle (writtenTypeArgument.node 10)).answer? .isolated).bind
        fun answer => answer.bind fun call => call.subject.signature?.bind fun signature =>
            (((Deeper.within 100).bindTypeParams .idle call signature.1
              signature.2 true).answer? .isolated).map fun _ => !call.typeArgs.isEmpty &&
                signature.1.all fun param => param.type.any (Ty.string.sameAs ·)) =
          some true := by decide +kernel
  have clean := clean_of_isEmpty hc
  have inside := encloses_of_leads hl
  simp only [Option.bind_eq_some_iff, Option.map_eq_some_iff, Bool.and_eq_true,
    Bool.not_eq_true', all_eq_true] at found
  obtain ⟨_, called, call, rfl, ⟨typeParams, params⟩, signature, bindings, bound, hw, hs⟩ := found
  have written : call.typeArgs ≠ [] := by
    intro he
    simp [he] at hw
  refine ⟨call, typeParams, params, bindings, clean, inside, called, signature, bound, written, ?_⟩
  refine (keepsBounds_of_written_type_arguments clean inside called signature bound written).2 ?_
  intro param hp declared ht
  have hd := hs param hp
  rw [ht] at hd
  cases declared with
  | string => rfl
  | _ => cases hd

/-- A script with a call whose type argument is found from the argument. -/
def inferredTypeArgument : Script :=
  (Reading.first ⟨"/main.bgl"⟩ "func f<T extends string>(a: T) => a\nconst x = f(1)").script

/-- A script with a call inside the scope of a type parameter that has the name of one of
the type parameters called. -/
def capturedTypeArgument : Script :=
  (Reading.first ⟨"/main.bgl"⟩
    "func f<A,B extends A>(a:A,b:B)=>1\nfunc g<A>(x:A)=>f<nil,A>(nil,x)").script

/-- Bounds are not kept at every call of a script without problems: not where the type
argument is found from an argument, and not where a written one meets a declared bound
that means something else under the bindings. -/
theorem bounds_not_kept_at_every_call :
    ((inferredTypeArgument.problems? 100).answer? .isolated = some [] ∧
      inferredTypeArgument.rootNode.Encloses (inferredTypeArgument.node 9) ∧
      ((Deeper.within 100).callKeepsBounds? (inferredTypeArgument.node 9)).answer? .isolated =
        some (some false)) ∧
    (capturedTypeArgument.problems? 100).answer? .isolated = some [] ∧
      capturedTypeArgument.rootNode.Encloses (capturedTypeArgument.node 18) ∧
      ((Deeper.within 100).callKeepsBounds? (capturedTypeArgument.node 18)).answer? .isolated =
        some (some false) := by
  obtain ⟨inferredClean, inferredLeads, inferredBreaks⟩ :
      ((inferredTypeArgument.problems? 100).answer? .isolated).map List.isEmpty = some true ∧
      inferredTypeArgument.leads inferredTypeArgument.root [10] 9 = true ∧
      ((Deeper.within 100).callKeepsBounds? (inferredTypeArgument.node 9)).answer? .isolated =
        some (some false) := by decide +kernel
  obtain ⟨capturedClean, capturedLeads, capturedBreaks⟩ :
      ((capturedTypeArgument.problems? 100).answer? .isolated).map List.isEmpty = some true ∧
      capturedTypeArgument.leads capturedTypeArgument.root [20, 19] 18 = true ∧
      ((Deeper.within 100).callKeepsBounds? (capturedTypeArgument.node 18)).answer? .isolated =
        some (some false) := by decide +kernel
  exact ⟨⟨clean_of_isEmpty inferredClean, encloses_of_leads inferredLeads,
      inferredBreaks⟩, clean_of_isEmpty capturedClean, encloses_of_leads capturedLeads,
    capturedBreaks⟩

end Script

end ScriptCheck
