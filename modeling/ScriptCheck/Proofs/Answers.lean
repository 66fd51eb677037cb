import ScriptCheck.Inference.Basic

/-!
# Laws of answers

Inquiries form a lawful monad, and so do inferences. Reading the answer off commutes with
both, so questions about answers alone reduce to plain values and to optional values.
-/

namespace ScriptCheck

open List

namespace Consulted

@[ext] theorem ext {left right : Consulted α} (ha : left.answer = right.answer)
    (hs : left.sources = right.sources) : left = right := by
  cases left
  cases right
  simp_all

/-- Nothing is added by merging with no sources. -/
theorem mergeSources_nil (sources : List FilePath) : mergeSources sources [] = sources := by
  simp [mergeSources]

/-- Merging into no sources keeps every source. -/
theorem nil_mergeSources (sources : List FilePath) : mergeSources [] sources = sources := by
  simp [mergeSources]

/-- The order in which sources are merged into each other does not matter. -/
theorem mergeSources_assoc (first second third : List FilePath) :
    mergeSources (mergeSources first second) third =
      mergeSources first (mergeSources second third) := by
  have hf : ∀ path, (!(mergeSources first second).contains path) =
      (!first.contains path && !second.contains path) := by
    intro path
    rw [contains_mergeSources, Bool.not_or]
  show mergeSources first second ++ third.filter (fun path =>
      !(mergeSources first second).contains path) = _
  simp only [hf]
  simp only [mergeSources, filter_append, filter_filter, append_assoc]

/-- An answer on which nothing else depends stays as it is. -/
theorem andThen_alone (consulted : Consulted α) : consulted.andThen alone = consulted :=
  Consulted.ext rfl (mergeSources_nil _)

/-- An answer for which nothing is loaded adds nothing to what depends on it. -/
theorem alone_andThen (value : α) (next : α → Consulted β) :
    (alone value).andThen next = next value :=
  Consulted.ext rfl (nil_mergeSources _)

/-- Dependent answers can be grouped either way. -/
theorem andThen_andThen (first : Consulted α) (next : α → Consulted β) (last : β → Consulted γ) :
    (first.andThen next).andThen last = first.andThen fun answer => (next answer).andThen last :=
  Consulted.ext rfl (mergeSources_assoc _ _ _)

end Consulted

namespace Inquiry

variable {α β γ : Type} {imports : Imports}

@[ext] theorem ext {left right : Inquiry α} (ha : ∀ imports, left.ask imports = right.ask imports) :
    left = right := by
  cases left
  cases right
  have he := funext ha
  simp_all

@[simp] theorem answer_pure (value : α) : (pure value : Inquiry α).answer imports = value := rfl

@[simp] theorem answer_bind (first : Inquiry α) (next : α → Inquiry β) :
    (first >>= next).answer imports = (next (first.answer imports)).answer imports := rfl

instance : LawfulMonad Inquiry := LawfulMonad.mk' Inquiry
  (fun _ => Inquiry.ext fun _ => Consulted.andThen_alone _)
  (fun _ _ => Inquiry.ext fun _ => Consulted.alone_andThen _ _)
  (fun first next last => Inquiry.ext fun imports =>
    Consulted.andThen_andThen (first.ask imports) (fun answer => (next answer).ask imports)
      fun answer => (last answer).ask imports)

/-- The answers of a list of questions are answered one by one. -/
theorem answer_mapM (ask : α → Inquiry β) (questions : List α) :
    (questions.mapM ask).answer imports = questions.map fun question => (ask question).answer imports := by
  induction questions with
  | nil => rfl
  | cons question rest ih =>
    rw [mapM_cons]
    simp only [answer_bind, answer_pure, map_cons, ih]

/-- Whether all answers are yes. -/
theorem answer_allM (ask : α → Inquiry Bool) (questions : List α) :
    (questions.allM ask).answer imports = questions.all fun question => (ask question).answer imports := by
  induction questions with
  | nil => rfl
  | cons question rest ih =>
    simp only [List.allM, answer_bind, all_cons]
    cases (ask question).answer imports with
    | true => simpa using ih
    | false => rfl

/-- Whether some answer is yes. -/
theorem answer_anyM (ask : α → Inquiry Bool) (questions : List α) :
    (questions.anyM ask).answer imports = questions.any fun question => (ask question).answer imports := by
  induction questions with
  | nil => rfl
  | cons question rest ih =>
    simp only [List.anyM, answer_bind, any_cons]
    cases (ask question).answer imports with
    | true => rfl
    | false => simpa using ih

end Inquiry

namespace Inference

variable {α β γ : Type} {imports : Imports}

@[ext] theorem ext {left right : Inference α} (hr : left.run = right.run) : left = right := by
  cases left
  cases right
  simp_all

@[simp] theorem answer?_pure (value : α) :
    (pure value : Inference α).answer? imports = some value := rfl

/-- An inference that goes on has an answer when both of its parts have one. -/
@[simp] theorem answer?_bind (first : Inference α) (next : α → Inference β) :
    (first >>= next).answer? imports =
      (first.answer? imports).bind fun answer => (next answer).answer? imports := by
  refine (Inquiry.answer_bind first.run _).trans ?_
  unfold answer?
  cases first.run.answer imports <;> rfl

@[simp] theorem answer?_lift (inquiry : Inquiry α) :
    (liftM inquiry : Inference α).answer? imports = some (inquiry.answer imports) := rfl

/-- An inference on which nothing else depends stays as it is. -/
theorem andThen_done (inference : Inference α) : inference.andThen done = inference := by
  refine Inference.ext (Eq.trans (congrArg (inference.run >>= ·) ?_) (bind_pure _))
  funext found
  cases found <;> rfl

/-- Dependent inferences can be grouped either way. -/
theorem andThen_andThen (first : Inference α) (next : α → Inference β) (last : β → Inference γ) :
    (first.andThen next).andThen last = first.andThen fun answer => (next answer).andThen last := by
  refine Inference.ext ((bind_assoc first.run _ _).trans ?_)
  refine congrArg (first.run >>= ·) ?_
  funext found
  cases found with
  | some answer => rfl
  | none => exact pure_bind _ _

instance : LawfulMonad Inference := LawfulMonad.mk' Inference andThen_done
  (fun _ _ => Inference.ext (pure_bind _ _))
  andThen_andThen

/-- A list of inferences has answers when each of them has. -/
theorem answer?_mapM (ask : α → Inference β) (questions : List α) :
    (questions.mapM ask).answer? imports = questions.mapM fun question => (ask question).answer? imports := by
  induction questions with
  | nil => rfl
  | cons question rest ih =>
    rw [mapM_cons, mapM_cons]
    simp only [answer?_bind, answer?_pure, ih]
    rfl

/-- Every item of a list whose items all have answers has one of these answers. -/
theorem mem_of_mapM_eq_some {questions : List α} (ha : questions.mapM ask = some answers)
    (hq : question ∈ questions) : ∃ answer ∈ answers, ask question = some answer := by
  induction questions generalizing answers with
  | nil => simp at hq
  | cons first rest ih =>
    rw [mapM_cons] at ha
    simp only [Option.bind_eq_bind, Option.bind_eq_some_iff] at ha
    obtain ⟨answer, hf, others, ho, he⟩ := ha
    cases he
    rcases mem_cons.mp hq with rfl | hq
    · exact ⟨answer, mem_cons_self, hf⟩
    · obtain ⟨found, hm, hfound⟩ := ih ho hq
      exact ⟨found, mem_cons_of_mem _ hm, hfound⟩

/-- Nothing is gathered from a list of inferences exactly when each of them gives nothing. -/
theorem gather_eq_nil_iff (ask : α → Inference (List β)) (questions : List α) :
    (do return (← questions.mapM ask).flatten : Inference (List β)).answer? imports = some [] ↔
      ∀ question ∈ questions, (ask question).answer? imports = some [] := by
  induction questions with
  | nil => simp
  | cons first rest ih =>
    simp only [answer?_bind, answer?_pure, Option.bind_eq_some_iff, Option.some.injEq,
      flatten_eq_nil_iff] at ih ⊢
    simp only [mapM_cons, answer?_bind, answer?_pure, Option.bind_eq_some_iff,
      Option.some.injEq, forall_mem_cons]
    rw [← ih]
    constructor
    · rintro ⟨all, ⟨own, ho, others, hr, rfl⟩, hall⟩
      rw [forall_mem_cons] at hall
      exact ⟨hall.1 ▸ ho, others, hr, hall.2⟩
    · rintro ⟨ho, others, hr, hall⟩
      exact ⟨[] :: others, ⟨[], ho, others, hr, rfl⟩, forall_mem_cons.mpr ⟨rfl, hall⟩⟩

end Inference

end ScriptCheck
