import ScriptCheck.Analyzer.Rules
import ScriptCheck.Proofs.Answers

/-!
# Work that leaves the guards as it found them

Work of an analyzer mirrors a question without an analyzer if it comes to the same answer and
has taken out of the guards whatever it entered. This is kept by doing one thing after another,
by going through lists, and by entering something for the time of a piece of work.
-/

namespace ScriptCheck

open List

/-- With these guards the work has the answer of the question, and the same guards after it. -/
def Mirrors {m : Type → Type} [Monad m] {α : Type} (guards : Guards) (work : StateT Guards m α)
    (question : m α) : Prop :=
  work guards = question >>= fun answer => pure (answer, guards)

namespace Mirrors

section Lawful

variable {m : Type → Type} [Monad m] [LawfulMonad m] {α β : Type} {guards : Guards}
  {work : α → StateT Guards m Bool} {first : StateT Guards m α} {question : m α}
  {ask : α → m Bool} {next : α → StateT Guards m β}

theorem pure (answer : α) : Mirrors guards (pure answer : StateT Guards m α) (pure answer) :=
  (pure_bind answer fun answer => Pure.pure (answer, guards)).symm

theorem bind (same : Mirrors guards first question)
    (later : ∀ answer, Mirrors guards (next answer) (others answer)) :
    Mirrors guards (first >>= next) (question >>= others) := by
  show first guards >>= (fun row => next row.1 row.2) = _
  rw [same, bind_assoc, bind_assoc]
  refine congrArg (question >>= ·) (funext fun answer => ?_)
  rw [pure_bind]
  exact later answer

/-- Work whose answer is known can be left out. -/
theorem skip (known : Mirrors guards first (Pure.pure answer)) :
    (first >>= next) guards = next answer guards := by
  show first guards >>= (fun row => next row.1 row.2) = _
  rw [known, pure_bind, pure_bind]

/-- Work whose answer is known can be left out of the question. -/
theorem value {question : m β} (known : Mirrors guards first (Pure.pure answer))
    (later : Mirrors guards (next answer) question) : Mirrors guards (first >>= next) question :=
  known.skip.trans later

/-- The answer of work that is known may be used in a known way. -/
theorem known (use : α → β) (same : Mirrors guards first (Pure.pure answer)) :
    Mirrors guards (first >>= fun answer => Pure.pure (use answer)) (Pure.pure (use answer)) :=
  same.value (pure _)

omit [LawfulMonad m] in
/-- A question that no analyzer is needed for. -/
theorem base (question : m α) : Mirrors guards (liftM question) question := rfl

omit [LawfulMonad m] in
theorem ite [Decidable condition] (holds : Mirrors guards yes question)
    (fails : Mirrors guards no other) :
    Mirrors guards (if condition then yes else no) (if condition then question else other) := by
  by_cases hc : condition
  · rw [if_pos hc, if_pos hc]
    exact holds
  · rw [if_neg hc, if_neg hc]
    exact fails

theorem mapM {work : α → StateT Guards m β} {ask : α → m β} (items : List α)
    (same : ∀ item ∈ items, Mirrors guards (work item) (ask item)) :
    Mirrors guards (items.mapM work) (items.mapM ask) := by
  induction items with
  | nil => exact pure []
  | cons item rest ih =>
    rw [mapM_cons, mapM_cons]
    rw [forall_mem_cons] at same
    exact same.1.bind fun _ => (ih same.2).bind fun _ => pure _

/-- Work on the items of a list with known answers. -/
theorem map {work : α → StateT Guards m β} {answer : α → β} (items : List α)
    (same : ∀ item ∈ items, Mirrors guards (work item) (Pure.pure (answer item))) :
    Mirrors guards (items.mapM work) (Pure.pure (items.map answer)) :=
  mapM_pure (m := m) ▸ mapM items same

theorem foldlM {work : β → α → StateT Guards m β} {ask : β → α → m β} (items : List α)
    (start : β) (same : ∀ state, ∀ item ∈ items, Mirrors guards (work state item) (ask state item)) :
    Mirrors guards (items.foldlM work start) (items.foldlM ask start) := by
  induction items generalizing start with
  | nil => exact pure start
  | cons item rest ih =>
    rw [foldlM_cons, foldlM_cons]
    exact (same start item mem_cons_self).bind fun state =>
      ih state fun state item hi => same state item (mem_cons_of_mem _ hi)

theorem allM (items : List α) (same : ∀ item ∈ items, Mirrors guards (work item) (ask item)) :
    Mirrors guards (items.allM work) (items.allM ask) := by
  induction items with
  | nil => exact pure true
  | cons item rest ih =>
    rw [forall_mem_cons] at same
    exact same.1.bind fun
      | true => ih same.2
      | false => pure false

theorem anyM (items : List α) (same : ∀ item ∈ items, Mirrors guards (work item) (ask item)) :
    Mirrors guards (items.anyM work) (items.anyM ask) := by
  induction items with
  | nil => exact pure false
  | cons item rest ih =>
    rw [forall_mem_cons] at same
    exact same.1.bind fun
      | true => pure true
      | false => ih same.2

/-- Work on the items of a list of which some have known answers. -/
theorem filterMap {work : α → StateT Guards m (Option β)} {answer : α → Option β}
    (items : List α) (same : ∀ item ∈ items, Mirrors guards (work item) (Pure.pure (answer item))) :
    Mirrors guards (items.filterMapM work) (Pure.pure (items.filterMap answer)) := by
  induction items with
  | nil =>
    rw [filterMapM_nil]
    exact pure []
  | cons item rest ih =>
    rw [filterMapM_cons, filterMap_cons]
    rw [forall_mem_cons] at same
    refine same.1.value ?_
    cases answer item with
    | none => exact ih same.2
    | some found => exact (ih same.2).known _

theorem filterM (items : List α) (same : ∀ item ∈ items, Mirrors guards (work item) (ask item)) :
    Mirrors guards (items.filterM work) (items.filterM ask) := by
  have aux : ∀ kept, Mirrors guards (items.filterAuxM work kept) (items.filterAuxM ask kept) := by
    induction items with
    | nil => exact fun kept => pure kept
    | cons item rest ih =>
      intro kept
      rw [forall_mem_cons] at same
      exact same.1.bind fun _ => ih same.2 _
  exact (aux []).bind fun _ => pure _

/-- Work on the items of a list that are known to be kept or not. -/
theorem filter {keep : α → Bool} (items : List α)
    (same : ∀ item ∈ items, Mirrors guards (work item) (Pure.pure (keep item))) :
    Mirrors guards (items.filterM work) (Pure.pure (items.filter keep)) := by
  have aux : ∀ kept, Mirrors guards (items.filterAuxM work kept)
      (Pure.pure ((items.filter keep).reverse ++ kept)) := by
    induction items with
    | nil => exact fun kept => pure kept
    | cons item rest ih =>
      intro kept
      rw [forall_mem_cons] at same
      refine same.1.value ?_
      rw [filter_cons]
      cases keep item with
      | true => simpa using ih same.2 (item :: kept)
      | false => exact ih same.2 kept
  have all := (aux []).known List.reverse
  rw [append_nil, reverse_reverse] at all
  exact all

/-- The guards are looked at. -/
theorem get {next : Guards → StateT Guards m α} (later : Mirrors guards (next guards) question) :
    Mirrors guards (MonadState.get >>= next) question := by
  show (Pure.pure (guards, guards) : m (Guards × Guards)) >>= _ = _
  rw [pure_bind]
  exact later

/-- What is done between an entry and the removal of the entry. -/
theorem during_apply {work : StateT Guards m α} :
    Analyzer.during enter leave work guards =
      work (enter guards) >>= fun row => Pure.pure (row.1, leave row.2) := by
  show (Pure.pure ((), enter guards) : m (Unit × Guards)) >>= _ = _
  rw [pure_bind]
  show work (enter guards) >>= _ = _
  refine congrArg (work (enter guards) >>= ·) (funext fun row => ?_)
  show (Pure.pure ((), leave row.2) : m (Unit × Guards)) >>= _ = _
  rw [pure_bind]
  rfl

/-- An entry is taken out again when the work it was made for is done. -/
theorem during {work : StateT Guards m α} (back : leave (enter guards) = guards)
    (same : Mirrors (enter guards) work question) :
    Mirrors guards (Analyzer.during enter leave work) question := by
  rw [Mirrors, during_apply, same, bind_assoc]
  refine congrArg (question >>= ·) (funext fun answer => ?_)
  rw [pure_bind, back]

/-- What is in progress already is not done again. -/
theorem guarded_again {work : StateT Guards m α} (busy : guards.inProgress.contains activity = true) :
    Mirrors guards (Analyzer.guarded activity fallback work) (Pure.pure fallback) := by
  refine get ?_
  rw [if_pos busy]
  exact pure fallback

/-- What is not in progress yet is entered and done. -/
theorem guarded_apply {work : StateT Guards m α}
    (free : guards.inProgress.contains activity = false) :
    Analyzer.guarded activity fallback work guards = Analyzer.during
      (fun guards => { guards with inProgress := activity :: guards.inProgress })
      (fun guards => { guards with inProgress := guards.inProgress.tail }) work guards := by
  show (Pure.pure (guards, guards) : m (Guards × Guards)) >>= _ = _
  rw [pure_bind]
  show (if guards.inProgress.contains activity then _ else _ : StateT Guards m α) guards = _
  rw [if_neg (by simp [free])]

theorem guarded_new {work : StateT Guards m α} (free : guards.inProgress.contains activity = false)
    (same : Mirrors { guards with inProgress := activity :: guards.inProgress } work question) :
    Mirrors guards (Analyzer.guarded activity fallback work) question :=
  (guarded_apply free).trans (during rfl same)

theorem recorded? (node : Node) :
    Mirrors guards (Analyzer.recorded? node : StateT Guards m (Option Ty))
      (Pure.pure ((guards.expectations.find? (·.1 == node)).map Prod.snd)) := by
  exact get (pure _)

end Lawful

/-- Work without inference, in the middle of work with inference. -/
theorem lift {work : Asking α} {question : Inquiry α} (same : Mirrors guards work question) :
    Mirrors guards (liftM work : Analysis α) (liftM question : Inference α) := by
  show (liftM (work guards) : Inference (α × Guards)) = _
  rw [same]
  refine Inference.ext ?_
  show (question >>= fun answer => Pure.pure (answer, guards)) >>=
      (fun row => Inquiry.settled (some row)) =
    (question >>= fun answer => Inquiry.settled (some answer)) >>= _
  rw [bind_assoc, bind_assoc]
  rfl

/-- Work without inference whose answer is known, in the middle of work with inference. -/
theorem lift_known {work : Asking α} {answer : α} (same : Mirrors guards work (Pure.pure answer)) :
    Mirrors guards (liftM work : Analysis α) (Pure.pure answer) := by
  have plain : (liftM (Pure.pure answer : Inquiry α) : Inference α) = Pure.pure answer :=
    Inference.ext (pure_bind _ _)
  exact plain ▸ same.lift

end Mirrors

end ScriptCheck
