import ScriptCheck.Scope.Subsumption

/-!
# Inference in steps

Inferring a type asks for the types of other nodes, which may be anywhere in the
program. Each step is a function of the answers one level further down, and the
levels are stacked as deep as needed. A question that no level answers has no
answer at all, which is kept apart from the type `unknown`.
-/

namespace ScriptCheck

/-- An inference: an answer, or none within the depth allowed, and the scripts
consulted on the way. -/
structure Inference (α : Type) where
  /-- The answer, if it was reached. -/
  run : Inquiry (Option α)

namespace Inference

/-- An inference that has reached its answer. -/
def done {α : Type} (answer : α) : Inference α := ⟨.settled (some answer)⟩

/-- An inference that reached no answer. -/
def exhausted {α : Type} : Inference α := ⟨.settled none⟩

/-- An inference that goes on from the answer of another. -/
def andThen {α β : Type} (first : Inference α) (next : α → Inference β) : Inference β :=
  ⟨first.run.andThen fun
    | some answer => (next answer).run
    | none => .settled none⟩

/-- An answer that needs no depth. -/
def ofInquiry {α : Type} (inquiry : Inquiry α) : Inference α :=
  ⟨inquiry.andThen fun answer => .settled (some answer)⟩

instance : Monad Inference where
  pure := done
  bind := andThen

instance : MonadLift Inquiry Inference where
  monadLift := ofInquiry

/-- The answer that is reached, given how scripts import each other. -/
def answer? {α : Type} (inference : Inference α) (imports : Imports) : Option α :=
  inference.run.answer imports

end Inference

/-- What is going on while a question is asked. -/
structure Situation where
  /-- Nodes whose types are being inferred. Asking for one of them again gives
  `unknown`. -/
  busy : List Node
  /-- Arguments with the types that the call they belong to expects of them, for
  calls whose type parameters are being found. -/
  expectations : List (Node × Ty)

/-- Nothing going on. -/
def Situation.idle : Situation := ⟨[], []⟩

/-- The latest type recorded as expected of a node. -/
def Situation.recorded? (situation : Situation) (node : Node) : Option Ty :=
  (situation.expectations.find? (·.1 == node)).map Prod.snd

/-- The situation in which a node is expected to have a type. -/
def Situation.expecting (situation : Situation) (node : Node) (type : Ty) : Situation :=
  { situation with expectations := (node, type) :: situation.expectations }

/-- The questions that lead to each other, as answered one level further down. -/
structure Deeper (m : Type → Type := Inference) where
  /-- The type of a node. -/
  typeOf : Situation → Node → m Ty
  /-- The type that the construct around a node requires of it. -/
  expected? : Situation → Node → m (Option Ty)
  /-- The type of a property of an already expanded type. -/
  property? : Situation → Ty → String → m (Option Ty)
  /-- The type found under a key in an already expanded type. -/
  indexed? : Situation → Ty → Ty → m (Option Ty)

/-- No question is answered. -/
def Deeper.silent : Deeper where
  typeOf := fun _ _ => .exhausted
  expected? := fun _ _ => .exhausted
  property? := fun _ _ _ => .exhausted
  indexed? := fun _ _ _ => .exhausted

namespace Node

/-- The store declaration around a node. -/
def enclosingStore? (node : Node) : Option Node :=
  node.ancestors.find? fun ancestor =>
    match ancestor.form with
    | .storeDeclaration _ _ _ => true
    | _ => false

/-- The type of the instance of a store. -/
def storeType (store : Node) : Ty :=
  match store.form with
  | .storeDeclaration name _ _ => .store name store
  | _ => .unknown

/-- The member of a store with the given name. -/
def storeMember? (store : Node) (name : String) : Option Node :=
  store.children.find? fun member =>
    match member.form with
    | .storeMember _ declared _ _ => declared == name
    | _ => false

/-- Who may reach a store member. -/
def access? (member : Node) : Option Access :=
  match member.form with
  | .storeMember access _ _ _ => some access
  | _ => none

end Node

end ScriptCheck
