import ScriptCheck.Proofs.TypeCourses

/-!
# Types after a change

After a faithful change the type that is inferred for a moved node is the moved type of the node.
Each level of inference transfers its answers if the level below does.
-/

namespace ScriptCheck

open Movable (move)

/-- The answers of one level of inference transfer to the other. -/
structure Deeper.TransfersTo (graft : Transplant) (deeper deeper' : Deeper) : Prop where
  typeOf : graft.together situation situation' → graft.asked situation node →
    Inference.Transfers graft (deeper.typeOf situation node)
      (deeper'.typeOf situation' (move graft node)) graft.Writes
  expected? : graft.together situation situation' → graft.awaited situation node →
    Inference.Transfers graft (deeper.expected? situation node)
      (deeper'.expected? situation' (move graft node))
      fun found => ∀ type ∈ found, graft.Writes type
  property? (name : String) : graft.together situation situation' → graft.WritesInside type →
    Inference.Transfers graft (deeper.property? situation type name)
      (deeper'.property? situation' (move graft type) name)
      fun found => ∀ type ∈ found, graft.Writes type
  indexed? : graft.together situation situation' → graft.WritesInside base → graft.Writes key →
    Inference.Transfers graft (deeper.indexed? situation base key)
      (deeper'.indexed? situation' (move graft base) (move graft key))
      fun found => ∀ type ∈ found, graft.Writes type

/-- The answers of a level transfer in the course of the steps above it. -/
abbrev Deeper.TransfersTo.course {graft : Transplant} {deeper deeper' : Deeper}
    (transfers : deeper.TransfersTo graft deeper') (faithful : graft.Faithful)
    {situation situation' : Situation} (hs : graft.together situation situation') :
    Deeper.Course graft Unit fun _ => Inference where
  toSettings := .told Unit situation
  keeps := faithful.toKeepsInside
  deeper _ := deeper
  deeper' := deeper'
  situation' := situation'
  Asks question again holds := Inference.Transfers graft (question ()) again holds
  done := .pure
  andThen := .bind
  lift := .lift
  same same asks := same ▸ asks
  typeOf := transfers.typeOf hs
  literal written asked := transfers.typeOf (faithful.expecting _ hs written) asked
  expected? := transfers.expected? hs
  property? name := transfers.property? name hs
  indexed? := transfers.indexed? hs

end ScriptCheck
