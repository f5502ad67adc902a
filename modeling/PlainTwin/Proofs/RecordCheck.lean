import PlainTwin.Proofs.FieldCells

namespace PlainTwin.RecordCheck

open Checking FieldCells

variable {r : Record} {f : FieldPlan} {fs : List FieldPlan}

theorem run?_of_lookup {k : Kind} {c : Constraint} {name : String} {s : Schema}
    {a : k.form.Val s.Val} (h : r.lookup name = some ⟨.formed k.form s, a⟩) :
    (FieldCheck.mk name k c).run? r = some ((check c k a).mapError (⟨name, ·⟩)) := by
  cases k with
  | option | tri | elastic =>
      unfold FieldCheck.run?
      rw [h]
      rfl

end PlainTwin.RecordCheck
