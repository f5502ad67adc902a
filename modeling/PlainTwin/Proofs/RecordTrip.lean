import PlainTwin.Proofs.RecordCheck

namespace PlainTwin.RecordTrip

open FieldCells RecordCheck Source

variable {p : Plan} {E : Conversion → Expr} {A B : Decision → Cell → Prop}

/-- A record that has the fields of a plan in their order, no name twice, each with a value that suits
what was decided of it. -/
structure Fills (typed : Decision → Cell → Prop) (p : Plan) (r : Record) : Prop where
  names : r.map Prod.fst = p.fields.map (·.field.name)
  nodup : (p.fields.map (·.field.name)).Nodup
  typed : ∀ f ∈ p.fields, ∃ cell, r.lookup f.field.name = some cell ∧ typed f.decision cell

theorem lookup_cons_of_ne {r : Record} {n m : String} (cell : Cell) (h : n ≠ m) :
    List.lookup n ((m, cell) :: r) = r.lookup n := by
  rw [List.lookup_cons, beq_false_of_ne h]

end PlainTwin.RecordTrip
