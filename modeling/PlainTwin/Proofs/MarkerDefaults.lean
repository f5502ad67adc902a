import PlainTwin.Proofs.KeyNames

namespace PlainTwin.MarkerDefaults

open KeyNames Source

def optionsOf (a : Attribute) : List Tokens :=
  match a.args with
  | .list _ args => pieces args
  | _ => []

def options (attrs : List Attribute) : List Tokens := (attrs.filter isSerde).flatMap optionsOf

section Marker

variable {f : FieldPlan} {c : Conversion} (hc : f.decision.conversion? = some c)
include hc

end Marker

end PlainTwin.MarkerDefaults
