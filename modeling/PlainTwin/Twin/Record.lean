import PlainTwin.Schema
import PlainTwin.Tag.Check
import PlainTwin.Twin

namespace PlainTwin

/-- The value of an expression over a field. A field of no container is only copied. -/
def Expr.run? (e : Expr) (cell : Cell) : Option Cell :=
  if e = .source then some cell
  else match cell with
    | ⟨.formed f s, v⟩ => do
      let ⟨g, F⟩ ← e.meaning? s.blank f
      return ⟨.formed g s, F v⟩
    | _ => none

def Assignment.run? (a : Assignment) (r : Record) : Option (String × Cell) := do
  return (a.name, ← a.expr.run? (← r.lookup a.name))

def FieldCheck.run? (c : FieldCheck) (r : Record) : Option (Except FieldViolation Unit) := do
  let result ← match c.kind, ← r.lookup c.name with
    | .option, ⟨.formed (.option .elem) _, v⟩ => some (c.constraint.checkOption v)
    | .tri, ⟨.formed (.tri .elem) _, v⟩ => some (c.constraint.checkTri v)
    | .elastic, ⟨.formed .elastic _, v⟩ => some (c.constraint.checkElastic v)
    | _, _ => none
  return result.mapError (⟨c.name, ·⟩)

namespace Twin

def intoPlain? (t : Twin) (r : Record) : Option Record := t.toPlain.mapM (·.run? r)

def intoRich? (t : Twin) (r : Record) : Option Record := t.toRich.mapM (·.run? r)

def checkAll? (r : Record) : List FieldCheck → Option (Except FieldViolation Unit)
  | [] => some (.ok ())
  | c :: cs => do
    match ← c.run? r with
    | .ok () => checkAll? r cs
    | .error v => return .error v

def check? (t : Twin) (r : Record) : Option (Except FieldViolation Unit) := checkAll? r t.checks

end Twin

end PlainTwin
