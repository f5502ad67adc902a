import PlainTwin.Twin

namespace PlainTwin

open Source

def someOf (ts : Tokens) : Tokens := path ["core", "option", "Option", "Some"] ++ paren ts

def noneOf : Tokens := path ["core", "option", "Option", "None"]

def initialised (name : String) (value : Tokens) : Tokens := words [name] ++ op ":" ++ value

def commaSeparated (items : List Tokens) : Tokens := separated (op ",") items

namespace Constraint

def statesLiteral (s : StateSet) : Tokens :=
  path ["und", "constraint", "StateConstraint"] ++ brace (commaSeparated [
    initialised "def" [flag s.defined], initialised "null" [flag s.null],
    initialised "und" [flag s.undefined]])

def opName : LengthOp → String
  | .eq => "Eq"
  | .gt => "Gt"
  | .ge => "Ge"
  | .lt => "Lt"
  | .le => "Le"

def lengthLiteral (r : LengthRule) : Tokens :=
  path ["und", "constraint", "LenConstraint"] ++ brace (commaSeparated [
    initialised "op" (path ["und", "constraint", "LenOp", opName r.op]),
    initialised "len" [countLiteral r.bound.toNat]])

def valuesLiteral (r : ValuesRule) : Tokens :=
  path ["und", "constraint", "ValuesConstraint"] ++ brace (initialised "nonnull" [flag r.nonnull])

def optionLiteral {α : Type} (literal : α → Tokens) : Option α → Tokens
  | some a => someOf (literal a)
  | none => noneOf

def literal (c : Constraint) : Tokens :=
  path ["und", "Constraint"] ++ brace (commaSeparated [
    initialised "state" (optionLiteral statesLiteral c.states),
    initialised "len" (optionLiteral lengthLiteral c.length),
    initialised "values" (optionLiteral valuesLiteral c.values)])

end Constraint

def TwinField.tokens (f : TwinField) : Tokens :=
  f.attrs.flatMap Attribute.tokens ++ f.vis ++ initialised f.name f.type.tokens ++ op ","

def ownField (name : String) : Tokens := words ["self"] ++ op "." ++ words [name]

def Assignment.tokens (a : Assignment) : Tokens :=
  initialised a.name (a.expr.tokens a.elem (ownField a.name)) ++ op ","

def Kind.checkMethod : Kind → String
  | option => "validate_opt"
  | tri => "validate_und"
  | elastic => "validate_elastic"

def FieldCheck.tokens (c : FieldCheck) : Tokens :=
  brace (
    words ["const", "C"] ++ op ":" ++ path ["und", "Constraint"] ++ op "=" ++
      c.constraint.literal ++ op ";" ++
    words ["C"] ++ op "." ++ words [c.kind.checkMethod] ++ paren (op "&" ++ ownField c.name) ++
      op "." ++ words ["map_err"] ++ paren (op "|" ++ words ["v"] ++ op "|" ++
        words ["v"] ++ op "." ++ words ["at"] ++ paren [textLiteral c.name]) ++ op "?" ++ op ";")

namespace Twin

variable (t : Twin)

def deriveAttribute : Tokens :=
  if t.traits.isEmpty then []
  else (Attribute.listed "derive" (commaSeparated (t.traits.map DerivedTrait.tokens))).tokens

def structTokens : Tokens :=
  t.deriveAttribute ++ t.attrs.flatMap Attribute.tokens ++ t.vis ++ words ["struct", t.plain] ++
    t.generics.declared ++ t.generics.boundTokens ++ brace (t.fields.flatMap TwinField.tokens)

def richType : Tokens := words [t.rich] ++ t.generics.applied

def plainType : Tokens := words [t.plain] ++ t.generics.applied

def implementation (head : Tokens) (body : Tokens) : Tokens :=
  words ["impl"] ++ t.generics.quantified ++ head ++ t.generics.boundTokens ++ brace body

def conversion (name : String) (source target : Tokens) (built : String)
    (assignments : List Assignment) : Tokens :=
  t.implementation source (words ["pub", "fn", name] ++ paren (words ["self"]) ++ op "->" ++
    target ++ brace (words [built] ++ brace (assignments.flatMap Assignment.tokens)))

def fromImplementation (source target : Tokens) (method : String) : Tokens :=
  t.implementation
    (path ["core", "convert", "From"] ++ angled source ++ words ["for"] ++ target)
    (words ["fn", "from"] ++ paren (initialised "value" source) ++ op "->" ++ words ["Self"] ++
      brace (words ["value"] ++ op "." ++ words [method] ++ paren []))

def resultType : Tokens :=
  path ["core", "result", "Result"] ++
    angled (paren [] ++ op "," ++ path ["und", "validate", "ValidationError"])

def checkImplementation : Tokens :=
  t.implementation (path ["und", "validate", "UndValidate"] ++ words ["for"] ++ t.richType)
    (words ["fn", "validate_und"] ++ paren (op "&" ++ words ["self"]) ++ op "->" ++ resultType ++
      brace (t.checks.flatMap FieldCheck.tokens ++ path ["core", "result", "Result", "Ok"] ++
        paren (paren [])))

/-- The plain struct, the conversions both ways and the check of the rich struct. -/
def tokens : Tokens :=
  t.structTokens ++
    t.conversion "into_plain" t.richType t.plainType t.plain t.toPlain ++
    t.conversion "into_rich" t.plainType t.richType t.rich t.toRich ++
    t.fromImplementation t.richType t.plainType "into_plain" ++
    t.fromImplementation t.plainType t.richType "into_rich" ++
    t.checkImplementation

end Twin

end PlainTwin
