import PlainTwin.Schema
import PlainTwin.Twin

namespace PlainTwin

open Source

namespace Schema

def ofName? (name : String) : Option Schema :=
  ([("i64", int .i64), ("u8", int .u8), ("u32", int .u32), ("u64", int .u64), ("f64", float),
    ("bool", bool), ("String", string), ("Value", any), ("Nullish", formed .marker any)] :
      List (String × Schema)).lookup name

def applied? (name : String) (s : Schema) : Option Schema :=
  if name = "Vec" then some (formed (.list .elem) s)
  else if name = "Map" then some (map s)
  else (Kind.ofTypeName? name).map fun k => formed k.form s

def arrayParts? (content : Tokens) : Option (Tokens × Nat) :=
  match content.reverse with
  | .literal .int n :: .mark ';' _ :: elem =>
    (String.ofList (n.toList.takeWhile Char.isDigit)).toNat?.map (elem.reverse, ·)
  | _ => none

/-- The schema of a type by its names. Other names than those of its own have the schemas that
`named` gives. The number limits how deep types are nested. -/
def ofTypeFor (named : String → Option Schema) : Nat → Tokens → Option Schema
  | 0, _ => none
  | n + 1, ts =>
    match ts with
    | [.group .bracket content] => do
      let (elem, length) ← arrayParts? content
      return formed (.array .elem length) (← ofTypeFor named n elem)
    | _ => do
      let e ← (← Rule.whole? (Rule.type true) ts).pathEnd
      match e.args with
      | none => ofName? e.name <|> named e.name
      | some [.type elem] => applied? e.name (← ofTypeFor named n elem)
      | _ => none

def ofType? (named : String → Option Schema) (ts : Tokens) : Option Schema :=
  ofTypeFor named (Tokens.size ts + 1) ts

end Schema

def FieldRule.ofAttributes (name : String) (attrs : List Attribute) : FieldRule :=
  let options := (attrs.filter isSerde).flatMap fun a => (SerdeOptions.ofAttribute a).options
  let has (option : String) : Bool := options.any (·.isNamed option)
  { name := name
    key := ((options.filter (·.isNamed "rename")).findSome? SerdeOption.text?).getD (bareName name)
    hasDefault := has "default"
    skipsAbsent := has "skip_serializing_if"
    presentIsSome := has "deserialize_with" }

def RichField.schema? (named : String → Option Schema) (f : RichField) : Option Schema :=
  match f.container with
  | some c => (Schema.ofType? named c.elem).map (.formed c.kind.form)
  | none => Schema.ofType? named f.type

def TwinField.schema? (named : String → Option Schema) (f : TwinField) : Option Schema :=
  match f.type with
  | .kept type => Schema.ofType? named type
  | .built form elem => (Schema.ofType? named elem).map (.formed form)

def Fields.ofRich? (named : String → Option Schema) : List RichField → Option Fields
  | [] => some .nil
  | f :: fs => do
    return .cons (FieldRule.ofAttributes f.name f.attrs) (← f.schema? named) (← ofRich? named fs)

def Fields.ofTwin? (named : String → Option Schema) : List TwinField → Option Fields
  | [] => some .nil
  | f :: fs => do
    return .cons (FieldRule.ofAttributes f.name f.attrs) (← f.schema? named) (← ofTwin? named fs)

end PlainTwin
