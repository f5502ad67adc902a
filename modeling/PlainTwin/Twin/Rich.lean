import PlainTwin.Conversion
import PlainTwin.Source.Arguments
import PlainTwin.Source.Item

namespace PlainTwin

open Source

/-- A type that is recognised as one of the containers, with the tokens of its element type. -/
structure Container where
  kind : Kind
  elem : Tokens

def Kind.ofTypeName? (name : String) : Option Kind :=
  if ["Option", "Opt", "Nullable"].contains name then some .option
  else if name = "Und" then some .tri
  else if name = "Elastic" then some .elastic
  else none

/-- A path is a container by its last name, if that has one type for its argument. -/
def Container.ofType? (t : TypeText) : Option Container := do
  let e ← t.pathEnd
  let kind ← Kind.ofTypeName? e.name
  match e.args with
  | some [.type elem] => return ⟨kind, elem⟩
  | _ => none

structure Directives where
  ignore : Bool := false
  generated : Bool := false
  deriving DecidableEq

def ignoreLine : String := "undgen:ignore"

def generatedLine : String := "undgen:generated"

def docLine? (a : Attribute) : Option String := if a.isNamed "doc" then a.text? else none

def trimmed (s : String) : String := String.ofList (Text.trim s.toList)

def isDirective (line : String) : Bool := [ignoreLine, generatedLine].contains (trimmed line)

def Directives.ofAttributes (attrs : List Attribute) : Directives :=
  let lines := (attrs.filterMap docLine?).map trimmed
  ⟨lines.contains ignoreLine, lines.contains generatedLine⟩

/-- The attributes that the plain side repeats: doc lines that are no directives, then the
attributes of the serializer. -/
def carriedAttributes (attrs : List Attribute) : List Attribute :=
  attrs.filter (fun a => (docLine? a).any (!isDirective ·)) ++ attrs.filter (·.isNamed "serde")

inductive AttributeError where
  | arguments (e : ArgumentError)
  | noArguments
  | notText
  | unknownArgument
  | repeatedTag
  | tagOnStruct
  | traitsOnField
  deriving DecidableEq

def AttributeError.message : AttributeError → String
  | arguments e => e.message
  | noArguments => "expected #[und(\"..\")] or #[und = \"..\"]"
  | notText => "expected a string tag"
  | unknownArgument => "expected `ignore`, `derive(..)` or a tag string"
  | repeatedTag => "duplicate und tag"
  | tagOnStruct => "a constraint tag belongs on a field"
  | traitsOnField => "derive belongs on the struct"

structure Marking where
  tag : Option String := none
  ignore : Bool := false
  traits : List DerivedTrait := []

namespace Marking

def setTag (m : Marking) (tag : String) : Except AttributeError Marking :=
  if m.tag.isSome then .error .repeatedTag else .ok { m with tag := some tag }

def ofArguments {α : Type} : Except ArgumentError α → Except AttributeError α
  | .ok a => .ok a
  | .error e => .error (.arguments e)

def addArguments : Nat → Marking → Tokens → Except AttributeError Marking
  | 0, m, _ => .ok m
  | k + 1, m, ts => do
    if ts.isEmpty then return m
    let (p, rest) ← ofArguments (Arguments.path ts)
    let (m, rest) ←
      if p.isName "ignore" then pure ({ m with ignore := true }, rest)
      else if p.isName "derive" then do
        let (ps, rest) ← ofArguments (Arguments.bracketedPaths rest)
        pure ({ m with traits := m.traits ++ ps.map ModulePath.derived }, rest)
      else .error .unknownArgument
    addArguments k m (← ofArguments (Arguments.separator rest))

def add (m : Marking) (a : Attribute) : Except AttributeError Marking :=
  match a.args with
  | .bare => .error .noArguments
  | .value _ => match a.text? with
    | some tag => m.setTag tag
    | none => .error .notText
  | .list _ [.literal (.text tag) _] => m.setTag tag
  | .list _ args => m.addArguments (args.length + 1) args

def ofAttributes (attrs : List Attribute) : Except AttributeError Marking :=
  (attrs.filter (·.isNamed "und")).foldlM add {}

end Marking

/-- The traits that a struct derives, without the one that asks for a plain twin. -/
def derivedTraits (attrs : List Attribute) : Except AttributeError (List DerivedTrait) := do
  let lists ← (attrs.filter (·.isNamed "derive")).mapM fun a =>
    Marking.ofArguments (Arguments.traits a)
  return lists.flatten.filter (·.last != "UndPlain")

def addTrait (ts : List DerivedTrait) (t : DerivedTrait) : List DerivedTrait :=
  if ts.any fun u => Tokens.render u.tokens == Tokens.render t.tokens then ts else ts ++ [t]

structure RichField where
  name : String
  vis : Tokens
  type : Tokens
  container : Option Container
  tag : Option String
  attrs : List Attribute
  directives : Directives

def RichField.isExported (f : RichField) : Bool := !f.vis.isEmpty

structure RichStruct where
  name : String
  vis : Tokens
  generics : Generics
  traits : List DerivedTrait
  attrs : List Attribute
  fields : List RichField
  directives : Directives

namespace RichStruct

def hasTags (s : RichStruct) : Bool := s.fields.any fun f => f.tag.isSome && !f.directives.ignore

def derivesSerde (s : RichStruct) : Bool :=
  s.traits.any fun t => ["Serialize", "Deserialize"].contains t.last

end RichStruct

def Directives.withIgnore (d : Directives) (ignore : Bool) : Directives :=
  { d with ignore := d.ignore || ignore }

def RichField.ofField (f : Field) : Except AttributeError RichField := do
  let m ← Marking.ofAttributes f.attrs
  if !m.traits.isEmpty then .error .traitsOnField else
  return ⟨f.name, f.vis, f.type.tokens, Container.ofType? f.type, m.tag,
    carriedAttributes f.attrs, (Directives.ofAttributes f.attrs).withIgnore m.ignore⟩

def RichStruct.ofStruct (s : Struct) : Except AttributeError (Option RichStruct) :=
  match s.fields with
  | .named fields => do
    let m ← Marking.ofAttributes s.attrs
    if m.tag.isSome then .error .tagOnStruct else
    let traits := m.traits.foldl addTrait (← derivedTraits s.attrs)
    let fields ← fields.mapM RichField.ofField
    return some ⟨s.name, s.vis, s.generics, traits, carriedAttributes s.attrs, fields,
      (Directives.ofAttributes s.attrs).withIgnore m.ignore⟩
  | _ => .ok none

end PlainTwin
