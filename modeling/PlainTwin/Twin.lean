import PlainTwin.Conversion.Expr
import PlainTwin.Twin.Plan
import PlainTwin.Twin.SerdeOption

namespace PlainTwin

open Source

inductive PlainType where
  | kept (type : Tokens)
  | built (form : Form) (elem : Tokens)

def PlainType.tokens : PlainType → Tokens
  | kept type => type
  | built form elem => form.tokens elem

structure TwinField where
  attrs : List Attribute
  vis : Tokens
  name : String
  type : PlainType

/-- How a field is set from the field of the same name. The element type is named where a call
has to be told of it. -/
structure Assignment where
  name : String
  elem : Tokens
  expr : Expr

structure FieldCheck where
  name : String
  kind : Kind
  constraint : Constraint

/-- A plain twin: its struct, the conversions both ways, and the checks of the rich struct. -/
structure Twin where
  rich : String
  plain : String
  vis : Tokens
  generics : Generics
  traits : List DerivedTrait
  attrs : List Attribute
  fields : List TwinField
  toPlain : List Assignment
  toRich : List Assignment
  checks : List FieldCheck

def bareName (name : String) : String :=
  match name.toList with
  | 'r' :: '#' :: cs => String.ofList cs
  | _ => name

def plainName (rich : String) : String := bareName rich ++ "Plain"

def isSerde (a : Attribute) : Bool := a.isNamed "serde"

def skipNone : Tokens :=
  words ["skip_serializing_if"] ++ op "=" ++ [textLiteral "::core::option::Option::is_none"] ++
    op "," ++ words ["deserialize_with"] ++ op "=" ++
    [textLiteral "::und::conv::deserialize_present"]

/-- A marker has no value on the wire: that the key is there says it all. -/
def Wrap.markerAttributes (w : Wrap) (hasDefault : Bool) : List Attribute :=
  let preset := if hasDefault then [] else words ["default"]
  match w with
  | .markerOption =>
    [.listed "serde" ((if hasDefault then [] else preset ++ op ",") ++ skipNone)]
  | .marker _ => if hasDefault then [] else [.listed "serde" preset]
  | _ => []

/-- The attributes that a field keeps. Those of the serializer may speak of the rich type, so a
converted field keeps only the ones that cannot. -/
def FieldPlan.keptAttributes (serde : Bool) (p : FieldPlan) : List Attribute :=
  p.field.attrs.filter fun a => !isSerde a ||
    serde && (p.decision.conversion?.isNone || (SerdeOptions.ofAttribute a).isTypeAgnostic)

def FieldPlan.attributes (serde : Bool) (p : FieldPlan) : List Attribute :=
  let kept := p.keptAttributes serde
  let hasDefault := kept.any fun a => isSerde a && (SerdeOptions.ofAttribute a).setsDefault
  kept ++ match p.decision.conversion? with
    | some c => if serde then c.wrap.markerAttributes hasDefault else []
    | none => []

def FieldPlan.plainType (p : FieldPlan) : PlainType :=
  match p.decision with
  | .checked container _ (some c) => .built c.plainForm container.elem
  | _ => .kept p.field.type

def FieldPlan.assignment (f : Conversion → Expr) (p : FieldPlan) : Assignment :=
  match p.decision with
  | .checked container _ (some c) => ⟨p.field.name, container.elem, f c⟩
  | _ => ⟨p.field.name, [], .source⟩

def FieldPlan.check? (p : FieldPlan) : Option FieldCheck :=
  match p.decision with
  | .checked container c _ => some ⟨p.field.name, container.kind, c⟩
  | .copied => none

def Twin.ofPlan (p : Plan) : Twin :=
  let s := p.rich
  let serde := s.derivesSerde
  { rich := s.name
    plain := plainName s.name
    vis := s.vis
    generics := s.generics
    traits := s.traits
    attrs := s.attrs.filter fun a => serde || !isSerde a
    fields := p.fields.map fun f => ⟨f.attributes serde, f.field.vis, f.field.name, f.plainType⟩
    toPlain := p.fields.map (FieldPlan.assignment Conversion.forward)
    toRich := p.fields.map (FieldPlan.assignment Conversion.backward)
    checks := p.fields.filterMap FieldPlan.check? }

end PlainTwin
