import PlainTwin.Proofs.ItemOutput
import PlainTwin.Proofs.KeyNames
import PlainTwin.Proofs.Planning
import PlainTwin.Twin.Emission

namespace PlainTwin.TwinSkeleton

open FieldCells ItemOutput KeyNames Planning Source Success

structure Skeleton where
  name : String
  vis : Tokens
  type : Tokens
  container : Option Container
  docs : List Attribute
  serde : List Attribute

def Skeleton.ofField (f : Field) : Skeleton :=
  ⟨f.name, f.vis, f.type.tokens, Container.ofType? f.type,
    f.attrs.filter fun a => (docLine? a).any (!isDirective ·), f.attrs.filter isSerde⟩

def Skeleton.ofRich (f : RichField) : Skeleton :=
  ⟨f.name, f.vis, f.type, f.container, f.attrs.filter (!isSerde ·), f.attrs.filter isSerde⟩

/-- A field as it was read, with what the plain struct and each of the conversions have for it. -/
structure Row where
  field : Skeleton
  conversion : Option Conversion
  twin : TwinField
  toPlain : Assignment
  toRich : Assignment

def Row.value (row : Row) (E : Conversion → Expr) : Tokens :=
  match row.conversion, row.field.container with
  | some c, some container => (E c).tokens container.elem (ownField row.field.name)
  | _, _ => ownField row.field.name

def Row.ofPlan (serde : Bool) (f : FieldPlan) : Row :=
  ⟨Skeleton.ofRich f.field, f.decision.conversion?,
    ⟨f.attributes serde, f.field.vis, f.field.name, f.plainType⟩,
    f.assignment Conversion.forward, f.assignment Conversion.backward⟩

def sample : String :=
  "#[derive(Serialize)]struct N\x7b/// A\n#[serde(rename=\"F\")]#[und(\"def\")]pub n:Und<u8>,
    /// undgen:ignore\n/// B\n#[serde(default)]m:T\x7d"

end PlainTwin.TwinSkeleton
