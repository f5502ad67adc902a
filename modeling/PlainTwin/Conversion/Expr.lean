import PlainTwin.Conversion
import PlainTwin.Conversion.Primitive

namespace PlainTwin

open Source

/-- An expression of generated code over one source value. In `mapped e body` the source of the
body is what `e` holds when it is defined. -/
inductive Expr where
  | source
  | call (p : Primitive) (arg : Expr)
  | mapped (e body : Expr)
  deriving DecidableEq

namespace Expr

variable {α : Type}

/-- The function that an expression computes, if each of its calls fits its argument. -/
def meaning? (d : α) : Expr → (f : Form) → Option (Meaning α f)
  | source, f => some ⟨f, id⟩
  | call p e, f => do
    let ⟨g, F⟩ ← e.meaning? d f
    let ⟨h, P⟩ ← p.meaning? d g
    return ⟨h, P ∘ F⟩
  | mapped e body, f => do
    match ← e.meaning? d f with
    | ⟨.tri g, F⟩ =>
      let ⟨h, B⟩ ← body.meaning? d g
      return ⟨.tri h, fun x => (F x).map B⟩
    | _ => none

def eval? (d : α) (e : Expr) {f : Form} (x : f.Val α) (g : Form) : Option (g.Val α) := do
  let ⟨h, F⟩ ← e.meaning? d f
  if eq : h = g then return eq ▸ F x else none

end Expr

namespace Step

def forwardPrimitive : Step → Primitive
  | fix n => .fixTo n
  | pad n => .padTo n
  | cut n => .cutTo n
  | nonnull false => .fillNulls
  | nonnull true => .fillNullSlots
  | single => .onlySlot

/-- Padding and cutting have no inverse: the plain side is a sequence of any length again. -/
def backwardPrimitive? : Step → Option Primitive
  | fix _ => some .toList
  | pad _ | cut _ => none
  | nonnull false => some .wrapSome
  | nonnull true => some .wrapSomeSlots
  | single => some .oneSlot

def isInvertible (s : Step) : Bool := s.backwardPrimitive?.isSome

end Step

def Wrap.forwardPrimitive? : Wrap → Option Primitive
  | tri => none
  | value => some .unwrapDefined
  | marker _ => some .toMarker
  | markerOption => some .toMarkerOption
  | option _ => some .toOption

def Wrap.backwardPrimitive? (f : Form) : Wrap → Option Primitive
  | tri => none
  | value => some .fromDefined
  | marker null => some (.fromMarker null f)
  | markerOption => some (.fromMarkerOption f)
  | option null => some (.fromOption null)

def Expr.calls (e : Expr) (ps : List Primitive) : Expr := ps.foldl (fun e p => .call p e) e

namespace Conversion

def toTri : Kind → List Primitive
  | .option => [.optionToTri]
  | .tri => []
  | .elastic => [.elasticToTri]

def ofTri : Kind → List Primitive
  | .option => [.triToOption, .optionInto]
  | .tri => []
  | .elastic => [.triToElastic]

def richForm : Kind → Form
  | .elastic => .list (.option .elem)
  | _ => .elem

def onDefined (e : Expr) (ps : List Primitive) : Expr :=
  if ps.isEmpty then e else .mapped e (Expr.source.calls ps)

/-- From the rich value to the plain one. A value that must be defined is unwrapped before the
steps, since a list has a default and a sequence of fixed length has none. -/
def forward (c : Conversion) : Expr :=
  let states := Expr.source.calls (toTri c.kind)
  let steps := c.steps.map Step.forwardPrimitive
  let wrap := c.wrap.forwardPrimitive?.toList
  if c.wrap = .value then (states.calls wrap).calls steps
  else (onDefined states steps).calls wrap

def backward (c : Conversion) : Expr :=
  let steps := c.steps.reverse.filterMap Step.backwardPrimitive?
  let wrap := (c.wrap.backwardPrimitive? (richForm c.kind)).toList
  let states :=
    if c.wrap = .value then (Expr.source.calls steps).calls wrap
    else onDefined (Expr.source.calls wrap) steps
  states.calls (ofTri c.kind)

def toPlain? {α : Type} (d : α) (c : Conversion) (x : c.kind.form.Val α) :
    Option (c.plainForm.Val α) :=
  c.forward.eval? d x c.plainForm

def toRich? {α : Type} (d : α) (c : Conversion) (p : c.plainForm.Val α) :
    Option (c.kind.form.Val α) :=
  c.backward.eval? d p c.kind.form

end Conversion

def Primitive.callee (elem : Tokens) : Primitive → Tokens
  | optionToTri => conv "option_to_und" ++ op "::" ++ angled elem
  | triToOption => conv "und_to_option" ++ op "::" ++ angled elem
  | optionInto => path ["core", "convert", "Into", "into"]
  | elasticToTri => conv "elastic_to_und"
  | triToElastic => conv "und_to_elastic"
  | unwrapDefined => conv "unwrap_defined"
  | fromDefined => conv "from_defined"
  | toMarker => conv "to_marker"
  | fromMarker _ _ => conv "from_marker"
  | toMarkerOption => conv "to_nullish_option"
  | fromMarkerOption _ => conv "from_nullish_option"
  | toOption => conv "to_option"
  | fromOption _ => conv "from_option"
  | fixTo n => conv "fixed_len" ++ op "::" ++ angled (words ["_"] ++ op "," ++ [countLiteral n])
  | toList => conv "to_dyn"
  | padTo _ => conv "pad_min"
  | cutTo _ => conv "truncate_max"
  | fillNulls => conv "nonnull"
  | fillNullSlots => conv "nonnull_array"
  | wrapSome => conv "wrap_some"
  | wrapSomeSlots => conv "wrap_some_array"
  | onlySlot => conv "single"
  | oneSlot => conv "unsingle"
where
  conv (name : String) : Tokens := path ["und", "conv", name]

def Primitive.options : Primitive → Tokens
  | fromMarker null _ | fromOption null => op "," ++ [flag null]
  | padTo n | cutTo n => op "," ++ [countLiteral n]
  | _ => []

def Expr.tokens (elem : Tokens) (source : Tokens) : Expr → Tokens
  | .source => source
  | call p e => p.callee elem ++ paren (e.tokens elem source ++ p.options)
  | mapped e body =>
    e.tokens elem source ++ op "." ++ words ["map"] ++
      paren (op "|" ++ words ["v"] ++ op "|" ++ body.tokens elem (words ["v"]))

end PlainTwin
