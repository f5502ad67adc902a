import PlainTwin.Form
import PlainTwin.Tag

namespace PlainTwin

inductive Kind where
  | option | tri | elastic
  deriving DecidableEq

def Kind.name : Kind → String
  | option => "Option"
  | tri => "Und"
  | elastic => "Elastic"

def Kind.form : Kind → Form
  | option => .option .elem
  | tri => .tri .elem
  | elastic => .elastic

inductive Step where
  | fix (n : Nat)
  | pad (n : Nat)
  | cut (n : Nat)
  | nonnull (fixed : Bool)
  | single
  deriving DecidableEq

/-- How the states of a field survive. A flag says which nullish state comes back. -/
inductive Wrap where
  | tri
  | value
  | marker (null : Bool)
  | markerOption
  | option (null : Bool)
  deriving DecidableEq

structure Conversion where
  kind : Kind
  steps : List Step
  wrap : Wrap
  deriving DecidableEq

inductive SelectError where
  | notElastic (kind : Kind)
  deriving DecidableEq

def SelectError.message : SelectError → String
  | notElastic k => "len and values constraints apply to Elastic fields only, not " ++ k.name

def maxLength : Nat := UInt64.size - 1

/-- A strict bound becomes the nearest inclusive one, within the lengths that can be counted. -/
def LengthRule.step (r : LengthRule) : Step :=
  let n := r.bound.toNat
  match r.op with
  | .eq => .fix n
  | .gt => .pad (min (n + 1) maxLength)
  | .ge => .pad n
  | .lt => .cut (n - 1)
  | .le => .cut n

namespace Constraint

def fixedLength? (c : Constraint) : Option Nat :=
  (c.length.bind LengthRule.exact?).map UInt64.toNat

def steps (c : Constraint) : List Step :=
  (c.length.map LengthRule.step).toList ++
    (if c.requiresNonnull then [.nonnull c.fixedLength?.isSome] else []) ++
    (if c.fixedLength? = some 1 then [.single] else [])

def isRefined (c : Constraint) : Bool := c.length.isSome || c.values.isSome

end Constraint

/-- The wrap of a two-state container, which cannot keep null apart from undefined. -/
def StateSet.optionWrap? (s : StateSet) : Option Wrap :=
  if s.defined && s.allowsNullish then none
  else if s.defined then some .value
  else some (.marker false)

def StateSet.triWrap : StateSet → Wrap
  | ⟨true, true, true⟩ => .tri
  | ⟨true, false, false⟩ => .value
  | ⟨false, true, false⟩ => .marker true
  | ⟨false, false, _⟩ => .marker false
  | ⟨false, true, true⟩ => .markerOption
  | ⟨true, true, false⟩ => .option true
  | ⟨true, false, true⟩ => .option false

def Wrap.carriesValue : Wrap → Bool
  | .tri | .value | .option _ => true
  | _ => false

def Constraint.wrap? (c : Constraint) (k : Kind) : Option Wrap :=
  let s := c.effectiveStates
  match k with
  | .option => s.optionWrap?
  | _ => if s.isAll && !c.isRefined then none else some s.triWrap

/-- The conversion of a field. There is none when nothing would be gained by it, or when no state
is allowed. -/
def Constraint.select (c : Constraint) (k : Kind) : Except SelectError (Option Conversion) :=
  if c.isRefined && k != .elastic then .error (.notElastic k)
  else if c.effectiveStates.isEmpty then .ok none
  else .ok ((c.wrap? k).map fun w =>
    ⟨k, if k = .elastic ∧ w.carriesValue then c.steps else [], w⟩)

def Step.applyForm : Step → Form → Form
  | .fix n, .list f => .array f n
  | .nonnull _, .list (.option f) => .list f
  | .nonnull _, .array (.option f) n => .array f n
  | .single, .array f 1 => f
  | _, f => f

def Wrap.applyForm : Wrap → Form → Form
  | .tri, f => .tri f
  | .value, f => f
  | .marker _, _ => .marker
  | .markerOption, _ => .option .marker
  | .option _, f => .option f

namespace Conversion

def valueForm (c : Conversion) : Form :=
  match c.kind with
  | .elastic => c.steps.foldl (fun f s => s.applyForm f) (.list (.option .elem))
  | _ => .elem

def plainForm (c : Conversion) : Form := c.wrap.applyForm c.valueForm

end Conversion

def Step.render : Step → String
  | fix n => "fixed_len(" ++ n.repr ++ ")"
  | pad n => "pad_min(" ++ n.repr ++ ")"
  | cut n => "truncate_max(" ++ n.repr ++ ")"
  | nonnull _ => "nonnull"
  | single => "single"

def Wrap.render : Wrap → String
  | tri => "und"
  | value => "value"
  | marker true => "marker(null)"
  | marker false => "marker(und)"
  | markerOption => "nullish_option"
  | option true => "option(null)"
  | option false => "option(und)"

end PlainTwin
