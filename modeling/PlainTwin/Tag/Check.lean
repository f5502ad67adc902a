import PlainTwin.Elastic
import PlainTwin.Tag

namespace PlainTwin

variable {α : Type}

inductive Violation where
  | defined
  | null
  | undefined
  | missing
  | length (rule : LengthRule) (actual : Nat)
  | nullElement
  deriving DecidableEq

def Violation.message : Violation → String
  | defined => "value is defined, but the constraint does not allow defined"
  | null => "value is null, but the constraint does not allow null"
  | undefined => "value is undefined, but the constraint does not allow undefined"
  | missing => "value is none, but the constraint allows neither null nor undefined"
  | length rule actual => "length " ++ actual.repr ++ " does not satisfy " ++ rule.render
  | nullElement => "sequence contains null, but values must be nonnull"

structure FieldViolation where
  field : String
  violation : Violation
  deriving DecidableEq

def FieldViolation.message (v : FieldViolation) : String :=
  "field " ++ v.field ++ ": " ++ v.violation.message

def Tri.states (t : Tri α) : StateSet := ⟨t.isDefined, t.isNull, t.isUndefined⟩

def Elastic.states (e : Elastic α) : StateSet := ⟨e.isDefined, e.isNull, e.isUndefined⟩

namespace Constraint

def checkStates (c : Constraint) (held : StateSet) : Except Violation Unit :=
  match c.states with
  | none => .ok ()
  | some s =>
    if held.defined && !s.defined then .error .defined
    else if held.null && !s.null then .error .null
    else if held.undefined && !s.undefined then .error .undefined
    else .ok ()

/-- A missing value may stand for null or for undefined, so either permission admits it. -/
def checkOption (c : Constraint) (o : Option α) : Except Violation Unit :=
  match c.states with
  | none => .ok ()
  | some s =>
    if o.isSome && !s.defined then .error .defined
    else if o.isNone && !s.allowsNullish then .error .missing
    else .ok ()

def checkTri (c : Constraint) (t : Tri α) : Except Violation Unit := c.checkStates t.states

def checkLength (c : Constraint) (n : Nat) : Except Violation Unit :=
  match c.length with
  | some r => if r.allows n then .ok () else .error (.length r n)
  | none => .ok ()

def checkValues (c : Constraint) (hasNull : Bool) : Except Violation Unit :=
  match c.values with
  | some r => if r.allows hasNull then .ok () else .error .nullElement
  | none => .ok ()

def checkSequence (c : Constraint) (e : Elastic α) : Except Violation Unit := do
  c.checkLength e.length
  c.checkValues e.hasNull

/-- A null that the tag names itself is admitted or refused as it is; one that the tag leaves open
is checked as the sequence that stands for it. -/
def checkElastic (c : Constraint) (e : Elastic α) : Except Violation Unit :=
  let s := c.effectiveStates
  if e.isUndefined then
    if s.undefined then .ok () else .error .undefined
  else if e.isNull then
    if c.states.isSome then
      if s.null then .ok () else .error .null
    else c.checkSequence e
  else if !s.defined then .error .defined
  else c.checkSequence e

end Constraint

end PlainTwin
