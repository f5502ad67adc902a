import PlainTwin.Tag.Parser
import PlainTwin.Twin.Rich

namespace PlainTwin

/-- What becomes of a field: it is copied, or it is checked and perhaps converted. -/
inductive Decision where
  | copied
  | checked (container : Container) (constraint : Constraint) (conversion : Option Conversion)

namespace Decision

def constraint? : Decision → Option Constraint
  | copied => none
  | checked _ c _ => some c

def conversion? : Decision → Option Conversion
  | copied => none
  | checked _ _ v => v

end Decision

structure FieldPlan where
  field : RichField
  decision : Decision

structure Plan where
  rich : RichStruct
  fields : List FieldPlan

inductive PlanError where
  | tag (type field : String) (cause : TagError)
  | select (type field : String) (cause : SelectError)
  | noFieldModified (type : String)
  deriving DecidableEq

def PlanError.message : PlanError → String
  | tag t f e => t ++ "." ++ f ++ ": " ++ e.message
  | select t f e => t ++ "." ++ f ++ ": " ++ e.message
  | noFieldModified t => t ++ ": malformed: no field is modified"

def RichField.candidate? (f : RichField) : Option (Container × String) := do
  let tag ← f.tag
  let container ← f.container
  if !f.directives.ignore && f.isExported then some (container, tag) else none

def FieldPlan.build (type : String) (f : RichField) : Except PlanError FieldPlan :=
  match f.candidate? with
  | none => .ok ⟨f, .copied⟩
  | some (container, tag) =>
    match Constraint.parse tag with
    | .error e => .error (.tag type f.name e)
    | .ok c => match c.select container.kind with
      | .error e => .error (.select type f.name e)
      | .ok v => .ok ⟨f, .checked container c v⟩

/-- Plans every field. A plan that converts no field is refused. -/
def Plan.build (s : RichStruct) : Except PlanError Plan := do
  let fields ← s.fields.mapM (FieldPlan.build s.name)
  if fields.any fun p => p.decision.conversion?.isSome then return ⟨s, fields⟩
  else .error (.noFieldModified s.name)

end PlainTwin
