namespace PlainTwin

structure StateSet where
  defined : Bool
  null : Bool
  undefined : Bool
  deriving DecidableEq

namespace StateSet

def empty : StateSet := ⟨false, false, false⟩

def required : StateSet := ⟨true, false, false⟩

def nullish : StateSet := ⟨false, true, true⟩

def all : StateSet := ⟨true, true, true⟩

def isEmpty (s : StateSet) : Bool := s == empty

def isAll (s : StateSet) : Bool := s == all

def allowsNullish (s : StateSet) : Bool := s.null || s.undefined

def union (s t : StateSet) : StateSet :=
  ⟨s.defined || t.defined, s.null || t.null, s.undefined || t.undefined⟩

def meets (s t : StateSet) : Bool :=
  s.defined && t.defined || s.null && t.null || s.undefined && t.undefined

end StateSet

inductive LengthOp where
  | eq | gt | ge | lt | le
  deriving DecidableEq

def LengthOp.symbol : LengthOp → String
  | eq => "=="
  | gt => ">"
  | ge => ">="
  | lt => "<"
  | le => "<="

/-- A bound on the length of a sequence. Lengths are counted in 64 bits. -/
structure LengthRule where
  op : LengthOp
  bound : UInt64
  deriving DecidableEq

def LengthRule.allows (r : LengthRule) (n : Nat) : Bool :=
  match r.op with
  | .eq => n == r.bound.toNat
  | .gt => n > r.bound.toNat
  | .ge => n ≥ r.bound.toNat
  | .lt => n < r.bound.toNat
  | .le => n ≤ r.bound.toNat

def LengthRule.exact? (r : LengthRule) : Option UInt64 :=
  match r.op with
  | .eq => some r.bound
  | _ => none

structure ValuesRule where
  nonnull : Bool
  deriving DecidableEq

def ValuesRule.allows (r : ValuesRule) (hasNull : Bool) : Bool := !(r.nonnull && hasNull)

structure Constraint where
  states : Option StateSet := none
  length : Option LengthRule := none
  values : Option ValuesRule := none
  deriving DecidableEq

namespace Constraint

def empty : Constraint := {}

def isEmpty (c : Constraint) : Bool := c == empty

/-- The states that apply: all of them when none are named, and the defined one in any case when
the length is fixed. -/
def effectiveStates (c : Constraint) : StateSet :=
  let s := c.states.getD .all
  if (c.length.bind LengthRule.exact?).isSome then { s with defined := true } else s

def requiresNonnull (c : Constraint) : Bool := c.values == some ⟨true⟩

end Constraint

def StateSet.words (s : StateSet) : List String :=
  if s = .required then ["required"]
  else if s = .nullish then ["nullish"]
  else (if s.defined then ["def"] else []) ++ (if s.null then ["null"] else []) ++
    (if s.undefined then ["und"] else [])

def StateSet.render (s : StateSet) : String := ",".intercalate s.words

def LengthRule.render (r : LengthRule) : String :=
  "len" ++ r.op.symbol ++ r.bound.toNat.repr

def ValuesRule.render (r : ValuesRule) : String := if r.nonnull then "values:nonnull" else ""

def Constraint.parts (c : Constraint) : List String :=
  (c.states.map StateSet.render).toList ++ (c.length.map LengthRule.render).toList ++
    (c.values.map ValuesRule.render).toList

/-- The canonical tag: states, then length, then values. -/
def Constraint.render (c : Constraint) : String := ",".intercalate c.parts

end PlainTwin
