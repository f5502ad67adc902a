import PlainTwin.Json.Codec

namespace PlainTwin

structure FieldRule where
  name : String
  key : String
  hasDefault : Bool := false
  skipsAbsent : Bool := false
  presentIsSome : Bool := false
  deriving DecidableEq

namespace Codec

variable {α σ : Type}

/-- Members of an object in the order of the text. Those whose key `put?` does not know are passed
over. -/
def foldMembers (put? : String → Doc → σ → Option (Except Failure σ)) (s : σ) :
    List (Except Fault String × Doc) → Except Failure σ
  | [] => .ok s
  | (k, d) :: rest => do
    let k ← k.mapError .fault
    match put? k d s with
    | some s => foldMembers put? (← s) rest
    | none =>
      d.skip.mapError .fault
      foldMembers put? s rest

def missing? (rule : FieldRule) (c : Codec α) (default? : Option α) : Option α :=
  if rule.hasDefault then default? else c.ofMissing

def fill (rule : FieldRule) (c : Codec α) (r : Reading) (d : Doc) (slot : Option α) :
    Except Failure (Option α) :=
  if slot.isSome then .error (.data (.duplicateField rule.key))
  else some <$> (c.decode r d).mapError (.under (.key rule.key))

def presentMarker : Codec (Option Marker) where
  encode := (option marker).encode
  decode r d := some <$> marker.decode r d

/-- A record as an object. It can also be read from an array of its fields in order. -/
def record (name : String) (count : Nat) (members : α → List (String × Json)) (start : σ)
    (put? : Reading → String → Doc → σ → Option (Except Failure σ))
    (finish : σ → Except Failure α)
    (ofItems : String → Reading → Option Fault → List Doc → Except Failure α) : Codec α where
  encode v := .object (members v)
  decode r d :=
    match d with
    | .array items tail => do
      let elements := if count = 1 then " element" else " elements"
      let expected := "struct " ++ name ++ " with " ++ count.repr ++ elements
      let v ← ofItems expected (← r.enter) tail items
      noMore r items.length count tail
      return v
    | .object members tail => do
      let s ← foldMembers (put? (← r.enter)) start members
      Doc.ending tail
      finish s
    | d => .error (d.mismatch ("struct " ++ name))

end Codec

end PlainTwin
