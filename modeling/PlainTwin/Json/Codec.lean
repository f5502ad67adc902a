import PlainTwin.Elastic
import PlainTwin.Form
import PlainTwin.Json.Failure

namespace PlainTwin

/-- How a document is read: from a text, with so many levels of nesting left, or from a value that
was read before. -/
inductive Reading where
  | text (levels : Nat)
  | value

def Reading.start : Reading := .text 127

def Reading.enter : Reading → Except Failure Reading
  | text 0 => .error (.fault .syntactic)
  | text (n + 1) => .ok (text n)
  | value => .ok value

/-- How values are written as JSON and read from it. `ofMissing` stands in for a member that is
missing from a record and has no default. -/
structure Codec (α : Type) where
  encode : α → Json
  decode : Reading → Doc → Except Failure α
  ofMissing : Option α := none

namespace Doc

def mismatch (expected : String) (d : Doc) : Failure :=
  let typed (found : Found) : Failure := .data (.invalidType found expected)
  match d with
  | null => typed .null
  | bool b => typed (.bool b)
  | number (some n) => typed (.number n)
  | string (some s) => typed (.string s)
  | array _ _ => typed .sequence
  | object _ _ => typed .map
  | number none | string none => .fault .syntactic
  | broken read _ => .fault read

def ending (tail : Option Fault) : Except Failure Unit := (endOf tail).mapError .fault

mutual

/-- Reads a whole value, whatever it is. Of members with one key the last is kept. -/
def toJson (r : Reading) : Doc → Except Failure Json
  | null => .ok .null
  | bool b => .ok (.bool b)
  | number (some n) => .ok (.number n)
  | string (some s) => .ok (.string s)
  | array items tail => do
    let r ← r.enter
    let js ← itemsToJson r items
    ending tail
    return .array js
  | object members tail => do
    let r ← r.enter
    let ms ← membersToJson r [] members
    ending tail
    return .object ms
  | number none | string none => .error (.fault .syntactic)
  | broken read _ => .error (.fault read)

def itemsToJson (r : Reading) : List Doc → Except Failure (List Json)
  | [] => .ok []
  | d :: ds => do return (← d.toJson r) :: (← itemsToJson r ds)

def membersToJson (r : Reading) (seen : List (String × Json)) :
    List (Except Fault String × Doc) → Except Failure (List (String × Json))
  | [] => .ok seen
  | (k, d) :: ms => do
    let k ← k.mapError .fault
    let j ← d.toJson r
    membersToJson r (Json.insert k j seen) ms

end

end Doc

inductive IntType where
  | i64 | u8 | u32 | u64
  deriving DecidableEq

namespace IntType

def name : IntType → String
  | i64 => "i64"
  | u8 => "u8"
  | u32 => "u32"
  | u64 => "u64"

def low : IntType → Int
  | i64 => -9223372036854775808
  | _ => 0

def high : IntType → Int
  | i64 => 9223372036854775807
  | u8 => 255
  | u32 => 4294967295
  | u64 => 18446744073709551615

def Val (t : IntType) : Type := { i : Int // t.low ≤ i ∧ i ≤ t.high }

def ofInt? (t : IntType) (i : Int) : Option t.Val :=
  if h : t.low ≤ i ∧ i ≤ t.high then some ⟨i, h⟩ else none

def zero (t : IntType) : t.Val := ⟨0, by cases t <;> decide⟩

end IntType

namespace Codec

variable {α β : Type}

def any : Codec Json where
  encode j := j
  decode r d := d.toJson r

def int (t : IntType) : Codec t.Val where
  encode i := .number (.int i.1)
  decode _ d :=
    match d with
    | .number (some (.int i)) =>
      match t.ofInt? i with
      | some v => .ok v
      | none => .error (.data (.invalidValue (.number (.int i)) t.name))
    | d => .error (d.mismatch t.name)

def float : Codec Float where
  encode := Json.ofFloat
  decode _ d :=
    match d with
    | .number (some (.int i)) => .ok (Float.ofInt i)
    | .number (some (.float x)) => .ok x
    | d => .error (d.mismatch "f64")

def bool : Codec Bool where
  encode := .bool
  decode _ d :=
    match d with
    | .bool b => .ok b
    | d => .error (d.mismatch "a boolean")

def string : Codec String where
  encode := .string
  decode _ d :=
    match d with
    | .string (some s) => .ok s
    | d => .error (d.mismatch "a string")

def marker : Codec Marker where
  encode _ := .null
  decode _ d :=
    match d with
    | .null => .ok .nullish
    | d => .error (d.mismatch "unit struct Nullish")

def option (c : Codec α) : Codec (Option α) where
  encode
    | none => .null
    | some a => c.encode a
  decode r d :=
    match d with
    | .null => .ok none
    | d => some <$> c.decode r d
  ofMissing := some none

def tri (c : Codec α) : Codec (Tri α) where
  encode t := (option c).encode t.toOption
  decode r d := Tri.orNull <$> (option c).decode r d
  ofMissing := some .null

def decodeItems (c : Codec α) (r : Reading) : Nat → List Doc → Except Failure (List α)
  | _, [] => .ok []
  | i, d :: ds => do
    let a ← (c.decode r d).mapError (.under (.index i))
    return a :: (← decodeItems c r (i + 1) ds)

def list (c : Codec α) : Codec (List α) where
  encode xs := .array (xs.map c.encode)
  decode r d :=
    match d with
    | .array items tail => do
      let xs ← decodeItems c (← r.enter) 0 items
      Doc.ending tail
      return xs
    | d => .error (d.mismatch "a sequence")

def noMore (r : Reading) (length places : Nat) (tail : Option Fault) : Except Failure Unit :=
  if length ≤ places then Doc.ending tail
  else match r with
    | .text _ => .error (.fault .syntactic)
    | .value => .error (.data (.invalidLength length "fewer elements in array"))

def array (c : Codec α) (n : Nat) : Codec (Slots α n) where
  encode s := (list c).encode s.1
  decode r d :=
    match d with
    | .array items tail => do
      let expected := "an array of length " ++ n.repr
      let xs ← decodeItems c (← r.enter) 0 (items.take n)
      if h : xs.length = n then
        noMore r items.length n tail
        return ⟨xs, h⟩
      else
        Doc.ending tail
        .error (.data (.invalidLength xs.length expected))
    | d => .error (d.mismatch ("an array of length " ++ n.repr))

def insertSorted (k : String) (a : α) : List (String × α) → List (String × α)
  | [] => [(k, a)]
  | (k', a') :: ms =>
    if k < k' then (k, a) :: (k', a') :: ms
    else if k = k' then (k, a) :: ms
    else (k', a') :: insertSorted k a ms

def decodeEntries (c : Codec α) (r : Reading) (seen : List (String × α)) :
    List (Except Fault String × Doc) → Except Failure (List (String × α))
  | [] => .ok seen
  | (k, d) :: ms => do
    let k ← k.mapError .fault
    let a ← (c.decode r d).mapError (.under (.key k))
    decodeEntries c r (insertSorted k a seen) ms

def map (c : Codec α) : Codec (List (String × α)) where
  encode ms := .object (ms.map fun (k, a) => (k, c.encode a))
  decode r d :=
    match d with
    | .object members tail => do
      let ms ← decodeEntries c (← r.enter) [] members
      Doc.ending tail
      return ms
    | d => .error (d.mismatch "a map")

/-- The two readings of a value. An array is many elements if it can be, and one element if only
that fits; the error of the first reading is kept when neither does. -/
def elasticOfJson (c : Codec α) (j : Json) : Except Failure (Elastic α) :=
  match j with
  | .null => .ok .null
  | .array _ =>
    match (list (option c)).decode .value (.ofJson j) with
    | .ok xs => .ok (.ofList xs)
    | .error f =>
      match c.decode .value (.ofJson j) with
      | .ok a => .ok (.single a)
      | .error _ => .error f.enclosed
  | j =>
    match c.decode .value (.ofJson j) with
    | .ok a => .ok (.single a)
    | .error f => .error f.atRoot

theorem exists_ofList_of_elasticOfJson {c : Codec α} {j : Json} {e : Elastic α}
    (h : elasticOfJson c j = .ok e) : ∃ xs, e = .ofList xs := by
  unfold elasticOfJson at h
  split at h
  · exact ⟨[none], (Except.ok.inj h).symm⟩
  · split at h
    · exact ⟨_, (Except.ok.inj h).symm⟩
    · split at h
      · exact ⟨_, (Except.ok.inj h).symm⟩
      · cases h
  · split at h
    · exact ⟨_, (Except.ok.inj h).symm⟩
    · cases h

def elastic (c : Codec α) : Codec (Elastic α) where
  encode e := (tri (list (option c))).encode e.inner
  decode r d := do elasticOfJson c (← any.decode r d)

theorem exists_ofList_of_decode {c : Codec α} {r : Reading} {d : Doc} {e : Elastic α}
    (h : (elastic c).decode r d = .ok e) : ∃ xs, e = .ofList xs := by
  cases hj : any.decode r d with
  | error f => simp [elastic, hj, bind, Except.bind] at h
  | ok j => exact exists_ofList_of_elasticOfJson (by simpa [elastic, hj, bind, Except.bind] using h)

end Codec

def Form.codec {α : Type} (c : Codec α) : (f : Form) → Codec (f.Val α)
  | .elem => c
  | .list f => .list (f.codec c)
  | .array f n => .array (f.codec c) n
  | .option f => .option (f.codec c)
  | .tri f => .tri (f.codec c)
  | .elastic => .elastic c
  | .marker => .marker

end PlainTwin
