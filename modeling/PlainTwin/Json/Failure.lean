import PlainTwin.Json.Doc
import PlainTwin.Text.Quoted

namespace PlainTwin

inductive Segment where
  | index (i : Nat)
  | key (k : String)
  deriving DecidableEq

abbrev Path := List Segment

inductive Found where
  | null
  | bool (b : Bool)
  | number (n : Number)
  | string (s : String)
  | sequence
  | map

inductive DataError where
  | invalidType (found : Found) (expected : String)
  | invalidValue (found : Found) (expected : String)
  | invalidLength (n : Nat) (expected : String)
  | missingField (key : String)
  | duplicateField (key : String)
  | within (path : Path) (error : DataError)

inductive Cause where
  | fault (f : Fault)
  | data (e : DataError)

structure Failure where
  path : Path
  cause : Cause

namespace Segment

/-- Names are put apart by points; an index follows on what stands before it. -/
def renderAll (first : Bool) : Path → String
  | [] => ""
  | .index i :: p => "[" ++ i.repr ++ "]" ++ renderAll false p
  | .key k :: p => (if first then "" else ".") ++ k ++ renderAll false p

end Segment

def Path.render (p : Path) : String :=
  if p.isEmpty then "." else Segment.renderAll true p

def Found.render : Found → String
  | null => "null"
  | bool b => "boolean `" ++ (if b then "true" else "false") ++ "`"
  | number (.int i) => "integer `" ++ i.repr ++ "`"
  | number (.float x) => "floating point `" ++ Decimal.renderFloat x ++ "`"
  | string s => "string " ++ Text.quoted s
  | sequence => "sequence"
  | map => "map"

def DataError.message : DataError → String
  | invalidType found expected => "invalid type: " ++ found.render ++ ", expected " ++ expected
  | invalidValue found expected => "invalid value: " ++ found.render ++ ", expected " ++ expected
  | invalidLength n expected => "invalid length " ++ n.repr ++ ", expected " ++ expected
  | missingField key => "missing field `" ++ key ++ "`"
  | duplicateField key => "duplicate field `" ++ key ++ "`"
  | within path e => (if path.isEmpty then "" else path.render ++ ": ") ++ e.message

namespace Failure

def fault (f : Fault) : Failure := ⟨[], .fault f⟩

def data (e : DataError) : Failure := ⟨[], .data e⟩

def under (s : Segment) (f : Failure) : Failure := { f with path := s :: f.path }

/-- The place moves from the path into the error. -/
def enclosed (f : Failure) : Failure :=
  match f.cause with
  | .data e => data (.within f.path e)
  | .fault g => fault g

def message (f : Failure) : String :=
  match f.cause with
  | .data e => "at JSON path " ++ f.path.render ++ " → " ++ e.message
  | .fault _ => ""

def atRoot (f : Failure) : Failure := ⟨[], f.cause⟩

end Failure

end PlainTwin
