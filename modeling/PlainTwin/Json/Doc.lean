import PlainTwin.Json

namespace PlainTwin

/-- Why a text is no JSON: it breaks a rule, or it ends early. -/
inductive Fault where
  | syntactic
  | eof
  deriving DecidableEq

/-- What a text holds, as far as it can be read. A text that breaks off ends in a fault, where its
array or object would have gone on, or in place of a value. A value that is passed over is looked
at less closely than one that is read: `broken` tells the two faults apart, a missing number is
one too large to be held, and a missing string one that is no text. -/
inductive Doc where
  | null
  | bool (b : Bool)
  | number (n : Option Number)
  | string (s : Option String)
  | array (items : List Doc) (tail : Option Fault)
  | object (members : List (Except Fault String × Doc)) (tail : Option Fault)
  | broken (read passed : Fault)

namespace Doc

def endOf : Option Fault → Except Fault Unit
  | none => .ok ()
  | some f => .error f

mutual

/-- Passes over a value, which finds only what is wrong with its outline. -/
def skip : Doc → Except Fault Unit
  | array items tail => do skipItems items; endOf tail
  | object members tail => do skipMembers members; endOf tail
  | broken _ passed => .error passed
  | _ => .ok ()

def skipItems : List Doc → Except Fault Unit
  | [] => .ok ()
  | d :: ds => do d.skip; skipItems ds

def skipMembers : List (Except Fault String × Doc) → Except Fault Unit
  | [] => .ok ()
  | (_, d) :: ms => do d.skip; skipMembers ms

end

mutual

def ofJson : Json → Doc
  | .null => null
  | .bool b => bool b
  | .number n => number (some n)
  | .string s => string (some s)
  | .array items => array (ofItems items) none
  | .object members => object (ofMembers members) none

def ofItems : List Json → List Doc
  | [] => []
  | j :: js => ofJson j :: ofItems js

def ofMembers : List (String × Json) → List (Except Fault String × Doc)
  | [] => []
  | (k, j) :: ms => (.ok k, ofJson j) :: ofMembers ms

end

end Doc

end PlainTwin
