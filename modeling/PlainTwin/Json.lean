import PlainTwin.Decimal.Notation

namespace PlainTwin

/-- A number is an integer of 64 bits, signed or not, or a finite binary number. -/
inductive Number where
  | int (i : Int)
  | float (x : Float)

/-- A JSON value. The members of an object keep the order in which their keys were first seen. -/
inductive Json where
  | null
  | bool (b : Bool)
  | number (n : Number)
  | string (s : String)
  | array (items : List Json)
  | object (members : List (String × Json))

instance : Inhabited Json := ⟨.null⟩

def Number.render : Number → String
  | int i => i.repr
  | float x => Decimal.renderFloat x

namespace Json

def escape (c : Char) : List Char :=
  if c = '"' then ['\\', '"']
  else if c = '\\' then ['\\', '\\']
  else if c = '\x08' then ['\\', 'b']
  else if c = '\x0c' then ['\\', 'f']
  else if c = '\n' then ['\\', 'n']
  else if c = '\r' then ['\\', 'r']
  else if c = '\t' then ['\\', 't']
  else if c < ' ' then
    let ds := Nat.toDigits 16 c.toNat
    '\\' :: 'u' :: List.replicate (4 - ds.length) '0' ++ ds
  else [c]

def renderString (s : String) : String :=
  String.ofList ('"' :: s.toList.flatMap escape ++ ['"'])

mutual

def texts : List Json → List String
  | [] => []
  | j :: js => j.render :: texts js

def memberTexts : List (String × Json) → List String
  | [] => []
  | (k, j) :: ms => (renderString k ++ ":" ++ j.render) :: memberTexts ms

def render : Json → String
  | null => "null"
  | bool b => if b then "true" else "false"
  | number n => n.render
  | string s => renderString s
  | array items => "[" ++ ",".intercalate (texts items) ++ "]"
  | object members => "\x7b" ++ ",".intercalate (memberTexts members) ++ "\x7d"

end

def ofFloat (x : Float) : Json := if x.isFinite then number (.float x) else null

def insert (k : String) (v : Json) : List (String × Json) → List (String × Json)
  | [] => [(k, v)]
  | (k', v') :: ms => if k' = k then (k, v) :: ms else (k', v') :: insert k v ms

end Json

end PlainTwin
