import PlainTwin.Source.Value

namespace PlainTwin.Source

structure ModulePath where
  absolute : Bool
  names : List String

namespace ModulePath

def isName (p : ModulePath) (name : String) : Bool := !p.absolute && p.names == [name]

def tokens (p : ModulePath) : Tokens :=
  (if p.absolute then op "::" else []) ++ separated (op "::") (p.names.map fun n => words [n])

end ModulePath

inductive AttributeArgs where
  | bare
  | list (d : Delimiter) (args : Tokens)
  | value (tokens : Tokens)

structure Attribute where
  path : ModulePath
  args : AttributeArgs

namespace Attribute

def isNamed (a : Attribute) (name : String) : Bool := a.path.isName name

def tokens (a : Attribute) : Tokens :=
  op "#" ++ bracket (a.path.tokens ++ match a.args with
    | .bare => []
    | .list d args => [.group d args]
    | .value ts => op "=" ++ ts)

def text? (a : Attribute) : Option String :=
  match a.args with
  | .value [.literal (.text s) _] => some s
  | _ => none

def listed (name : String) (args : Tokens) : Attribute := ⟨⟨false, [name]⟩, .list .paren args⟩

end Attribute

namespace Rule

/-- Names that can stand in a path although they are keywords. -/
def pathWords : List String := ["super", "self", "Self", "crate"]

def startsPathName (ts : Tokens) : Bool := ts.startsName || pathWords.any (ts.startsWord ·)

def modulePath : Rule ModulePath := do
  let lead ← orNothing (op "::")
  let names ← separated "::" startsPathName anyName
  if names.getLast?.all Prod.snd then failure
  return ⟨!lead.isEmpty, names.map Prod.fst⟩

def attributePath : Rule ModulePath := do
  if ← sees (Tokens.startsWord "unsafe") then return ⟨false, [← anyName]⟩
  else modulePath

def attributeValue : Rule Tokens
  | [.literal k s] => some ([.literal k s], [])
  | ts => if ts.startsOp "#" then none else value ts

def attributeArgs : Rule AttributeArgs := do
  match ← get with
  | .group d content :: ts =>
    set ts
    return .list d content
  | ts =>
    if ts.startsOp "=" then
      let _ ← op "="
      return .value (← attributeValue)
    else return .bare

def attributeBody : Rule Attribute := do return ⟨← attributePath, ← attributeArgs⟩

def outerAttribute : Rule Attribute := do
  let _ ← op "#"
  inside .bracket attributeBody

def outerAttributes : Rule (List Attribute) := many (Tokens.startsOp "#") outerAttribute

def startsInnerAttribute (ts : Tokens) : Bool := ts.startsOp "#" && (ts.past 1).startsOp "!"

/-- Attributes of what encloses them. -/
def innerAttributes : Rule (List Attribute) := many startsInnerAttribute do
  let _ ← op "#"
  let _ ← op "!"
  inside .bracket attributeBody

end Rule

end PlainTwin.Source
