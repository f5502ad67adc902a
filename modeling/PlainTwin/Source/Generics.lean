import PlainTwin.Source.Type

namespace PlainTwin.Source

/-- A generic parameter. `bounds` and `preset` hold the marks that open them, and a constant has
its type for a bound. -/
structure GenericParam where
  isLifetime : Bool
  attrs : Tokens
  keyword : Tokens
  name : Tokens
  bounds : Tokens
  preset : Tokens
  comma : Bool

structure Generics where
  params : List GenericParam
  /-- The clause of further bounds. One without bounds is there, but has no tokens. -/
  bounds : Option Tokens

namespace Generics

def render (show_ : GenericParam → Tokens) (g : Generics) : Tokens :=
  if g.params.isEmpty then []
  else angled (Listed.render (g.params.map fun p => ⟨p.isLifetime, show_ p, p.comma⟩))

def declared (g : Generics) : Tokens :=
  g.render fun p => p.attrs ++ p.keyword ++ p.name ++ p.bounds ++ p.preset

def quantified (g : Generics) : Tokens :=
  g.render fun p => p.attrs ++ p.keyword ++ p.name ++ p.bounds

def applied (g : Generics) : Tokens := g.render GenericParam.name

def boundTokens (g : Generics) : Tokens := g.bounds.getD []

end Generics

namespace Rule

def anyType : Rule Tokens := TypeText.tokens <$> type true

def boundsUntil (stops : List String) : Rule Tokens := do
  let items ← separated "+" (fun ts => !ts.isEmpty && !stops.any (ts.startsOp ·))
    (Bound.tokens <$> bound type)
  return joinItems "+" items

/-- A colon with what it announces. Without anything, the colon counts for nothing. -/
def announced (r : Rule Tokens) : Rule Tokens := do
  if ← sees (Tokens.startsOp ":") then
    let colon ← op ":"
    let bounds ← r
    return if bounds.isEmpty then [] else colon ++ bounds
  else return []

def lifetimeBounds (stops : List String) : Rule Tokens := do
  let items ← separated "+" (fun ts => !ts.isEmpty && !stops.any (ts.startsOp ·)) lifetime
  return joinItems "+" items

def preset (r : Rule Tokens) : Rule Tokens := do
  if ← sees (Tokens.startsOp "=") then return (← op "=") ++ (← r) else return []

def presetConstant : Rule Tokens := do
  if ← sees startsConstant then constant else return words [← name]

def genericParam : Rule GenericParam := do
  let attrs := (← outerAttributes).flatMap Attribute.tokens
  if ← sees Tokens.startsLifetime then
    let n ← lifetime
    let bounds ← announced (lifetimeBounds [",", ">"])
    return ⟨true, attrs, [], n, bounds, [], false⟩
  else if ← sees (Tokens.startsWord "const") then
    let k ← word "const"
    let n ← name
    let bounds := (← op ":") ++ (← anyType)
    return ⟨false, attrs, k, words [n], bounds, ← preset presetConstant, false⟩
  else
    let n ← if ← sees (Tokens.startsWord "_") then anyName else name
    let bounds ← announced (boundsUntil [",", ">", "="])
    return ⟨false, attrs, [], words [n], bounds, ← preset anyType, false⟩

def genericParams : Rule (List GenericParam) := do
  if ← sees (Tokens.startsOp "<") then
    let _ ← op "<"
    let params ← separated "," (!·.startsOp ">") genericParam
    let _ ← op ">"
    return params.map fun p => { p.1 with comma := p.2 }
  else return []

def endsBounds (ts : Tokens) : Bool :=
  ts.isEmpty || ts.startsGroup .brace || ts.startsOp "," || ts.startsOp ";" ||
    (ts.startsOp ":" && !ts.startsOp "::") || ts.startsOp "="

def clauseItem : Rule Tokens := do
  let ts ← get
  if ts.startsLifetime && (ts.past 1).startsOp ":" then
    let n ← lifetime
    let colon ← op ":"
    let items ← separated "+" (!endsBounds ·) lifetime
    return n ++ colon ++ joinItems "+" items
  else
    let all ← orNothing quantified
    let t ← anyType
    let colon ← op ":"
    let items ← separated "+" (!endsBounds ·) (Bound.tokens <$> bound type)
    return all ++ t ++ colon ++ joinItems "+" items

def clause : Rule (Option Tokens) := do
  if ← sees (Tokens.startsWord "where") then
    let w ← word "where"
    let items ← separated "," (!endsBounds ·) clauseItem
    return some (if items.isEmpty then [] else w ++ joinItems "," items)
  else return none

end Rule

end PlainTwin.Source
