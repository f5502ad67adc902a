import PlainTwin.Source.Attribute
import PlainTwin.Source.Lexer

namespace PlainTwin.Source

inductive TypeArg where
  | type (tokens : Tokens)
  | other

structure PathEnd where
  name : String
  args : Option (List TypeArg)

/-- A type of source code: its tokens, and the end of its path if it is a path and not a member of
a qualified type. -/
structure TypeText where
  tokens : Tokens
  pathEnd : Option PathEnd
  isName : Bool

def TypeText.ofTokens (tokens : Tokens) : TypeText := ⟨tokens, none, false⟩

/-- Arguments and parameters have the lifetimes in front, whatever their order in the source. -/
structure Listed where
  isLifetime : Bool
  tokens : Tokens
  comma : Bool

namespace Listed

def render (items : List Listed) : Tokens :=
  let (first, rest) := items.partition isLifetime
  let gap := if !rest.isEmpty ∧ first.getLast?.any (!·.comma) then op "," else []
  first.flatMap shown ++ gap ++ rest.flatMap shown
where
  shown (x : Listed) : Tokens := x.tokens ++ if x.comma then op "," else []

end Listed

structure PathText where
  tokens : Tokens
  pathEnd : PathEnd
  isName : Bool

structure Bound where
  tokens : Tokens
  isTrait : Bool

namespace Rule

/-- The rule for a type inside another. The flag allows it to be a sum of bounds. -/
abbrev OnTypes (α : Type) := (Bool → Rule TypeText) → Rule α

def startsLiteral : Tokens → Bool
  | .literal _ _ :: _ => true
  | .ident n :: _ => n == "true" || n == "false"
  | .mark '-' _ :: .literal .int _ :: _ | .mark '-' _ :: .literal .float _ :: _ => true
  | _ => false

def constant : Rule Tokens := do
  match ← next with
  | .mark '-' _ => match ← next with
    | .literal k s => return Source.op "-" ++ [.literal k s]
    | _ => failure
  | .group .brace content => return brace (Tokens.settle 0 content)
  | t => return [t]

def startsConstant (ts : Tokens) : Bool := startsLiteral ts || ts.startsGroup .brace

def returned : OnTypes Tokens := fun type => do
  if ← sees (Tokens.startsOp "->") then return (← op "->") ++ (← type false).tokens
  else return []

def inputs : OnTypes Tokens := fun type => do
  let args ← inside .paren (separated "," (!·.isEmpty) (type true))
  let out ← returned type
  return paren (joinItems "," (args.map fun p => (p.1.tokens, p.2))) ++ out

def startsBound (ts : Tokens) : Bool :=
  ts.startsAnyName || ts.startsOp "::" || ts.startsOp "?" || ts.startsLifetime ||
    ts.startsGroup .paren

def quantified : Rule Tokens := do
  let head ← word "for"
  let left ← op "<"
  let items ← separated "," (!·.startsOp ">") do
    let attrs ← outerAttributes
    return attrs.flatMap Attribute.tokens ++ (← lifetime)
  let right ← op ">"
  return head ++ left ++ joinItems "," items ++ right

section Paths

variable (type : Bool → Rule TypeText)

def endsInCall (ts : Tokens) : Bool :=
  ts.startsGroup .paren || (ts.startsOp "::" && (ts.past 2).startsGroup .paren)

def assigned (bound : Rule Bound) : Rule Tokens := do
  if ← sees (Tokens.startsOp "=") then
    let eq ← op "="
    if ← sees startsConstant then return eq ++ (← constant)
    else return eq ++ (← type true).tokens
  else if ← sees (Tokens.startsOp ":") then
    let colon ← op ":"
    let stops := fun ts : Tokens => ts.startsOp "," || ts.startsOp ">"
    let bounds ← separated "+" (!stops ·) (Bound.tokens <$> bound)
    return colon ++ joinItems "+" bounds
  else failure

def typeArg (bound : Rule Bound) : Rule (TypeArg × Bool × Tokens) := do
  let ts ← get
  if ts.startsLifetime && !(ts.past 1).startsOp "+" then return (.other, true, ← lifetime)
  else if startsConstant ts then return (.other, false, ← constant)
  else
    let t ← type true
    if t.isName && (← sees fun ts => ts.startsOp "=" || ts.startsOp ":") then
      return (.other, false, t.tokens ++ (← assigned type bound))
    else return (.type t.tokens, false, t.tokens)

def typeArgs (bound : Rule Bound) : Rule (List TypeArg × Tokens) := do
  let lead ← orNothing (op "::")
  let left ← op "<"
  let args ← separated "," (!·.startsOp ">") (typeArg type bound)
  let right ← op ">"
  let shown := Listed.render (args.map fun p => ⟨p.1.2.1, p.1.2.2, p.2⟩)
  return (args.map fun p => p.1.1, lead ++ left ++ shown ++ right)

def startsTypeArgs (ts : Tokens) : Bool :=
  (ts.startsOp "<" && !ts.startsOp "<=") || (ts.startsOp "::" && (ts.past 2).startsOp "<")

def segment (bound : Rule Bound) : Rule PathText := do
  let n ← anyName
  if ["super", "self", "crate", "try"].contains n then return ⟨words [n], ⟨n, none⟩, true⟩
  else if keywords.contains n && n != "Self" then failure
  else if ← sees startsTypeArgs then
    let (args, shown) ← typeArgs type bound
    return ⟨words [n] ++ shown, ⟨n, some args⟩, true⟩
  else return ⟨words [n], ⟨n, none⟩, true⟩

def continues (ts : Tokens) : Bool := ts.startsOp "::" && !(ts.past 2).startsGroup .paren

def segments (bound : Rule Bound) (first : PathText) : Rule PathText := do
  let more ← many continues do
    let sep ← op "::"
    let s ← segment type bound
    return { s with tokens := sep ++ s.tokens }
  return more.foldl (fun p s => ⟨p.tokens ++ s.tokens, s.pathEnd, false⟩) first

def path (bound : Rule Bound) : Rule PathText := do
  let lead ← orNothing (op "::")
  let first ← segment type bound
  segments type bound ⟨lead ++ first.tokens, first.pathEnd, lead.isEmpty⟩

def called (p : PathText) : Rule PathText := do
  if p.pathEnd.args.isNone && (← sees endsInCall) then
    let _ ← orNothing (op "::")
    return ⟨p.tokens ++ (← inputs type), p.pathEnd, false⟩
  else return p

def traitBound (bound : Rule Bound) : Rule Tokens := do
  let all ← orNothing quantified
  let maybe ← orNothing (op "?")
  let all ← if all.isEmpty && !maybe.isEmpty then orNothing quantified else pure all
  let p ← path type bound
  return maybe ++ all ++ (← called type p).tokens

def boundFor : Nat → Rule Bound
  | 0 => failure
  | n + 1 => do
    if ← sees Tokens.startsLifetime then return ⟨← lifetime, false⟩
    else if ← sees (Tokens.startsGroup .paren) then
      return ⟨Source.paren (← inside .paren (traitBound type (boundFor n))), true⟩
    else return ⟨← traitBound type (boundFor n), true⟩

def bound : Rule Bound := fun ts => boundFor type (Tokens.size ts + 1) ts

/-- Bounds of which one at least has to be a trait. -/
def traitBounds (plus : Bool) : Rule Tokens := do
  let first ← bound type
  let more ← if plus then many (Tokens.startsOp "+") (do
      let sep ← op "+"
      if ← sees startsBound then
        let b ← bound type
        return (sep ++ b.tokens, b.isTrait)
      else return (sep, false))
    else pure []
  if first.isTrait || more.any Prod.snd then return first.tokens ++ more.flatMap Prod.fst
  else failure

def qualified : Rule Tokens := do
  let left ← op "<"
  let this ← type true
  let cast ← if ← sees (Tokens.startsWord "as") then (do
      let a ← word "as"
      return a ++ (← path type (bound type)).tokens)
    else pure []
  let right ← op ">"
  let sep ← op "::"
  let first ← segment type (bound type)
  let all ← segments type (bound type) first
  let all ← called type all
  return left ++ this.tokens ++ cast ++ right ++ sep ++ all.tokens

def functionInput : Rule (Tokens × Bool) := do
  let attrs ← outerAttributes
  let ts ← get
  let named ← if ts.startsAnyName && (ts.past 1).startsOp ":" && !(ts.past 1).startsOp "::" then (do
      let n ← anyName
      return words [n] ++ (← op ":"))
    else pure []
  let isOpen ← sees (Tokens.startsOp "...")
  let t ← if isOpen then op "..." else TypeText.tokens <$> type true
  return (attrs.flatMap Attribute.tokens ++ named ++ t, isOpen)

def functionType : Rule Tokens := do
  let unsafety ← orNothing (word "unsafe")
  let linkage ← if ← sees (Tokens.startsWord "extern") then (do
      let e ← word "extern"
      match ← get with
      | .literal k s :: ts => set ts; return e ++ [.literal k s]
      | _ => return e)
    else pure []
  let f ← word "fn"
  let args ← inside .paren (separated "," (!·.isEmpty) (functionInput type))
  if args.dropLast.any (·.1.2) then failure
  let out ← returned type
  let shown := joinItems "," (args.map fun p => (p.1.1, p.2))
  return unsafety ++ linkage ++ f ++ Source.paren shown ++ out

/-- A type in brackets, or several. One that can be a bound may be the first of a sum. -/
def groupedType (plus : Bool) : Rule Tokens := do
  let (shown, isBound) ← inside .paren do
    if ← sees (·.isEmpty) then return ([], false)
    else if ← sees (Tokens.startsOp "?") then return ((← bound type).tokens, true)
    else
      let items ← separated "," (!·.isEmpty) (type true)
      let isBound := match items with
        | [(t, false)] => t.pathEnd.isSome
        | _ => false
      return (joinItems "," (items.map fun p => (p.1.tokens, p.2)), isBound)
  let more ← if plus && isBound then many (Tokens.startsOp "+") (do
      return (← op "+") ++ (← bound type).tokens)
    else pure []
  return Source.paren shown ++ more.flatten

def bracketedType : Rule Tokens := do
  let shown ← inside .bracket do
    let t ← type true
    if ← sees (Tokens.startsOp ";") then
      let sep ← op ";"
      return t.tokens ++ sep ++ (← value)
    else return t.tokens
  return Source.bracket shown

def pointedType : Rule Tokens := do
  if ← sees (Tokens.startsOp "*") then
    let star ← op "*"
    let access ← word "const" <|> word "mut"
    return star ++ access ++ (← type false).tokens
  else
    let amp ← op "&"
    let life ← orNothing lifetime
    let access ← orNothing (word "mut")
    return amp ++ life ++ access ++ (← type false).tokens

/-- Whether a path of a type starts here. One that is quantified has to start with a name. -/
def startsPath (isQuantified : Bool) (ts : Tokens) : Bool :=
  startsPathName ts || (!isQuantified && ts.startsOp "::")

def pathType (plus : Bool) : Rule TypeText := do
  let all ← orNothing quantified
  if !(← sees (startsPath !all.isEmpty)) then failure
  let p ← path type (bound type)
  let simple ← pure (p.pathEnd.args.isNone && all.isEmpty)
  let p ← called type p
  if simple && (← sees fun ts => ts.startsOp "!" && !ts.startsOp "!=") then
    let bang ← op "!"
    match ← next with
    | .group d content => return .ofTokens (p.tokens ++ bang ++ [.group d content])
    | _ => failure
  else if !all.isEmpty || (plus && (← sees (Tokens.startsOp "+"))) then
    let more ← if plus then many (Tokens.startsOp "+") (do
        let sep ← op "+"
        if ← sees startsBound then return sep ++ (← bound type).tokens else return sep)
      else pure []
    return .ofTokens (all ++ p.tokens ++ more.flatten)
  else return ⟨p.tokens, p.pathEnd, p.isName⟩

def typeOver (plus : Bool) : Rule TypeText := do
  let ts ← get
  let afterFor := if ts.startsWord "for" then match quantified ts with
    | some (_, rest) => rest
    | none => ts
    else ts
  if ts.startsGroup .paren then .ofTokens <$> groupedType type plus
  else if ts.startsGroup .bracket then .ofTokens <$> bracketedType type
  else if ["fn", "unsafe", "extern"].any (afterFor.startsWord ·) then do
    let all ← orNothing quantified
    let f ← functionType type
    return .ofTokens (all ++ f)
  else if ts.startsOp "<" then .ofTokens <$> qualified type
  else if ts.startsWord "dyn" then do
    let d ← word "dyn"
    let star ← orNothing (op "*")
    return .ofTokens (d ++ star ++ (← traitBounds type plus))
  else if ts.startsWord "impl" then do
    let i ← word "impl"
    return .ofTokens (i ++ (← traitBounds type plus))
  else if ts.startsLifetime then .ofTokens <$> traitBounds type true
  else if ts.startsOp "*" || ts.startsOp "&" then .ofTokens <$> pointedType type
  else if ts.startsOp "!" && !ts.startsOp "!=" then .ofTokens <$> op "!"
  else if ts.startsWord "_" then .ofTokens <$> word "_"
  else pathType type plus

end Paths

/-- A type. The number limits how deep types are nested. -/
def typeFor : Nat → Bool → Rule TypeText
  | 0, _ => failure
  | n + 1, plus => typeOver (typeFor n) plus

def type (plus : Bool) : Rule TypeText := fun ts => typeFor (Tokens.size ts + 1) plus ts

end Rule

def TypeText.ofText? (text : String) : Option TypeText :=
  (Tokens.ofText? text).bind (Rule.whole? (Rule.type true))

end PlainTwin.Source
