import PlainTwin.Source.Generics

namespace PlainTwin.Source

structure Field where
  attrs : List Attribute
  vis : Tokens
  name : String
  type : TypeText

inductive Fields where
  | unit
  | unnamed
  | named (fields : List Field)

structure Struct where
  attrs : List Attribute
  vis : Tokens
  name : String
  generics : Generics
  fields : Fields

/-- Of the items of a file only the structs are told apart. -/
inductive Item where
  | struct (s : Struct)
  | other

namespace Rule

def restricted : Rule Tokens := inside .paren do
  if ← sees (Tokens.startsWord "in") then
    return (← word "in") ++ (← modulePath).tokens
  else if ← sees fun ts => ["crate", "self", "super"].any (ts.startsWord ·) then
    return words [← anyName]
  else failure

/-- A visibility. Brackets that hold no place belong to what follows. -/
def visibility : Rule Tokens := do
  if ← sees (Tokens.startsWord "pub") then
    let p ← word "pub"
    return p ++ (← orNothing (Source.paren <$> restricted))
  else return []

def fieldName : Rule String := do
  if ← sees (Tokens.startsWord "_") then anyName else name

def namedField : Rule Field := do
  let attrs ← outerAttributes
  let vis ← visibility
  let n ← fieldName
  let _ ← op ":"
  return ⟨attrs, vis, n, ← type true⟩

def unnamedField : Rule Unit := do
  let _ ← outerAttributes
  let _ ← visibility
  let _ ← type true

def namedFields : Rule Fields := do
  let fields ← inside .brace (separated "," (!·.isEmpty) namedField)
  return .named (fields.map Prod.fst)

def unnamedFields : Rule Fields := do
  let _ ← inside .paren (separated "," (!·.isEmpty) unnamedField)
  return .unnamed

def structRest : Rule (Option Tokens × Fields) := do
  let early ← clause
  if ← sees (Tokens.startsGroup .brace) then return (early, ← namedFields)
  else if early.isNone && (← sees (Tokens.startsGroup .paren)) then
    let fields ← unnamedFields
    let late ← clause
    let _ ← op ";"
    return (late, fields)
  else
    let _ ← op ";"
    return (early, .unit)

def struct (attrs : List Attribute) (vis : Tokens) : Rule Struct := do
  let _ ← word "struct"
  let n ← name
  let params ← genericParams
  let (bounds, fields) ← structRest
  return ⟨attrs, vis, n, ⟨params, bounds⟩, fields⟩

/-- Reads up to a block or a semicolon. A block inside the arguments of a type is none. -/
def skipBody : Nat → Rule Unit
  | 0 => failure
  | n + 1 => do
    match ← next with
    | .mark ';' _ => return
    | .group .brace _ =>
      if ← sees fun ts => ts.startsOp ">" || ts.startsOp "," then skipBody n
    | _ => skipBody n

def skipToSemicolon : Nat → Rule Unit
  | 0 => failure
  | n + 1 => do
    match ← next with
    | .mark ';' _ => return
    | _ => skipToSemicolon n

def optionalWord (w : String) : Rule Unit := do
  let _ ← orNothing (word w)

def function (size : Nat) : Rule Unit := do
  for w in ["const", "async", "unsafe"] do optionalWord w
  if ← sees (Tokens.startsWord "extern") then
    let _ ← word "extern"
    match ← get with
    | .literal _ _ :: ts => set ts
    | _ => pure ()
  let _ ← word "fn"
  let _ ← name
  let _ ← genericParams
  match ← next with
  | .group .paren _ => skipBody size
  | _ => failure

def callItem : Rule Unit := do
  let _ ← modulePath
  let _ ← op "!"
  if ← sees Tokens.startsName then
    let _ ← anyName
  match ← next with
  | .group .brace _ => return
  | .group _ _ =>
    let _ ← op ";"
  | _ => failure

def startsFunction (ts : Tokens) : Bool :=
  let ts := ["const", "async", "unsafe"].foldl (fun ts w =>
    if ts.startsWord w then ts.past 1 else ts) ts
  ts.startsWord "fn" || (ts.startsWord "extern" &&
    ((ts.past 1).startsWord "fn" || (startsLiteral (ts.past 1) && (ts.past 2).startsWord "fn")))

def named (w : String) (size : Nat) (body : Nat → Rule Unit) : Rule Unit := do
  let _ ← word w
  let _ ← name
  body size

def skipItem (size : Nat) : Rule Unit := do
  let ts ← get
  if startsFunction ts then function size
  else if ts.startsWord "const" then
    let _ ← word "const"
    optionalWord "mut"
    let _ ← anyName
    skipToSemicolon size
  else if ts.startsWord "static" then
    let _ ← word "static"
    optionalWord "mut"
    let _ ← name
    skipToSemicolon size
  else if ts.startsWord "use" then
    let _ ← word "use"
    if ← sees (Tokens.startsOp ";") then failure
    skipToSemicolon size
  else if ts.startsWord "type" then named "type" size skipToSemicolon
  else if ts.startsWord "extern" then
    let _ ← word "extern"
    if ← sees (Tokens.startsWord "crate") then
      let _ ← word "crate"
      let _ ← anyName
      skipToSemicolon size
    else skipBody size
  else if ts.startsWord "enum" then named "enum" size skipBody
  else if ts.startsWord "mod" then named "mod" size skipBody
  else if ts.startsWord "trait" then named "trait" size skipBody
  else if ts.startsWord "impl" || (ts.startsWord "default" && (ts.past 1).startsWord "impl") then
    let _ ← next
    skipBody size
  else if ts.startsWord "unsafe" || (ts.startsWord "auto" && (ts.past 1).startsWord "trait") then
    let _ ← next
    if ← sees fun ts => ["trait", "impl", "mod", "extern", "auto"].any (ts.startsWord ·) then
      skipBody size
    else failure
  else if ts.startsWord "macro" then named "macro" size skipBody
  else if ts.startsWord "union" && (ts.past 1).startsName then named "union" size skipBody
  else callItem

def item : Rule Item := do
  let attrs ← outerAttributes
  let vis ← visibility
  if ← sees (Tokens.startsWord "struct") then return .struct (← struct attrs vis)
  else
    skipItem ((← get).length + 1)
    return .other

def file : Rule (List Item) := do
  let _ ← innerAttributes
  many (!·.isEmpty) item

def declaration : Rule Item := do
  let attrs ← outerAttributes
  let vis ← visibility
  if ← sees (Tokens.startsWord "struct") then return .struct (← struct attrs vis)
  else
    let _ ← word "enum" <|> word "union"
    let _ ← name
    let _ ← genericParams
    let _ ← clause
    match ← next with
    | .group .brace _ => return .other
    | _ => failure

end Rule

/-- A first line for the shell is no part of a file, unless it opens an attribute. -/
def withoutShellLine (cs : List Char) : List Char :=
  match cs with
  | '#' :: '!' :: rest =>
    if (Lexer.skipAll rest.length rest).head? = some '[' then cs
    else cs.dropWhile (· != '\n')
  | _ => cs

def Item.ofFile? (text : String) : Option (List Item) :=
  let cs := withoutShellLine (Lexer.withoutByteOrderMark text.toList)
  (Tokens.ofText? (String.ofList cs)).bind (Rule.whole? Rule.file)

def Item.ofDeclaration? (text : String) : Option Item :=
  (Tokens.ofText? text).bind (Rule.whole? Rule.declaration)

end PlainTwin.Source
