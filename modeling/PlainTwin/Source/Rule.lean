import PlainTwin.Source.Token

namespace PlainTwin.Source

def keywords : List String := [
    "_", "abstract", "as", "async", "await", "become", "box", "break", "const", "continue",
    "crate", "do", "dyn", "else", "enum", "extern", "false", "final", "fn", "for", "if", "impl",
    "in", "let", "loop", "macro", "match", "mod", "move", "mut", "override", "priv", "pub", "ref",
    "return", "Self", "self", "static", "struct", "super", "trait", "true", "try", "type",
    "typeof", "unsafe", "unsized", "use", "virtual", "where", "while", "yield"]

namespace Tokens

def startsMarks : List Char → Tokens → Bool
  | [], _ => true
  | [c], t :: _ => t.isMark c
  | c :: cs, t :: ts => t.isMark c && t.isJoined && startsMarks cs ts
  | _ :: _, [] => false

def past (n : Nat) (ts : Tokens) : Tokens := ts.drop n

def startsOp (s : String) (ts : Tokens) : Bool := startsMarks s.toList ts

def startsWord (name : String) (ts : Tokens) : Bool := ts.head?.any (Token.isIdent name)

def startsName (ts : Tokens) : Bool :=
  ts.head?.any fun t => t.ident?.any fun n => !keywords.contains n

def startsAnyName (ts : Tokens) : Bool := ts.head?.any fun t => t.ident?.isSome

def startsGroup (d : Delimiter) (ts : Tokens) : Bool :=
  ts.head?.any fun
    | .group e _ => d == e
    | _ => false

def startsLifetime (ts : Tokens) : Bool :=
  ts.head?.any fun
    | .lifetime _ => true
    | _ => false

mutual

def sizeOfToken : Token → Nat
  | .group _ content => size content + 1
  | _ => 1

def size : Tokens → Nat
  | [] => 0
  | t :: ts => sizeOfToken t + size ts

end

end Tokens

abbrev Rule (α : Type) := StateT Tokens Option α

namespace Rule

def next : Rule Token
  | [] => none
  | t :: ts => some (t, ts)

def sees (p : Tokens → Bool) : Rule Bool := fun ts => some (p ts, ts)

def op (s : String) : Rule Tokens := fun ts =>
  if ts.startsOp s then some (Source.op s, ts.drop s.length) else none

def word (name : String) : Rule Tokens := fun ts =>
  if ts.startsWord name then some (words [name], ts.tail) else none

def orNothing (r : Rule Tokens) : Rule Tokens := r <|> pure []

def anyName : Rule String := do
  match ← next with
  | .ident name => return name
  | _ => failure

def name : Rule String := do
  let n ← anyName
  if keywords.contains n then failure else return n

def lifetime : Rule Tokens := do
  match ← next with
  | .lifetime n => return [.lifetime n]
  | _ => failure

def inside {α : Type} (d : Delimiter) (r : Rule α) : Rule α
  | .group e content :: ts =>
    if d = e then match r content with
      | some (a, []) => some (a, ts)
      | _ => none
    else none
  | _ => none

def whole? {α : Type} (r : Rule α) (ts : Tokens) : Option α :=
  match r ts with
  | some (a, []) => some a
  | _ => none

def repeatFor {α : Type} (starts : Tokens → Bool) (r : Rule α) : Nat → Rule (List α)
  | 0 => failure
  | n + 1 => do
    if !(← sees starts) then return []
    let a ← r
    return a :: (← repeatFor starts r n)

/-- As many as there are, each of which takes at least one token. -/
def many {α : Type} (starts : Tokens → Bool) (r : Rule α) : Rule (List α) := fun ts =>
  repeatFor starts r (ts.length + 1) ts

def separatedFor {α : Type} (sep : String) (starts : Tokens → Bool) (r : Rule α) :
    Nat → Rule (List (α × Bool))
  | 0 => failure
  | n + 1 => do
    if !(← sees starts) then return []
    let a ← r
    if ← sees (Tokens.startsOp sep) then
      let _ ← op sep
      return (a, true) :: (← separatedFor sep starts r n)
    else return [(a, false)]

/-- Items with separators between them. Each item is told whether a separator follows it, as one
may follow the last. -/
def separated {α : Type} (sep : String) (starts : Tokens → Bool) (r : Rule α) :
    Rule (List (α × Bool)) := fun ts =>
  separatedFor sep starts r (ts.length + 1) ts

end Rule

def joinItems (sep : String) (items : List (Tokens × Bool)) : Tokens :=
  items.flatMap fun p => p.1 ++ if p.2 then op sep else []

end PlainTwin.Source
