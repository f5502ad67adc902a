import PlainTwin.Source.Arguments

namespace PlainTwin

open Source

inductive OptionValue where
  | bare
  | text (s : String)
  | other

structure SerdeOption where
  path : ModulePath
  value : OptionValue

/-- The options that can be read, and whether they are all there is. -/
structure SerdeOptions where
  options : List SerdeOption
  complete : Bool

namespace SerdeOption

def isNamed (o : SerdeOption) (name : String) : Bool := o.path.isName name

def isBare (o : SerdeOption) : Bool :=
  match o.value with
  | .bare => true
  | _ => false

def text? (o : SerdeOption) : Option String :=
  match o.value with
  | .text s => some s
  | _ => none

/-- A name of the field, or a bare default: nothing that speaks of the type. -/
def isTypeAgnostic (o : SerdeOption) : Bool :=
  ((o.isNamed "rename" || o.isNamed "alias") && o.text?.isSome) || (o.isNamed "default" && o.isBare)

def readValue (ts : Tokens) : OptionValue × Option Tokens :=
  if ts.startsOp "=" then
    let ts := ts.past 1
    let value := ts.takeWhile (!Token.isMark ',' ·)
    let rest := ts.dropWhile (!Token.isMark ',' ·)
    match value with
    | [.literal (.text s) _] => (.text s, some rest)
    | _ => (.other, if isValue value then some rest else none)
  else if ts.isEmpty || ts.startsOp "," then (.bare, some ts)
  else (.other, none)

def readFor : Nat → Tokens → SerdeOptions
  | 0, _ => ⟨[], false⟩
  | k + 1, ts =>
    match Arguments.path ts with
    | .error _ => ⟨[], false⟩
    | .ok (p, rest) =>
      match readValue rest with
      | (v, none) => ⟨[⟨p, v⟩], false⟩
      | (v, some []) => ⟨[⟨p, v⟩], true⟩
      | (v, some [_]) => ⟨[⟨p, v⟩], true⟩
      | (v, some (_ :: rest)) =>
        let r := readFor k rest
        ⟨⟨p, v⟩ :: r.options, r.complete⟩

end SerdeOption

namespace SerdeOptions

def ofAttribute (a : Attribute) : SerdeOptions :=
  match a.args with
  | .list _ [] => ⟨[], true⟩
  | .list _ args => SerdeOption.readFor args.length args
  | _ => ⟨[], false⟩

def isTypeAgnostic (s : SerdeOptions) : Bool :=
  s.complete && s.options.all SerdeOption.isTypeAgnostic

def setsDefault (s : SerdeOptions) : Bool := s.options.any (·.isNamed "default")

end SerdeOptions

end PlainTwin
