import PlainTwin.Json.Octet

namespace PlainTwin.Doc

open Octet

def numeral (negative : Bool) (cs : Octets) : Doc × Option Octets :=
  match readNumeral negative cs with
  | .ok (n, r) => (.number n.value?, some r)
  | .error f => (.broken f .syntactic, none)

def text (cs : Octets) : Except Fault (Option String) × Except Fault Octets :=
  let read := match readString cs with
    | .ok bytes => .ok (decode? bytes)
    | .error f => .error f
  (read, skipString cs)

def stringValue (cs : Octets) : Doc × Option Octets :=
  match text cs with
  | (.ok s, .ok r) => (.string s, some r)
  | (.error _, .ok r) => (.string none, some r)
  | (.error f, .error g) => (.broken f g, none)
  | (.ok _, .error g) => (.broken g g, none)

def key (cs : Octets) : Except Fault String × Except Fault Octets :=
  match text cs with
  | (.ok (some s), r) => (.ok s, r)
  | (.ok none, r) => (.error .syntactic, r)
  | (.error f, r) => (.error f, r)

def word (d : Doc) : List Char → Octets → Doc × Option Octets
  | [], r => (d, some r)
  | _ :: _, [] => (.broken .eof .eof, none)
  | c :: cs, x :: r => if x = c then word d cs r else (.broken .syntactic .syntactic, none)

mutual

/-- A value and what follows it, if the text goes on behind it. The first argument bounds the
nesting and the length. -/
def value : Nat → Octets → Doc × Option Octets
  | 0, _ => (.broken .syntactic .syntactic, none)
  | fuel + 1, cs =>
    match skipSpace cs with
    | [] => (.broken .eof .eof, none)
    | 'n' :: r => word .null "ull".toList r
    | 't' :: r => word (.bool true) "rue".toList r
    | 'f' :: r => word (.bool false) "alse".toList r
    | '"' :: r => stringValue r
    | '-' :: r => numeral true r
    | '[' :: r =>
      match skipSpace r with
      | [] => (.array [] (some .eof), none)
      | ']' :: r => (.array [] none, some r)
      | r =>
        let (items, tail, r) := items fuel r
        (.array items tail, r)
    | '\x7b' :: r =>
      match skipSpace r with
      | [] => (.object [] (some .eof), none)
      | '\x7d' :: r => (.object [] none, some r)
      | '"' :: r =>
        let (members, tail, r) := members fuel r
        (.object members tail, r)
      | _ => (.object [] (some .syntactic), none)
    | c :: r => if c.isDigit then numeral false (c :: r) else (.broken .syntactic .syntactic, none)

def items : Nat → Octets → List Doc × Option Fault × Option Octets
  | 0, _ => ([], some .syntactic, none)
  | fuel + 1, cs =>
    match value fuel cs with
    | (d, none) => ([d], none, none)
    | (d, some r) =>
      match skipSpace r with
      | [] => ([d], some .eof, none)
      | ']' :: r => ([d], none, some r)
      | ',' :: r =>
        let (ds, tail, r) := items fuel r
        (d :: ds, tail, r)
      | _ => ([d], some .syntactic, none)

def members : Nat → Octets → List (Except Fault String × Doc) × Option Fault × Option Octets
  | 0, _ => ([], some .syntactic, none)
  | fuel + 1, cs =>
    match key cs with
    | (k, .error f) => ([(k, .broken f f)], none, none)
    | (k, .ok r) =>
      match skipSpace r with
      | [] => ([(k, .broken .eof .eof)], none, none)
      | ':' :: r =>
        match value fuel r with
        | (d, none) => ([(k, d)], none, none)
        | (d, some r) =>
          match skipSpace r with
          | [] => ([(k, d)], some .eof, none)
          | '\x7d' :: r => ([(k, d)], none, some r)
          | ',' :: r =>
            match skipSpace r with
            | [] => ([(k, d)], some .eof, none)
            | '"' :: r =>
              let (ms, tail, r) := members fuel r
              ((k, d) :: ms, tail, r)
            | _ => ([(k, d)], some .syntactic, none)
          | _ => ([(k, d)], some .syntactic, none)
      | _ => ([(k, .broken .syntactic .syntactic)], none, none)

end

/-- The first value of a text. What follows it is not looked at. -/
def ofOctets (cs : Octets) : Doc := (value (2 * cs.length + 2) cs).1

def ofText (s : String) : Doc := ofOctets (ofString s)

def ofBytes (bs : List UInt8) : Doc := ofOctets (Octet.ofBytes bs)

end PlainTwin.Doc
