import PlainTwin.Json.Doc

namespace PlainTwin.Octet

/-- Bytes, each as the character of its code. -/
abbrev Octets := List Char

def ofBytes (bs : List UInt8) : Octets := bs.map fun b => Char.ofNat b.toNat

def toBytes (cs : Octets) : ByteArray := ⟨(cs.map fun c => c.toNat.toUInt8).toArray⟩

def ofString (s : String) : Octets := ofBytes s.toUTF8.toList

def decode? (cs : Octets) : Option String := String.fromUTF8? (toBytes cs)

def isSpace (c : Char) : Bool := c = ' ' ∨ c = '\n' ∨ c = '\t' ∨ c = '\r'

def skipSpace (cs : Octets) : Octets := cs.dropWhile isSpace

def hexDigit? (c : Char) : Option Nat :=
  if c.isDigit then some (c.toNat - 48)
  else if 'a' ≤ c ∧ c ≤ 'f' then some (c.toNat - 87)
  else if 'A' ≤ c ∧ c ≤ 'F' then some (c.toNat - 55)
  else none

def unit? (a b c d : Char) : Option Nat := do
  return ((← hexDigit? a) * 16 + (← hexDigit? b)) * 256 + (← hexDigit? c) * 16 + (← hexDigit? d)

def shortEscape? : Char → Option Char
  | '"' => some '"'
  | '\\' => some '\\'
  | '/' => some '/'
  | 'b' => some '\x08'
  | 'f' => some '\x0c'
  | 'n' => some '\n'
  | 'r' => some '\r'
  | 't' => some '\t'
  | _ => none

def skipString : Octets → Except Fault Octets
  | [] => .error .eof
  | '"' :: r => .ok r
  | '\\' :: 'u' :: a :: b :: c :: d :: r =>
    if (unit? a b c d).isSome then skipString r else .error .syntactic
  | '\\' :: 'u' :: _ => .error .eof
  | '\\' :: c :: r => if (shortEscape? c).isSome then skipString r else .error .syntactic
  | ['\\'] => .error .eof
  | c :: r => if c < ' ' then .error .syntactic else skipString r

def isLeading (n : Nat) : Bool := 0xD800 ≤ n && n ≤ 0xDBFF

def isTrailing (n : Nat) : Bool := 0xDC00 ≤ n && n ≤ 0xDFFF

def ofUnits (lead trail : Nat) : Nat := 0x10000 + (lead - 0xD800) * 1024 + (trail - 0xDC00)

/-- The bytes of a string behind its opening quote. A leading unit needs its trailing one. -/
def readString : Octets → Except Fault Octets
  | [] => .error .eof
  | '"' :: _ => .ok []
  | '\\' :: 'u' :: a :: b :: c :: d :: r =>
    match unit? a b c d with
    | none => .error .syntactic
    | some n =>
      if isTrailing n then .error .syntactic
      else if isLeading n then
        match r with
        | '\\' :: 'u' :: a :: b :: c :: d :: r =>
          match unit? a b c d with
          | none => .error .syntactic
          | some t =>
            if isTrailing t then
              (ofString (Char.ofNat (ofUnits n t)).toString ++ ·) <$> readString r
            else .error .syntactic
        | [] | ['\\'] | '\\' :: 'u' :: _ => .error .eof
        | _ => .error .syntactic
      else (ofString (Char.ofNat n).toString ++ ·) <$> readString r
  | '\\' :: 'u' :: _ => .error .eof
  | '\\' :: c :: r =>
    match shortEscape? c with
    | some e => (e :: ·) <$> readString r
    | none => .error .syntactic
  | ['\\'] => .error .eof
  | c :: r => if c < ' ' then .error .syntactic else (c :: ·) <$> readString r

structure Numeral where
  negative : Bool
  whole : List Char
  fraction : Option (List Char)
  exponent : Option Int

def digits (cs : Octets) : List Char × Octets :=
  (cs.takeWhile Char.isDigit, cs.dropWhile Char.isDigit)

def digits1 (cs : Octets) : Except Fault (List Char × Octets) :=
  match digits cs with
  | ([], []) => .error .eof
  | ([], _) => .error .syntactic
  | r => .ok r

def readWhole : Octets → Except Fault (List Char × Octets)
  | '0' :: c :: r => if c.isDigit then .error .syntactic else .ok (['0'], c :: r)
  | cs => digits1 cs

def readFraction : Octets → Except Fault (Option (List Char) × Octets)
  | '.' :: r => do
    let (ds, r) ← digits1 r
    return (some ds, r)
  | cs => .ok (none, cs)

def readExponent : Octets → Except Fault (Option Int × Octets)
  | c :: r =>
    if c = 'e' ∨ c = 'E' then do
      let (negative, r) := match r with
        | '-' :: r => (true, r)
        | '+' :: r => (false, r)
        | r => (false, r)
      let (ds, r) ← digits1 r
      let n : Int := Nat.ofDigitChars 10 ds 0
      return (some (if negative then -n else n), r)
    else .ok (none, c :: r)
  | [] => .ok (none, [])

def readNumeral (negative : Bool) (cs : Octets) : Except Fault (Numeral × Octets) := do
  let (whole, r) ← readWhole cs
  let (fraction, r) ← readFraction r
  let (exponent, r) ← readExponent r
  return (⟨negative, whole, fraction, exponent⟩, r)

/-- A number as `significand * 10^exponent`, the significand within 64 bits. -/
structure Scaled where
  significand : Nat
  exponent : Int

def Scaled.digit? (s : Scaled) (c : Char) : Option Nat :=
  let n := s.significand * 10 + (c.toNat - 48)
  if n < UInt64.size then some n else none

/-- Digits of the whole part, of which those that no longer fit are counted. -/
def Scaled.whole (s : Scaled) : List Char → Scaled
  | [] => s
  | c :: cs =>
    match s.digit? c with
    | some n => Scaled.whole { s with significand := n } cs
    | none => { s with exponent := s.exponent + (c :: cs).length }

/-- Digits of the fraction, of which those from the first that no longer fits on are dropped. -/
def Scaled.fraction (s : Scaled) : List Char → Scaled
  | [] => s
  | c :: cs =>
    match s.digit? c with
    | some n => Scaled.fraction ⟨n, s.exponent - 1⟩ cs
    | none => s

def pow10 (n : Nat) : Float := Float.ofScientific 1 false n

def divPow10 (x : Float) (n : Nat) : Float :=
  if h : n ≤ 308 then x / pow10 n
  else if x == 0 then x
  else divPow10 (x / pow10 308) (n - 308)
termination_by n
decreasing_by
  exact Nat.sub_lt (Nat.lt_of_le_of_lt (Nat.zero_le 308) (Nat.lt_of_not_le h)) (by decide)

def Scaled.toFloat? (s : Scaled) : Option Float :=
  let x := (UInt64.ofNat s.significand).toFloat
  if s.exponent < 0 then some (divPow10 x (-s.exponent).toNat)
  else if s.exponent ≤ 308 then
    let y := x * pow10 s.exponent.toNat
    if y.isFinite then some y else none
  else if x == 0 then some x
  else none

/-- An integer if it is written as one and fits 64 bits; minus zero is no integer. -/
def Numeral.value? (n : Numeral) : Option Number :=
  let whole := Nat.ofDigitChars 10 n.whole 0
  let isInt := n.fraction.isNone && n.exponent.isNone
  if isInt && !n.negative && whole < UInt64.size then some (.int whole)
  else if isInt && n.negative && 0 < whole && whole ≤ UInt64.size / 2 then some (.int (-whole))
  else
    let s := Scaled.whole ⟨0, 0⟩ n.whole
    let s := Scaled.fraction s (n.fraction.getD [])
    let s := { s with exponent := s.exponent + n.exponent.getD 0 }
    s.toFloat?.map fun x => .float (if n.negative then -x else x)

end PlainTwin.Octet
