namespace PlainTwin.Decimal

/-- A positive binary number `m * 2^q`. It is `narrow` when the next number below it is only half
as far away as the next one above. -/
structure Binary where
  m : Nat
  q : Int
  narrow : Bool

def Binary.ofBits (bits : UInt64) : Binary :=
  let fraction := (bits &&& 0xFFFFFFFFFFFFF).toNat
  let exponent := ((bits >>> 52) &&& 0x7FF).toNat
  if exponent = 0 then ⟨fraction, -1074, false⟩
  else ⟨0x10000000000000 + fraction, exponent - 1075, fraction == 0 && exponent > 1⟩

structure Scientific where
  digits : Nat
  exponent : Int

/-- Fractions over a common denominator of a number's value and of the ends of the interval whose
reals round to it. -/
structure Interval where
  low : Nat
  value : Nat
  high : Nat
  denominator : Nat
  closed : Bool

def Binary.interval (b : Binary) : Interval :=
  let up := Nat.pow 2 b.q.toNat
  { low := (4 * b.m - if b.narrow then 1 else 2) * up
    value := 4 * b.m * up
    high := (4 * b.m + 2) * up
    denominator := 4 * Nat.pow 2 (-b.q).toNat
    closed := b.m % 2 == 0 }

namespace Interval

def scale (i : Interval) (p : Int) : Interval :=
  let up := Nat.pow 10 (-p).toNat
  { i with
    low := i.low * up
    value := i.value * up
    high := i.high * up
    denominator := i.denominator * Nat.pow 10 p.toNat }

def holds (i : Interval) (n : Nat) : Bool :=
  let x := n * i.denominator
  if i.closed then i.low ≤ x && x ≤ i.high else i.low < x && x < i.high

/-- The whole number in the interval that is nearest to the value; of two, the even one. -/
def nearest? (i : Interval) : Option Nat :=
  let n := i.value / i.denominator
  let below := i.value - n * i.denominator
  let above := (n + 1) * i.denominator - i.value
  let preferLow := below < above || (below == above && n % 2 == 0)
  match i.holds n, i.holds (n + 1) with
  | true, true => some (if preferLow then n else n + 1)
  | true, false => some n
  | false, true => some (n + 1)
  | false, false => none

def magnitude (i : Interval) : Int :=
  let n := i.value / i.denominator
  if n ≠ 0 then (Nat.toDigits 10 n).length - 1
  else -(Nat.toDigits 10 ((i.denominator + i.value - 1) / i.value - 1)).length

end Interval

/-- The decimal of the fewest digits that reads back as the number, and the nearest of those. The
first argument bounds the digits, which are seventeen at most. -/
def search (i : Interval) (lead : Int) : Nat → Nat → Scientific
  | 0, _ => ⟨i.value / i.denominator, 0⟩
  | fuel + 1, k =>
    let p := lead - k
    match (i.scale p).nearest? with
    | some n => ⟨n, p⟩
    | none => search i lead fuel (k + 1)

def Binary.shortest (b : Binary) : Scientific :=
  let i := b.interval
  search i i.magnitude 18 0

def Scientific.normal (d : Scientific) : Scientific :=
  let ds := Nat.toDigits 10 d.digits
  let kept := (ds.reverse.dropWhile (· == '0')).reverse
  ⟨Nat.ofDigitChars 10 kept 0, d.exponent + (ds.length - kept.length : Nat)⟩

end PlainTwin.Decimal
