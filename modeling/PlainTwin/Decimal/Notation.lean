import PlainTwin.Decimal.Shortest

namespace PlainTwin.Decimal

def positional : Int × Int := (-5, 15)

def zeros (n : Nat) : List Char := List.replicate n '0'

/-- Digits with a point after the one of the power `lead`, and at least one digit on each side. -/
def withPoint (ds : List Char) (lead : Int) : List Char :=
  if lead < 0 then '0' :: '.' :: zeros (-lead - 1).toNat ++ ds
  else
    let whole := lead.toNat + 1
    let before := ds.take whole ++ zeros (whole - ds.length)
    let after := ds.drop whole
    before ++ '.' :: (if after.isEmpty then ['0'] else after)

def withExponent (ds : List Char) (lead : Int) : List Char :=
  let point := if ds.length > 1 then ['.'] else []
  let sign := if lead < 0 then '-' else '+'
  ds.take 1 ++ point ++ ds.drop 1 ++ 'e' :: sign :: Nat.toDigits 10 lead.natAbs

def Scientific.render (d : Scientific) : List Char :=
  let ds := Nat.toDigits 10 d.digits
  let lead := d.exponent + ds.length - 1
  if positional.1 ≤ lead ∧ lead ≤ positional.2 then withPoint ds lead else withExponent ds lead

def renderFloat (x : Float) : String :=
  let bits := x.toBits
  let magnitude := bits &&& 0x7FFFFFFFFFFFFFFF
  let digits :=
    if magnitude = 0 then "0.0".toList else (Binary.ofBits magnitude).shortest.normal.render
  String.ofList (if bits = magnitude then digits else '-' :: digits)

end PlainTwin.Decimal
