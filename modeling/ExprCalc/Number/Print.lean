import ExprCalc.Text.Basic
import ExprCalc.Number.Shortest

namespace ExprCalc.Number

/-- Exponents of the first digit that are written positionally. -/
def isPositional (x : Int) : Bool :=
  -4 ≤ x && x < 6

/-- Digits with a decimal point and no exponent; `x` is the exponent of the first digit. -/
def positional (digits : Text) (x : Int) : Text :=
  if x < 0 then utf8 "0." ++ List.replicate (-x - 1).toNat 48 ++ digits
  else
    let whole := x.toNat + 1
    if digits.length ≤ whole then digits ++ List.replicate (whole - digits.length) 48
    else digits.take whole ++ utf8 "." ++ digits.drop whole

/-- One digit, the others after a point, and an exponent with a sign and at least two digits. -/
def scientific (digits : Text) (x : Int) : Text :=
  let size := Text.ofNat x.natAbs
  digits.take 1 ++ (if digits.length ≤ 1 then [] else utf8 "." ++ digits.drop 1) ++
    utf8 (if x < 0 then "e-" else "e+") ++ List.replicate (2 - size.length) 48 ++ size

def Decimal.text (d : Decimal) : Text :=
  let digits := Text.ofNat d.digits
  let x := d.exponent + digits.length - 1
  if isPositional x then positional digits x else scientific digits x

def text (x : Float) : Text :=
  let bits := x.toBits.toNat
  let magnitude := bits % Nat.pow 2 63
  let sign := if bits < Nat.pow 2 63 then [] else utf8 "-"
  let infinity := 0x7FF * Nat.pow 2 52
  if infinity < magnitude then utf8 "NaN"
  else if magnitude = infinity then
    if bits < Nat.pow 2 63 then utf8 "+Inf" else utf8 "-Inf"
  else if magnitude = 0 then sign ++ utf8 "0"
  else sign ++ (Binary.ofBits magnitude).shortest.text

end ExprCalc.Number
