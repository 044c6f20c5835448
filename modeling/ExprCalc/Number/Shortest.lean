namespace ExprCalc.Number

/-- A positive binary number and the shape of the interval of reals that round to it. -/
structure Binary where
  mantissa : Nat
  exponent : Int
  /-- The next smaller number is only half as far away as the next larger one. -/
  isLowestOfBinade : Bool

structure Decimal where
  digits : Nat
  exponent : Int
deriving DecidableEq

def digitCount (n : Nat) : Nat :=
  (Nat.toDigits 10 n).length

def inUnits (num den : Nat) (unit : Int) : Nat × Nat :=
  (num * Nat.pow 10 (-unit).toNat, den * Nat.pow 10 unit.toNat)

/-- The exponent `x` with `10 ^ x ≤ num / den < 10 ^ (x + 1)`. -/
def decimalExponent (num den : Nat) : Int :=
  if den ≤ num then (digitCount (num / den) : Int) - 1
  else -(digitCount ((den + num - 1) / num - 1) : Int)

namespace Binary

/-- The number and both ends of its rounding interval, as numerators over a common denominator:
low, value, high, denominator. -/
def interval (b : Binary) : Nat × Nat × Nat × Nat :=
  let scale := Nat.pow 2 (b.exponent - 2).toNat
  let den := Nat.pow 2 (2 - b.exponent).toNat
  let low := 4 * b.mantissa - if b.isLowestOfBinade then 1 else 2
  (low * scale, 4 * b.mantissa * scale, (4 * b.mantissa + 2) * scale, den)

/-- The best point of the grid of spacing `10 ^ unit` inside the rounding interval, if there is
one. The ends belong to the interval when the mantissa is even. -/
def onGrid? (b : Binary) (unit : Int) : Option Nat :=
  let (low, value, high, den) := b.interval
  let (value, units) := inUnits value den unit
  let (low, _) := inUnits low den unit
  let (high, _) := inUnits high den unit
  let closed := b.mantissa % 2 == 0
  let below := value / units
  let above := below + 1
  let belowIn := low < below * units || (closed && low == below * units)
  let aboveIn := above * units < high || (closed && above * units == high)
  match belowIn, aboveIn with
  | false, false => none
  | true, false => some below
  | false, true => some above
  | true, true =>
    let twice := 2 * (value - below * units)
    if twice < units then some below
    else if units < twice then some above
    else some (if below % 2 == 0 then below else above)

/-- Tries grids of `count`, `count + 1`, … digits, at most `more` of them. -/
def searchGrids (b : Binary) (top : Int) : (count more : Nat) → Decimal
  | count, 0 => ⟨(b.onGrid? (top - count + 1)).getD 0, top - count + 1⟩
  | count, more + 1 =>
    match b.onGrid? (top - count + 1) with
    | some digits => ⟨digits, top - count + 1⟩
    | none => searchGrids b top (count + 1) more

end Binary

/-- Moves the trailing zeros of the digits, at most `fuel`, into the exponent. -/
def Decimal.trim : (fuel : Nat) → Decimal → Decimal
  | 0, d => d
  | fuel + 1, d =>
    if d.digits ≠ 0 ∧ d.digits % 10 = 0 then trim fuel ⟨d.digits / 10, d.exponent + 1⟩ else d

/-- The shortest decimal that rounds to `b`. Seventeen digits always suffice. -/
def Binary.shortest (b : Binary) : Decimal :=
  let (_, value, _, den) := b.interval
  (b.searchGrids (decimalExponent value den) 1 16).trim 17

def Binary.ofBits (bits : Nat) : Binary :=
  let field : Nat := bits / Nat.pow 2 52 % Nat.pow 2 11
  let fraction : Nat := bits % Nat.pow 2 52
  if field = 0 then ⟨fraction, -1074, false⟩
  else ⟨fraction + Nat.pow 2 52, (field : Int) - 1075, fraction == 0 && 1 < field⟩

end ExprCalc.Number
