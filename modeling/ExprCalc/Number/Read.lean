import ExprCalc.Text.Basic
import ExprCalc.Text.Quoted
import ExprCalc.Number.Shortest

namespace ExprCalc.Number

def ofDecimal (digits : Nat) (exponent : Int) : Float :=
  let x := exponent + digitCount digits
  if digits = 0 ∨ x < -330 then 0
  else if 310 < x then 1 / 0
  else Float.ofScientific digits (exponent < 0) exponent.natAbs

def ofBinary (digits : Nat) (exponent : Int) : Float :=
  let x := exponent + digits.log2
  if digits = 0 ∨ x < -1080 then 0
  else if 1030 < x then 1 / 0
  else if 0 ≤ exponent then Float.ofScientific (digits * Nat.pow 2 exponent.toNat) false 0
  else Float.ofScientific (digits * Nat.pow 5 (-exponent).toNat) true (-exponent).toNat

/-- Digits past this many matter only by not being all zero. -/
def significantDigits : Nat := 800

/-- The value of the digits of a numeral and the number of digits left out of it. A left-out tail
that is not zero leaves a digit one behind. -/
def digitsValue (base : Nat) (digits : List Nat) : Nat × Nat :=
  let digits := digits.dropWhile (· == 0)
  let kept := digits.take significantDigits
  let tail := digits.drop significantDigits
  let value := kept.foldl (fun n d => n * base + d) 0
  if tail.any (· != 0) then (value * base + 1, tail.length - 1) else (value, tail.length)

/-- A numeral without its sign: `whole.fraction`, scaled by a power of ten, or of two if the digits
are hexadecimal. -/
structure Numeral where
  hexadecimal : Bool
  whole : List Nat
  fraction : List Nat
  exponent : Int

def Numeral.value (n : Numeral) : Float :=
  let base := if n.hexadecimal then 16 else 10
  let (digits, dropped) := digitsValue base (n.whole ++ n.fraction)
  let shift : Int := dropped - n.fraction.length
  if n.hexadecimal then ofBinary digits (shift * 4 + n.exponent)
  else ofDecimal digits (shift + n.exponent)

def digitOf? (hexadecimal : Bool) (c : Char) : Option Nat := do
  let d ← Text.digitValue? c
  if d < (if hexadecimal then 16 else 10) then some d else none

def digitRun (hexadecimal : Bool) (cs : List Char) : List Nat × List Char :=
  let inRun (c : Char) := c == '_' || (digitOf? hexadecimal c).isSome
  ((cs.takeWhile inRun).filterMap (digitOf? hexadecimal), cs.dropWhile inRun)

/-- The size of a written exponent; it stops growing once it is far out of range. -/
def exponentSize (digits : List Nat) : Nat :=
  digits.foldl (fun e d => if e < 10000 then e * 10 + d else e) 0

/-- An exponent after its mark: an optional sign, then digits of which the first is no separator. -/
def readExponent? (cs : List Char) : Option Int :=
  let (negative, cs) := match cs with
    | '+' :: rest => (false, rest)
    | '-' :: rest => (true, rest)
    | _ => (false, cs)
  match cs with
  | [] => none
  | c :: _ =>
    if c.isDigit then
      match digitRun false cs with
      | (digits, []) =>
        let size : Int := exponentSize digits
        some (if negative then -size else size)
      | (_, _ :: _) => none
    else none

/-- A numeral after its sign and base mark. A hexadecimal numeral needs an exponent. -/
def readNumeral? (hexadecimal : Bool) (cs : List Char) : Option Numeral :=
  let (whole, cs) := digitRun hexadecimal cs
  let (fraction, cs) := match cs with
    | '.' :: rest => digitRun hexadecimal rest
    | _ => ([], cs)
  if whole.isEmpty && fraction.isEmpty then none
  else match cs with
    | [] => if hexadecimal then none else some ⟨hexadecimal, whole, fraction, 0⟩
    | c :: rest =>
      if c.toLower = (if hexadecimal then 'p' else 'e') then
        (readExponent? rest).map fun e => ⟨hexadecimal, whole, fraction, e⟩
      else none

inductive Before where
  | digit
  | separator
  | other
deriving DecidableEq

/-- Every separator stands after a digit or base mark and before a digit. -/
def separatorsFit (hexadecimal : Bool) : Before → List Char → Bool
  | before, [] => before ≠ .separator
  | before, c :: cs =>
    if (digitOf? hexadecimal c).isSome then separatorsFit hexadecimal .digit cs
    else if c = '_' then before = .digit && separatorsFit hexadecimal .separator cs
    else before ≠ .separator && separatorsFit hexadecimal .other cs

def readMagnitude? (cs : List Char) : Option Float :=
  let word := cs.map Char.toLower
  if word = "inf".toList ∨ word = "infinity".toList then some (1 / 0)
  else
    let (hexadecimal, digits, before) : Bool × List Char × Before := match cs with
      | '0' :: 'x' :: rest => (true, rest, .digit)
      | '0' :: 'X' :: rest => (true, rest, .digit)
      | _ => (false, cs, .other)
    if separatorsFit hexadecimal before digits then
      (readNumeral? hexadecimal digits).map Numeral.value
    else none

def read? (t : Text) : Option Float :=
  match t.runes.map Rune.shown with
  | '+' :: cs => readMagnitude? cs
  | '-' :: cs => (readMagnitude? cs).map (- ·)
  | cs => if cs.map Char.toLower = "nan".toList then some (0 / 0) else readMagnitude? cs

end ExprCalc.Number
