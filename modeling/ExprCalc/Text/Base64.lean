import ExprCalc.Text.Basic

namespace ExprCalc.Text

/-- The six bits a letter stands for. -/
def sextet? (b : UInt8) : Option Nat :=
  let n := b.toNat
  if 65 ≤ n ∧ n ≤ 90 then some (n - 65)
  else if 97 ≤ n ∧ n ≤ 122 then some (n - 97 + 26)
  else if 48 ≤ n ∧ n ≤ 57 then some (n - 48 + 52)
  else if n = 43 then some 62
  else if n = 47 then some 63
  else none

def padding : UInt8 := 61

def ofGroups? : Text → Option Text
  | [] => some []
  | a :: b :: c :: d :: rest => do
    let n := (← sextet? a) * 64 + (← sextet? b)
    if c = padding ∧ d = padding ∧ rest = [] then return [(n / 16).toUInt8]
    let n := n * 64 + (← sextet? c)
    if d = padding ∧ rest = [] then return [(n / 1024).toUInt8, (n / 4).toUInt8]
    let n := n * 64 + (← sextet? d)
    return (n / 65536).toUInt8 :: (n / 256).toUInt8 :: n.toUInt8 :: (← ofGroups? rest)
  | _ => none

def ofBase64? (t : Text) : Option Text :=
  ofGroups? (t.filter fun b => b != 10 && b != 13)

end ExprCalc.Text
