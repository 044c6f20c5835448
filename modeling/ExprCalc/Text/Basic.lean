namespace ExprCalc

/-- The bytes of a source, a lexeme, a string value or an output. -/
abbrev Text := List UInt8

/-- A character of a text, or a byte that belongs to no character. -/
inductive Rune where
  | char (c : Char)
  | stray (b : UInt8)
deriving DecidableEq

namespace Rune

def encode (c : Char) : Text :=
  let n := c.toNat
  if n < 0x80 then [n.toUInt8]
  else if n < 0x800 then [(0xC0 + n / 64).toUInt8, (0x80 + n % 64).toUInt8]
  else if n < 0x10000 then
    [(0xE0 + n / 4096).toUInt8, (0x80 + n / 64 % 64).toUInt8, (0x80 + n % 64).toUInt8]
  else
    [(0xF0 + n / 262144).toUInt8, (0x80 + n / 4096 % 64).toUInt8, (0x80 + n / 64 % 64).toUInt8,
      (0x80 + n % 64).toUInt8]

def bytes : Rune → Text
  | char c => encode c
  | stray b => [b]

/-- The character shown for a rune: a stray byte shows as the replacement character. -/
def shown : Rune → Char
  | char c => c
  | stray _ => Char.ofNat 0xFFFD

/-- The form announced by a leading byte: how many continuation bytes follow, the bits it
contributes, and the least code point that needs this many bytes. -/
structure Form where
  tails : Nat
  high : Nat
  least : Nat

def form? (lead : UInt8) : Option Form :=
  let n := lead.toNat
  if n < 0x80 then some ⟨0, n, 0⟩
  else if n < 0xC0 then none
  else if n < 0xE0 then some ⟨1, n - 0xC0, 0x80⟩
  else if n < 0xF0 then some ⟨2, n - 0xE0, 0x800⟩
  else if n < 0xF8 then some ⟨3, n - 0xF0, 0x10000⟩
  else none

/-- Appends the six bits of each of `count` continuation bytes to `high`. -/
def tailBits : (count : Nat) → (high : Nat) → Text → Option Nat
  | 0, high, _ => some high
  | _ + 1, _, [] => none
  | count + 1, high, b :: bs =>
    if 0x80 ≤ b.toNat ∧ b.toNat < 0xC0 then tailBits count (high * 64 + (b.toNat - 0x80)) bs
    else none

/-- The character that starts with `lead`, and the number of continuation bytes it takes. Only
the shortest form of a Unicode scalar value counts. -/
def decode? (lead : UInt8) (rest : Text) : Option (Char × Nat) := do
  let form ← form? lead
  let code ← tailBits form.tails form.high rest
  if code.isValidChar ∧ form.least ≤ code then some (Char.ofNat code, form.tails) else none

/-- The first rune of `lead :: rest`, and the number of bytes of `rest` it takes. -/
def first (lead : UInt8) (rest : Text) : Rune × Nat :=
  match decode? lead rest with
  | some (c, n) => (char c, n)
  | none => (stray lead, 0)

end Rune

def utf8 (s : String) : Text :=
  s.toList.flatMap Rune.encode

namespace Text

/-- The runes of a text whose first `skip` bytes belong to a rune already taken. -/
def runesAfter : (skip : Nat) → Text → List Rune
  | _, [] => []
  | skip + 1, _ :: bs => runesAfter skip bs
  | 0, b :: bs =>
    let (r, tails) := Rune.first b bs
    r :: runesAfter tails bs

def runes (t : Text) : List Rune :=
  runesAfter 0 t

def ofRunes (rs : List Rune) : Text :=
  rs.flatMap Rune.bytes

def isUtf8 (t : Text) : Bool :=
  t.runes.all fun
    | .char _ => true
    | .stray _ => false

def shown (t : Text) : String :=
  String.ofList (t.runes.map Rune.shown)

def ofNat (n : Nat) : Text :=
  (Nat.toDigits 10 n).flatMap Rune.encode

def ofInt : Int → Text
  | .ofNat n => ofNat n
  | .negSucc n => utf8 "-" ++ ofNat (n + 1)

def hex (width n : Nat) : Text :=
  let digits := (Nat.toDigits 16 n).flatMap Rune.encode
  List.replicate (width - digits.length) 48 ++ digits

def joinWith (sep : Text) : List Text → Text
  | [] => []
  | [t] => t
  | t :: ts => t ++ sep ++ joinWith sep ts

def line (t : Text) : Text :=
  t ++ [10]

end Text

end ExprCalc
