import ExprCalc.Text.CharClass

namespace ExprCalc.Text

def shortEscapes : List (Char × Char) :=
  [('\x07', 'a'), ('\x08', 'b'), ('\x0c', 'f'), ('\n', 'n'), ('\r', 'r'), ('\t', 't'),
   ('\x0b', 'v')]

/-- A character between quotes of the given kind: printable characters as they are, the quote and
the backslash after a backslash, other characters as an escape. -/
def escapedChar (quote c : Char) : Text :=
  if c = quote ∨ c = '\\' then Rune.encode '\\' ++ Rune.encode c
  else if isPrintable c then Rune.encode c
  else match shortEscapes.lookup c with
    | some letter => Rune.encode '\\' ++ Rune.encode letter
    | none =>
      if c.toNat < 0x80 then utf8 "\\x" ++ hex 2 c.toNat
      else if c.toNat < 0x10000 then utf8 "\\u" ++ hex 4 c.toNat
      else utf8 "\\U" ++ hex 8 c.toNat

/-- A rune between double quotes; a stray byte is written by its value. -/
def escaped : Rune → Text
  | .char c => escapedChar '"' c
  | .stray b => utf8 "\\x" ++ hex 2 b.toNat

def quoted (t : Text) : Text :=
  utf8 "\"" ++ t.runes.flatMap escaped ++ utf8 "\""

/-- A code point between single quotes; one that is no character shows as the replacement
character. -/
def quotedChar (code : Int32) : Text :=
  let n := code.toInt.toNat
  let c := if code.toInt < 0 ∨ ¬ n.isValidChar then Char.ofNat 0xFFFD else Char.ofNat n
  utf8 "'" ++ escapedChar '\'' c ++ utf8 "'"

def digitValue? (c : Char) : Option Nat :=
  if '0' ≤ c ∧ c ≤ '9' then some (c.toNat - '0'.toNat)
  else if 'a' ≤ c ∧ c ≤ 'f' then some (c.toNat - 'a'.toNat + 10)
  else if 'A' ≤ c ∧ c ≤ 'F' then some (c.toNat - 'A'.toNat + 10)
  else none

def fixedDigits? (base : Nat) : (count : Nat) → (value : Nat) → List Rune →
    Option (Nat × List Rune)
  | 0, value, rest => some (value, rest)
  | count + 1, value, .char c :: rest =>
    match digitValue? c with
    | some d => if d < base then fixedDigits? base count (value * base + d) rest else none
    | none => none
  | _ + 1, _, _ => none

/-- A character written by its code point; surrogates and numbers past the last plane are none. -/
def codePoint? (n : Nat) : Option Text :=
  if n.isValidChar then some (Rune.encode (Char.ofNat n)) else none

/-- The bytes an escape stands for, read after its backslash, and what follows it. `\x` and octal
escapes give a single byte, `\u` and `\U` a character; only the surrounding quote may be escaped. -/
def escape? (quote : Char) : List Rune → Option (Text × List Rune)
  | .char 'x' :: rest => do
    let (n, rest) ← fixedDigits? 16 2 0 rest
    return ([n.toUInt8], rest)
  | .char 'u' :: rest => do
    let (n, rest) ← fixedDigits? 16 4 0 rest
    return (← codePoint? n, rest)
  | .char 'U' :: rest => do
    let (n, rest) ← fixedDigits? 16 8 0 rest
    return (← codePoint? n, rest)
  | .char c :: rest =>
    if '0' ≤ c ∧ c ≤ '7' then do
      let (n, rest) ← fixedDigits? 8 3 0 (.char c :: rest)
      if n < 256 then return ([n.toUInt8], rest) else none
    else if c = '\\' ∨ c = quote then some (Rune.encode c, rest)
    else match shortEscapes.find? (·.2 = c) with
      | some (meant, _) => some (Rune.encode meant, rest)
      | none => none
  | _ => none

/-- The next character between quotes: an escape, or a rune that is neither the quote nor a line
feed. A stray byte reads as the replacement character. -/
def quotedUnit? (quote : Char) : List Rune → Option (Text × List Rune)
  | [] => none
  | .char c :: rest =>
    if c = '\\' then escape? quote rest
    else if c = quote ∨ c = '\n' then none
    else some (Rune.encode c, rest)
  | .stray b :: rest => some (Rune.encode (Rune.stray b).shown, rest)

def insideDoubleQuotes? : (fuel : Nat) → List Rune → Option Text
  | _, [] => some []
  | 0, _ => none
  | fuel + 1, rs =>
    match quotedUnit? '"' rs with
    | some (t, rest) => (insideDoubleQuotes? fuel rest).map (t ++ ·)
    | none => none

def between? (quote : Char) (rs : List Rune) : Option (List Rune) :=
  match rs with
  | .char c :: rest =>
    if c = quote ∧ rest.getLast? = some (.char quote) then some rest.dropLast else none
  | _ => none

/-- Reads a quoted text. Between double quotes escapes are understood; between back quotes nothing
is, and carriage returns are dropped; single quotes hold at most one character. -/
def unquoted? (t : Text) : Option Text :=
  let rs := t.runes
  match between? '"' rs with
  | some inner => insideDoubleQuotes? inner.length inner
  | none =>
    match between? '\x60' rs with
    | some inner =>
      if inner.contains (.char '\x60') then none
      else some (ofRunes (inner.filter (· ≠ .char '\r')))
    | none =>
      match between? '\'' rs with
      | some [] => some []
      | some inner =>
        match quotedUnit? '\'' inner with
        | some (t, []) => some t
        | _ => none
      | none => none

end ExprCalc.Text
