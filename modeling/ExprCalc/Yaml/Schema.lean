import ExprCalc.Number.Read

namespace ExprCalc.Yaml

inductive Tag where
  | null
  | bool
  | int
  | float
  | timestamp
  | str
  | binary
  | merge
  | seq
  | map
  | other (name : Text)
deriving DecidableEq

namespace Tag

def standard : List (Tag × String) :=
  [(null, "!!null"), (bool, "!!bool"), (int, "!!int"), (float, "!!float"),
   (timestamp, "!!timestamp"), (str, "!!str"), (binary, "!!binary"), (merge, "!!merge"),
   (seq, "!!seq"), (map, "!!map")]

def text : Tag → Text
  | other name => name
  | tag => utf8 ((standard.lookup tag).getD "")

def ofName (name : Text) : Tag :=
  let start := utf8 "tag:yaml.org,2002:"
  let short := if start.isPrefixOf name then utf8 "!!" ++ name.drop start.length else name
  match standard.find? fun t => utf8 t.2 = short with
  | some (tag, _) => tag
  | none => other short

end Tag

def words : List (String × Tag) :=
  [("true", .bool), ("True", .bool), ("TRUE", .bool),
   ("false", .bool), ("False", .bool), ("FALSE", .bool),
   ("", .null), ("~", .null), ("null", .null), ("Null", .null), ("NULL", .null),
   (".nan", .float), (".NaN", .float), (".NAN", .float),
   (".inf", .float), (".Inf", .float), (".INF", .float),
   ("+.inf", .float), ("+.Inf", .float), ("+.INF", .float),
   ("-.inf", .float), ("-.Inf", .float), ("-.INF", .float)]

def shortNumber? : List Char → Option (Nat × List Char)
  | a :: b :: rest =>
    if a.isDigit then
      if b.isDigit then some ((a.toNat - 48) * 10 + (b.toNat - 48), rest)
      else some (a.toNat - 48, b :: rest)
    else none
  | [a] => if a.isDigit then some (a.toNat - 48, []) else none
  | [] => none

def expect? (c : Char) : List Char → Option (List Char)
  | d :: rest => if c = d then some rest else none
  | [] => none

def daysIn (year month : Nat) : Nat :=
  if month = 2 then
    if year % 4 = 0 ∧ (year % 100 ≠ 0 ∨ year % 400 = 0) then 29 else 28
  else if month = 4 ∨ month = 6 ∨ month = 9 ∨ month = 11 then 30
  else 31

def date? (cs : List Char) : Option (List Char) := do
  let (century, rest) ← shortNumber? cs
  let (year, rest') ← shortNumber? rest
  if !((cs.take 4).all Char.isDigit) then none
  else
    let (month, rest) ← shortNumber? (← expect? '-' rest')
    let (day, rest) ← shortNumber? (← expect? '-' rest)
    if 1 ≤ month ∧ month ≤ 12 ∧ 1 ≤ day ∧ day ≤ daysIn (century * 100 + year) month then some rest
    else none

def clock? (cs : List Char) : Option (List Char) := do
  let (hour, rest) ← shortNumber? cs
  let (minute, rest) ← shortNumber? (← expect? ':' rest)
  let (second, rest) ← shortNumber? (← expect? ':' rest)
  if 24 ≤ hour ∨ 60 ≤ minute ∨ 60 ≤ second then none
  else match rest with
    | point :: d :: more =>
      if (point == '.' || point == ',') && d.isDigit then some (more.dropWhile Char.isDigit)
      else some rest
    | _ => some rest

/-- `Z`, or a sign, two digits, a colon and two digits, up to the end. -/
def isZone : List Char → Bool
  | ['Z'] => true
  | [sign, a, b, ':', c, d] =>
    (sign == '+' || sign == '-') && [a, b, c, d].all Char.isDigit &&
      (a.toNat - 48) * 10 + (b.toNat - 48) ≤ 24 && (c.toNat - 48) * 10 + (d.toNat - 48) ≤ 60
  | _ => false

/-- A date, a date and a time with its zone after the letter T, or a date and a time without a zone
after spaces. -/
def isTimestamp (cs : List Char) : Bool :=
  match date? cs with
  | none => false
  | some [] => true
  | some (mark :: rest) =>
    if mark == 'T' || mark == 't' then (clock? rest).any isZone
    else mark == ' ' && (clock? (rest.dropWhile (· == ' '))).any List.isEmpty

def digits? (base : Nat) (cs : List Char) : Option Nat := do
  let ds ← cs.mapM Text.digitValue?
  if !ds.isEmpty && ds.all (· < base) then some (ds.foldl (fun n d => n * base + d) 0) else none

def magnitude? : List Char → Option Nat
  | '0' :: mark :: rest =>
    match mark.toLower with
    | 'x' => digits? 16 rest
    | 'b' => digits? 2 rest
    | 'o' => digits? 8 rest
    | _ => digits? 8 (mark :: rest)
  | cs => digits? 10 cs

/-- An integer that fits in 64 bits, of which one is for the sign if there is any. -/
def withSign? (magnitude : List Char → Option Nat) (cs : List Char) : Option Int := do
  let half := Nat.pow 2 63
  match cs with
  | '-' :: cs =>
    let n ← magnitude cs
    if n ≤ half then return -n else none
  | '+' :: cs =>
    let n ← magnitude cs
    if n < half then return n else none
  | cs =>
    let n ← magnitude cs
    if n < 2 * half then return n else none

/-- The integer that is written. The sign may also follow the mark of base two or eight. -/
def integer? (cs : List Char) : Option Int :=
  match withSign? magnitude? cs, cs with
  | some n, _ => some n
  | none, '0' :: 'b' :: rest => withSign? (digits? 2) rest
  | none, '0' :: 'o' :: rest => withSign? (digits? 8) rest
  | none, _ => none

def isDecimal (cs : List Char) : Bool :=
  let cs := match cs with
    | '+' :: rest => rest
    | '-' :: rest => rest
    | _ => cs
  let whole := cs.takeWhile Char.isDigit
  let rest := cs.drop whole.length
  let (point, fraction, rest) := match rest with
    | '.' :: more => (true, more.takeWhile Char.isDigit, more.dropWhile Char.isDigit)
    | _ => (false, [], rest)
  let mantissa := !whole.isEmpty || (point && !fraction.isEmpty)
  let exponent := match rest with
    | [] => true
    | e :: more =>
      let digits := match more with
        | '+' :: ds => ds
        | '-' :: ds => ds
        | _ => more
      (e == 'e' || e == 'E') && !digits.isEmpty && digits.all Char.isDigit
  mantissa && exponent

def isFinite (cs : List Char) : Bool :=
  match Number.read? (utf8 (String.ofList cs)) with
  | some x => x - x == 0
  | none => false

def withoutSeparators (cs : List Char) : List Char :=
  cs.filter (· != '_')

def plainTag (cs : List Char) : Tag :=
  match words.lookup (String.ofList cs) with
  | some tag => tag
  | none =>
    match cs with
    | [] => .null
    | c :: _ =>
      if c == '.' then if isFinite cs then .float else .str
      else if c.isDigit || c == '+' || c == '-' then
        let plain := withoutSeparators cs
        if isTimestamp cs then .timestamp
        else if (integer? plain).isSome then .int
        else if isDecimal plain && isFinite plain then .float
        else .str
      else .str

end ExprCalc.Yaml
