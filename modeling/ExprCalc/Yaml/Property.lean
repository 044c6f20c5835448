import ExprCalc.Text.Quoted
import ExprCalc.Yaml.Cursor

namespace ExprCalc.Yaml

def isNameChar (c : Char) : Bool :=
  c.isAlphanum || c == '_' || c == '-'

def anchorName (c : Cursor) : Option (Text × Cursor) := do
  let (name, c) ← c.skip.takeWhile isNameChar
  let ends := blankFollows c.rest ||
    ['?', ':', ',', ']', '\x7d', '%', '@', '\x60'].contains (c.rest.headD ' ')
  if name.isEmpty || !ends then none else return (utf8 (String.ofList name), c)

def escapedByte (c : Cursor) : Option (UInt8 × Cursor) := do
  let c ← c.need 3
  match c.rest with
  | '%' :: a :: b :: _ =>
    let (n, _) ← Text.fixedDigits? 16 2 0 [.char a, .char b]
    return (n.toUInt8, c.advance 3)
  | _ => none

def escapedTail : (count : Nat) → Cursor → Option (Text × Cursor)
  | 0, c => some ([], c)
  | count + 1, c => do
    let (b, c) ← escapedByte c
    if b.toNat / 64 ≠ 2 then none
    else
      let (tail, c) ← escapedTail count c
      return (b :: tail, c)

def escapedChar (c : Cursor) : Option (Text × Cursor) := do
  let (lead, c) ← escapedByte c
  let form ← Rune.form? lead
  let (tail, c) ← escapedTail form.tails c
  return (lead :: tail, c)

def isUriChar (c : Char) : Bool :=
  isNameChar c || [';', '/', '?', ':', '@', '&', '=', '+', '$', '.', '!', '~', '*', '\x27', '(',
    ')', '[', ']', ','].contains c

def uriAfter : (fuel : Nat) → Array UInt8 → Cursor → Option (Text × Cursor)
  | 0, bytes, c => some (bytes.toList, c)
  | fuel + 1, bytes, c =>
    match c.head? with
    | none => some (bytes.toList, c)
    | some ch =>
      if ch == '%' then do
        let (more, c) ← escapedChar c
        uriAfter fuel (bytes.appendList more) (← c.need 1)
      else if isUriChar ch then do
        uriAfter fuel (bytes.push ch.toNat.toUInt8) (← c.skip.need 1)
      else some (bytes.toList, c)

def uri (c : Cursor) : Option (Text × Cursor) := do
  let c ← c.need 1
  uriAfter c.left #[] c

def tagHandle (c : Cursor) : Option (Text × Cursor) := do
  let c ← c.need 1
  if c.head? ≠ some '!' then none
  else
    let (name, c) ← c.skip.takeWhile isNameChar
    let handle := '!' :: name
    if c.head? = some '!' then return (utf8 (String.ofList (handle ++ ['!'])), c.skip)
    else return (utf8 (String.ofList handle), c)

def isClosed (handle : Text) : Bool :=
  1 < handle.length && handle.getLast? == some 33

/-- The handle and the rest of a tag. One between angle brackets, and an exclamation mark alone,
have no handle. -/
def tag (c : Cursor) : Option (Text × Text × Cursor) := do
  let c ← c.need 2
  let (handle, suffix, c) ← match c.rest with
    | '!' :: '<' :: _ => do
      let (name, c) ← uri (c.advance 2)
      if name.isEmpty || c.head? ≠ some '>' then none else some ([], name, c.skip)
    | _ => do
      let (handle, c) ← tagHandle c
      let (name, c) ← uri c
      if isClosed handle then if name.isEmpty then none else some (handle, name, c)
      else
        let suffix := handle.drop 1 ++ name
        some (if suffix.isEmpty then ([], utf8 "!", c) else (utf8 "!", suffix, c))
  let c ← c.need 1
  if blankFollows c.rest then return (handle, suffix, c) else none

inductive Directive where
  | version (major minor : Nat)
  | handle (name expansion : Text)
deriving DecidableEq

def versionNumber (c : Cursor) : Option (Nat × Cursor) := do
  let (digits, c) ← c.takeWhile Char.isDigit
  if digits.isEmpty || 2 < digits.length then none
  else return (digits.foldl (fun n d => n * 10 + (d.toNat - '0'.toNat)) 0, c)

def versionDirective (c : Cursor) : Option (Directive × Cursor) := do
  let (major, c) ← versionNumber c
  if c.head? ≠ some '.' then none
  else
    let (minor, c) ← versionNumber c.skip
    return (.version major minor, c)

def handleDirective (c : Cursor) : Option (Directive × Cursor) := do
  let (name, c) ← tagHandle c
  let c ← c.need 1
  if !(isClosed name || name = utf8 "!") || !c.head?.any isBlank then none
  else
    let (expansion, c) ← uri (← c.skipWhile isBlank)
    if expansion.isEmpty || !blankFollows c.rest then none
    else return (.handle name expansion, c)

def directive (c : Cursor) : Option (Directive × Cursor) := do
  let (name, c) ← c.skip.takeWhile isNameChar
  if !blankFollows c.rest then none
  else
    let c ← c.skipWhile isBlank
    let (d, c) ← match String.ofList name with
      | "YAML" => versionDirective c
      | "TAG" => handleDirective c
      | _ => none
    let c ← c.skipWhile isBlank
    let c ← if c.head? = some '#' then c.skipWhile (!isBreak ·) else some c
    if breakFollows c.rest then return (d, ← c.skipBreak) else none

end ExprCalc.Yaml
