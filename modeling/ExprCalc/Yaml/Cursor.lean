import ExprCalc.Yaml.Encoding

namespace ExprCalc.Yaml

def isBreak (c : Char) : Bool :=
  c == '\n' || c == '\r' || c == '\u0085' || c == '\u2028' || c == '\u2029'

def isBlank (c : Char) : Bool :=
  c == ' ' || c == '\t'

def blankFollows : List Char → Bool
  | [] => true
  | c :: _ => isBlank c || isBreak c

def breakFollows : List Char → Bool
  | [] => true
  | c :: _ => isBreak c

structure Cursor where
  rest : List Char
  index : Nat
  line : Nat
  column : Nat
  /-- The line breaks since the last character that is no blank. -/
  breaks : Nat
  size : Nat
  /-- The number of characters that have been brought in; the end of the document counts as one
  each time it is met. -/
  loaded : Nat
  portions : List Nat
  /-- What follows the last portion cannot be read. -/
  faulty : Bool
  /-- The character at which something was last brought in is a byte order mark. -/
  marked : Bool

namespace Cursor

def start (document : Text) : Cursor :=
  let (portions, faulty) := Yaml.portions document
  let cs := portions.flatten
  { rest := cs, index := 0, line := 0, column := 0, breaks := 0, size := cs.length, loaded := 0,
    portions := portions.map List.length, faulty, marked := false }

def left (c : Cursor) : Nat :=
  c.size - c.index

def load (goal : Nat) : (portions : List Nat) → Cursor → Option Cursor
  | [], c => if c.faulty then none else some { c with portions := [], loaded := c.loaded + 1 }
  | size :: more, c =>
    let c := { c with portions := more, loaded := c.loaded + size }
    if goal ≤ c.loaded then some c else load goal more c

/-- Asks for the next `n` characters. There is no cursor if a fault is met on the way. -/
def need (n : Nat) (c : Cursor) : Option Cursor :=
  if c.index + n ≤ c.loaded then some c
  else load (c.index + n) c.portions { c with marked := c.rest.head? == some '\uFEFF' }

def head? (c : Cursor) : Option Char :=
  c.rest.head?

def skip (c : Cursor) : Cursor :=
  { c with
    rest := c.rest.tail
    index := c.index + 1
    column := c.column + 1
    breaks := if c.rest.head?.any isBlank then c.breaks else 0 }

def advance : (n : Nat) → Cursor → Cursor
  | 0, c => c
  | n + 1, c => advance n c.skip

def nextLine (c : Cursor) (size : Nat) : Cursor :=
  { c with
    rest := c.rest.drop size
    index := c.index + size
    line := c.line + 1
    column := 0
    breaks := c.breaks + 1 }

def takeBreak (c : Cursor) : List Char × Cursor :=
  match c.rest with
  | '\r' :: '\n' :: _ => (['\n'], c.nextLine 2)
  | b :: _ =>
    if b == '\u2028' || b == '\u2029' then ([b], c.nextLine 1)
    else if isBreak b then (['\n'], c.nextLine 1)
    else ([], c)
  | [] => ([], c)

def skipBreak (c : Cursor) : Option Cursor :=
  if c.head?.any isBreak then (c.need 2).map (·.takeBreak.2) else some c

/-- Steps over at most `fuel` characters of a class, which are put behind `taken`. -/
def takeAtMost (p : Char → Bool) : (fuel : Nat) → (taken : Array Char) → Cursor →
    Option (List Char × Cursor)
  | 0, taken, c => some (taken.toList, c)
  | fuel + 1, taken, c =>
    match c.head? with
    | none => some (taken.toList, c)
    | some ch =>
      if p ch then
        match c.skip.need 1 with
        | none => none
        | some c => takeAtMost p fuel (taken.push ch) c
      else some (taken.toList, c)

def takeWhile (p : Char → Bool) (c : Cursor) : Option (List Char × Cursor) := do
  let c ← c.need 1
  c.takeAtMost p c.left #[]

def skipWhile (p : Char → Bool) (c : Cursor) : Option Cursor :=
  (c.takeWhile p).map (·.2)

def atMarker (mark : Char) (c : Cursor) : Bool :=
  c.column == 0 && c.rest.take 3 == [mark, mark, mark] && blankFollows (c.rest.drop 3)

def atDocumentMarker (c : Cursor) : Bool :=
  c.atMarker '-' || c.atMarker '.'

def commentReach : Nat := 512

/-- Where the next comment starts, if only characters of a class stand before it. `cs` is what
follows the first `offset` characters. A line break of more than one byte ends the search a step
later, for which `ending` is set. -/
def commentAhead (p : Char → Bool) : (limit offset : Nat) → (ending : Bool) → (cs : List Char) →
    Cursor → Option (Option Nat × Cursor)
  | 0, _, _, _, c => some (none, c)
  | limit + 1, offset, ending, cs, c =>
    match c.need (offset + 1) with
    | none => none
    | some c =>
      match cs with
      | [] => some (none, c)
      | ch :: cs =>
        if ending then some (none, c)
        else if ch == '#' then some (some offset, c)
        else if p ch then commentAhead p limit (offset + 1) (isBreak ch && ch.toNat ≥ 0x80) cs c
        else some (none, c)

def crossTo (goal : Nat) : (fuel : Nat) → Cursor → Cursor
  | 0, c => c
  | fuel + 1, c =>
    if goal ≤ c.index then c
    else crossTo goal fuel (if c.head?.any isBreak then c.takeBreak.2 else c.skip)

/-- Steps over a comment up to the end of its line, and over the comments that follow it with
nothing but blanks and line breaks between them. -/
def skipComments : (fuel : Nat) → Cursor → Option Cursor
  | 0, _ => none
  | fuel + 1, c => do
    let c ← c.skipWhile (!isBreak ·)
    let wide := c.head?.any (·.toNat ≥ 0x80)
    let (next, c) ← c.commentAhead (fun ch => isBlank ch || isBreak ch) (commentReach - 1) 1 wide
      (c.rest.drop 1)
    match next with
    | some n => skipComments fuel (c.crossTo (c.index + n) n)
    | none => return c

def skipLineComment (c : Cursor) : Option Cursor :=
  if 0 < c.breaks then some c
  else do
    let (next, c) ← c.commentAhead isBlank commentReach 0 false c.rest
    match next with
    | some n => (c.advance n).skipWhile (!isBreak ·)
    | none => return c

end Cursor

end ExprCalc.Yaml
