import ExprCalc.Text.Quoted
import ExprCalc.Yaml.Cursor

namespace ExprCalc.Yaml

inductive ScalarStyle where
  | plain
  | singleQuoted
  | doubleQuoted
  | literal
  | folded
deriving DecidableEq

structure Gap where
  blanks : List Char
  breaks : List (List Char)

namespace Gap

def empty : Gap := ⟨[], []⟩

/-- What a gap stands for: blanks within a line, one space for a single line break, and the later
ones of several line breaks. -/
def text (g : Gap) : List Char :=
  match g.breaks.reverse with
  | [] => g.blanks.reverse
  | first :: more =>
    if first = ['\n'] then if more.isEmpty then [' '] else more.flatten
    else first ++ more.flatten

/-- Reads on over blanks and line breaks. After a line break no tab may stand before column
`indent`. -/
def read (indent : Nat) : (fuel : Nat) → Gap → Cursor → Option (Gap × Cursor)
  | 0, g, c => some (g, c)
  | fuel + 1, g, c =>
    match c.head? with
    | none => some (g, c)
    | some ch =>
      if isBlank ch then
        if g.breaks.isEmpty then do
          read indent fuel ⟨ch :: g.blanks, []⟩ (← c.skip.need 1)
        else if ch == '\t' && c.column < indent then none
        else do read indent fuel g (← c.skip.need 1)
      else if isBreak ch then do
        let (text, c) := (← c.need 2).takeBreak
        read indent fuel ⟨[], text :: g.breaks⟩ (← c.need 1)
      else some (g, c)

end Gap

/-- The character ends a plain scalar, if `rest` follows it. -/
def endsPlain (inFlow : Bool) (ch : Char) (rest : List Char) : Bool :=
  isBlank ch || isBreak ch || (ch == ':' && blankFollows rest) ||
    (inFlow && [',', '?', '[', ']', '\x7b', '\x7d'].contains ch)

def plainRun (inFlow : Bool) : (fuel : Nat) → (text : Array Char) → Cursor →
    Option (Array Char × Cursor)
  | 0, text, c => some (text, c)
  | fuel + 1, text, c =>
    match c.rest with
    | [] => some (text, c)
    | ch :: rest =>
      if endsPlain inFlow ch rest then some (text, c)
      else do plainRun inFlow fuel (text.push ch) (← c.skip.need 2)

/-- Reads a plain scalar after `text` and a gap. The flag tells whether a line break stands before
the place where it ends. -/
def plainScalar (inFlow : Bool) (indent : Nat) : (fuel : Nat) → (text : Array Char) → Gap →
    Cursor → Option (List Char × Bool × Cursor)
  | 0, _, _, _ => none
  | fuel + 1, text, gap, c => do
    let c ← c.need 4
    let starts := match c.rest with
      | [] => false
      | ch :: rest => !(c.atDocumentMarker || ch == '#' || endsPlain inFlow ch rest)
    if !starts then return (text.toList, !gap.breaks.isEmpty, c)
    let (text, c) ← plainRun inFlow c.left (text.appendList gap.text) c
    if c.head?.any fun ch => isBlank ch || isBreak ch then
      let (gap, c) ← Gap.empty.read indent c.left c
      if !inFlow && c.column < indent then return (text.toList, !gap.breaks.isEmpty, c)
      else plainScalar inFlow indent fuel text gap c
    else return (text.toList, false, c)

def namedEscapes : List (Char × Char) :=
  [('0', '\x00'), ('a', '\x07'), ('b', '\x08'), ('t', '\t'), ('\t', '\t'), ('n', '\n'),
   ('v', '\x0b'), ('f', '\x0c'), ('r', '\r'), ('e', '\x1b'), (' ', ' '), ('\x22', '\x22'),
   ('\x27', '\x27'), ('\\', '\\'), ('N', '\u0085'), ('_', '\u00a0'), ('L', '\u2028'),
   ('P', '\u2029')]

def escapeWidth? : Char → Option Nat
  | 'x' => some 2
  | 'u' => some 4
  | 'U' => some 8
  | _ => none

def escape? (c : Cursor) : Option (Char × Cursor) := do
  let letter ← c.skip.head?
  let c := c.advance 2
  match escapeWidth? letter with
  | some width =>
    let c ← c.need width
    let (n, _) ← Text.fixedDigits? 16 width 0 ((c.rest.take width).map .char)
    if n.isValidChar then return (Char.ofNat n, c.advance width) else none
  | none => return (← namedEscapes.lookup letter, c)

structure QuotedRun where
  text : Array Char
  /-- The run stops at a backslash before a line break. -/
  atEscapedBreak : Bool
  cursor : Cursor

/-- The run of non-blank characters that a quoted scalar takes next. -/
def quotedRun (single : Bool) : (fuel : Nat) → (text : Array Char) → Cursor → Option QuotedRun
  | 0, text, c => some ⟨text, false, c⟩
  | fuel + 1, text, c =>
    match c.rest with
    | [] => some ⟨text, false, c⟩
    | ch :: rest =>
      if isBlank ch || isBreak ch then some ⟨text, false, c⟩
      else if ch == (if single then '\x27' else '\x22') then
        if single && rest.head? == some ch then do
          quotedRun single fuel (text.push ch) (← (c.advance 2).need 2)
        else some ⟨text, false, c⟩
      else if !single && ch == '\\' then
        if rest.head?.any isBreak then do
          let c ← c.need 3
          return ⟨text, true, c.skip.takeBreak.2⟩
        else do
          let (meant, c) ← escape? c
          quotedRun single fuel (text.push meant) (← c.need 2)
      else do quotedRun single fuel (text.push ch) (← c.skip.need 2)

def quotedScalar (single : Bool) : (fuel : Nat) → (text : Array Char) → Cursor →
    Option (List Char × Cursor)
  | 0, _, _ => none
  | fuel + 1, text, c => do
    let c ← c.need 4
    if c.atDocumentMarker || c.rest.isEmpty then none
    else
      let run ← quotedRun single c.left text c
      let c ← run.cursor.need 1
      if c.head? == some (if single then '\x27' else '\x22') then return (run.text.toList, c.skip)
      else
        let gap : Gap := ⟨[], if run.atEscapedBreak then [[]] else []⟩
        let (gap, c) ← gap.read 0 c.left c
        quotedScalar single fuel (run.text.appendList gap.text) c

inductive Chomping where
  | strip
  | clip
  | keep
deriving DecidableEq

def chompingSign (c : Cursor) : Option (Option Chomping × Cursor) := do
  let c ← c.need 1
  match c.head? with
  | some '+' => return (some .keep, c.skip)
  | some '-' => return (some .strip, c.skip)
  | _ => return (none, c)

def indentationDigit (c : Cursor) : Option (Option Nat × Cursor) := do
  let c ← c.need 1
  match c.head? with
  | some d =>
    if d == '0' then none
    else if d.isDigit then return (some (d.toNat - '0'.toNat), c.skip)
    else return (none, c)
  | none => return (none, c)

/-- The marks after the first character of a block scalar: chomping and indentation, in either
order. -/
def blockHeader (c : Cursor) : Option (Chomping × Option Nat × Cursor) := do
  let (chomping, c) ← chompingSign c
  let (increment, c) ← indentationDigit c
  match chomping, increment with
  | none, some _ =>
    let (chomping, c) ← chompingSign c
    return (chomping.getD .clip, increment, c)
  | _, _ => return (chomping.getD .clip, increment, c)

structure BlankLines where
  breaks : List (List Char)
  widest : Nat
  cursor : Cursor

/-- Eats indentation up to `indent`, or any if that is not known, and empty lines. -/
def blankLines (indent : Option Nat) : (fuel : Nat) → BlankLines → Option BlankLines
  | 0, b => some b
  | fuel + 1, b => do
    let c ← b.cursor.need 1
    let room := (indent.map (· - c.column)).getD c.left
    let (_, c) ← c.takeAtMost (· == ' ') room #[]
    let widest := max b.widest c.column
    if indent.all (c.column < ·) && c.head? == some '\t' then none
    else if c.head?.any isBreak then
      let (text, c) := (← c.need 2).takeBreak
      blankLines indent fuel ⟨text :: b.breaks, widest, c⟩
    else return ⟨b.breaks, widest, c⟩

structure BlockText where
  text : Array Char
  lastBreak : List Char
  emptyLines : List Char
  /-- The last line starts with a blank, so the break after it is kept. -/
  wasIndented : Bool

def blockLines (isFolded : Bool) (indent : Nat) : (fuel : Nat) → BlockText → Cursor →
    Option (BlockText × Cursor)
  | 0, t, c => some (t, c)
  | fuel + 1, t, c =>
    match c.head? with
    | none => some (t, c)
    | some ch =>
      if c.column ≠ indent then some (t, c)
      else do
        let joins := isFolded && !t.wasIndented && !isBlank ch && t.lastBreak == ['\n']
        let between := if joins then (if t.emptyLines.isEmpty then [' '] else []) else t.lastBreak
        let (words, c) ← c.takeWhile (!isBreak ·)
        let (lastBreak, c) := (← c.need 2).takeBreak
        let b ← blankLines (some indent) (c.left + 1) ⟨[], 0, c⟩
        let text := ((t.text.appendList between).appendList t.emptyLines).appendList words
        blockLines isFolded indent fuel ⟨text, lastBreak, b.breaks.reverse.flatten, isBlank ch⟩
          b.cursor

/-- Reads a block scalar after its first character. `parent` is the indentation it stands in, or
less than zero at the top. -/
def blockScalar (isFolded : Bool) (parent : Int) (c : Cursor) : Option (List Char × Cursor) := do
  let (chomping, increment, c) ← blockHeader c
  let c ← c.skipWhile isBlank
  let c ← if c.head? == some '#' then c.skipWhile (!isBreak ·) else some c
  if !breakFollows c.rest then none
  else
    let c ← c.skipBreak
    let given := increment.map ((max parent 0).toNat + ·)
    let b ← blankLines given (c.left + 1) ⟨[], 0, c⟩
    let indent := given.getD (max b.widest (max (parent + 1) 1).toNat)
    let c ← b.cursor.need 1
    let (t, c) ← blockLines isFolded indent (c.left + 1)
      ⟨#[], [], b.breaks.reverse.flatten, false⟩ c
    let text := match chomping with
      | .strip => t.text
      | .clip => t.text.appendList t.lastBreak
      | .keep => (t.text.appendList t.lastBreak).appendList t.emptyLines
    return (text.toList, c)

end ExprCalc.Yaml
