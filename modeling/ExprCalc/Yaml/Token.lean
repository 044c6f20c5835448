import ExprCalc.Yaml.Property
import ExprCalc.Yaml.Scalar

/-!
Tokens of a YAML document. Block structure is found by indentation: entering a deeper column opens
a collection and leaving it closes one. A scalar may turn out to be a mapping key only when the
colon after it is met, so the places where a key may have started are remembered, one for each
level of flow collections. Tokens are read when they are asked for: some are read ahead, and a
token that may be a key is held back until that is decided.
-/

namespace ExprCalc.Yaml

inductive TokenKind where
  | streamEnd
  | directive (d : Directive)
  | documentStart
  | documentEnd
  | blockSequenceStart
  | blockMappingStart
  | blockEnd
  | flowSequenceStart
  | flowSequenceEnd
  | flowMappingStart
  | flowMappingEnd
  | blockEntry
  | flowEntry
  | key
  | value
  | aliasOf (name : Text)
  | anchor (name : Text)
  | tag (handle suffix : Text)
  | scalar (style : ScalarStyle) (text : List Char)
deriving DecidableEq

structure Token where
  kind : TokenKind
  line : Nat

/-- A place where a mapping key may have started. -/
structure PossibleKey where
  required : Bool
  index : Nat
  line : Nat
  column : Nat

structure Level where
  /-- How many tokens come before the key; if there has been none yet, before the collection. -/
  number : Nat
  key : Option PossibleKey

structure Scan where
  cursor : Cursor
  queue : List Token
  taken : Nat
  indent : Int
  outerIndents : Array Int
  keyAllowed : Bool
  levels : Array Level
  /-- The numbers of tokens that are held back, each with its level. -/
  held : List (Nat × Nat)

def depthLimit : Nat := 10000

namespace Scan

def start (document : Text) : Scan :=
  { cursor := .start document, queue := [], taken := 0, indent := -1, outerIndents := #[],
    keyAllowed := true, levels := #[⟨0, none⟩], held := [] }

def inFlow (s : Scan) : Bool :=
  1 < s.levels.size

def read (s : Scan) : Nat :=
  s.taken + s.queue.length

def push (s : Scan) (kind : TokenKind) (line : Nat) : Scan :=
  { s with queue := s.queue ++ [⟨kind, line⟩] }

/-- Puts a token after the first `number` ones, or behind all if some after these have been
taken. -/
def insert (s : Scan) (number : Nat) (t : Token) : Scan :=
  if number < s.taken then { s with queue := s.queue ++ [t] }
  else
    let n := number - s.taken
    { s with queue := s.queue.take n ++ t :: s.queue.drop n }

def single (s : Scan) (kind : TokenKind) : Scan :=
  { s with cursor := s.cursor.skip }.push kind s.cursor.line

/-- Eats white space, comments and line breaks. Tabs are white space only where no key may start. -/
def skipSpace : (fuel : Nat) → Scan → Option Scan
  | 0, _ => none
  | fuel + 1, s => do
    let c ← s.cursor.need 1
    let c := if c.column == 0 && c.marked then c.skip else c
    let tabs := s.inFlow || !s.keyAllowed
    let c ← c.skipWhile fun ch => ch == ' ' || (tabs && ch == '\t')
    let c ← if c.head? = some '#' then c.skipComments (c.left + 1) else some c
    if c.head?.any isBreak then
      skipSpace fuel { s with cursor := ← c.skipBreak, keyAllowed := s.keyAllowed || !s.inFlow }
    else return { s with cursor := c }

/-- Closes block collections, at most `fuel` of them, that are deeper than `column`. -/
def closeBlocks (column : Int) : (fuel : Nat) → (closed : List Token) → Scan → Scan
  | 0, closed, s => { s with queue := s.queue ++ closed }
  | fuel + 1, closed, s =>
    if s.indent ≤ column then { s with queue := s.queue ++ closed }
    else closeBlocks column fuel (⟨.blockEnd, s.cursor.line⟩ :: closed)
      { s with indent := s.outerIndents.back?.getD (-1), outerIndents := s.outerIndents.pop }

/-- Closes the block collections that are deeper than `column`. In a flow collection indentation
means nothing. -/
def unroll (s : Scan) (column : Int) : Scan :=
  if s.inFlow then s else closeBlocks column s.outerIndents.size [] s

def roll (s : Scan) (column number line : Nat) (kind : TokenKind) : Option Scan :=
  if s.inFlow || (column : Int) ≤ s.indent then some s
  else if depthLimit ≤ s.outerIndents.size then none
  else
    let s := { s with indent := column, outerIndents := s.outerIndents.push s.indent }
    some (s.insert number ⟨kind, line⟩)

def level (s : Scan) : Level :=
  s.levels.back?.getD ⟨0, none⟩

def setLevel (s : Scan) (l : Level) : Scan :=
  { s with levels := s.levels.pop.push l }

def release (s : Scan) (number : Nat) : Scan :=
  { s with held := s.held.filter (·.1 ≠ number) }

/-- Gives up a possible key, which must not be a required one. -/
def dropKey (s : Scan) : Option Scan :=
  match s.level.key with
  | none => some s
  | some key =>
    if key.required then none
    else some ((s.setLevel ⟨s.level.number, none⟩).release s.level.number)

def saveKey (s : Scan) : Option Scan :=
  if s.keyAllowed then do
    let s ← s.dropKey
    let c := s.cursor
    let required := !s.inFlow && s.indent == c.column
    let s := s.setLevel ⟨s.read, some ⟨required, c.index, c.line, c.column⟩⟩
    return { s with held := (s.read, s.levels.size - 1) :: s.held }
  else some s

def keyReach : Nat := 1024

/-- Forgets the possible key of a level if it is too far back, or in another line. A required key
must not be. -/
def expireKey (s : Scan) (level : Nat) : Option Scan :=
  match s.levels[level]? with
  | some ⟨number, some key⟩ =>
    if key.line < s.cursor.line || key.index + keyReach < s.cursor.index then
      if key.required then none
      else some { s with levels := s.levels.setIfInBounds level ⟨number, none⟩ }
    else some s
  | _ => some s

def allowKey (s : Scan) (allowed : Bool) : Scan :=
  { s with keyAllowed := allowed }

def leaveBlocks (s : Scan) : Option Scan := do
  let s ← (s.unroll (-1)).dropKey
  return s.allowKey false

def marker (s : Scan) (kind : TokenKind) : Option Scan := do
  let s ← s.leaveBlocks
  return { s with cursor := s.cursor.advance 3 }.push kind s.cursor.line

def flowStart (s : Scan) (kind : TokenKind) : Option Scan := do
  let s ← s.saveKey
  if depthLimit < s.levels.size then none
  else return ({ s with levels := s.levels.push ⟨s.read, none⟩ }.allowKey true).single kind

def flowEnd (s : Scan) (kind : TokenKind) : Option Scan := do
  let s ← s.dropKey
  let s := if s.inFlow then { s.release s.level.number with levels := s.levels.pop } else s
  return (s.allowKey false).single kind

def flowEntry (s : Scan) : Option Scan := do
  let s ← s.dropKey
  return (s.allowKey true).single .flowEntry

def explicit (s : Scan) (collection kind : TokenKind) (keyAfter : Bool) : Option Scan := do
  if !s.inFlow && !s.keyAllowed then none
  else
    let s ← s.roll s.cursor.column s.read s.cursor.line collection
    let s ← s.dropKey
    return (s.allowKey keyAfter).single kind

/-- A colon before a value: after a possible key, that becomes a key. -/
def mappingValue (s : Scan) : Option Scan := do
  let s ← s.expireKey (s.levels.size - 1)
  let number := s.level.number
  match s.level.key with
  | some key =>
    let s ← (s.insert number ⟨.key, key.line⟩).roll key.column number key.line .blockMappingStart
    let s := (s.setLevel ⟨number, none⟩).release number
    return (s.allowKey false).single .value
  | none =>
    if s.inFlow then return (s.allowKey false).single .value
    else if s.keyAllowed then
      let s ← s.roll s.cursor.column s.read s.cursor.line .blockMappingStart
      return (s.allowKey true).single .value
    else none

def keyed (s : Scan) (read : Cursor → Option (TokenKind × Cursor)) : Option Scan := do
  let s ← s.saveKey
  let (kind, c) ← read s.cursor
  return ({ s with cursor := c }.allowKey false).push kind s.cursor.line

def named (s : Scan) (kind : Text → TokenKind) : Option Scan :=
  s.keyed fun c => (anchorName c).map fun (name, c) => (kind name, c)

def tag (s : Scan) : Option Scan :=
  s.keyed fun c => (Yaml.tag c).map fun (handle, suffix, c) => (.tag handle suffix, c)

def quoted (s : Scan) (single : Bool) : Option Scan :=
  let style := if single then .singleQuoted else .doubleQuoted
  s.keyed fun c => (quotedScalar single (c.left + 1) #[] c.skip).map fun (text, c) =>
    (.scalar style text, c)

def plain (s : Scan) : Option Scan := do
  let s ← s.saveKey
  let c := s.cursor
  let (text, broken, c) ← plainScalar s.inFlow (s.indent + 1).toNat (c.left + 1) #[] .empty c
  return { s with cursor := c, keyAllowed := broken }.push (.scalar .plain text) s.cursor.line

def block (s : Scan) (isFolded : Bool) : Option Scan := do
  let s ← s.dropKey
  let (text, c) ← blockScalar isFolded s.indent s.cursor.skip
  let style := if isFolded then .folded else .literal
  return ({ s with cursor := c }.allowKey true).push (.scalar style text) s.cursor.line

def directive (s : Scan) : Option Scan := do
  let s ← s.leaveBlocks
  let (d, c) ← Yaml.directive s.cursor
  return { s with cursor := c }.push (.directive d) s.cursor.line

def indicators : List Char :=
  ['-', '?', ':', ',', '[', ']', '\x7b', '\x7d', '#', '&', '*', '!', '|', '>', '\x27', '\x22', '%',
   '@', '\x60']

def token (s : Scan) (ch : Char) (rest : List Char) : Option Scan :=
  let ends := blankFollows rest
  if ch == '[' then s.flowStart .flowSequenceStart
  else if ch == '\x7b' then s.flowStart .flowMappingStart
  else if ch == ']' then s.flowEnd .flowSequenceEnd
  else if ch == '\x7d' then s.flowEnd .flowMappingEnd
  else if ch == ',' then s.flowEntry
  else if ch == '-' && ends then s.explicit .blockSequenceStart .blockEntry true
  else if ch == '?' && (s.inFlow || ends) then s.explicit .blockMappingStart .key !s.inFlow
  else if ch == ':' && (s.inFlow || ends) then s.mappingValue
  else if ch == '*' then s.named .aliasOf
  else if ch == '&' then s.named .anchor
  else if ch == '!' then s.tag
  else if ch == '|' && !s.inFlow then s.block false
  else if ch == '>' && !s.inFlow then s.block true
  else if ch == '\x27' then s.quoted true
  else if ch == '\x22' then s.quoted false
  else if !(isBlank ch || indicators.contains ch) || (ch == '-' && !(rest.head?.any isBlank)) ||
      (!s.inFlow && (ch == '?' || ch == ':') && !ends) then s.plain
  else none

def finish (s : Scan) : Option Scan := do
  let c := s.cursor
  let c := if c.column = 0 then c else { c with column := 0, line := c.line + 1 }
  let s ← { s with cursor := c }.leaveBlocks
  return s.push .streamEnd c.line

def readToken (s : Scan) : Option Scan := do
  let s ← s.skipSpace (s.cursor.left + 2)
  let s := s.unroll s.cursor.column
  let c ← s.cursor.need 4
  let s := { s with cursor := c }
  match c.rest with
  | [] => s.finish
  | ch :: rest =>
    if c.column = 0 ∧ ch = '%' then s.directive
    else if c.atMarker '-' then s.marker .documentStart
    else if c.atMarker '.' then s.marker .documentEnd
    else
      let s ← s.token ch rest
      if (s.queue.getLast?.map (·.kind)) = some .blockEntry then return s
      else return { s with cursor := ← s.cursor.skipLineComment }

def holdsFirst (s : Scan) : Option (Bool × Scan) :=
  match s.held.lookup s.taken with
  | none => some (false, s)
  | some level => do
    let s ← s.expireKey level
    return (((s.levels[level]?).bind (·.key)).isSome, s)

/-- Reads on until there are three tokens, and the first of them is not held back. -/
def fill : (fuel : Nat) → Scan → Option Scan
  | 0, _ => none
  | fuel + 1, s =>
    match s.queue with
    | _ :: _ :: _ :: _ =>
      match s.holdsFirst with
      | none => none
      | some (false, s) => some s
      | some (true, s) => do fill fuel (← s.readToken)
    | _ => do fill fuel (← s.readToken)

def peek (s : Scan) : Option (Token × Scan) := do
  let s ← s.fill (s.cursor.left + 8)
  return (← s.queue.head?, s)

def drop (s : Scan) : Scan :=
  { s.release s.taken with queue := s.queue.drop 1, taken := s.taken + 1 }

end Scan

end ExprCalc.Yaml
