import ExprCalc.Text.Quoted
import ExprCalc.Number.Read
import ExprCalc.Expr.Basic

/-!
A recursive-descent parser with one token of lookahead.

    equality   = comparison (("!=" | "==") comparison)*
    comparison = term ((">" | ">=" | "<" | "<=") term)*
    term       = factor (("+" | "-") factor)*
    factor     = unary (("/" | "*") unary)*
    unary      = ("!" | "-") unary | primary
    primary    = NUMBER | STRING | "true" | "false" | "nil" | "(" equality ")"

Nesting of parentheses and unary operators, and the height of the tree, are limited. The parser
asks its source for a token only when it has to look at it, so it works on endless sources too.
-/

namespace ExprCalc

/-- A token that no rule accepts where it stands, or one found in place of a required kind. -/
inductive SyntaxError where
  | unexpected (found : Token)
  | expected (kind : Kind) (found : Token)

def SyntaxError.found : SyntaxError → Token
  | unexpected found => found
  | expected _ found => found

/-- A stream of tokens with states `σ`; asking for a token may fail with an `ε`. -/
structure TokenSource (σ ε : Type) where
  next : σ → Except ε Token × σ

namespace Parser

/-- The lookahead token, if one has been read and not used up, and the state of the source. -/
structure Cursor (σ : Type) where
  held : Option Token
  rest : σ

/-- Why parsing stops: a failure of the source, or a syntax error. -/
inductive Stop (ε : Type) where
  | source (e : ε)
  | syntax_ (e : SyntaxError)

structure Tree where
  expr : Expr
  height : Nat

variable {σ ε : Type}

abbrev Step (σ ε α : Type) := EStateM (Stop ε) (Cursor σ) α

def unexpected {α : Type} (found : Token) : Step σ ε α :=
  throw (.syntax_ (.unexpected found))

def peek (src : TokenSource σ ε) : Step σ ε Token := fun c =>
  match c.held with
  | some t => .ok t c
  | none =>
    match src.next c.rest with
    | (.ok t, rest) => .ok t ⟨some t, rest⟩
    | (.error e, rest) => .error (.source e) ⟨none, rest⟩

/-- Uses up the lookahead token. The end token stays, so the source is never asked past it. -/
def advance (t : Token) : Step σ ε Unit := fun c =>
  if t.kind = .eof then .ok () c else .ok () ⟨none, c.rest⟩

/-- Uses up the lookahead token if its kind is one of `kinds`; in any case gives the token. -/
def accept (src : TokenSource σ ε) (kinds : List Kind) : Step σ ε (Token × Bool) := do
  let t ← peek src
  if t.kind ≠ .eof ∧ kinds.contains t.kind then
    advance t
    return (t, true)
  else return (t, false)

/-- Continues a left-leaning chain of binary operators after its first operands, `left`. Every
round makes the tree higher, and the height is limited. -/
def chainFrom (src : TokenSource σ ε) (limit : Nat) (kinds : List Kind) (operand : Step σ ε Tree)
    (left : Tree) : Step σ ε Tree := do
  let (op, found) ← accept src kinds
  if found then
    let right ← operand
    if _h : max left.height right.height + 1 ≤ limit then
      chainFrom src limit kinds operand
        ⟨.binary left.expr op right.expr, max left.height right.height + 1⟩
    else unexpected op
  else return left
termination_by limit - left.height

/-- Operands with operators of the given kinds between them. -/
def chain (src : TokenSource σ ε) (limit : Nat) (kinds : List Kind) (operand : Step σ ε Tree) :
    Step σ ε Tree := do
  let first ← operand
  chainFrom src limit kinds operand first

/-- The four levels of binary operators over the given operands. -/
def equality (src : TokenSource σ ε) (limit : Nat) (operand : Step σ ε Tree) : Step σ ε Tree :=
  chain src limit [.bangEqual, .equalEqual] <|
  chain src limit [.greater, .greaterEqual, .less, .lessEqual] <|
  chain src limit [.plus, .minus] <|
  chain src limit [.slash, .star] operand

/-- The value of a number or string token: its payload if that fits, or else what its lexeme
says. -/
def literalValue? (t : Token) : Option Value :=
  if t.kind = .string then
    match t.payload with
    | some (.string s) => some (.string s)
    | _ => t.lexeme.unquoted?.map .string
  else
    match t.payload with
    | some (.number x) => some (.number x)
    | _ => (Number.read? t.lexeme).map .number

/-- A literal, or what `inner` finds between parentheses. -/
def primary (src : TokenSource σ ε) (inner : Step σ ε Tree) : Step σ ε Tree := do
  let t ← peek src
  match t.kind with
  | .number | .string =>
    advance t
    match literalValue? t with
    | some v => return ⟨.literal t v, 1⟩
    | none => unexpected t
  | .trueWord =>
    advance t
    return ⟨.literal t (.boolean true), 1⟩
  | .falseWord =>
    advance t
    return ⟨.literal t (.boolean false), 1⟩
  | .nilWord =>
    advance t
    return ⟨.literal t .nil, 1⟩
  | .leftParen =>
    advance t
    let tree ← inner
    let (close, found) ← accept src [.rightParen]
    if found then return tree else throw (.syntax_ (.expected .rightParen close))
  | _ => unexpected t

/-- Unary operators before an operand. There is room for `room` nested unary operators and
parentheses. -/
def unary (src : TokenSource σ ε) (limit : Nat) : (room : Nat) → Step σ ε Tree
  | 0 => do
    let (t, _) ← accept src [.bang, .minus]
    unexpected t
  | room + 1 => do
    let (op, found) ← accept src [.bang, .minus]
    if found then
      let operand ← unary src limit room
      if operand.height + 1 ≤ limit then
        return ⟨.unary op operand.expr, operand.height + 1⟩
      else unexpected op
    else primary src (equality src limit (unary src limit room))

/-- An expression and the end of the source after it. -/
def whole (src : TokenSource σ ε) (limit : Nat) : Step σ ε Expr := do
  let tree ← equality src limit (unary src limit limit)
  let t ← peek src
  if t.kind = .eof then return tree.expr else unexpected t

def maxDepth : Nat := 10000

def Cursor.start (rest : σ) : Cursor σ := ⟨none, rest⟩

/-- Parses one expression that spans what is left of the source. The cursor that comes back can be
used for another call. -/
def parse (src : TokenSource σ ε) (c : Cursor σ) : Except (Stop ε) Expr × Cursor σ :=
  match whole src maxDepth c with
  | .ok e c => (.ok e, c)
  | .error stop c => (.error stop, c)

end Parser

structure TokenList where
  rest : List Token
  finish : Position

namespace TokenList

/-- The end token of a list stands right after its last token. -/
def ofList (tokens : List Token) : TokenList :=
  ⟨tokens, (tokens.getLast?.map Token.next).getD .start⟩

def next (l : TokenList) : Except Empty Token × TokenList :=
  match l.rest with
  | [] => (.ok (.eof l.finish), l)
  | t :: ts => (.ok t, ⟨ts, l.finish⟩)

def source : TokenSource TokenList Empty := ⟨next⟩

end TokenList

end ExprCalc
