import ExprCalc.Expr.Eval
import ExprCalc.Token.Listing

namespace ExprCalc

structure Tracing where
  tokens : Bool
  tree : Bool

namespace Run

structure Recording where
  scanner : Scanner
  taken : List Token

namespace Recording

def start (source : Text) : Recording :=
  ⟨.ofText source, []⟩

def next (r : Recording) : ScanItem × Recording :=
  match r.scanner.next with
  | (.ok t, s) => (.ok t, ⟨s, t :: r.taken⟩)
  | (.error e, s) => (.error e, ⟨s, r.taken⟩)

def source : TokenSource Recording ScanError := ⟨next⟩

end Recording

structure Outcome (α : Type) where
  result : Except Failure α
  trace : Text

/-- A scan error joined by those in the input after it. -/
def withLaterErrors (e : ScanError) (s : Scanner) : Failure :=
  (s.items.filterMap ScanItem.error?).foldl (fun f e => .join (some f) (.scan e)) (.scan e)

/-- The failure of a run that stopped with the scanner in the given state. -/
def failure (stop : Parser.Stop ScanError) (s : Scanner) : Failure :=
  match stop with
  | .source e => .during (utf8 "lex") (withLaterErrors e s)
  | .syntax_ e => .during (utf8 "parse") (.ofSyntax e)

def tokenTrace (ts : List Token) : Text :=
  ts.flatMap fun t => Text.line t.text

def nodeTrace (e : Expr) : Text :=
  match e.token? with
  | some t => Text.line (utf8 "\t" ++ t.position.text ++ utf8 " " ++ t.lexeme)
  | none => []

def treeTrace (e : Expr) : Text :=
  e.textOnto (10 :: e.nodes.flatMap nodeTrace)

def parse (tracing : Tracing) (source : Text) : Outcome Expr :=
  let (parsed, c) := Parser.parse Recording.source (.start (.start source))
  let read := if tracing.tokens then tokenTrace c.rest.taken.reverse else []
  match parsed with
  | .ok e => ⟨.ok e, read ++ if tracing.tree then treeTrace e else []⟩
  | .error stop => ⟨.error (failure stop c.rest.scanner), read⟩

def evaluate (tracing : Tracing) (source : Text) : Outcome Value :=
  let parsed := parse tracing source
  match parsed.result with
  | .error f => ⟨.error f, parsed.trace⟩
  | .ok e => ⟨e.eval.mapError fun err => .during (utf8 "eval") err.toFailure, parsed.trace⟩

end Run

end ExprCalc
