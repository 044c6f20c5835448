import ExprCalc.Text.Quoted
import ExprCalc.Number.Print
import ExprCalc.Token.Kind

namespace ExprCalc

/-- A place in a source; both numbers count from one. -/
structure Position where
  line : Int64
  column : Int64
deriving DecidableEq

namespace Position

def start : Position := ⟨1, 1⟩

/-- The place after a rune: a line feed starts a line, anything else takes one column. -/
def after (p : Position) (r : Rune) : Position :=
  if r = .char '\n' then ⟨p.line + 1, 1⟩ else ⟨p.line, p.column + 1⟩

def afterAll (p : Position) (rs : List Rune) : Position :=
  rs.foldl after p

def text (p : Position) : Text :=
  Text.ofInt p.line.toInt ++ utf8 ":" ++ Text.ofInt p.column.toInt

end Position

inductive Payload where
  | number (x : Float)
  | string (t : Text)
  | boolean (b : Bool)

/-- The payload as a token shows it. Strings are not quoted. -/
def Payload.text : Payload → Text
  | number x => Number.text x
  | string t => t
  | boolean b => utf8 (if b then "true" else "false")

structure Token where
  kind : Kind
  lexeme : Text
  position : Position
  payload : Option Payload

namespace Token

def text (t : Token) : Text :=
  utf8 "\x7b" ++ t.kind.name ++ utf8 ", " ++ t.lexeme.quoted ++ utf8 ", " ++ t.position.text ++
    utf8 ", " ++ (t.payload.elim (utf8 "<nil>") Payload.text) ++ utf8 "\x7d"

def eof (p : Position) : Token :=
  ⟨.eof, [], p, none⟩

/-- The place right after a token that stands on one line. -/
def next (t : Token) : Position :=
  ⟨t.position.line, t.position.column + Int64.ofNat t.lexeme.runes.length⟩

end Token

end ExprCalc
