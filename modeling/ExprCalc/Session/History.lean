import ExprCalc.Text.Lines
import ExprCalc.Text.Quoted

namespace ExprCalc

abbrev History := List Text

namespace History

def limit : Nat := 1000

/-- Adds a line and forgets the oldest if there are too many. -/
def add (h : History) (line : Text) : History :=
  let h := h ++ [line]
  if limit < h.length then h.drop 1 else h

/-- Adds a line that was entered, unless it repeats the one before it. -/
def remember (h : History) (line : Text) : History :=
  if h.getLast? = some line then h else h.add line

inductive Fault where
  | tooLong (line : Nat)
  | notText (line : Nat)

def Fault.message : Fault → Text
  | tooLong line => utf8 "line " ++ Text.ofNat line ++ utf8 " is too long"
  | notText line => utf8 "invalid string at line " ++ Text.ofNat line

/-- Reads the lines of a history file, up to the first one that is too long or is not UTF-8;
`number` is the number of the next line. -/
def readLines (h : History) (number : Nat) : List Text.LinePiece → History × Option Fault
  | [] => (h, none)
  | line :: rest =>
    if line.goesOn then (h, some (.tooLong number))
    else if !line.text.isUtf8 then (h, some (.notText number))
    else readLines (h.add line.text) (number + 1) rest

def ofText (content : Text) : History × Option Fault :=
  readLines [] 1 content.pieces

def text (h : History) : Text :=
  h.flatMap Text.line

end History

end ExprCalc
