import ExprCalc.Text.Quoted
import ExprCalc.Number.Print

namespace ExprCalc

inductive ValueKind where
  | nil
  | number
  | string
  | boolean
  | unknown (code : Int64)
deriving DecidableEq

namespace ValueKind

def ofCode (code : Int64) : ValueKind :=
  if code = 0 then nil
  else if code = 1 then number
  else if code = 2 then string
  else if code = 3 then boolean
  else unknown code

def name : ValueKind → Text
  | nil => utf8 "Nil"
  | number => utf8 "Number"
  | string => utf8 "String"
  | boolean => utf8 "Boolean"
  | unknown code => utf8 "Kind(" ++ Text.ofInt code.toInt ++ utf8 ")"

end ValueKind

inductive Value where
  | nil
  | number (x : Float)
  | string (t : Text)
  | boolean (b : Bool)

namespace Value

def kind : Value → ValueKind
  | nil => .nil
  | number _ => .number
  | string _ => .string
  | boolean _ => .boolean

def text : Value → Text
  | nil => utf8 "nil"
  | number x => Number.text x
  | string t => t.quoted
  | boolean b => utf8 (if b then "true" else "false")

/-- Values of one kind are equal when their payloads are; numbers compare as floating-point
numbers do, so not-a-number differs from itself. Values of two kinds never are. -/
def equal : Value → Value → Bool
  | nil, nil => true
  | number x, number y => x == y
  | string s, string t => s == t
  | boolean a, boolean b => a == b
  | _, _ => false

end Value

end ExprCalc
