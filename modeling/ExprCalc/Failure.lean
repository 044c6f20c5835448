import ExprCalc.Token.Scanner
import ExprCalc.Expr.Parser
import ExprCalc.File.Disk

namespace ExprCalc

structure TypeError where
  op : Token
  operands : List ValueKind

inductive Failure where
  | scan (e : ScanError)
  | syntax_ (e : SyntaxError)
  | type (e : TypeError)
  | missingNode
  /-- A document whose text is no well-formed YAML, and what its reader says of it. -/
  | malformedDocument (problem : Text)
  /-- A document with values that do not fit where they stand, one line for each. -/
  | mistypedDocument (problems : List Text)
  | file (e : FileError)
  | plain (message : Text)
  | located (token : Token) (cause : Failure)
  | during (activity : Text) (cause : Failure)
  | joined (parts : List Failure)

namespace ScanError

def position : ScanError → Position
  | unterminatedString p => p
  | unrecognizedCharacter _ p => p

def message : ScanError → Text
  | unterminatedString p => utf8 "at " ++ p.text ++ utf8 ": unterminated string"
  | unrecognizedCharacter code p =>
    utf8 "at " ++ p.text ++ utf8 ": unrecognized character " ++ Text.quotedChar code

end ScanError

def SyntaxError.message : SyntaxError → Text
  | unexpected found =>
    if found.kind = .eof then utf8 "unexpected end of input"
    else utf8 "unexpected token: " ++ found.kind.name
  | expected kind found =>
    utf8 "expected " ++ kind.name ++ utf8 ", found " ++ found.kind.name

namespace TypeError

def wanted : Kind → String
  | .bang => "Boolean"
  | .greater | .greaterEqual | .less | .lessEqual => "two Numbers or two Strings"
  | _ => "Number"

def message (e : TypeError) : Text :=
  let op := utf8 "`" ++ e.op.lexeme ++ utf8 "`"
  match e.operands with
  | [] => utf8 "invalid operands of " ++ op
  | [kind] =>
    utf8 "operand of " ++ op ++ utf8 " must be " ++ utf8 (wanted e.op.kind) ++ utf8 ", got " ++
      kind.name
  | left :: right :: _ =>
    utf8 "operands of " ++ op ++ utf8 " must be " ++ utf8 (wanted e.op.kind) ++ utf8 ", got " ++
      left.name ++ utf8 " and " ++ right.name

end TypeError

namespace Failure

/-- Where a token stands, as it introduces a message. -/
def place (t : Token) : Text :=
  if t.kind = .eof then utf8 "at end: "
  else utf8 "at " ++ t.position.text ++ utf8 ": `" ++ t.lexeme ++ utf8 "`, "

mutual

def messageOnto : Failure → Text → Text
  | scan e, rest => e.message ++ rest
  | syntax_ e, rest => e.message ++ rest
  | type e, rest => e.message ++ rest
  | missingNode, rest => utf8 "unexpected node: <nil>" ++ rest
  | malformedDocument problem, rest => problem ++ rest
  | mistypedDocument problems, rest =>
    utf8 "yaml: unmarshal errors:" ++ problems.flatMap (utf8 "\n  " ++ ·) ++ rest
  | file e, rest => e.message ++ rest
  | plain message, rest => message ++ rest
  | located token cause, rest => place token ++ messageOnto cause rest
  | during activity cause, rest => activity ++ utf8 ": " ++ messageOnto cause rest
  | joined parts, rest => messagesOnto parts rest

def messagesOnto : List Failure → Text → Text
  | [], rest => rest
  | [part], rest => messageOnto part rest
  | part :: parts, rest => messageOnto part (10 :: messagesOnto parts rest)

end

def message (f : Failure) : Text :=
  f.messageOnto []

def join (before : Option Failure) (f : Failure) : Failure :=
  joined (before.toList ++ [f])

/-- Joins failures one after the other, the first one to nothing. -/
def joinAll (fs : List Failure) : Option Failure :=
  fs.foldl (fun before f => some (join before f)) none

/-- The parts of the joined failure that lies under activities and places, if there is one. -/
def parts? : Failure → Option (List Failure)
  | located _ cause => cause.parts?
  | during _ cause => cause.parts?
  | joined parts => some parts
  | _ => none

/-- What is shown to a user: a line for the failure, or a line for each part of a joined one. -/
def report (f : Failure) : Text :=
  (f.parts?.getD [f]).flatMap fun part => Text.line (utf8 "Error: " ++ part.message)

def ofSyntax (e : SyntaxError) : Failure :=
  located e.found (syntax_ e)

def ofType (e : TypeError) : Failure :=
  located e.op (type e)

end Failure

end ExprCalc
