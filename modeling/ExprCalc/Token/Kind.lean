import ExprCalc.Text.Basic

namespace ExprCalc

inductive Kind where
  | eof
  | leftParen
  | rightParen
  | leftBrace
  | rightBrace
  | comma
  | dot
  | minus
  | plus
  | semicolon
  | slash
  | star
  | bang
  | bangEqual
  | equal
  | equalEqual
  | greater
  | greaterEqual
  | less
  | lessEqual
  | identifier
  | string
  | number
  | andWord
  | classWord
  | defWord
  | elseWord
  | falseWord
  | forWord
  | funWord
  | ifWord
  | nilWord
  | orWord
  | printWord
  | returnWord
  | superWord
  | thisWord
  | trueWord
  | varWord
  | whileWord
  | unknown (code : Int64)
deriving DecidableEq

namespace Kind

def named : List (Kind × String) :=
  [(eof, "EOF"), (leftParen, "LEFTPAREN"), (rightParen, "RIGHTPAREN"), (leftBrace, "LEFTBRACE"),
   (rightBrace, "RIGHTBRACE"), (comma, "COMMA"), (dot, "DOT"), (minus, "MINUS"), (plus, "PLUS"),
   (semicolon, "SEMICOLON"), (slash, "SLASH"), (star, "STAR"), (bang, "BANG"),
   (bangEqual, "BANGEQUAL"), (equal, "EQUAL"), (equalEqual, "EQUALEQUAL"), (greater, "GREATER"),
   (greaterEqual, "GREATEREQUAL"), (less, "LESS"), (lessEqual, "LESSEQUAL"),
   (identifier, "IDENT"), (string, "STRING"), (number, "NUMBER"), (andWord, "AND"),
   (classWord, "CLASS"), (defWord, "DEF"), (elseWord, "ELSE"), (falseWord, "FALSE"),
   (forWord, "FOR"), (funWord, "FUN"), (ifWord, "IF"), (nilWord, "NIL"), (orWord, "OR"),
   (printWord, "PRINT"), (returnWord, "RETURN"), (superWord, "SUPER"), (thisWord, "THIS"),
   (trueWord, "TRUE"), (varWord, "VAR"), (whileWord, "WHILE")]

def ofCode (code : Int64) : Kind :=
  if 0 ≤ code then
    match named[code.toInt.toNat]? with
    | some (kind, _) => kind
    | none => unknown code
  else unknown code

def name : Kind → Text
  | unknown code => utf8 "Kind(" ++ Text.ofInt code.toInt ++ utf8 ")"
  | kind => utf8 ((named.lookup kind).getD "")

def keywords : List (Text × Kind) :=
  [(utf8 "and", andWord), (utf8 "class", classWord), (utf8 "def", defWord),
   (utf8 "else", elseWord), (utf8 "false", falseWord), (utf8 "for", forWord),
   (utf8 "fun", funWord), (utf8 "if", ifWord), (utf8 "nil", nilWord), (utf8 "or", orWord),
   (utf8 "print", printWord), (utf8 "return", returnWord), (utf8 "super", superWord),
   (utf8 "this", thisWord), (utf8 "true", trueWord), (utf8 "var", varWord),
   (utf8 "while", whileWord)]

def ofWord (word : Text) : Kind :=
  (keywords.lookup word).getD identifier

def ofMark? : Char → Option Kind
  | '(' => some leftParen
  | ')' => some rightParen
  | '\x7b' => some leftBrace
  | '\x7d' => some rightBrace
  | ',' => some comma
  | '.' => some dot
  | '-' => some minus
  | '+' => some plus
  | ';' => some semicolon
  | '*' => some star
  | '/' => some slash
  | _ => none

/-- Characters that are tokens alone (first kind) or with an equals sign after them (second). -/
def ofComparison? : Char → Option (Kind × Kind)
  | '!' => some (bang, bangEqual)
  | '=' => some (equal, equalEqual)
  | '<' => some (less, lessEqual)
  | '>' => some (greater, greaterEqual)
  | _ => none

end Kind

end ExprCalc
