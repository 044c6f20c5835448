import ExprCalc.Token.Basic
import ExprCalc.Value

namespace ExprCalc

inductive Expr where
  /-- A node that is not there, in a tree that is not finished. The parser builds none. -/
  | missing
  | literal (token : Token) (value : Value)
  | unary (op : Token) (operand : Expr)
  | binary (left : Expr) (op : Token) (right : Expr)

namespace Expr

def token? : Expr → Option Token
  | missing => none
  | literal token _ => some token
  | unary op _ => some op
  | binary _ op _ => some op

def children : Expr → List Expr
  | missing => []
  | literal _ _ => []
  | unary _ operand => [operand]
  | binary left _ right => [left, right]

/-- Rebuilds a node from what `f` makes of its children, taken from left to right. -/
def mapChildrenM {m : Type → Type} [Monad m] (f : Expr → m Expr) : Expr → m Expr
  | missing => pure missing
  | literal token value => pure (literal token value)
  | unary op operand => return unary op (← f operand)
  | binary left op right => do
    let left ← f left
    let right ← f right
    return binary left op right

def postfixOnto : Expr → List Expr → List Expr
  | missing, rest => missing :: rest
  | literal token value, rest => literal token value :: rest
  | unary op operand, rest => operand.postfixOnto (unary op operand :: rest)
  | binary left op right, rest =>
    left.postfixOnto (right.postfixOnto (binary left op right :: rest))

/-- A node and all nodes below it; every node comes after its children, which come from left to
right. -/
def nodes (e : Expr) : List Expr :=
  e.postfixOnto []

/-- The number of nodes on the longest path from the root to a leaf. -/
def height : Expr → Nat
  | missing => 0
  | literal _ _ => 1
  | unary _ operand => operand.height + 1
  | binary left _ right => max left.height right.height + 1

def isComplete : Expr → Bool
  | missing => false
  | literal _ _ => true
  | unary _ operand => operand.isComplete
  | binary left _ right => left.isComplete && right.isComplete

/-- An element of a list after a space; an empty one takes its space with it. -/
def spaced (t : Text) : Text :=
  if t.isEmpty then [] else utf8 " " ++ t

/-- The elements of a list: all but the first are spaced. -/
def elements : List Text → Text
  | [] => []
  | t :: ts => t ++ ts.flatMap spaced

def parenthesized (name : String) (ts : List Text) : Text :=
  utf8 "(" ++ utf8 name ++ spaced (elements ts) ++ utf8 ")"

def textOnto : Expr → Text → Text
  -- as messages write a node that is not there; it has no text of its own
  | missing, rest => utf8 "<nil>" ++ rest
  | literal _ value, rest => utf8 "(literal " ++ value.text ++ utf8 ")" ++ rest
  | unary op operand, rest =>
    utf8 "(unary " ++ op.lexeme ++ utf8 " " ++ operand.textOnto (utf8 ")" ++ rest)
  | binary left op right, rest =>
    utf8 "(binary " ++
      left.textOnto (spaced op.lexeme ++ utf8 " " ++ right.textOnto (utf8 ")" ++ rest))

/-- The text of a tree: every node is a parenthesized list of its name and its elements. -/
def text (e : Expr) : Text :=
  e.textOnto []

theorem textOnto_eq (e : Expr) (rest : Text) : e.textOnto rest = e.text ++ rest := by
  induction e generalizing rest with
  | missing | literal => simp [text, textOnto]
  | unary op operand ih =>
    rw [text, textOnto, textOnto, ih, ih (utf8 ")" ++ [])]
    simp
  | binary left op right ihl ihr =>
    rw [text, textOnto, textOnto, ihl, ihr, ihl (_ ++ _ ++ _), ihr (utf8 ")" ++ [])]
    simp

theorem text_ne_nil (e : Expr) : e.text ≠ [] := by
  cases e <;> simp [text, textOnto, utf8, Rune.encode]

theorem text_unary (op : Token) (operand : Expr) :
    (unary op operand).text = parenthesized "unary" [op.lexeme, operand.text] := by
  have h := operand.text_ne_nil
  rw [text, textOnto, textOnto_eq]
  simp [parenthesized, elements, spaced, h, utf8, Rune.encode]

theorem text_binary (left : Expr) (op : Token) (right : Expr) :
    (binary left op right).text =
      parenthesized "binary" [left.text, op.lexeme, right.text] := by
  have hl := left.text_ne_nil
  have hr := right.text_ne_nil
  rw [text, textOnto, textOnto_eq, textOnto_eq]
  simp [parenthesized, elements, spaced, hl, hr, utf8, Rune.encode]

end Expr

end ExprCalc
