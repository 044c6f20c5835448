import ExprCalc.Failure

namespace ExprCalc

inductive EvalError where
  | type (e : TypeError)
  | missingNode

def EvalError.toFailure : EvalError → Failure
  | type e => .ofType e
  | missingNode => .missingNode

namespace Expr

def refuse (op : Token) (operands : List Value) : Except EvalError Value :=
  .error (.type ⟨op, operands.map Value.kind⟩)

def applyUnary (op : Token) (operand : Value) : Except EvalError Value :=
  match op.kind, operand with
  | .minus, .number x => .ok (.number (-x))
  | .bang, .boolean b => .ok (.boolean !b)
  | _, _ => refuse op [operand]

/-- Arithmetic is that of floating-point numbers; division by zero gives an infinity or
not-a-number. -/
def arithmetic? : Kind → Option (Float → Float → Float)
  | .plus => some (· + ·)
  | .minus => some (· - ·)
  | .star => some (· * ·)
  | .slash => some (· / ·)
  | _ => none

def numberOrder? : Kind → Option (Float → Float → Bool)
  | .greater => some fun x y => y < x
  | .greaterEqual => some fun x y => y ≤ x
  | .less => some fun x y => x < y
  | .lessEqual => some fun x y => x ≤ y
  | _ => none

/-- The ordering an operator stands for, on strings, which compare byte by byte. -/
def stringOrder? : Kind → Option (Text → Text → Bool)
  | .greater => some fun s t => t < s
  | .greaterEqual => some fun s t => t ≤ s
  | .less => some fun s t => s < t
  | .lessEqual => some fun s t => s ≤ t
  | _ => none

def applyBinary (op : Token) (left right : Value) : Except EvalError Value :=
  match op.kind with
  | .equalEqual => .ok (.boolean (left.equal right))
  | .bangEqual => .ok (.boolean !left.equal right)
  | kind =>
    match left, right with
    | .number x, .number y =>
      match arithmetic? kind, numberOrder? kind with
      | some f, _ => .ok (.number (f x y))
      | none, some r => .ok (.boolean (r x y))
      | none, none => refuse op [left, right]
    | .string s, .string t =>
      match stringOrder? kind with
      | some r => .ok (.boolean (r s t))
      | none => refuse op [left, right]
    | _, _ => refuse op [left, right]

def eval : Expr → Except EvalError Value
  | missing => .error .missingNode
  | literal _ value => .ok value
  | unary op operand => do
    let x ← operand.eval
    applyUnary op x
  | binary left op right => do
    let x ← left.eval
    let y ← right.eval
    applyBinary op x y

end Expr

end ExprCalc
