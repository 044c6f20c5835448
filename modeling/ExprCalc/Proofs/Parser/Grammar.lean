import ExprCalc.Expr.Parser

namespace ExprCalc.Grammar

inductive Level where
  | equality
  | comparison
  | term
  | factor
deriving DecidableEq

inductive Phrase where
  | level (l : Level)
  | unary
  | primary
deriving DecidableEq

namespace Level

def operators : Level → List Kind
  | equality => [.bangEqual, .equalEqual]
  | comparison => [.greater, .greaterEqual, .less, .lessEqual]
  | term => [.plus, .minus]
  | factor => [.slash, .star]

def operand : Level → Phrase
  | equality => .level comparison
  | comparison => .level term
  | term => .level factor
  | factor => .unary

end Level

def literal? (t : Token) : Option Value :=
  match t.kind with
  | .number | .string => Parser.literalValue? t
  | .trueWord => some (.boolean true)
  | .falseWord => some (.boolean false)
  | .nilWord => some .nil
  | _ => none

/-- `Derives r ts e n`: the phrase `r` derives the tokens `ts` with the tree `e`, and `n` is the
largest number of parentheses and unary operators around one of its literals. -/
inductive Derives : Phrase → List Token → Expr → Nat → Prop
  | literal {t : Token} {v : Value} (value : literal? t = some v) :
      Derives .primary [t] (.literal t v) 0
  | group {left right : Token} {ts : List Token} {e : Expr} {n : Nat}
      (hleft : left.kind = .leftParen) (hright : right.kind = .rightParen)
      (inner : Derives (.level .equality) ts e n) :
      Derives .primary (left :: (ts ++ [right])) e (n + 1)
  | primary {ts : List Token} {e : Expr} {n : Nat} (h : Derives .primary ts e n) :
      Derives .unary ts e n
  | unary {op : Token} {ts : List Token} {e : Expr} {n : Nat}
      (hop : op.kind ∈ [Kind.bang, .minus]) (operand : Derives .unary ts e n) :
      Derives .unary (op :: ts) (.unary op e) (n + 1)
  | operand {l : Level} {ts : List Token} {e : Expr} {n : Nat} (h : Derives l.operand ts e n) :
      Derives (.level l) ts e n
  | binary {l : Level} {op : Token} {ts us : List Token} {left right : Expr} {m n : Nat}
      (hop : op.kind ∈ l.operators) (hleft : Derives (.level l) ts left m)
      (hright : Derives l.operand us right n) :
      Derives (.level l) (ts ++ op :: us) (.binary left op right) (max m n)

/-- The levels of the operators that a phrase may hold outside parentheses. -/
def Phrase.levels : Phrase → List Level
  | level .equality => [.equality, .comparison, .term, .factor]
  | level .comparison => [.comparison, .term, .factor]
  | level .term => [.term, .factor]
  | level .factor => [.factor]
  | unary | primary => []

/-- The operators that would make a phrase longer if they came after it. -/
def Phrase.continuing (r : Phrase) : List Kind :=
  r.levels.flatMap Level.operators

theorem continuing_level (l : Level) :
    (Phrase.level l).continuing = l.operators ++ l.operand.continuing := by
  cases l <;> rfl

theorem not_mem_continuing_operand {l : Level} {k : Kind} (hk : k ∈ l.operators) :
    k ∉ l.operand.continuing := by
  cases l <;> simp only [Level.operators, List.mem_cons, List.not_mem_nil, or_false] at hk <;>
    rcases hk with rfl | rfl | rfl | rfl <;> decide

theorem primary_first {ts : List Token} {e : Expr} {n : Nat} (h : Derives .primary ts e n) :
    ∃ t us, ts = t :: us ∧ t.kind ∉ [Kind.bang, .minus] := by
  cases h with
  | @literal t v value =>
    refine ⟨t, [], rfl, ?_⟩
    simp only [List.mem_cons, List.not_mem_nil, or_false]
    rintro (hk | hk) <;> simp [literal?, hk] at value
  | @group left right ts e n hleft hright inner =>
    refine ⟨left, ts ++ [right], rfl, ?_⟩
    rw [hleft]
    decide

end ExprCalc.Grammar
