import ExprCalc.Expr.Eval

namespace ExprCalc.Expr

def unaryKind? (op : Kind) (k : ValueKind) : Option ValueKind :=
  if op = .minus ∧ k = .number then some .number
  else if op = .bang ∧ k = .boolean then some .boolean
  else none

def equalityOperators : List Kind := [.equalEqual, .bangEqual]

def arithmeticOperators : List Kind := [.plus, .minus, .star, .slash]

def orderOperators : List Kind := [.less, .lessEqual, .greater, .greaterEqual]

/-- The kind of what a binary operator makes of two operands, if it takes them. Only numbers are
calculated with, numbers and strings are ordered, and everything can be compared for equality. -/
def binaryKind? (op : Kind) (k l : ValueKind) : Option ValueKind :=
  if op ∈ equalityOperators then some .boolean
  else if op ∈ arithmeticOperators ∧ k = .number ∧ l = .number then some .number
  else if op ∈ orderOperators ∧ (k = .number ∧ l = .number ∨ k = .string ∧ l = .string) then
    some .boolean
  else none

/-- The kind found for an operator, or else an error that names it and its operands' kinds. -/
def judge (op : Token) (operands : List ValueKind) :
    Option ValueKind → Except EvalError ValueKind
  | some k => .ok k
  | none => .error (.type ⟨op, operands⟩)

/-- The kind of a tree. Operands come before their operator, from left to right, and the first
error ends the check. -/
def check : Expr → Except EvalError ValueKind
  | missing => .error .missingNode
  | literal _ value => .ok value.kind
  | unary op operand => do
    let k ← operand.check
    judge op [k] (unaryKind? op.kind k)
  | binary left op right => do
    let k ← left.check
    let l ← right.check
    judge op [k, l] (binaryKind? op.kind k l)

theorem map_kind_refuse (op : Token) (operands : List Value) :
    (refuse op operands).map Value.kind = judge op (operands.map Value.kind) none :=
  rfl

theorem map_kind_applyUnary (op : Token) (x : Value) :
    (applyUnary op x).map Value.kind = judge op [x.kind] (unaryKind? op.kind x.kind) := by
  fun_cases applyUnary op x with
  | case1 a hop => simp [unaryKind?, hop, Value.kind, judge, Except.map]
  | case2 b hop => simp [unaryKind?, hop, Value.kind, judge, Except.map]
  | case3 _ hminus hbang =>
    have hnone : unaryKind? op.kind x.kind = none := by
      rw [unaryKind?, if_neg, if_neg]
      · rintro ⟨hop, hx⟩
        cases x <;> cases hx
        exact hbang _ hop rfl
      · rintro ⟨hop, hx⟩
        cases x <;> cases hx
        exact hminus _ hop rfl
    rw [map_kind_refuse, hnone]
    rfl

theorem arithmetic?_isSome (k : Kind) : (arithmetic? k).isSome ↔ k ∈ arithmeticOperators := by
  cases k <;> simp [arithmetic?, arithmeticOperators]

theorem numberOrder?_isSome (k : Kind) : (numberOrder? k).isSome ↔ k ∈ orderOperators := by
  cases k <;> simp [numberOrder?, orderOperators]

theorem stringOrder?_isSome (k : Kind) : (stringOrder? k).isSome ↔ k ∈ orderOperators := by
  cases k <;> simp [stringOrder?, orderOperators]

theorem binaryKind?_of_other {op : Kind} (hequal : op ≠ .equalEqual) (hunequal : op ≠ .bangEqual)
    (k l : ValueKind) :
    binaryKind? op k l =
      if op ∈ arithmeticOperators ∧ k = .number ∧ l = .number then some .number
      else if op ∈ orderOperators ∧ (k = .number ∧ l = .number ∨ k = .string ∧ l = .string) then
        some .boolean
      else none := by
  have hneither : op ∉ equalityOperators := by simp [equalityOperators, hequal, hunequal]
  rw [binaryKind?, if_neg hneither]

theorem map_kind_applyBinary (op : Token) (x y : Value) :
    (applyBinary op x y).map Value.kind =
      judge op [x.kind, y.kind] (binaryKind? op.kind x.kind y.kind) := by
  have harithmetic := arithmetic?_isSome op.kind
  have hnumbers := numberOrder?_isSome op.kind
  have hstrings := stringOrder?_isSome op.kind
  -- the tables of operators agree on which operators they hold; the rest follows the branches
  fun_cases applyBinary op x y with
  | case1 _ _ hop | case2 _ _ hop =>
    rw [binaryKind?, if_pos (by rw [hop]; decide)]
    rfl
  | case3 a b f hequal hunequal hf =>
    simp only [hf, Option.isSome_some, true_iff] at harithmetic
    simp [binaryKind?_of_other hequal hunequal, harithmetic, Value.kind, judge, Except.map]
  | case4 a b r hequal hunequal hr hf =>
    simp only [hf, Option.isSome_none, Bool.false_eq_true, false_iff] at harithmetic
    simp only [hr, Option.isSome_some, true_iff] at hnumbers
    simp [binaryKind?_of_other hequal hunequal, harithmetic, hnumbers, Value.kind, judge,
      Except.map]
  | case5 a b hequal hunequal hr hf =>
    simp only [hf, Option.isSome_none, Bool.false_eq_true, false_iff] at harithmetic
    simp only [hr, Option.isSome_none, Bool.false_eq_true, false_iff] at hnumbers
    simp [map_kind_refuse, binaryKind?_of_other hequal hunequal, harithmetic, hnumbers]
  | case6 s t r hequal hunequal hr =>
    simp only [hr, Option.isSome_some, true_iff] at hstrings
    simp [binaryKind?_of_other hequal hunequal, hstrings, Value.kind, judge, Except.map]
  | case7 s t hequal hunequal hr =>
    simp only [hr, Option.isSome_none, Bool.false_eq_true, false_iff] at hstrings
    simp [map_kind_refuse, binaryKind?_of_other hequal hunequal, hstrings, Value.kind]
  | case8 _ _ hnumber hstring hequal hunequal =>
    rw [map_kind_refuse, binaryKind?_of_other hequal hunequal, if_neg, if_neg]
    · rfl
    · rintro ⟨-, ⟨hx, hy⟩ | ⟨hx, hy⟩⟩ <;> cases x <;> cases hx <;> cases y <;> cases hy
      · exact hnumber _ _ rfl rfl
      · exact hstring _ _ rfl rfl
    · rintro ⟨-, hx, hy⟩
      cases x <;> cases hx
      cases y <;> cases hy
      exact hnumber _ _ rfl rfl

theorem map_kind_bind {x : Except EvalError Value} {f : Value → Except EvalError Value}
    {g : ValueKind → Except EvalError ValueKind} (h : ∀ v, (f v).map Value.kind = g v.kind) :
    (x >>= f).map Value.kind = x.map Value.kind >>= g := by
  cases x with
  | error e => rfl
  | ok v => exact h v

/-- The kind of the value of a tree, or the error of its evaluation, is what the check says. -/
theorem map_kind_eval (e : Expr) : e.eval.map Value.kind = e.check := by
  induction e with
  | missing => rfl
  | literal t v => rfl
  | unary op operand ih =>
    rw [eval, check, ← ih]
    exact map_kind_bind (map_kind_applyUnary op)
  | binary left op right ihl ihr =>
    rw [eval, check, ← ihl]
    apply map_kind_bind
    intro x
    rw [← ihr]
    exact map_kind_bind (map_kind_applyBinary op x)

theorem eval_eq_ok_iff_check (e : Expr) (k : ValueKind) :
    (∃ v, e.eval = .ok v ∧ v.kind = k) ↔ e.check = .ok k := by
  rw [← map_kind_eval]
  cases e.eval with
  | error err => simp [Except.map]
  | ok v => simp [Except.map]

theorem eval_eq_error_iff_check (e : Expr) (err : EvalError) :
    e.eval = .error err ↔ e.check = .error err := by
  rw [← map_kind_eval]
  cases e.eval with
  | error err' => simp [Except.map]
  | ok v => simp [Except.map]

theorem judge_cases (op : Token) (ks : List ValueKind) (found : Option ValueKind) :
    (∃ k, judge op ks found = .ok k) ∨
      ∃ op' ks', judge op ks found = .error (.type ⟨op', ks'⟩) := by
  cases found with
  | none => exact .inr ⟨op, ks, rfl⟩
  | some k => exact .inl ⟨k, rfl⟩

theorem check_of_isComplete {e : Expr} (he : e.isComplete) :
    (∃ k, e.check = .ok k) ∨ ∃ op ks, e.check = .error (.type ⟨op, ks⟩) := by
  induction e with
  | missing => cases he
  | literal t v => exact .inl ⟨v.kind, rfl⟩
  | unary op operand ih =>
    rw [check]
    obtain ⟨k, hk⟩ | ⟨op', ks, hk⟩ := ih he
    · rw [hk]
      exact judge_cases op [k] _
    · rw [hk]
      exact .inr ⟨op', ks, rfl⟩
  | binary left op right ihl ihr =>
    obtain ⟨hleft, hright⟩ : left.isComplete ∧ right.isComplete := by
      simpa [isComplete] using he
    rw [check]
    obtain ⟨k, hk⟩ | ⟨op', ks, hk⟩ := ihl hleft
    · rw [hk]
      obtain ⟨l, hl⟩ | ⟨op', ks, hl⟩ := ihr hright
      · rw [hl]
        exact judge_cases op [k, l] _
      · rw [hl]
        exact .inr ⟨op', ks, rfl⟩
    · rw [hk]
      exact .inr ⟨op', ks, rfl⟩

/-- Trees of one shape with the same operators, whose literals have values of the same kinds. -/
inductive SameKinds : Expr → Expr → Prop
  | literal {t t' : Token} {v v' : Value} (h : v.kind = v'.kind) :
      SameKinds (.literal t v) (.literal t' v')
  | unary {op : Token} {a b : Expr} (h : SameKinds a b) : SameKinds (.unary op a) (.unary op b)
  | binary {op : Token} {a b c d : Expr} (hleft : SameKinds a b) (hright : SameKinds c d) :
      SameKinds (.binary a op c) (.binary b op d)

theorem SameKinds.check_eq {e e' : Expr} (h : SameKinds e e') : e.check = e'.check := by
  induction h with
  | literal h => rw [check, check, h]
  | unary _ ih => rw [check, check, ih]
  | binary _ _ ihl ihr => rw [check, check, ihl, ihr]

theorem mapError_eq_error_iff (e : Expr) (op : Token) (ks : List ValueKind) :
    e.eval.mapError EvalError.toFailure = .error (.located op (.type ⟨op, ks⟩)) ↔
      e.eval = .error (.type ⟨op, ks⟩) := by
  cases e.eval with
  | ok v => constructor <;> intro h <;> cases h
  | error err =>
    cases err with
    | missingNode => constructor <;> intro h <;> cases h
    | type err =>
      obtain ⟨op', ks'⟩ := err
      constructor
      · intro h
        cases h
        rfl
      · intro h
        cases h
        rfl

/-- A tree without missing nodes has a value of the kind that the check finds, or its evaluation
fails at the operator and with the operand kinds that the check finds; there is no other failure.
So only the kinds of the literals matter for it. -/
theorem eval_kind_iff_check (e : Expr) (he : e.isComplete) :
    (∀ k, (∃ v, e.eval = .ok v ∧ v.kind = k) ↔ e.check = .ok k) ∧
    (∀ op ks, e.eval.mapError EvalError.toFailure = .error (.located op (.type ⟨op, ks⟩)) ↔
      e.check = .error (.type ⟨op, ks⟩)) ∧
    (∀ f, e.eval.mapError EvalError.toFailure = .error f →
      ∃ op ks, f = .located op (.type ⟨op, ks⟩)) ∧
    ∀ e', SameKinds e e' →
      (∃ v v', e.eval = .ok v ∧ e'.eval = .ok v' ∧ v.kind = v'.kind) ∨
      ∃ op ks, e.eval = .error (.type ⟨op, ks⟩) ∧ e'.eval = .error (.type ⟨op, ks⟩) := by
  refine ⟨eval_eq_ok_iff_check e, ?_, ?_, ?_⟩
  · intro op ks
    rw [mapError_eq_error_iff, eval_eq_error_iff_check]
  · intro f hf
    obtain ⟨k, hk⟩ | ⟨op, ks, hk⟩ := check_of_isComplete he
    · obtain ⟨v, hv, -⟩ := (eval_eq_ok_iff_check e k).mpr hk
      rw [hv] at hf
      cases hf
    · rw [(eval_eq_error_iff_check e _).mpr hk] at hf
      cases hf
      exact ⟨op, ks, rfl⟩
  · intro e' hsame
    have hcheck := hsame.check_eq
    obtain ⟨k, hk⟩ | ⟨op, ks, hk⟩ := check_of_isComplete he
    · obtain ⟨v, hv, hkind⟩ := (eval_eq_ok_iff_check e k).mpr hk
      obtain ⟨v', hv', hkind'⟩ := (eval_eq_ok_iff_check e' k).mpr (hcheck ▸ hk)
      exact .inl ⟨v, v', hv, hv', hkind.trans hkind'.symm⟩
    · exact .inr ⟨op, ks, (eval_eq_error_iff_check e _).mpr hk,
        (eval_eq_error_iff_check e' _).mpr (hcheck ▸ hk)⟩

def minusToken : Token := ⟨.minus, utf8 "-", ⟨1, 1⟩, none⟩

/-- The tree of `-("a" < "b")`: strings can be ordered, but a truth value has no negative. -/
def negatedOrder : Expr :=
  .unary minusToken
    (.binary (.literal ⟨.string, utf8 "\"a\"", ⟨1, 3⟩, none⟩ (.string (utf8 "a")))
      ⟨.less, utf8 "<", ⟨1, 7⟩, none⟩
      (.literal ⟨.string, utf8 "\"b\"", ⟨1, 9⟩, none⟩ (.string (utf8 "b"))))

theorem eval_negatedOrder :
    negatedOrder.isComplete ∧
      negatedOrder.eval.mapError EvalError.toFailure =
        .error (.located minusToken (.type ⟨minusToken, [.boolean]⟩)) :=
  ⟨rfl, ((eval_kind_iff_check negatedOrder rfl).2.1 minusToken [.boolean]).mpr rfl⟩

end ExprCalc.Expr
