import ExprCalc.Proofs.Parser.Accepted
import ExprCalc.Proofs.Parser.Machine

namespace ExprCalc

namespace Grammar

/-- The tokens begin an expression. -/
def Viable (ts : List Token) : Prop :=
  ∃ us e n, Derives (.level .equality) (ts ++ us) e n

/-- The number of parentheses that are open after the tokens. -/
def nesting (ts : List Token) : Int :=
  ts.countP (·.kind = .leftParen) - ts.countP (·.kind = .rightParen)

/-- The tokens end with a complete operand, and a parenthesis before it is still open. -/
def EndsInGroup (ts : List Token) : Prop :=
  ∃ before operand e n, ts = before ++ operand ∧ Derives .primary operand e n ∧ 0 < nesting before

def literalKinds : List Kind :=
  [.number, .string, .trueWord, .falseWord, .nilWord]

def operatorKinds : List Kind :=
  [.bang, .minus] ++ (Phrase.level .equality).continuing

theorem mem_literalKinds {t : Token} {v : Value} (h : literal? t = some v) :
    t.kind ∈ literalKinds := by
  cases hk : t.kind <;> simp [literal?, hk] at h <;> decide

theorem mem_operatorKinds_of_unary {k : Kind} (h : k ∈ [Kind.bang, .minus]) : k ∈ operatorKinds :=
  List.mem_append_left _ h

theorem mem_operatorKinds_of_level {l : Level} {k : Kind} (h : k ∈ l.operators) :
    k ∈ operatorKinds := by
  have hall : ∀ k ∈ l.operators, k ∈ operatorKinds := by cases l <;> decide
  exact hall k h

theorem nesting_append (ts us : List Token) : nesting (ts ++ us) = nesting ts + nesting us := by
  simp only [nesting, List.countP_append]
  omega

theorem nesting_cons (t : Token) (ts : List Token) :
    nesting (t :: ts) = nesting [t] + nesting ts :=
  nesting_append [t] ts

theorem nesting_leftParen {t : Token} (h : t.kind = .leftParen) : nesting [t] = 1 := by
  simp [nesting, h]

theorem nesting_rightParen {t : Token} (h : t.kind = .rightParen) : nesting [t] = -1 := by
  simp [nesting, h]

theorem nesting_other {t : Token} (h : t.kind ∈ literalKinds ++ operatorKinds) :
    nesting [t] = 0 := by
  have hall : ∀ k ∈ literalKinds ++ operatorKinds, k ≠ .leftParen ∧ k ≠ .rightParen := by decide
  obtain ⟨hleft, hright⟩ := hall t.kind h
  simp [nesting, hleft, hright]

theorem nesting_operator {t : Token} (h : t.kind ∈ operatorKinds) : nesting [t] = 0 :=
  nesting_other (List.mem_append_right _ h)

section Derived

variable {r : Phrase} {ts : List Token} {e : Expr} {n : Nat}

theorem nesting_of_derives (h : Derives r ts e n) : nesting ts = 0 := by
  induction h with
  | literal value => exact nesting_other (List.mem_append_left _ (mem_literalKinds value))
  | group hleft hright _ ih =>
    rw [nesting_cons, nesting_append, nesting_leftParen hleft, nesting_rightParen hright, ih]
    rfl
  | primary _ ih => exact ih
  | unary hop _ ih =>
    rw [nesting_cons, nesting_operator (mem_operatorKinds_of_unary hop), ih]
    rfl
  | operand _ ih => exact ih
  | binary hop _ _ ihl ihr =>
    rw [nesting_append, nesting_cons, nesting_operator (mem_operatorKinds_of_level hop), ihl, ihr]
    rfl

theorem ne_eof_of_derives (h : Derives r ts e n) : ∀ t ∈ ts, t.kind ≠ .eof := by
  have hall : ∀ k ∈ literalKinds ++ operatorKinds, k ≠ .eof := by decide
  induction h with
  | @literal t v value =>
    intro u hu
    rw [List.mem_singleton.mp hu]
    exact hall _ (List.mem_append_left _ (mem_literalKinds value))
  | @group left right ts e n hleft hright _ ih =>
    intro u hu
    simp only [List.mem_cons, List.mem_append, List.not_mem_nil, or_false] at hu
    rcases hu with rfl | hu | rfl
    · simp [hleft]
    · exact ih u hu
    · simp [hright]
  | primary _ ih => exact ih
  | unary hop _ ih =>
    rintro u (_ | ⟨_, hu⟩)
    · exact hall _ (List.mem_append_right _ (mem_operatorKinds_of_unary hop))
    · exact ih u hu
  | operand _ ih => exact ih
  | binary hop _ _ ihl ihr =>
    intro u hu
    simp only [List.mem_append, List.mem_cons] at hu
    rcases hu with hu | rfl | hu
    · exact ihl u hu
    · exact hall _ (List.mem_append_right _ (mem_operatorKinds_of_level hop))
    · exact ihr u hu

theorem ne_eof_of_viable (h : Viable ts) : ∀ t ∈ ts, t.kind ≠ .eof := by
  obtain ⟨us, e, n, hderives⟩ := h
  exact fun t ht => ne_eof_of_derives hderives t (List.mem_append_left us ht)

/-- Every phrase ends with a primary that is not inside parentheses. -/
theorem ends_with_primary (h : Derives r ts e n) :
    ∃ before operand e' n', ts = before ++ operand ∧ Derives .primary operand e' n' ∧
      nesting before = 0 := by
  induction h with
  | literal value => exact ⟨[], _, _, _, rfl, .literal value, rfl⟩
  | group hleft hright inner _ => exact ⟨[], _, _, _, rfl, .group hleft hright inner, rfl⟩
  | primary _ ih => exact ih
  | @unary op ts e n hop _ ih =>
    obtain ⟨before, operand, e', n', rfl, hoperand, hbefore⟩ := ih
    refine ⟨op :: before, operand, e', n', rfl, hoperand, ?_⟩
    rw [nesting_cons, nesting_operator (mem_operatorKinds_of_unary hop), hbefore]
    rfl
  | operand _ ih => exact ih
  | @binary l op ts us left right m n hop hleft _ _ ih =>
    obtain ⟨before, operand, e', n', rfl, hoperand, hbefore⟩ := ih
    refine ⟨ts ++ op :: before, operand, e', n', by simp, hoperand, ?_⟩
    rw [nesting_append, nesting_cons, nesting_operator (mem_operatorKinds_of_level hop), hbefore,
      nesting_of_derives hleft]
    rfl

theorem primary_last (h : Derives .primary ts e n) :
    ∃ us t, ts = us ++ [t] ∧ t.kind ∈ .rightParen :: literalKinds := by
  cases h with
  | @literal t v value => exact ⟨[], t, rfl, .tail _ (mem_literalKinds value)⟩
  | @group left right ts e n _ hright _ =>
    exact ⟨left :: ts, right, rfl, hright ▸ List.mem_cons_self⟩

theorem not_endsInGroup_of_derives (h : Derives r ts e n) : ¬ EndsInGroup ts := by
  rintro ⟨before, operand, e', n', rfl, hoperand, hbefore⟩
  have hwhole := nesting_of_derives h
  rw [nesting_append, nesting_of_derives hoperand] at hwhole
  omega

end Derived

end Grammar

namespace Parser

open Grammar

/-- `Open stack r xs`: with the tokens `xs` used up, the calls on the stack wait for the phrase
`r`. -/
inductive Open : List Frame → Phrase → List Token → Prop
  | whole : Open [] (.level .equality) []
  | first {l : Level} {stack : List Frame} {xs : List Token} (h : Open stack (.level l) xs) :
      Open (.first l :: stack) l.operand xs
  | right {l : Level} {left : Expr} {height n : Nat} {op : Token} {stack : List Frame}
      {xs ts : List Token} (h : Open stack (.level l) xs) (hleft : Derives (.level l) ts left n)
      (hop : op.kind ∈ l.operators) :
      Open (.right l left height op :: stack) l.operand (xs ++ ts ++ [op])
  | primary {stack : List Frame} {xs : List Token} (h : Open stack .unary xs) :
      Open (.unary none :: stack) .primary xs
  | unary {op : Token} {stack : List Frame} {xs : List Token} (h : Open stack .unary xs)
      (hop : op.kind ∈ [Kind.bang, .minus]) :
      Open (.unary (some op) :: stack) .unary (xs ++ [op])
  | group {paren : Token} {stack : List Frame} {xs : List Token} (h : Open stack .primary xs)
      (hparen : paren.kind = .leftParen) :
      Open (.group :: stack) (.level .equality) (xs ++ [paren])

section Open

variable {stack : List Frame} {r : Phrase} {xs ys : List Token}

/-- With the phrase that is waited for, the tokens can be completed to an expression: every open
parenthesis is closed, and nothing else is added. -/
theorem Open.viable (h : Open stack r xs) {e : Expr} {n : Nat} (hr : Derives r ys e n) :
    Viable (xs ++ ys) := by
  induction h generalizing ys e n with
  | whole => exact ⟨[], e, n, by simpa using hr⟩
  | first _ ih => exact ih (.operand hr)
  | right _ hleft hop ih => simpa using ih (.binary hop hleft hr)
  | primary _ ih => exact ih (.primary hr)
  | unary _ hop ih => simpa using ih (.unary hop hr)
  | @group paren stack xs _ hparen ih =>
    have hclosed : Derives .primary (paren :: (ys ++ [mark .rightParen ")" 1])) e (n + 1) :=
      .group hparen rfl hr
    obtain ⟨us, e', n', hus⟩ := ih hclosed
    exact ⟨mark .rightParen ")" 1 :: us, e', n', by simpa using hus⟩

theorem viable_of_append (h : Viable (xs ++ ys)) : Viable xs := by
  obtain ⟨us, e, n, hus⟩ := h
  exact ⟨ys ++ us, e, n, by rwa [← List.append_assoc]⟩

theorem derives_nil (r : Phrase) :
    Derives r [mark .nilWord "nil" 1] (.literal (mark .nilWord "nil" 1) .nil) 0 := by
  have hprimary : Derives .primary [mark .nilWord "nil" 1] (.literal _ .nil) 0 := .literal rfl
  have hfactor := Derives.operand (l := .factor) (.primary hprimary)
  have hterm := Derives.operand (l := .term) hfactor
  have hcomparison := Derives.operand (l := .comparison) hterm
  cases r with
  | primary => exact hprimary
  | unary => exact .primary hprimary
  | level l =>
    cases l with
    | factor => exact hfactor
    | term => exact hterm
    | comparison => exact hcomparison
    | equality => exact .operand hcomparison

theorem Open.viable_used (h : Open stack r xs) : Viable xs :=
  viable_of_append (h.viable (derives_nil r))

theorem Open.nesting_nonneg (h : Open stack r xs) : 0 ≤ nesting xs := by
  induction h with
  | whole => exact Int.le_refl 0
  | first _ ih => exact ih
  | right _ hleft hop ih =>
    rw [nesting_append, nesting_append, nesting_of_derives hleft,
      nesting_operator (mem_operatorKinds_of_level hop)]
    simpa using ih
  | primary _ ih => exact ih
  | unary _ hop ih =>
    rw [nesting_append, nesting_operator (mem_operatorKinds_of_unary hop)]
    simpa using ih
  | group _ hparen ih =>
    rw [nesting_append, nesting_leftParen hparen]
    omega

theorem Open.last (h : Open stack r xs) {t : Token} (ht : xs.getLast? = some t) :
    t.kind ∈ .leftParen :: operatorKinds := by
  induction h with
  | whole => cases ht
  | first _ ih => exact ih ht
  | right _ _ hop =>
    simp only [List.getLast?_append, List.getLast?_singleton, Option.some_or] at ht
    cases ht
    exact .tail _ (mem_operatorKinds_of_level hop)
  | primary _ ih => exact ih ht
  | unary _ hop =>
    simp only [List.getLast?_append, List.getLast?_singleton, Option.some_or] at ht
    cases ht
    exact .tail _ (mem_operatorKinds_of_unary hop)
  | group _ hparen =>
    simp only [List.getLast?_append, List.getLast?_singleton, Option.some_or] at ht
    cases ht
    exact hparen ▸ List.mem_cons_self

theorem Open.not_endsInGroup (h : Open stack r xs) : ¬ EndsInGroup xs := by
  rintro ⟨before, operand, e, n, rfl, hoperand, -⟩
  obtain ⟨us, t, rfl, ht⟩ := primary_last hoperand
  have hlast := h.last (t := t) (by simp)
  have hall : ∀ k ∈ .rightParen :: literalKinds, k ∉ .leftParen :: operatorKinds := by decide
  exact hall t.kind ht hlast

/-- Before a right parenthesis is required, an operand has been used up inside the parentheses. -/
theorem endsInGroup_of_open {paren : Token} {e : Expr} {n : Nat} (h : Open stack .primary xs)
    (hparen : paren.kind = .leftParen) (hinner : Derives (.level .equality) ys e n) :
    EndsInGroup (xs ++ paren :: ys) := by
  obtain ⟨before, operand, e', n', rfl, hoperand, hbefore⟩ := ends_with_primary hinner
  refine ⟨xs ++ paren :: before, operand, e', n', by simp, hoperand, ?_⟩
  have hopen := h.nesting_nonneg
  rw [nesting_append, nesting_cons, nesting_leftParen hparen, hbefore]
  omega

end Open

end Parser

end ExprCalc
