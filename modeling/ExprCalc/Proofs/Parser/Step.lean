import ExprCalc.Expr.Parser
import ExprCalc.Proofs.Parser.Grammar

namespace ExprCalc.Parser

open Grammar

variable {σ ε α β : Type} {src : TokenSource σ ε} {limit : Nat} {kinds : List Kind}
  {operand : Step σ ε Tree} {c c' c'' : Cursor σ}

theorem bind_of_ok {m : Step σ ε α} {f : α → Step σ ε β} {a : α} (h : m c = .ok a c') :
    (m >>= f) c = f a c' := by
  change EStateM.bind m f c = _
  simp only [EStateM.bind, h]

theorem bind_of_error {m : Step σ ε α} {f : α → Step σ ε β} {e : Stop ε}
    (h : m c = .error e c') : (m >>= f) c = .error e c' := by
  change EStateM.bind m f c = _
  simp only [EStateM.bind, h]

theorem bind_eq_ok {m : Step σ ε α} {f : α → Step σ ε β} {b : β}
    (h : (m >>= f) c = .ok b c'') : ∃ a c', m c = .ok a c' ∧ f a c' = .ok b c'' := by
  cases hm : m c with
  | ok a c' =>
    rw [bind_of_ok hm] at h
    exact ⟨a, c', rfl, h⟩
  | error e c' =>
    rw [bind_of_error hm] at h
    cases h

theorem advance_of_ne_eof {t : Token} (ht : t.kind ≠ .eof) :
    advance (ε := ε) t c = .ok () ⟨none, c.rest⟩ := by
  rw [advance, if_neg ht]

theorem accept_of_peek (kinds : List Kind) {t : Token} (h : peek src c = .ok t c') :
    accept src kinds c =
      if t.kind ≠ .eof ∧ t.kind ∈ kinds then .ok (t, true) ⟨none, c'.rest⟩
      else .ok (t, false) c' := by
  rw [accept, bind_of_ok h]
  simp only [List.contains_iff_mem]
  split
  · next ht =>
    rw [bind_of_ok (advance_of_ne_eof ht.1)]
    rfl
  · rfl

theorem chainFrom_of_other {left : Tree} {t : Token}
    (h : accept src kinds c = .ok (t, false) c') :
    chainFrom src limit kinds operand left c = .ok left c' := by
  rw [chainFrom, bind_of_ok h]
  rfl

theorem chainFrom_of_operator {left right : Tree} {op : Token}
    (hop : accept src kinds c = .ok (op, true) c') (hright : operand c' = .ok right c'')
    (hlimit : max left.height right.height + 1 ≤ limit) :
    chainFrom src limit kinds operand left c =
      chainFrom src limit kinds operand
        ⟨.binary left.expr op right.expr, max left.height right.height + 1⟩ c'' := by
  rw [chainFrom, bind_of_ok hop]
  simp only [if_true]
  rw [bind_of_ok hright, dif_pos hlimit]

theorem chainFrom_eq_ok {left tree : Tree}
    (h : chainFrom src limit kinds operand left c = .ok tree c'') :
    (∃ t, accept src kinds c = .ok (t, false) c'' ∧ tree = left) ∨
    ∃ op c₁ right c₂, accept src kinds c = .ok (op, true) c₁ ∧ operand c₁ = .ok right c₂ ∧
      max left.height right.height + 1 ≤ limit ∧
      chainFrom src limit kinds operand
        ⟨.binary left.expr op right.expr, max left.height right.height + 1⟩ c₂ = .ok tree c'' := by
  rw [chainFrom] at h
  obtain ⟨⟨op, found⟩, c₁, hop, h⟩ := bind_eq_ok h
  cases found with
  | false =>
    cases h
    exact .inl ⟨op, hop, rfl⟩
  | true =>
    simp only [if_true] at h
    obtain ⟨right, c₂, hright, h⟩ := bind_eq_ok h
    split at h
    · next hlimit => exact .inr ⟨op, c₁, right, c₂, hop, hright, hlimit, h⟩
    · cases h

theorem chain_of_error {stop : Stop ε} (h : operand c = .error stop c') :
    chain src limit kinds operand c = .error stop c' :=
  bind_of_error h

theorem unary_of_other {room : Nat} {t : Token}
    (h : accept src [.bang, .minus] c = .ok (t, false) c') :
    unary src limit (room + 1) c = primary src (equality src limit (unary src limit room)) c' := by
  rw [unary, bind_of_ok h]
  rfl

theorem unary_of_operator {room : Nat} {op : Token} {tree : Tree}
    (hop : accept src [.bang, .minus] c = .ok (op, true) c')
    (htree : unary src limit room c' = .ok tree c'') (hlimit : tree.height + 1 ≤ limit) :
    unary src limit (room + 1) c = .ok ⟨.unary op tree.expr, tree.height + 1⟩ c'' := by
  rw [unary, bind_of_ok hop]
  simp only [if_true]
  rw [bind_of_ok htree, if_pos hlimit]
  rfl

theorem unary_zero_ne_ok {tree : Tree} : unary src limit 0 c ≠ .ok tree c' := by
  intro h
  rw [unary] at h
  obtain ⟨_, _, _, h⟩ := bind_eq_ok h
  cases h

theorem unary_eq_ok {room : Nat} {tree : Tree} (h : unary src limit (room + 1) c = .ok tree c'') :
    (∃ t c₁, accept src [.bang, .minus] c = .ok (t, false) c₁ ∧
      primary src (equality src limit (unary src limit room)) c₁ = .ok tree c'') ∨
    ∃ op c₁ inner, accept src [.bang, .minus] c = .ok (op, true) c₁ ∧
      unary src limit room c₁ = .ok inner c'' ∧ inner.height + 1 ≤ limit ∧
      tree = ⟨.unary op inner.expr, inner.height + 1⟩ := by
  rw [unary] at h
  obtain ⟨⟨op, found⟩, c₁, hop, h⟩ := bind_eq_ok h
  cases found with
  | false => exact .inl ⟨op, c₁, hop, h⟩
  | true =>
    simp only [if_true] at h
    obtain ⟨inner, c₂, hinner, h⟩ := bind_eq_ok h
    split at h
    · next hlimit =>
      cases h
      exact .inr ⟨op, c₁, inner, hop, hinner, hlimit, rfl⟩
    · cases h

def group (src : TokenSource σ ε) (inner : Step σ ε Tree) : Step σ ε Tree := do
  let tree ← inner
  let (close, found) ← accept src [.rightParen]
  if found then return tree else throw (.syntax_ (.expected .rightParen close))

/-- A number or string without a value is used up before it is refused. -/
theorem primary_of_peek {inner : Step σ ε Tree} {t : Token} (h : peek src c = .ok t c') :
    primary src inner c =
      if t.kind = .leftParen then group src inner ⟨none, c'.rest⟩
      else
        match literal? t with
        | some v => .ok ⟨.literal t v, 1⟩ ⟨none, c'.rest⟩
        | none =>
          .error (.syntax_ (.unexpected t))
            (if t.kind = .number ∨ t.kind = .string then ⟨none, c'.rest⟩ else c') := by
  rw [primary, bind_of_ok h]
  cases hk : t.kind
  case number | string =>
    simp only [literal?, hk]
    rw [bind_of_ok (advance_of_ne_eof (by simp [hk]))]
    cases literalValue? t <;> rfl
  case trueWord | falseWord | nilWord | leftParen =>
    simp only [literal?, hk]
    rw [bind_of_ok (advance_of_ne_eof (by simp [hk]))]
    rfl
  all_goals
    simp only [literal?, hk]
    rfl

theorem group_of_ok {inner : Step σ ε Tree} {tree : Tree} {close : Token}
    (hinner : inner c = .ok tree c')
    (hclose : accept src [.rightParen] c' = .ok (close, true) c'') :
    group src inner c = .ok tree c'' := by
  rw [group, bind_of_ok hinner, bind_of_ok hclose]
  rfl

theorem group_eq_ok {inner : Step σ ε Tree} {tree : Tree} (h : group src inner c = .ok tree c'') :
    ∃ c₁ close, inner c = .ok tree c₁ ∧ accept src [.rightParen] c₁ = .ok (close, true) c'' := by
  rw [group] at h
  obtain ⟨inside, c₁, hinner, h⟩ := bind_eq_ok h
  obtain ⟨⟨close, found⟩, c₂, hclose, h⟩ := bind_eq_ok h
  cases found with
  | false => cases h
  | true =>
    cases h
    exact ⟨c₁, close, hinner, hclose⟩

/-- The parser of a phrase with room for `room` nested unary operators and parentheses. -/
def step (src : TokenSource σ ε) (limit room : Nat) (r : Phrase) : Step σ ε Tree :=
  r.levels.foldr (fun l operand => chain src limit l.operators operand) <|
    match r with
    | .primary => primary src (equality src limit (unary src limit (room - 1)))
    | _ => unary src limit room

theorem step_level (room : Nat) (l : Level) :
    step src limit room (.level l) =
      chain src limit l.operators (step src limit room l.operand) := by
  cases l <;> rfl

theorem step_equality (room : Nat) :
    step src limit room (.level .equality) = equality src limit (unary src limit room) :=
  rfl

theorem step_unary (room : Nat) : step src limit room .unary = unary src limit room :=
  rfl

theorem step_primary (room : Nat) :
    step src limit (room + 1) .primary =
      primary src (step src limit room (.level .equality)) :=
  rfl

end ExprCalc.Parser
