import ExprCalc.Proofs.Parser.Step

namespace ExprCalc.Parser

variable {σ ε α β : Type} {src : TokenSource σ ε}

/-- `Pulls src s ts s'`: asked again and again from the state `s` on, the source delivers the tokens
`ts` and is then in the state `s'`. -/
inductive Pulls (src : TokenSource σ ε) : σ → List Token → σ → Prop
  | nil {s : σ} : Pulls src s [] s
  | cons {s s' s'' : σ} {t : Token} {ts : List Token} (hnext : src.next s = (.ok t, s'))
      (h : Pulls src s' ts s'') : Pulls src s (t :: ts) s''

theorem Pulls.append {s s' s'' : σ} {ts us : List Token} (h : Pulls src s ts s')
    (h' : Pulls src s' us s'') : Pulls src s (ts ++ us) s'' := by
  induction h with
  | nil => exact h'
  | cons hnext _ ih => exact .cons hnext (ih h')

theorem Pulls.split {s s'' : σ} {ts us : List Token} (h : Pulls src s (ts ++ us) s'') :
    ∃ s', Pulls src s ts s' ∧ Pulls src s' us s'' := by
  induction ts generalizing s with
  | nil => exact ⟨s, .nil, h⟩
  | cons t ts ih =>
    cases h with
    | cons hnext h =>
      obtain ⟨s', hts, hus⟩ := ih h
      exact ⟨s', .cons hnext hts, hus⟩

/-- The end of a step that did not meet a failure of the source. -/
def finish (result : Except SyntaxError α) (c : Cursor σ) : EStateM.Result (Stop ε) (Cursor σ) α :=
  match result with
  | .ok a => .ok a c
  | .error e => .error (.syntax_ e) c

/-- Given the tokens `ts`, a step that starts with `held` ends with `result` and `held'`, whatever
else the source would deliver. The token held at the end is one of those given. -/
structure Decided (src : TokenSource σ ε) (m : Step σ ε α) (held : Option Token) (ts : List Token)
    (result : Except SyntaxError α) (held' : Option Token) : Prop where
  run : ∀ s s', Pulls src s ts s' → m ⟨held, s⟩ = finish result ⟨held', s'⟩
  held_mem : ∀ t, held' = some t → t ∈ held.toList ++ ts

/-- The source fails after some tokens, and the step stops there. -/
def Interrupted (src : TokenSource σ ε) (m : Step σ ε α) (held : Option Token) (s : σ) : Prop :=
  ∃ ts s' e s'', Pulls src s ts s' ∧ src.next s' = (.error e, s'') ∧
    m ⟨held, s⟩ = .error (.source e) ⟨none, s''⟩

/-- A step that is decided by the tokens it asks for, unless the source fails. -/
def Demands (src : TokenSource σ ε) (m : Step σ ε α) : Prop :=
  ∀ held s, (∃ ts s' result held', Pulls src s ts s' ∧ Decided src m held ts result held') ∨
    Interrupted src m held s

theorem demands_of_result {m : Step σ ε α} (hm : ∀ held, ∃ result held',
    (∀ s, m ⟨held, s⟩ = finish result ⟨held', s⟩) ∧ ∀ t, held' = some t → held = some t) :
    Demands src m := by
  intro held s
  obtain ⟨result, held', hrun, hheld⟩ := hm held
  refine .inl ⟨[], s, result, held', .nil, ?_, ?_⟩
  · rintro s s' ⟨⟩
    exact hrun s
  · intro t ht
    rw [hheld t ht]
    exact List.mem_cons_self

theorem demands_pure (a : α) : Demands src (pure a) :=
  demands_of_result fun held => ⟨.ok a, held, fun _ => rfl, fun _ h => h⟩

theorem demands_throw (e : SyntaxError) : Demands (α := α) src (throw (.syntax_ e)) :=
  demands_of_result fun held => ⟨.error e, held, fun _ => rfl, fun _ h => h⟩

theorem demands_advance (t : Token) : Demands src (advance t) := by
  apply demands_of_result
  intro held
  by_cases ht : t.kind = .eof
  · exact ⟨.ok (), held, fun _ => if_pos ht, fun _ h => h⟩
  · exact ⟨.ok (), none, fun _ => if_neg ht, fun _ h => by cases h⟩

theorem demands_peek : Demands src (peek src) := by
  intro held s
  cases held with
  | some t =>
    refine .inl ⟨[], s, .ok t, some t, .nil, ?_, ?_⟩
    · rintro s s' ⟨⟩
      rfl
    · rintro _ ⟨⟩
      exact List.mem_cons_self
  | none =>
    obtain ⟨item, s', hnext⟩ : ∃ item s', src.next s = (item, s') := ⟨_, _, rfl⟩
    cases item with
    | ok t =>
      refine .inl ⟨[t], s', .ok t, some t, .cons hnext .nil, ?_, ?_⟩
      · intro s s' hpulls
        cases hpulls with
        | cons hnext h =>
          cases h
          simp only [peek, hnext, finish]
      · rintro _ ⟨⟩
        exact List.mem_cons_self
    | error e =>
      refine .inr ⟨[], s, e, s', .nil, hnext, ?_⟩
      simp only [peek, hnext]

theorem Decided.bind {m : Step σ ε α} {f : α → Step σ ε β} {held held' held'' : Option Token}
    {ts us : List Token} {a : α} {result : Except SyntaxError β}
    (hm : Decided src m held ts (.ok a) held') (hf : Decided src (f a) held' us result held'') :
    Decided src (m >>= f) held (ts ++ us) result held'' := by
  constructor
  · intro s s'' hpulls
    obtain ⟨s', hts, hus⟩ := hpulls.split
    rw [bind_of_ok (hm.run s s' hts), hf.run s' s'' hus]
  · intro t ht
    rw [← List.append_assoc]
    rcases List.mem_append.mp (hf.held_mem t ht) with hmem | hmem
    · exact List.mem_append_left _ (hm.held_mem t (by simpa using hmem))
    · exact List.mem_append_right _ hmem

theorem demands_bind {m : Step σ ε α} {f : α → Step σ ε β} (hm : Demands src m)
    (hf : ∀ a, Demands src (f a)) : Demands src (m >>= f) := by
  intro held s
  obtain ⟨ts, s', result, held', hpulls, hdecided⟩ | ⟨ts, s', e, s'', hpulls, hnext, hrun⟩ :=
    hm held s
  · cases result with
    | ok a =>
      obtain ⟨us, s'', result, held'', hpulls', hdecided'⟩ |
        ⟨us, s₁, e, s₂, hpulls', hnext, hrun⟩ := hf a held' s'
      · exact .inl ⟨ts ++ us, s'', result, held'', hpulls.append hpulls', hdecided.bind hdecided'⟩
      · refine .inr ⟨ts ++ us, s₁, e, s₂, hpulls.append hpulls', hnext, ?_⟩
        rw [bind_of_ok (hdecided.run s s' hpulls), hrun]
    | error e =>
      -- a syntax error is decided by the first step alone
      refine .inl ⟨ts, s', .error e, held', hpulls, ?_, hdecided.held_mem⟩
      intro s s' hpulls
      exact bind_of_error (hdecided.run s s' hpulls)
  · exact .inr ⟨ts, s', e, s'', hpulls, hnext, bind_of_error hrun⟩

variable {limit : Nat} {operand : Step σ ε Tree}

theorem demands_accept (kinds : List Kind) : Demands src (accept src kinds) := by
  apply demands_bind demands_peek
  intro t
  split
  · exact demands_bind (demands_advance t) fun _ => demands_pure _
  · exact demands_pure _

theorem demands_chainFrom (kinds : List Kind) (h : Demands src operand) (left : Tree) :
    Demands src (chainFrom src limit kinds operand left) := by
  induction left using chainFrom.induct limit with
  | case1 left ih =>
    rw [chainFrom]
    apply demands_bind (demands_accept kinds)
    rintro ⟨op, found⟩
    cases found with
    | false => exact demands_pure left
    | true =>
      apply demands_bind h
      intro right
      split
      · next hlimit => exact ih op right hlimit
      · exact demands_throw _

theorem demands_chain (kinds : List Kind) (h : Demands src operand) :
    Demands src (chain src limit kinds operand) :=
  demands_bind h fun first => demands_chainFrom kinds h first

theorem demands_equality (h : Demands src operand) : Demands src (equality src limit operand) :=
  demands_chain _ <| demands_chain _ <| demands_chain _ <| demands_chain _ h

theorem demands_primary {inner : Step σ ε Tree} (h : Demands src inner) :
    Demands src (primary src inner) := by
  apply demands_bind demands_peek
  intro t
  split
  case h_1 | h_2 =>
    apply demands_bind (demands_advance t)
    intro _
    split
    · exact demands_pure _
    · exact demands_throw _
  case h_3 | h_4 | h_5 => exact demands_bind (demands_advance t) fun _ => demands_pure _
  case h_6 =>
    apply demands_bind (demands_advance t)
    intro _
    apply demands_bind h
    intro tree
    apply demands_bind (demands_accept _)
    rintro ⟨close, found⟩
    cases found with
    | false => exact demands_throw _
    | true => exact demands_pure tree
  case h_7 => exact demands_throw _

theorem demands_unary (room : Nat) : Demands src (unary src limit room) := by
  induction room with
  | zero => exact demands_bind (demands_accept _) fun _ => demands_throw _
  | succ room ih =>
    apply demands_bind (demands_accept _)
    rintro ⟨op, found⟩
    cases found with
    | false => exact demands_primary (demands_equality ih)
    | true =>
      apply demands_bind ih
      intro operand
      split
      · exact demands_pure _
      · exact demands_throw _

theorem demands_whole : Demands src (whole src limit) := by
  apply demands_bind (demands_equality (demands_unary limit))
  intro tree
  apply demands_bind demands_peek
  intro t
  split
  · exact demands_pure _
  · exact demands_throw _

theorem held_of_peek {c c' : Cursor σ} {t : Token} (h : peek src c = .ok t c') :
    c'.held = some t := by
  unfold peek at h
  split at h
  · next hheld =>
    cases h
    exact hheld
  · split at h <;> cases h
    rfl

/-- An expression is accepted only with the end token in hand. -/
theorem held_of_whole {c c' : Cursor σ} {e : Expr} (h : whole src limit c = .ok e c') :
    ∃ t, c'.held = some t ∧ t.kind = .eof := by
  obtain ⟨tree, c₁, -, h⟩ := bind_eq_ok h
  obtain ⟨t, c₂, hpeek, h⟩ := bind_eq_ok h
  split at h
  · next ht =>
    cases h
    exact ⟨t, held_of_peek hpeek, ht⟩
  · cases h

end ExprCalc.Parser
