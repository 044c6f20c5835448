import Mathlib.Data.List.TakeWhile
import ExprCalc.Proofs.Parser.Step

namespace ExprCalc.Parser

open Grammar

def pending (c : Cursor TokenList) : List Token :=
  (c.held.toList ++ c.rest.rest).takeWhile (·.kind ≠ .eof)

theorem peek_pending (c : Cursor TokenList) :
    ∃ t c', peek TokenList.source c = .ok t c' ∧ c'.held = some t ∧ pending c' = pending c := by
  obtain ⟨held, rest⟩ := c
  cases held with
  | some t => exact ⟨t, ⟨some t, rest⟩, rfl, rfl, rfl⟩
  | none =>
    obtain ⟨ts, finish⟩ := rest
    cases ts with
    | nil => exact ⟨.eof finish, ⟨some (.eof finish), ⟨[], finish⟩⟩, rfl, rfl, rfl⟩
    | cons t ts => exact ⟨t, ⟨some t, ⟨ts, finish⟩⟩, rfl, rfl, rfl⟩

/-- The token looked at is the first pending one; at the end it is an end token. -/
theorem pending_of_held {c : Cursor TokenList} {t : Token} (h : c.held = some t) :
    (t.kind = .eof ∧ pending c = []) ∨
      (t.kind ≠ .eof ∧ pending c = t :: pending ⟨none, c.rest⟩) := by
  by_cases ht : t.kind = .eof
  · exact .inl ⟨ht, by simp [pending, h, ht]⟩
  · exact .inr ⟨ht, by simp [pending, h, ht]⟩

theorem peek_of_pending {c : Cursor TokenList} {t : Token} {us : List Token}
    (h : pending c = t :: us) :
    ∃ c', peek TokenList.source c = .ok t c' ∧ pending ⟨none, c'.rest⟩ = us := by
  obtain ⟨u, c', hpeek, hheld, hpending⟩ := peek_pending c
  rw [h] at hpending
  obtain ⟨-, hnil⟩ | ⟨-, hcons⟩ := pending_of_held hheld
  · rw [hpending] at hnil
    cases hnil
  · rw [hpending] at hcons
    obtain ⟨rfl, rfl⟩ := List.cons.inj hcons
    exact ⟨c', hpeek, rfl⟩

/-- No token of the given kinds comes first. -/
def NotNext (kinds : List Kind) (ts : List Token) : Prop :=
  ∀ t us, ts = t :: us → t.kind ∉ kinds

theorem accept_cases (kinds : List Kind) (c : Cursor TokenList) :
    (∃ t c', accept TokenList.source kinds c = .ok (t, true) c' ∧ t.kind ∈ kinds ∧
      pending c = t :: pending c') ∨
    ∃ t c', accept TokenList.source kinds c = .ok (t, false) c' ∧ pending c' = pending c ∧
      NotNext kinds (pending c) := by
  obtain ⟨t, c₁, hpeek, hheld, hpending⟩ := peek_pending c
  have haccept := accept_of_peek kinds hpeek
  split at haccept
  · next ht =>
    refine .inl ⟨t, _, haccept, ht.2, ?_⟩
    obtain ⟨heof, -⟩ | ⟨-, hcons⟩ := pending_of_held hheld
    · exact absurd heof ht.1
    · rw [← hpending, hcons]
  · next ht =>
    refine .inr ⟨t, c₁, haccept, hpending, ?_⟩
    intro u us hu
    obtain ⟨-, hnil⟩ | ⟨hne, hcons⟩ := pending_of_held hheld
    · rw [← hpending, hnil] at hu
      cases hu
    · rw [← hpending, hcons] at hu
      obtain ⟨rfl, -⟩ := List.cons.inj hu
      exact fun hmem => ht ⟨hne, hmem⟩

theorem pending_of_accept_true {kinds : List Kind} {c c' : Cursor TokenList} {t : Token}
    (h : accept TokenList.source kinds c = .ok (t, true) c') :
    t.kind ∈ kinds ∧ pending c = t :: pending c' := by
  obtain ⟨_, _, haccept, hmem, hcons⟩ | ⟨_, _, haccept, -⟩ := accept_cases kinds c
  · rw [h] at haccept
    cases haccept
    exact ⟨hmem, hcons⟩
  · rw [h] at haccept
    cases haccept

theorem pending_of_accept_false {kinds : List Kind} {c c' : Cursor TokenList} {t : Token}
    (h : accept TokenList.source kinds c = .ok (t, false) c') : pending c' = pending c := by
  obtain ⟨_, _, haccept, -⟩ | ⟨_, _, haccept, hpending, -⟩ := accept_cases kinds c
  · rw [h] at haccept
    cases haccept
  · rw [h] at haccept
    cases haccept
    exact hpending

theorem accept_of_mem {kinds : List Kind} {c : Cursor TokenList} {t : Token} {us : List Token}
    (h : pending c = t :: us) (ht : t.kind ∈ kinds) :
    ∃ c', accept TokenList.source kinds c = .ok (t, true) c' ∧ pending c' = us := by
  obtain ⟨u, c', haccept, -, hcons⟩ | ⟨_, _, _, _, hother⟩ := accept_cases kinds c
  · rw [h] at hcons
    obtain ⟨rfl, rfl⟩ := List.cons.inj hcons
    exact ⟨c', haccept, rfl⟩
  · exact absurd ht (hother t us h)

theorem accept_of_notNext {kinds : List Kind} {c : Cursor TokenList}
    (h : NotNext kinds (pending c)) :
    ∃ t c', accept TokenList.source kinds c = .ok (t, false) c' ∧ pending c' = pending c := by
  obtain ⟨u, c', -, hu, hcons⟩ | ⟨t, c', haccept, hpending, -⟩ := accept_cases kinds c
  · exact absurd hu (h u _ hcons)
  · exact ⟨t, c', haccept, hpending⟩

section Sound

variable {limit room : Nat}

/-- A tree derived within the limits, with its height beside it. -/
def Fits (limit room : Nat) (r : Phrase) (ts : List Token) (tree : Tree) : Prop :=
  tree.height = tree.expr.height ∧ tree.height ≤ limit ∧ ∃ n < room, Derives r ts tree.expr n

/-- A step that succeeds only by using up the tokens of a phrase. -/
def Reads (limit room : Nat) (r : Phrase) (m : Step TokenList Empty Tree) : Prop :=
  ∀ c tree c', m c = .ok tree c' →
    ∃ us, pending c = us ++ pending c' ∧ Fits limit room r us tree

/-- What the loop over operators keeps: the tree so far belongs to the tokens used up so far. -/
theorem reads_chainFrom {l : Level} {operand : Step TokenList Empty Tree}
    (hoperand : Reads limit room l.operand operand) (left : Tree) :
    ∀ ts, Fits limit room (.level l) ts left → ∀ c tree c',
      chainFrom TokenList.source limit l.operators operand left c = .ok tree c' →
      ∃ us, pending c = us ++ pending c' ∧ Fits limit room (.level l) (ts ++ us) tree := by
  induction left using chainFrom.induct limit with
  | case1 left ih =>
    intro ts hleft c tree c' h
    obtain ⟨t, haccept, rfl⟩ | ⟨op, c₁, right, c₂, haccept, hright, hmax, h⟩ := chainFrom_eq_ok h
    · refine ⟨[], (pending_of_accept_false haccept).symm, ?_⟩
      rwa [List.append_nil]
    · obtain ⟨hmem, hcons⟩ := pending_of_accept_true haccept
      obtain ⟨us, hus, hheight', -, n, hn, hderives'⟩ := hoperand c₁ right c₂ hright
      obtain ⟨hheight, -, m, hm, hderives⟩ := hleft
      have hbinary : Fits limit room (.level l) (ts ++ op :: us)
          ⟨.binary left.expr op right.expr, max left.height right.height + 1⟩ :=
        ⟨by simp only [Expr.height, hheight, hheight'], hmax, max m n, Nat.max_lt.mpr ⟨hm, hn⟩,
          .binary hmem hderives hderives'⟩
      obtain ⟨vs, hvs, htree⟩ := ih op right hmax _ hbinary c₂ tree c' h
      refine ⟨op :: us ++ vs, ?_, ?_⟩
      · rw [hcons, hus, hvs, List.append_assoc, List.cons_append]
      · rwa [List.append_assoc] at htree

theorem reads_chain {l : Level} {operand : Step TokenList Empty Tree}
    (hoperand : Reads limit room l.operand operand) :
    Reads limit room (.level l) (chain TokenList.source limit l.operators operand) := by
  intro c tree c' h
  obtain ⟨first, c₁, hfirst, h⟩ := bind_eq_ok h
  obtain ⟨us, hus, hheight, hlimit, n, hn, hderives⟩ := hoperand c first c₁ hfirst
  obtain ⟨vs, hvs, htree⟩ :=
    reads_chainFrom hoperand first us ⟨hheight, hlimit, n, hn, .operand hderives⟩ c₁ tree c' h
  exact ⟨us ++ vs, by rw [hus, hvs, List.append_assoc], htree⟩

theorem reads_equality (h : Reads limit room .unary (unary TokenList.source limit room)) :
    Reads limit room (.level .equality) (step TokenList.source limit room (.level .equality)) := by
  have hfactor := reads_chain (l := .factor) h
  have hterm := reads_chain (l := .term) hfactor
  have hcomparison := reads_chain (l := .comparison) hterm
  exact reads_chain (l := .equality) hcomparison

theorem reads_primary {inner : Step TokenList Empty Tree} (hlimit : 0 < limit)
    (hinner : Reads limit room (.level .equality) inner) :
    Reads limit (room + 1) .primary (primary TokenList.source inner) := by
  intro c tree c' h
  obtain ⟨t, c₁, hpeek, hheld, hpending⟩ := peek_pending c
  rw [primary_of_peek hpeek] at h
  obtain ⟨heof, -⟩ | ⟨-, hcons⟩ := pending_of_held hheld
  · simp [heof, literal?] at h
  rw [hpending] at hcons
  split at h
  · next hleft =>
    obtain ⟨c₂, close, hinside, hclose⟩ := group_eq_ok h
    obtain ⟨hmem, hcons'⟩ := pending_of_accept_true hclose
    obtain ⟨us, hus, hheight, hmax, n, hn, hderives⟩ := hinner _ tree c₂ hinside
    refine ⟨t :: (us ++ [close]), ?_, hheight, hmax, n + 1, by omega, ?_⟩
    · rw [hcons, hus, hcons']
      simp
    · exact .group hleft (List.mem_singleton.mp hmem) hderives
  · split at h
    · next v hv =>
      cases h
      exact ⟨[t], hcons, rfl, hlimit, 0, by omega, .literal hv⟩
    · cases h

theorem reads_unary (h : room ≤ limit) :
    Reads limit room .unary (unary TokenList.source limit room) := by
  induction room with
  | zero => exact fun c tree c' h => absurd h unary_zero_ne_ok
  | succ room ih =>
    intro c tree c' hrun
    obtain ⟨t, c₁, haccept, hprimary⟩ | ⟨op, c₁, inner, haccept, hinner, hmax, rfl⟩ :=
      unary_eq_ok hrun
    · obtain ⟨us, hus, hheight, hlimit, n, hn, hderives⟩ :=
        reads_primary (by omega) (reads_equality (ih (by omega))) c₁ tree c' hprimary
      rw [pending_of_accept_false haccept] at hus
      exact ⟨us, hus, hheight, hlimit, n, hn, .primary hderives⟩
    · obtain ⟨hmem, hcons⟩ := pending_of_accept_true haccept
      obtain ⟨us, hus, hheight, -, n, hn, hderives⟩ := ih (by omega) c₁ inner c' hinner
      exact ⟨op :: us, by rw [hcons, hus]; rfl, by simp only [Expr.height, hheight], hmax, n + 1,
        by omega, .unary hmem hderives⟩

end Sound

section Complete

variable {limit room : Nat}

/-- Having read the tokens of a phrase, the parser is at `rest` with the tree of the phrase. On a
level of operators it is then in the loop that looks for one more operator. -/
def Arrives (limit room : Nat) (e : Expr) (c : Cursor TokenList) (rest : List Token) :
    Phrase → Prop
  | .level l => NotNext l.operand.continuing rest → ∃ c', pending c' = rest ∧
      step TokenList.source limit room (.level l) c =
        chainFrom TokenList.source limit l.operators (step TokenList.source limit room l.operand)
          ⟨e, e.height⟩ c'
  | r => ∃ c', pending c' = rest ∧ step TokenList.source limit room r c = .ok ⟨e, e.height⟩ c'

theorem notNext_cons {kinds : List Kind} {t : Token} {ts : List Token} :
    NotNext kinds (t :: ts) ↔ t.kind ∉ kinds := by
  constructor
  · intro h
    exact h t ts rfl
  · rintro h u us hu
    obtain ⟨rfl, -⟩ := List.cons.inj hu
    exact h

theorem ok_of_arrives {r : Phrase} {e : Expr} {c : Cursor TokenList} {rest : List Token}
    (h : Arrives limit room e c rest r) (hrest : NotNext r.continuing rest) :
    ∃ c', pending c' = rest ∧ step TokenList.source limit room r c = .ok ⟨e, e.height⟩ c' := by
  cases r with
  | unary | primary => exact h
  | level l =>
    rw [continuing_level] at hrest
    obtain ⟨c₁, hc₁, hrun⟩ := h fun t us ht hmem => hrest t us ht (List.mem_append_right _ hmem)
    have hstop : NotNext l.operators (pending c₁) := by
      rw [hc₁]
      exact fun t us ht hmem => hrest t us ht (List.mem_append_left _ hmem)
    obtain ⟨t, c₂, haccept, hc₂⟩ := accept_of_notNext hstop
    exact ⟨c₂, hc₂.trans hc₁, by rw [hrun, chainFrom_of_other haccept]⟩

theorem arrives_of_derives {r : Phrase} {ts : List Token} {e : Expr} {n : Nat}
    (h : Derives r ts e n) : ∀ room, n < room → e.height ≤ limit → ∀ c rest,
      pending c = ts ++ rest → Arrives limit room e c rest r := by
  induction h with
  | @literal t v value =>
    intro room _ _ c rest hc
    obtain ⟨c₁, hpeek, hc₁⟩ := peek_of_pending hc
    refine ⟨_, hc₁, ?_⟩
    change primary TokenList.source _ c = _
    rw [primary_of_peek hpeek, if_neg (by intro hk; simp [literal?, hk] at value), value]
    rfl
  | @group left right ts e n hleft hright inner ih =>
    intro room hroom hlimit c rest hc
    obtain ⟨room, rfl⟩ : ∃ k, room = k + 1 := ⟨room - 1, by omega⟩
    rw [List.cons_append, List.append_assoc] at hc
    obtain ⟨c₁, hpeek, hc₁⟩ := peek_of_pending hc
    -- no operator is a right parenthesis, so the inner expression ends before it
    have hclose : NotNext (Phrase.level .equality).continuing (right :: rest) := by
      rw [notNext_cons, hright]
      decide
    obtain ⟨c₂, hc₂, hinner⟩ :=
      ok_of_arrives (ih room (by omega) hlimit _ (right :: rest) hc₁) hclose
    obtain ⟨c₃, haccept, hc₃⟩ := accept_of_mem hc₂ (List.mem_singleton.mpr hright)
    refine ⟨c₃, hc₃, ?_⟩
    rw [step_primary, primary_of_peek hpeek, if_pos hleft]
    exact group_of_ok hinner haccept
  | @primary ts e n h ih =>
    intro room hroom hlimit c rest hc
    obtain ⟨room, rfl⟩ : ∃ k, room = k + 1 := ⟨room - 1, by omega⟩
    obtain ⟨t, us, rfl, hfirst⟩ := primary_first h
    have hnext : NotNext [Kind.bang, .minus] (pending c) := by
      rw [hc]
      exact notNext_cons.mpr hfirst
    obtain ⟨u, c₁, haccept, hc₁⟩ := accept_of_notNext hnext
    obtain ⟨c₂, hc₂, hrun⟩ := ih (room + 1) hroom hlimit c₁ rest (hc₁.trans hc)
    refine ⟨c₂, hc₂, ?_⟩
    rw [step_unary, unary_of_other haccept]
    exact hrun
  | @unary op ts e n hop operand ih =>
    intro room hroom hlimit c rest hc
    obtain ⟨room, rfl⟩ : ∃ k, room = k + 1 := ⟨room - 1, by omega⟩
    simp only [Expr.height] at hlimit
    obtain ⟨c₁, haccept, hc₁⟩ := accept_of_mem hc hop
    obtain ⟨c₂, hc₂, hrun⟩ := ih room (by omega) (by omega) c₁ rest hc₁
    exact ⟨c₂, hc₂, unary_of_operator haccept hrun hlimit⟩
  | @operand l ts e n h ih =>
    intro room hroom hlimit c rest hc hrest
    obtain ⟨c', hc', hrun⟩ := ok_of_arrives (ih room hroom hlimit c rest hc) hrest
    refine ⟨c', hc', ?_⟩
    rw [step_level]
    exact bind_of_ok hrun
  | @binary l op ts us left right m n hop hleft hright ihl ihr =>
    intro room hroom hlimit c rest hc hrest
    simp only [Expr.height] at hlimit
    rw [List.append_assoc] at hc
    -- the left part ends in the loop of this level, where its operator is found
    obtain ⟨c₁, hc₁, hrun⟩ := ihl room (by omega) (by omega) c (op :: us ++ rest) hc
      (notNext_cons.mpr (not_mem_continuing_operand hop))
    obtain ⟨c₂, haccept, hc₂⟩ := accept_of_mem hc₁ hop
    obtain ⟨c₃, hc₃, hright⟩ := ok_of_arrives (ihr room (by omega) (by omega) c₂ rest hc₂) hrest
    exact ⟨c₃, hc₃, hrun.trans (chainFrom_of_operator haccept hright hlimit)⟩

end Complete

theorem whole_eq_ok_iff (limit : Nat) (c : Cursor TokenList) (e : Expr) :
    (∃ c', whole TokenList.source limit c = .ok e c') ↔
      ∃ n < limit, Derives (.level .equality) (pending c) e n ∧ e.height ≤ limit := by
  constructor
  · rintro ⟨c', h⟩
    rw [whole] at h
    obtain ⟨tree, c₁, hrun, h⟩ := bind_eq_ok h
    obtain ⟨us, hus, hheight, hlimit, n, hn, hderives⟩ :=
      reads_equality (reads_unary (Nat.le_refl limit)) c tree c₁ hrun
    obtain ⟨t, c₂, hpeek, hheld, hpending⟩ := peek_pending c₁
    rw [bind_of_ok hpeek] at h
    split at h
    · next heof =>
      cases h
      obtain ⟨-, hnil⟩ | ⟨hne, -⟩ := pending_of_held hheld
      · rw [← hpending, hnil, List.append_nil] at hus
        exact ⟨n, hn, by rwa [hus], by omega⟩
      · exact absurd heof hne
    · cases h
  · rintro ⟨n, hn, hderives, hlimit⟩
    have harrives := arrives_of_derives hderives limit hn hlimit c [] (List.append_nil _).symm
    obtain ⟨c₁, hc₁, hrun⟩ := ok_of_arrives harrives (by intro t us h; cases h)
    rw [step_equality] at hrun
    obtain ⟨t, c₂, hpeek, hheld, hpending⟩ := peek_pending c₁
    obtain ⟨heof, -⟩ | ⟨-, hcons⟩ := pending_of_held hheld
    · refine ⟨c₂, ?_⟩
      rw [whole, bind_of_ok hrun, bind_of_ok hpeek, if_pos heof]
      rfl
    · -- all tokens are used up, so the one that is held is the end token
      rw [hpending, hc₁] at hcons
      cases hcons

theorem pending_start (ts : List Token) (hts : ∀ t ∈ ts, t.kind ≠ .eof) :
    pending (.start (.ofList ts)) = ts := by
  change ts.takeWhile (fun t => decide (t.kind ≠ .eof)) = ts
  rw [List.takeWhile_eq_self_iff]
  intro t ht
  exact decide_eq_true (hts t ht)

/-- The grammar is unambiguous, also beyond the limits. -/
theorem derives_unique {ts : List Token} (hts : ∀ t ∈ ts, t.kind ≠ .eof) {e₁ e₂ : Expr}
    {n₁ n₂ : Nat} (h₁ : Derives (.level .equality) ts e₁ n₁)
    (h₂ : Derives (.level .equality) ts e₂ n₂) : e₁ = e₂ := by
  -- the parser is a function, and with a limit this large it gives both trees
  let limit := n₁ + n₂ + e₁.height + e₂.height + 1
  have accepted (e : Expr) := whole_eq_ok_iff limit (.start (.ofList ts)) e
  rw [pending_start ts hts] at accepted
  obtain ⟨c₁, hrun₁⟩ := (accepted e₁).mpr ⟨n₁, by omega, h₁, by omega⟩
  obtain ⟨c₂, hrun₂⟩ := (accepted e₂).mpr ⟨n₂, by omega, h₂, by omega⟩
  rw [hrun₁] at hrun₂
  cases hrun₂
  rfl

theorem parse_eq_ok_iff {σ ε : Type} {src : TokenSource σ ε} {c : Cursor σ} {e : Expr} :
    (parse src c).1 = .ok e ↔ ∃ c', whole src maxDepth c = .ok e c' := by
  unfold parse
  cases whole src maxDepth c <;> simp

/-- A list of tokens without an end token is accepted with the tree `e` exactly when the grammar
derives it with that tree, no literal has more than `maxDepth - 1` parentheses and unary operators
around it, and the tree is at most `maxDepth` high. There is no second tree. -/
theorem parse_eq_ok_iff_derives (ts : List Token) (hts : ∀ t ∈ ts, t.kind ≠ .eof) (e : Expr) :
    ((parse TokenList.source (.start (.ofList ts))).1 = .ok e ↔
      ∃ n, Derives (.level .equality) ts e n ∧ n ≤ maxDepth - 1 ∧ e.height ≤ maxDepth) ∧
    ∀ e₁ e₂ n₁ n₂, Derives (.level .equality) ts e₁ n₁ → Derives (.level .equality) ts e₂ n₂ →
      e₁ = e₂ := by
  refine ⟨?_, fun e₁ e₂ n₁ n₂ h₁ h₂ => derives_unique hts h₁ h₂⟩
  rw [parse_eq_ok_iff, whole_eq_ok_iff, pending_start ts hts]
  constructor
  · rintro ⟨n, hn, hderives, hheight⟩
    exact ⟨n, hderives, by omega, hheight⟩
  · rintro ⟨n, hderives, hn, hheight⟩
    exact ⟨n, by unfold maxDepth at *; omega, hderives, hheight⟩

/-- A token without payload on the first line. -/
def mark (kind : Kind) (lexeme : String) (column : Int64) : Token :=
  ⟨kind, utf8 lexeme, ⟨1, column⟩, none⟩

def negatedTokens : List Token :=
  [mark .bang "!" 1, mark .leftParen "(" 2, mark .trueWord "true" 3, mark .equalEqual "==" 8,
   mark .minus "-" 11, mark .nilWord "nil" 12, mark .rightParen ")" 15]

def negatedTree : Expr :=
  .unary (mark .bang "!" 1)
    (.binary (.literal (mark .trueWord "true" 3) (.boolean true)) (mark .equalEqual "==" 8)
      (.unary (mark .minus "-" 11) (.literal (mark .nilWord "nil" 12) .nil)))

theorem negatedTokens_derived : Derives (.level .equality) negatedTokens negatedTree 3 := by
  have lift {ts : List Token} {e : Expr} {n : Nat} (h : Derives .unary ts e n) :
      Derives (.level .comparison) ts e n := .operand (.operand (.operand h))
  have hleft : Derives (.level .equality) [mark .trueWord "true" 3] _ 0 :=
    .operand (lift (.primary (.literal rfl)))
  have hnil : Derives .unary [mark .nilWord "nil" 12] _ 0 := .primary (.literal rfl)
  have hop : (mark .minus "-" 11).kind ∈ [Kind.bang, .minus] := by decide
  have hequal : (mark .equalEqual "==" 8).kind ∈ Level.equality.operators := by decide
  have hinner := Derives.binary hequal hleft (lift (.unary hop hnil))
  have hgroup : Derives .primary (mark .leftParen "(" 2 :: (_ ++ [mark .rightParen ")" 15])) _ _ :=
    .group rfl rfl hinner
  have hbang : (mark .bang "!" 1).kind ∈ [Kind.bang, .minus] := by decide
  exact .operand (lift (.unary hbang (.primary hgroup)))

theorem parse_negatedTokens :
    (∀ t ∈ negatedTokens, t.kind ≠ .eof) ∧
      (parse TokenList.source (.start (.ofList negatedTokens))).1 = .ok negatedTree :=
  ⟨by decide, (parse_eq_ok_iff_derives negatedTokens (by decide) negatedTree).1.mpr
    ⟨3, negatedTokens_derived, by decide, by decide⟩⟩

end ExprCalc.Parser
