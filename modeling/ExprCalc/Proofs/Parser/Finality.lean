import ExprCalc.Proofs.Parser.Simulation
import ExprCalc.Proofs.Parser.Lockstep

namespace ExprCalc.Parser

open Grammar

variable {σ ε : Type} {src : TokenSource σ ε} {limit : Nat}

section AtEnd

variable {t : Token} {s : σ}

theorem unary_at_end (ht : t.kind = .eof) (room : Nat) :
    unary src limit room ⟨some t, s⟩ = .error (.syntax_ (.unexpected t)) ⟨some t, s⟩ := by
  have haccept : accept src [.bang, .minus] ⟨some t, s⟩ = .ok (t, false) ⟨some t, s⟩ :=
    accept_of_not_mem rfl (by rw [ht]; decide)
  cases room with
  | zero =>
    rw [unary, bind_of_ok haccept]
    rfl
  | succ room =>
    have hnone : literal? t = none := by
      simp only [literal?, ht]
    rw [unary_of_other haccept, primary_of_peek rfl, hnone, ht]
    rfl

/-- A call fails at the end token that is held, and leaves it there. -/
theorem parse_at_end (ht : t.kind = .eof) :
    parse src ⟨some t, s⟩ = (.error (.syntax_ (.unexpected t)), ⟨some t, s⟩) := by
  have hequality : equality src maxDepth (unary src maxDepth maxDepth) ⟨some t, s⟩ = _ :=
    chain_of_error <| chain_of_error <| chain_of_error <| chain_of_error <| unary_at_end ht _
  rw [parse, whole, bind_of_error hequality]

end AtEnd

def afterCalls (src : TokenSource σ ε) : (n : Nat) → Cursor σ → Cursor σ
  | 0, c => c
  | n + 1, c => afterCalls src n (parse src c).2

theorem afterCalls_add (n m : Nat) (c : Cursor σ) :
    afterCalls src (n + m) c = afterCalls src m (afterCalls src n c) := by
  induction n generalizing c with
  | zero => rw [Nat.zero_add, afterCalls]
  | succ n ih => rw [Nat.succ_add, afterCalls, ih, afterCalls]

theorem answers_succ (fault : ε → Failure) (n : Nat) (c : Cursor σ) :
    answers src fault (n + 1) c =
      (parse src c).1.mapError (Stop.toFailure fault) :: answers src fault n (parse src c).2 :=
  rfl

theorem answers_add (fault : ε → Failure) (n m : Nat) (c : Cursor σ) :
    answers src fault (n + m) c =
      answers src fault n c ++ answers src fault m (afterCalls src n c) := by
  induction n generalizing c with
  | zero => rw [Nat.zero_add, answers, afterCalls, List.nil_append]
  | succ n ih =>
    rw [Nat.succ_add, answers_succ, ih, answers_succ, afterCalls, List.cons_append]

theorem afterCalls_at_end {t : Token} {s : σ} (ht : t.kind = .eof) (n : Nat) :
    afterCalls src n ⟨some t, s⟩ = ⟨some t, s⟩ := by
  induction n with
  | zero => rfl
  | succ n ih => rw [afterCalls, parse_at_end ht, ih]

theorem answers_at_end {t : Token} {s : σ} (fault : ε → Failure) (ht : t.kind = .eof) (n : Nat) :
    answers src fault n ⟨some t, s⟩ = List.replicate n (.error (.ofSyntax (.unexpected t))) := by
  induction n with
  | zero => rfl
  | succ n ih =>
    rw [answers_succ, parse_at_end ht, ih]
    rfl

abbrev WithRecord (σ ε : Type) := σ × List (Except ε Token)

/-- The source `src` with a record of its answers. -/
def recorded (src : TokenSource σ ε) : TokenSource (WithRecord σ ε) ε where
  next := fun (s, record) => ((src.next s).1, (src.next s).2, record ++ [(src.next s).1])

/-- All answers that the source has given to a new parser in `n` calls. -/
def record (src : TokenSource σ ε) (s : σ) (n : Nat) : List (Except ε Token) :=
  (afterCalls (recorded src) n (.start (s, []))).rest.2

theorem parse_recorded (c : Cursor (WithRecord σ ε)) :
    parse src ⟨c.held, c.rest.1⟩ =
      ((parse (recorded src) c).1,
        ⟨(parse (recorded src) c).2.held, (parse (recorded src) c).2.rest.1⟩) :=
  Simulation.parse_projected (f := Prod.fst) (fun _ => rfl) c

theorem afterCalls_recorded (n : Nat) (c : Cursor (WithRecord σ ε)) :
    afterCalls src n ⟨c.held, c.rest.1⟩ =
      ⟨(afterCalls (recorded src) n c).held, (afterCalls (recorded src) n c).rest.1⟩ := by
  induction n generalizing c with
  | zero => rfl
  | succ n ih => rw [afterCalls, parse_recorded, ih, afterCalls]

theorem answers_recorded (fault : ε → Failure) (n : Nat) (c : Cursor (WithRecord σ ε)) :
    answers (recorded src) fault n c = answers src fault n ⟨c.held, c.rest.1⟩ := by
  induction n generalizing c with
  | zero => rfl
  | succ n ih => rw [answers_succ, answers_succ, ih, parse_recorded]

def Unended (record : List (Except ε Token)) : Prop :=
  ∀ t, .ok t ∈ record → t.kind ≠ .eof

/-- No end token has come, or one has come last and is held. -/
inductive Final : Cursor (WithRecord σ ε) → Prop
  | open_ {held : Option Token} {s : σ} {record : List (Except ε Token)} (h : Unended record) :
      Final ⟨held, s, record⟩
  | ended {t : Token} {s : σ} {record : List (Except ε Token)} (ht : t.kind = .eof)
      (h : Unended record) : Final ⟨some t, s, record ++ [.ok t]⟩

theorem Unended.concat {record : List (Except ε Token)} (h : Unended record) {item : Except ε Token}
    (hitem : ∀ t, item = .ok t → t.kind ≠ .eof) : Unended (record ++ [item]) := by
  intro t ht
  obtain ht | ht := List.mem_append.mp ht
  · exact h t ht
  · exact hitem t (List.mem_singleton.mp ht).symm

/-- Every step keeps an end token that has come, and asks for no other. -/
theorem final_step {m m' : Machine (WithRecord σ ε) ε} {ts : List Token}
    (h : Final m.cursor) (hstep : m.step (recorded src) limit = some (ts, m')) :
    Final m'.cursor := by
  obtain ⟨core, c⟩ := m
  obtain ⟨next, -, -, rfl⟩ | ⟨look, t, hmove, hheld, -, rfl⟩ |
    ⟨look, t, rest, hmove, hheld, hnext, -, rfl⟩ | ⟨look, e, rest, -, hheld, hnext, -, rfl⟩ :=
    step_cases hstep
  · exact h
  · cases h with
    | open_ h => exact .open_ h
    | ended ht h =>
      cases hheld
      have hleft := (Core.looks_of_move hmove).left_of_eof ht
      simp only [Machine.looked, hleft]
      exact .ended ht h
  -- the source is asked only as long as no end token has come
  · cases h with
    | ended => cases hheld
    | open_ h =>
      obtain ⟨hitem, rfl⟩ := Prod.mk.inj hnext
      simp only [hitem]
      by_cases ht : t.kind = .eof
      · have hleft := (Core.looks_of_move hmove).left_of_eof ht
        simp only [Machine.looked, hleft]
        exact .ended ht h
      · refine .open_ (h.concat ?_)
        rintro _ ⟨⟩
        exact ht
  · cases h with
    | ended => cases hheld
    | open_ h =>
      obtain ⟨hitem, rfl⟩ := Prod.mk.inj hnext
      simp only [hitem]
      refine .open_ (h.concat ?_)
      rintro _ ⟨⟩

theorem final_parse {c : Cursor (WithRecord σ ε)} (h : Final c) :
    Final (parse (recorded src) c).2 := by
  obtain ⟨result, p, hcall, hparse⟩ := exists_parse_call (recorded src) c 0
  have hfinal : Final (p.returned result).cursor :=
    Reaches.invariant (P := fun m => Final m.cursor) hcall h fun _ _ _ => final_step
  rw [Memory.returned_cursor] at hfinal
  rw [hparse]
  exact hfinal

theorem final_afterCalls (n : Nat) {c : Cursor (WithRecord σ ε)} (h : Final c) :
    Final (afterCalls (recorded src) n c) := by
  induction n generalizing c with
  | zero => exact h
  | succ n ih => exact ih (final_parse h)

/-- An end token that has come in `n` calls came last, and is held after them. -/
theorem exists_ended {s : σ} {n : Nat} {t : Token} (h : .ok t ∈ record src s n)
    (ht : t.kind = .eof) :
    ∃ s' before, afterCalls (recorded src) n (.start (s, [])) =
      ⟨some t, s', before ++ [.ok t]⟩ ∧ Unended before := by
  have hfinal : Final (afterCalls (recorded src) n (.start (s, []))) :=
    final_afterCalls n (.open_ fun _ hmem => absurd hmem List.not_mem_nil)
  unfold record at h
  generalize afterCalls (recorded src) n (.start (s, [])) = c at hfinal h ⊢
  cases hfinal with
  | open_ hnone => exact absurd ht (hnone t h)
  | @ended u s' before hu hnone =>
    obtain h | h := List.mem_append.mp h
    · exact absurd ht (hnone t h)
    · cases List.mem_singleton.mp h
      exact ⟨s', before, rfl, hnone⟩

/-- A list with more tokens behind an end token, and the list that stops there. -/
def listedCut : Lockstep TokenList.source TokenList.source where
  near := Eq
  Related list list' := ∃ before t behind, t.kind = .eof ∧
    list.rest = before ++ t :: behind ∧ list'.rest = before ++ [t]
  next := by
    rintro ⟨_, finish⟩ ⟨_, finish'⟩ ⟨before, t, behind, ht, rfl, rfl⟩
    cases before with
    | nil =>
      exact ⟨t, ⟨behind, finish⟩, t, ⟨[], finish'⟩, rfl, rfl, .same t, fun hne => absurd ht hne⟩
    | cons u before =>
      exact ⟨u, ⟨before ++ t :: behind, finish⟩, u, ⟨before ++ [t], finish'⟩, rfl, rfl, .same u,
        fun _ => ⟨before, t, behind, ht, rfl, rfl⟩⟩

theorem answers_cut {before behind : List Token} {t : Token} (ht : t.kind = .eof) (n : Nat) :
    answers TokenList.source Empty.elim n (.start (.ofList (before ++ t :: behind))) =
      answers TokenList.source Empty.elim n (.start (.ofList (before ++ [t]))) := by
  have hstart : listedCut.Cursors (.start (.ofList (before ++ t :: behind)))
      (.start (.ofList (before ++ [t]))) := .empty ⟨before, t, behind, ht, rfl, rfl⟩
  have halike := listedCut.answers_alike Empty.elim Empty.elim n hstart
  exact List.forall₂_eq_eq_eq ▸ halike.imp fun _ _ => AlikeAnswers.eq

/-- Nothing comes after the end token. All calls of a parser on a list of tokens give the answers of
the same calls on the list up to its first end token. Whatever the source is, the first end token
that it delivers is its last answer: it is not asked again in any later call, and all of them fail
at this token. The record of the answers makes no difference to the calls. -/
theorem end_token_is_final :
    (∀ (tokens : List Token) (k : Nat), tokens.findIdx? (fun t => t.kind = .eof) = some k →
      ∀ n, answers TokenList.source Empty.elim n (.start (.ofList tokens)) =
        answers TokenList.source Empty.elim n (.start (.ofList (tokens.take (k + 1))))) ∧
    ∀ (σ ε : Type) (src : TokenSource σ ε) (fault : ε → Failure) (s : σ) (n : Nat),
      answers (recorded src) fault n (.start (s, [])) = answers src fault n (.start s) ∧
      ∀ t, .ok t ∈ record src s n → t.kind = .eof →
        (∃ before, record src s n = before ++ [.ok t] ∧ Unended before) ∧
        ∀ m, record src s (n + m) = record src s n ∧
          answers src fault (n + m) (.start s) =
            answers src fault n (.start s) ++
              List.replicate m (.error (.ofSyntax (.unexpected t))) := by
  constructor
  · intro tokens k hk n
    obtain ⟨hlt, ht, -⟩ := List.findIdx?_eq_some_iff_getElem.mp hk
    have hsplit : tokens = tokens.take k ++ tokens[k] :: tokens.drop (k + 1) := by
      rw [List.getElem_cons_drop, List.take_append_drop]
    have htake : tokens.take (k + 1) = tokens.take k ++ [tokens[k]] :=
      (List.take_append_getElem hlt).symm
    rw [htake]
    nth_rewrite 1 [hsplit]
    exact answers_cut (of_decide_eq_true ht) n
  · intro σ ε src fault s n
    refine ⟨answers_recorded fault n _, ?_⟩
    intro t hmem ht
    -- the parser holds the end token from here on, and a call that finds it held asks for none
    obtain ⟨s', before, hcalls, hnone⟩ := exists_ended hmem ht
    have hplain : afterCalls src n (.start s) = ⟨some t, s'⟩ := by
      have hsame : afterCalls src n (.start s) = _ := afterCalls_recorded n (.start (s, []))
      rw [hsame, hcalls]
    refine ⟨⟨before, by rw [record, hcalls], hnone⟩, fun m => ⟨?_, ?_⟩⟩
    · rw [record, afterCalls_add, hcalls, afterCalls_at_end ht, record, hcalls]
    · rw [answers_add, hplain, answers_at_end fault ht]

end ExprCalc.Parser
