import ExprCalc.Proofs.Parser.Viable

namespace ExprCalc.Parser

open Grammar

variable {σ ε : Type} {limit : Nat}

/-- What the tokens used up so far have to do with the running call. -/
def Control.Spells (stack : List Frame) (us : List Token) : Control ε → Prop
  | .call r => Open stack r us
  | .unary => Open stack .unary us
  | .loop l left _ => ∃ xs ts n, us = xs ++ ts ∧ Open stack (.level l) xs ∧
      Derives (.level l) ts left n
  | .close e => ∃ xs paren ts n, us = xs ++ paren :: ts ∧ Open stack .primary xs ∧
      paren.kind = .leftParen ∧ Derives (.level .equality) ts e n
  | .done e => ∃ r xs ts n, us = xs ++ ts ∧ Open stack r xs ∧ Derives r ts e n
  | .accepted e => ∃ n, Derives (.level .equality) us e n
  | .failed _ => True

/-- A syntax error is about the last of the tokens. Those before it begin an expression, and the
error says whether a right parenthesis is missing after them. -/
def Fault.Blames (ps : List Token) : Fault ε → Prop
  | .stop (.syntax_ err) => ∃ us, ps = us ++ [err.found] ∧ Viable us ∧
      (EndsInGroup us → err = .expected .rightParen err.found) ∧
      (¬ EndsInGroup us → err = .unexpected err.found)
  | .stop (.source _) | .limit _ => True

/-- The tokens `ps` that the call has taken from its source are those used up and the one held. -/
def Core.Tracks (core : Core ε) (held : Option Token) (ps : List Token) : Prop :=
  match core.control with
  | .failed fault => fault.Blames ps
  | control => ∃ us, ps = us ++ held.toList ∧ control.Spells core.stack us

section Tracks

variable {core next : Core ε} {held : Option Token} {ps us : List Token}

theorem tracks_resume {depth height : Nat} {e : Expr} {frame : Frame} {stack : List Frame}
    (h : (Control.done e : Control ε).Spells (frame :: stack) us) :
    (Core.resume limit ⟨depth, height, .done e, stack⟩ e frame : Core ε).Tracks held
      (us ++ held.toList) := by
  obtain ⟨r, xs, ts, n, rfl, hopen, hderives⟩ := h
  cases hopen with
  | first hopen => exact ⟨_, rfl, xs, ts, n, rfl, hopen, .operand hderives⟩
  | @right l left height' m op stack xs ts' hopen hleft hop =>
    rw [Core.resume]
    split
    · exact ⟨_, rfl, xs, ts' ++ op :: ts, max m n, by simp, hopen, .binary hop hleft hderives⟩
    · trivial
  | primary hopen => exact ⟨_, rfl, .unary, xs, ts, n, rfl, hopen, .primary hderives⟩
  | @unary op stack xs hopen hop =>
    rw [Core.resume]
    split
    · exact ⟨_, rfl, .unary, xs, op :: ts, n + 1, by simp, hopen, .unary hop hderives⟩
    · trivial
  | @group paren stack xs hopen hparen =>
    exact ⟨_, rfl, xs, paren, ts, n, by simp, hopen, hparen, hderives⟩

theorem tracks_silent (h : core.Tracks held ps) (hmove : core.move limit = .silent next) :
    next.Tracks held ps := by
  cases Core.goesOn_of_move hmove with
  | level =>
    obtain ⟨us, rfl, hopen⟩ := h
    exact ⟨us, rfl, .first hopen⟩
  | unary => exact h
  | resume =>
    obtain ⟨us, rfl, hspells⟩ := h
    exact tracks_resume hspells
  | @unwind _ _ _ frame => cases frame <;> exact h

theorem tracks_of_failed {fault : Fault ε} (hcontrol : core.control = .failed fault)
    (h : fault.Blames ps) : core.Tracks held ps := by
  rw [Core.Tracks, hcontrol]
  exact h

theorem blames_limit (t : Token) : (Fault.limit t : Fault ε).Blames ps :=
  trivial

theorem blames_unexpected (t : Token) (hviable : Viable us) (h : ¬ EndsInGroup us) :
    (Fault.stop (.syntax_ (.unexpected t)) : Fault ε).Blames (us ++ [t]) :=
  ⟨us, rfl, hviable, fun hends => absurd hends h, fun _ => rfl⟩

theorem blames_expected (t : Token) (hviable : Viable us) (h : EndsInGroup us) :
    (Fault.stop (.syntax_ (.expected .rightParen t)) : Fault ε).Blames (us ++ [t]) :=
  ⟨us, rfl, hviable, fun _ => rfl, fun hnot => absurd h hnot⟩

/-- A look takes the token next to those used up, or finds it held. -/
theorem tracks_look {look : Token → Bool × Core ε} (h : core.control.Spells core.stack us)
    (hmove : core.move limit = .look look) (t : Token) :
    (look t).2.Tracks (if (look t).1 then none else some t) (us ++ [t]) := by
  have hused : us ++ [t] = us ++ [t] ++ none.toList := (List.append_nil _).symm
  cases Core.looks_of_move hmove with
  | @primary _ _ stack =>
    have hopen : Open stack .primary us := h
    rw [Core.primaryLook]
    split
    · next hparen => exact ⟨us ++ [t], hused, .group hopen hparen⟩
    · split
      · next v value =>
        exact ⟨us ++ [t], hused, .primary, us, [t], 0, rfl, hopen, .literal value⟩
      · exact tracks_of_failed rfl (blames_unexpected t hopen.viable_used hopen.not_endsInGroup)
  | @unary _ _ stack =>
    have hopen : Open stack .unary us := h
    simp only [Core.unaryLook]
    split
    · -- nothing is promised of a limit that fails
      exact tracks_of_failed rfl (blames_limit t)
    · split
      · next hop => exact ⟨us ++ [t], hused, .unary hopen hop⟩
      · exact ⟨us, rfl, .primary hopen⟩
  | @loop _ _ _ l =>
    obtain ⟨xs, ts, n, rfl, hopen, hderives⟩ := h
    rw [Core.loopLook]
    split
    · next hop => exact ⟨xs ++ ts ++ [t], hused, .right hopen hderives hop⟩
    · exact ⟨xs ++ ts, rfl, .level l, xs, ts, n, rfl, hopen, hderives⟩
  | close =>
    obtain ⟨xs, paren, ts, n, rfl, hopen, hparen, hderives⟩ := h
    rw [Core.closeLook]
    split
    · next hright =>
      exact ⟨xs ++ paren :: ts ++ [t], hused, .primary, xs, paren :: (ts ++ [t]), n + 1,
        by simp, hopen, .group hparen hright hderives⟩
    · -- after an operand inside a group only a closing parenthesis would do
      have hends := endsInGroup_of_open hopen hparen hderives
      have hviable : Viable (xs ++ [paren] ++ ts) := (Open.group hopen hparen).viable hderives
      rw [List.append_assoc, List.singleton_append] at hviable
      exact tracks_of_failed rfl (blames_expected t hviable hends)
  | finish =>
    obtain ⟨r, xs, ts, n, rfl, hopen, hderives⟩ := h
    cases hopen
    rw [Core.endLook]
    split
    · exact ⟨ts, rfl, n, hderives⟩
    · have hviable : Viable ts := ⟨[], _, n, by rwa [List.append_nil]⟩
      exact tracks_of_failed rfl
        (blames_unexpected t hviable (not_endsInGroup_of_derives hderives))

end Tracks

section Runs

variable {src : TokenSource σ ε} {m m' : Machine σ ε} {ps ts : List Token}

def Machine.Tracks (m : Machine σ ε) (ps : List Token) : Prop :=
  m.core.Tracks m.cursor.held ps

theorem spells_of_look {core : Core ε} {look : Token → Bool × Core ε} {held : Option Token}
    (h : core.Tracks held ps) (hmove : core.move limit = .look look) :
    ∃ us, ps = us ++ held.toList ∧ core.control.Spells core.stack us := by
  cases Core.looks_of_move hmove <;> exact h

theorem Machine.Tracks.step (h : m.Tracks ps) (hstep : m.step src limit = some (ts, m')) :
    m'.Tracks (ps ++ ts) := by
  obtain ⟨next, hmove, rfl, rfl⟩ | ⟨look, t, hmove, hheld, rfl, rfl⟩ |
    ⟨look, t, rest, hmove, hheld, -, rfl, rfl⟩ | ⟨look, e, rest, hmove, -, -, rfl, rfl⟩ :=
    step_cases hstep
  · rw [List.append_nil]
    exact tracks_silent h hmove
  · obtain ⟨us, rfl, hspells⟩ := spells_of_look h hmove
    rw [hheld, List.append_nil]
    exact tracks_look hspells hmove t
  · obtain ⟨us, rfl, hspells⟩ := spells_of_look h hmove
    rw [hheld, Option.toList_none, List.append_nil]
    exact tracks_look hspells hmove t
  · exact tracks_of_failed (fail_control _ _) trivial

theorem Run.tracks (h : Run src limit m ts m') (hm : m.Tracks ps) : m'.Tracks (ps ++ ts) := by
  induction h generalizing ps with
  | refl => rwa [List.append_nil]
  | step hstep _ ih =>
    rw [← List.append_assoc]
    exact ih (hm.step hstep)

theorem tracks_call (s : σ) : (Memory.call (ε := ε) (.start s)).Tracks [] :=
  ⟨[], rfl, .whole⟩

end Runs

/-- A check against the limit has failed. -/
def Control.exceeds : Control ε → Bool
  | .failed (.limit _) => true
  | _ => false

section Replay

variable {τ : Type} {limit' : Nat} (hle : limit ≤ limit')
include hle

theorem resume_of_le {core : Core ε} {e : Expr} {frame : Frame}
    (h : (core.resume limit e frame).control.exceeds = false) :
    core.resume limit' e frame = core.resume limit e frame := by
  cases frame with
  | right l left height op =>
    simp only [Core.resume] at h ⊢
    split at h
    · next hmax => rw [if_pos (hmax.trans hle), if_pos hmax]
    · cases h
  | unary op =>
    cases op with
    | none => rfl
    | some op =>
      simp only [Core.resume] at h ⊢
      split at h
      · next hmax => rw [if_pos (hmax.trans hle), if_pos hmax]
      · cases h
  | _ => rfl

theorem silent_of_le {core next : Core ε} (hmove : core.move limit = .silent next)
    (hnext : next.control.exceeds = false) : core.move limit' = .silent next := by
  cases Core.goesOn_of_move hmove with
  | level | unary | unwind => rfl
  | resume => exact congrArg Move.silent (resume_of_le hle hnext)

theorem look_of_le {core : Core ε} {look : Token → Bool × Core ε} {t : Token}
    (hmove : core.move limit = .look look) (hnext : (look t).2.control.exceeds = false) :
    ∃ look', core.move limit' = .look look' ∧ look' t = look t := by
  cases Core.looks_of_move hmove with
  | unary =>
    refine ⟨_, rfl, ?_⟩
    simp only [Core.unaryLook] at hnext ⊢
    split at hnext
    · rw [fail_control] at hnext
      cases hnext
    · next hroom => rw [if_neg (by omega), if_neg hroom]
  | primary | loop | close | finish => exact ⟨_, rfl, rfl⟩

variable {src : TokenSource σ Empty} {src' : TokenSource τ Empty} {m m' : Machine σ Empty}
  {s s' : τ} {ts : List Token}

theorem step_replay (hstep : m.step src limit = some (ts, m'))
    (hm' : m'.core.control.exceeds = false) (hpulls : Pulls src' s ts s') :
    Machine.step src' limit' ⟨m.core, m.cursor.held, s⟩ =
      some (ts, ⟨m'.core, m'.cursor.held, s'⟩) := by
  obtain ⟨next, hmove, rfl, rfl⟩ | ⟨look, t, hmove, hheld, rfl, rfl⟩ |
    ⟨look, t, rest, hmove, hheld, -, rfl, rfl⟩ | ⟨look, e, -⟩ := step_cases hstep
  · cases hpulls
    exact step_silent (silent_of_le hle hmove hm')
  · cases hpulls
    obtain ⟨look', hmove', hlook⟩ := look_of_le hle hmove hm'
    rw [hheld, step_held hmove', hlook]
    rfl
  · cases hpulls with
    | cons hnext hpulls =>
      cases hpulls
      obtain ⟨look', hmove', hlook⟩ := look_of_le hle hmove hm'
      rw [hheld, step_pull hmove' hnext, hlook]
      rfl
  · exact e.elim

/-- A run in which no limit is exceeded goes the same way on every source that delivers the same
tokens, with every limit that is not smaller. -/
theorem Run.replay (h : Run src limit m ts m')
    (hexceeds : ∀ n, Reaches src limit m n → n.core.control.exceeds = false)
    (hpulls : Pulls src' s ts s') :
    Run src' limit' ⟨m.core, m.cursor.held, s⟩ ts ⟨m'.core, m'.cursor.held, s'⟩ := by
  induction h generalizing s with
  | refl =>
    cases hpulls
    exact .refl
  | step hstep _ ih =>
    obtain ⟨s₁, hfirst, hrest⟩ := hpulls.split
    have hnext := step_replay hle hstep (hexceeds _ (.head hstep .refl)) hfirst
    exact .step hnext (ih (fun n hn => hexceeds n (.head hstep hn)) hrest)

end Replay

theorem pulls_append (ts us : List Token) (finish : Position) :
    Pulls TokenList.source ⟨ts ++ us, finish⟩ ts ⟨us, finish⟩ := by
  induction ts with
  | nil => exact .nil
  | cons t ts ih => exact .cons rfl ih

theorem pulls_list {l l' : TokenList} {us : List Token} {t : Token}
    (h : Pulls TokenList.source l (us ++ [t]) l') (hus : ∀ u ∈ us, u.kind ≠ .eof) :
    (∃ after, l.rest = us ++ t :: after) ∨ l.rest = us ∧ t = .eof l.finish := by
  induction us generalizing l with
  | nil =>
    obtain ⟨rest, finish⟩ := l
    cases h with
    | cons hnext _ =>
      cases rest with
      | nil =>
        cases hnext
        exact .inr ⟨rfl, rfl⟩
      | cons u rest =>
        cases hnext
        exact .inl ⟨rest, rfl⟩
  | cons u us ih =>
    obtain ⟨rest, finish⟩ := l
    cases h with
    | cons hnext h =>
      cases rest with
      | nil =>
        cases hnext
        exact absurd rfl (hus _ List.mem_cons_self)
      | cons v rest =>
        cases hnext
        obtain ⟨after, hafter⟩ | ⟨hrest, ht⟩ := ih h fun w hw => hus w (.tail _ hw)
        · exact .inl ⟨after, congrArg (u :: ·) hafter⟩
        · exact .inr ⟨congrArg (u :: ·) hrest, ht⟩

/-- A check of the nesting or of the height against the limit fails while the tokens are parsed. -/
def ExceedsLimit (ts : List Token) : Prop :=
  ∃ m, Reaches TokenList.source maxDepth (Memory.start (.ofList ts)).call m ∧
    m.core.control.exceeds = true

theorem exceeds_step {src : TokenSource σ ε} {m m' : Machine σ ε} {ts : List Token}
    (hm : m.core.control.exceeds = true) (hstep : m.step src limit = some (ts, m')) :
    m'.core.control.exceeds = true := by
  obtain ⟨⟨depth, height, control, stack⟩, c⟩ := m
  cases control with
  | failed fault =>
    cases stack with
    | nil => cases hstep
    | cons frame stack =>
      cases hstep
      cases frame <;> exact hm
  | _ => cases hm

theorem not_exceedsLimit_of_call {ts : List Token} {stop : Stop Empty} {p : Memory TokenList}
    (h : Call TokenList.source maxDepth (.start (.ofList ts)) (.error (.stop stop)) p) :
    ¬ ExceedsLimit ts := by
  rintro ⟨m, hm, hexceeds⟩
  have hend : Reaches TokenList.source maxDepth m (p.returned (.error (.stop stop))) :=
    hm.to_end h (step_returned p _)
  have hexceeds' : (p.returned (.error (.stop stop))).core.control.exceeds = true :=
    hend.invariant hexceeds fun _ _ _ => exceeds_step
  cases hexceeds'

/-- The tokens that led to a failure lead to it in every list that begins with them: no such list
is an expression. -/
theorem not_derives_of_run {ts ps ws : List Token} {fault : Fault Empty} {p : Memory TokenList}
    {l : TokenList}
    (hrun : Run TokenList.source maxDepth (Memory.start (.ofList ts)).call ps
      (p.returned (.error fault)))
    (hlimit : ¬ ExceedsLimit ts) (hpulls : Pulls TokenList.source (.ofList ws) ps l) (e : Expr)
    (n : Nat) : ¬ Derives (.level .equality) ws e n := by
  intro hderives
  let limit := maxDepth + n + 1 + e.height
  have hexceeds (m : Machine TokenList Empty)
      (hm : Reaches TokenList.source maxDepth (Memory.start (.ofList ts)).call m) :
      m.core.control.exceeds = false :=
    Bool.eq_false_iff.mpr fun htrue => hlimit ⟨m, hm, htrue⟩
  have hfail : Call TokenList.source limit (.start (.ofList ws)) (.error fault)
      ⟨⟨p.cursor.held, l⟩, p.depth, p.height⟩ :=
    ⟨ps, hrun.replay (by omega) hexceeds hpulls⟩
  -- with this limit the parser accepts the derived list
  have hpending := pending_start ws (ne_eof_of_derives hderives)
  obtain ⟨c, haccept⟩ := (whole_eq_ok_iff limit (.start (.ofList ws)) e).mpr
    ⟨n, by omega, hpending.symm ▸ hderives, by omega⟩
  obtain ⟨p', hcall⟩ := call_of_whole_eq_ok (p := .start (TokenList.ofList ws)) rfl haccept
  cases (hfail.unique hcall).1

/-- A call that fails has either exceeded a limit or met a syntax error. -/
theorem exists_syntax_error {ts : List Token} {stop : Stop Empty}
    (hfail : (parse TokenList.source (.start (.ofList ts))).1 = .error stop)
    (hlimit : ¬ ExceedsLimit ts) :
    ∃ err p, stop = .syntax_ err ∧
      Call TokenList.source maxDepth (.start (.ofList ts)) (.error (.stop (.syntax_ err))) p := by
  obtain ⟨result, p, hcall⟩ := exists_call TokenList.source maxDepth (p := .start (.ofList ts)) rfl
  have hparse : (parse TokenList.source (.start (.ofList ts))).1 = result.mapError Fault.toStop :=
    congrArg Prod.fst (hcall.parse_eq rfl)
  rw [hfail] at hparse
  cases result with
  | ok e => cases hparse
  | error fault =>
    cases fault with
    | limit found => exact absurd ⟨_, hcall, rfl⟩ hlimit
    | stop stop =>
      cases stop with
      | source e => exact e.elim
      | syntax_ err =>
        cases hparse
        exact ⟨err, p, rfl, hcall⟩

/-- If a list of tokens is refused and no limit is exceeded, the error is about the first token that
is impossible where it stands, the end token counted as the last one. The tokens before it begin an
expression. Together with it they begin none, or, at the end, they are none. A right parenthesis is
reported as missing if they end with a complete operand inside a parenthesis, and otherwise the
token is unexpected. -/
theorem error_at_first_impossible_token (ts : List Token) (stop : Stop Empty)
    (hfail : (parse TokenList.source (.start (.ofList ts))).1 = .error stop)
    (hlimit : ¬ ExceedsLimit ts) :
    ∃ k err, stop = .syntax_ err ∧
      (ts ++ [.eof (TokenList.ofList ts).finish])[k]? = some err.found ∧
      Viable (ts.take k) ∧
      (k < ts.length → ¬ Viable (ts.take (k + 1))) ∧
      (k = ts.length → ¬ ∃ e n, Derives (.level .equality) ts e n) ∧
      (EndsInGroup (ts.take k) → err = .expected .rightParen err.found) ∧
      (¬ EndsInGroup (ts.take k) → err = .unexpected err.found) := by
  obtain ⟨err, p, rfl, ps, hrun⟩ := exists_syntax_error hfail hlimit
  obtain ⟨us, hps, hviable, hends, hother⟩ := hrun.tracks (tracks_call _)
  rw [List.nil_append] at hps
  subst hps
  refine ⟨us.length, err, rfl, ?_⟩
  have hpulls : Pulls TokenList.source (.ofList ts) (us ++ [err.found]) _ := hrun.pulls
  obtain ⟨after, hts⟩ | ⟨hts, hfound⟩ := pulls_list hpulls (ne_eof_of_viable hviable)
  · -- the token comes from the list, so what follows it could be anything
    change ts = _ at hts
    have htake : ts.take us.length = us := by simp [hts]
    have htake' : ts.take (us.length + 1) = us ++ [err.found] := by
      rw [hts, List.append_cons, List.take_left' (by simp)]
    rw [htake, htake']
    refine ⟨by simp [hts], hviable, ?_, ?_, hends, hother⟩
    · rintro - ⟨vs, e, n, hderives⟩
      exact not_derives_of_run hrun hlimit (pulls_append _ vs _) e n hderives
    · intro hlength
      simp [hts] at hlength
  · -- the whole list is used up, and the token is the end token put behind it
    change ts = us at hts
    subst hts
    rw [List.take_length]
    refine ⟨by simp [hfound], hviable, ?_, ?_, hends, hother⟩
    · intro hlt
      exact absurd hlt (Nat.lt_irrefl _)
    · rintro - ⟨e, n, hderives⟩
      exact not_derives_of_run hrun hlimit hpulls e n hderives

/-- The tokens of `(nil`. -/
def unclosedTokens : List Token :=
  [mark .leftParen "(" 1, mark .nilWord "nil" 2]

theorem call_unclosedTokens :
    Call TokenList.source maxDepth (.start (.ofList unclosedTokens))
      (.error (.stop (.syntax_ (.expected .rightParen (.eof ⟨1, 5⟩)))))
      ⟨⟨some (.eof ⟨1, 5⟩), ⟨[], ⟨1, 5⟩⟩⟩, 0, 1⟩ :=
  reaches_after _ 60

theorem parse_unclosedTokens :
    (parse TokenList.source (.start (.ofList unclosedTokens))).1 =
        .error (.syntax_ (.expected .rightParen (.eof ⟨1, 5⟩))) ∧
      ¬ ExceedsLimit unclosedTokens ∧ Viable unclosedTokens ∧
      ¬ ∃ e n, Derives (.level .equality) unclosedTokens e n := by
  have hfail := congrArg Prod.fst (call_unclosedTokens.parse_eq rfl)
  have hlimit := not_exceedsLimit_of_call call_unclosedTokens
  refine ⟨hfail, hlimit, ?_⟩
  obtain ⟨k, err, herr, hfound, hviable, -, hend, -⟩ :=
    error_at_first_impossible_token unclosedTokens _ hfail hlimit
  cases herr
  -- only the last of the three tokens is the end
  match k with
  | 0 | 1 => cases hfound
  | 2 => exact ⟨hviable, hend rfl⟩
  | k + 3 => cases hfound

end ExprCalc.Parser
