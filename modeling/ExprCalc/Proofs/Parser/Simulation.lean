import ExprCalc.Proofs.Parser.Machine
import Mathlib.Data.List.Forall2

namespace ExprCalc

variable {σ σ' ε ε' : Type}

/-- Trees of one shape with the same values and with related tokens at corresponding nodes. -/
inductive Expr.Matches (R : Token → Token → Prop) : Expr → Expr → Prop
  | literal {t t' : Token} (ht : R t t') (v : Value) : Matches R (.literal t v) (.literal t' v)
  | unary {op op' : Token} {e e' : Expr} (hop : R op op') (h : Matches R e e') :
      Matches R (.unary op e) (.unary op' e')
  | binary {left left' right right' : Expr} {op op' : Token} (hop : R op op')
      (hleft : Matches R left left') (hright : Matches R right right') :
      Matches R (.binary left op right) (.binary left' op' right')

/-- Errors of one sort at related tokens. -/
inductive SyntaxError.Matches (R : Token → Token → Prop) : SyntaxError → SyntaxError → Prop
  | unexpected {t t' : Token} (h : R t t') : Matches R (.unexpected t) (.unexpected t')
  | expected {t t' : Token} (kind : Kind) (h : R t t') :
      Matches R (.expected kind t) (.expected kind t')

theorem Expr.Matches.eq {e e' : Expr} (h : e.Matches Eq e') : e = e' := by
  induction h with
  | literal ht v => rw [ht]
  | unary hop _ ih => rw [hop, ih]
  | binary hop _ _ ihl ihr => rw [hop, ihl, ihr]

namespace SyntaxError.Matches

variable {R S : Token → Token → Prop} {e e' : SyntaxError}

theorem eq (h : e.Matches Eq e') : e = e' := by
  cases h with
  | unexpected h => rw [h]
  | expected kind h => rw [h]

theorem mono (h : e.Matches R e') (himp : ∀ t t', R t t' → S t t') : e.Matches S e' := by
  cases h with
  | unexpected h => exact .unexpected (himp _ _ h)
  | expected kind h => exact .expected kind (himp _ _ h)

theorem found (h : e.Matches R e') : R e.found e'.found := by
  cases h with
  | unexpected h => exact h
  | expected kind h => exact h

end SyntaxError.Matches

namespace Parser

open Grammar

/-- What two sources deliver: related tokens, or related failures, and related states after them. -/
inductive Delivers (Tok : Token → Token → Prop) (Err : ε → ε' → Prop) (Rel : σ → σ' → Prop) :
    Except ε Token × σ → Except ε' Token × σ' → Prop
  | token {t t' : Token} {s : σ} {s' : σ'} (ht : Tok t t') (hs : Rel s s') :
      Delivers Tok Err Rel (.ok t, s) (.ok t', s')
  | failure {e : ε} {e' : ε'} {s : σ} {s' : σ'} (he : Err e e') (hs : Rel s s') :
      Delivers Tok Err Rel (.error e, s) (.error e', s')

/-- A correspondence between the tokens, the failures and the states of two sources. -/
structure Simulation (src : TokenSource σ ε) (src' : TokenSource σ' ε') where
  Tok : Token → Token → Prop
  Err : ε → ε' → Prop
  Rel : σ → σ' → Prop
  kind_eq : ∀ {t t'}, Tok t t' → t.kind = t'.kind
  literal_eq : ∀ {t t'}, Tok t t' → literal? t = literal? t'
  next : ∀ {s s'}, Rel s s' → Delivers Tok Err Rel (src.next s) (src'.next s')

namespace Simulation

variable {src : TokenSource σ ε} {src' : TokenSource σ' ε'} (sim : Simulation src src')

inductive Stops : Stop ε → Stop ε' → Prop
  | source {e : ε} {e' : ε'} (h : sim.Err e e') : Stops (.source e) (.source e')
  | syntax_ {e e' : SyntaxError} (h : e.Matches sim.Tok e') : Stops (.syntax_ e) (.syntax_ e')

inductive Faults : Fault ε → Fault ε' → Prop
  | stop {s : Stop ε} {s' : Stop ε'} (h : sim.Stops s s') : Faults (.stop s) (.stop s')
  | limit {t t' : Token} (h : sim.Tok t t') : Faults (.limit t) (.limit t')

inductive Frames : Frame → Frame → Prop
  | first (l : Level) : Frames (.first l) (.first l)
  | right (l : Level) (height : Nat) {left left' : Expr} {op op' : Token}
      (hleft : left.Matches sim.Tok left') (hop : sim.Tok op op') :
      Frames (.right l left height op) (.right l left' height op')
  | primary : Frames (.unary none) (.unary none)
  | unary {op op' : Token} (hop : sim.Tok op op') : Frames (.unary (some op)) (.unary (some op'))
  | group : Frames .group .group

inductive Controls : Control ε → Control ε' → Prop
  | call (r : Phrase) : Controls (.call r) (.call r)
  | unary : Controls .unary .unary
  | loop (l : Level) (height : Nat) {e e' : Expr} (h : e.Matches sim.Tok e') :
      Controls (.loop l e height) (.loop l e' height)
  | close {e e' : Expr} (h : e.Matches sim.Tok e') : Controls (.close e) (.close e')
  | done {e e' : Expr} (h : e.Matches sim.Tok e') : Controls (.done e) (.done e')
  | accepted {e e' : Expr} (h : e.Matches sim.Tok e') : Controls (.accepted e) (.accepted e')
  | failed {fault : Fault ε} {fault' : Fault ε'} (h : sim.Faults fault fault') :
      Controls (.failed fault) (.failed fault')

/-- Cores with the same counts that do the same with related tokens. -/
inductive Cores : Core ε → Core ε' → Prop
  | mk {depth height : Nat} {control : Control ε} {control' : Control ε'}
      {stack stack' : List Frame} (hcontrol : sim.Controls control control')
      (hstack : List.Forall₂ sim.Frames stack stack') :
      Cores ⟨depth, height, control, stack⟩ ⟨depth, height, control', stack'⟩

inductive Cursors : Cursor σ → Cursor σ' → Prop
  | empty {s : σ} {s' : σ'} (hs : sim.Rel s s') : Cursors ⟨none, s⟩ ⟨none, s'⟩
  | held {t t' : Token} {s : σ} {s' : σ'} (ht : sim.Tok t t') (hs : sim.Rel s s') :
      Cursors ⟨some t, s⟩ ⟨some t', s'⟩

inductive Machines : Machine σ ε → Machine σ' ε' → Prop
  | mk {core : Core ε} {core' : Core ε'} {c : Cursor σ} {c' : Cursor σ'}
      (hcore : sim.Cores core core') (hcursor : sim.Cursors c c') : Machines ⟨core, c⟩ ⟨core', c'⟩

variable {sim} {limit : Nat} {core next : Core ε} {core' : Core ε'}

theorem Cores.fail (h : sim.Cores core core') {fault : Fault ε} {fault' : Fault ε'}
    (hfault : sim.Faults fault fault') : sim.Cores (core.fail fault) (core'.fail fault') := by
  cases h with
  | mk hcontrol hstack => cases hcontrol <;> exact .mk (.failed hfault) hstack

theorem Cores.resume {depth height : Nat} {e e' : Expr} {frame frame' : Frame}
    {stack stack' : List Frame} (he : e.Matches sim.Tok e') (hframe : sim.Frames frame frame')
    (hstack : List.Forall₂ sim.Frames stack stack') :
    sim.Cores (Core.resume limit ⟨depth, height, .done e, stack⟩ e frame)
      (Core.resume limit ⟨depth, height, .done e', stack'⟩ e' frame') := by
  cases hframe with
  | first l => exact .mk (.loop l height he) hstack
  | right l h hleft hop =>
    simp only [Core.resume]
    split
    · exact .mk (.loop l _ (.binary hop hleft he)) hstack
    · exact .mk (.failed (.limit hop)) hstack
  | primary => exact .mk (.done he) hstack
  | unary hop =>
    simp only [Core.resume]
    split
    · exact .mk (.done (.unary hop he)) hstack
    · exact .mk (.failed (.limit hop)) hstack
  | group => exact .mk (.close he) hstack

theorem Cores.unwind {depth height : Nat} {fault : Fault ε} {fault' : Fault ε'}
    {frame frame' : Frame} {stack stack' : List Frame} (hfault : sim.Faults fault fault')
    (hframe : sim.Frames frame frame') (hstack : List.Forall₂ sim.Frames stack stack') :
    sim.Cores (Core.unwind ⟨depth, height, .failed fault, stack⟩ frame)
      (Core.unwind ⟨depth, height, .failed fault', stack'⟩ frame') := by
  cases hframe <;> exact .mk (.failed hfault) hstack

theorem Cores.silent (h : sim.Cores core core') (hmove : core.move limit = .silent next) :
    ∃ next', core'.move limit = .silent next' ∧ sim.Cores next next' := by
  cases Core.goesOn_of_move hmove with
  | @level _ _ l _ =>
    obtain ⟨⟨⟩, hstack⟩ := h
    exact ⟨_, rfl, .mk (.call l.operand) (.cons (.first l) hstack)⟩
  | unary =>
    obtain ⟨⟨⟩, hstack⟩ := h
    exact ⟨_, rfl, .mk .unary hstack⟩
  | resume =>
    obtain ⟨⟨⟩, hstack⟩ := h
    next he =>
    cases hstack with
    | cons hframe hstack => exact ⟨_, rfl, .resume he hframe hstack⟩
  | unwind =>
    obtain ⟨⟨⟩, hstack⟩ := h
    next hfault =>
    cases hstack with
    | cons hframe hstack => exact ⟨_, rfl, .unwind hfault hframe hstack⟩

/-- Both cores use the token up or both leave it, and go on alike. -/
structure Looks (sim : Simulation src src') (found : Bool × Core ε) (found' : Bool × Core ε') :
    Prop where
  used : found.1 = found'.1
  cores : sim.Cores found.2 found'.2

section Look

variable {depth height : Nat} {stack stack' : List Frame} {t t' : Token}

theorem looks_unary (hstack : List.Forall₂ sim.Frames stack stack') (ht : sim.Tok t t') :
    sim.Looks (Core.unaryLook limit ⟨depth, height, .unary, stack⟩ t)
      (Core.unaryLook limit ⟨depth, height, .unary, stack'⟩ t') := by
  simp only [Core.unaryLook, ← sim.kind_eq ht]
  split
  · exact ⟨rfl, (Cores.mk .unary hstack).fail (.limit ht)⟩
  · split
    · exact ⟨rfl, .mk (.call .unary) (.cons (.unary ht) hstack)⟩
    · exact ⟨rfl, .mk (.call .primary) (.cons .primary hstack)⟩

theorem looks_primary (hstack : List.Forall₂ sim.Frames stack stack') (ht : sim.Tok t t') :
    sim.Looks (Core.primaryLook ⟨depth, height, .call .primary, stack⟩ t)
      (Core.primaryLook ⟨depth, height, .call .primary, stack'⟩ t') := by
  simp only [Core.primaryLook, ← sim.kind_eq ht, ← sim.literal_eq ht]
  split
  · exact ⟨rfl, .mk (.call (.level .equality)) (.cons .group hstack)⟩
  · cases literal? t with
    | some v => exact ⟨rfl, .mk (.done (.literal ht v)) hstack⟩
    | none =>
      exact ⟨rfl, (Cores.mk (.call .primary) hstack).fail (.stop (.syntax_ (.unexpected ht)))⟩

theorem looks_loop (l : Level) (h : Nat) {left left' : Expr} (hleft : left.Matches sim.Tok left')
    (hstack : List.Forall₂ sim.Frames stack stack') (ht : sim.Tok t t') :
    sim.Looks (Core.loopLook ⟨depth, height, .loop l left h, stack⟩ l left h t)
      (Core.loopLook ⟨depth, height, .loop l left' h, stack'⟩ l left' h t') := by
  simp only [Core.loopLook, ← sim.kind_eq ht]
  split
  · exact ⟨rfl, .mk (.call l.operand) (.cons (.right l h hleft ht) hstack)⟩
  · exact ⟨rfl, .mk (.done hleft) hstack⟩

theorem looks_close {e e' : Expr} (he : e.Matches sim.Tok e')
    (hstack : List.Forall₂ sim.Frames stack stack') (ht : sim.Tok t t') :
    sim.Looks (Core.closeLook ⟨depth, height, .close e, stack⟩ e t)
      (Core.closeLook ⟨depth, height, .close e', stack'⟩ e' t') := by
  simp only [Core.closeLook, ← sim.kind_eq ht]
  split
  · exact ⟨rfl, .mk (.done he) hstack⟩
  · exact ⟨rfl, (Cores.mk (.close he) hstack).fail (.stop (.syntax_ (.expected .rightParen ht)))⟩

theorem looks_end {e e' : Expr} (he : e.Matches sim.Tok e') (ht : sim.Tok t t') :
    sim.Looks (Core.endLook ⟨depth, height, .done e, []⟩ e t)
      (Core.endLook ⟨depth, height, .done e', []⟩ e' t') := by
  simp only [Core.endLook, ← sim.kind_eq ht]
  split
  · exact ⟨rfl, .mk (.accepted he) .nil⟩
  · exact ⟨rfl, (Cores.mk (.done he) .nil).fail (.stop (.syntax_ (.unexpected ht)))⟩

end Look

theorem Cores.look (h : sim.Cores core core') {look : Token → Bool × Core ε}
    (hmove : core.move limit = .look look) :
    ∃ look', core'.move limit = .look look' ∧
      ∀ t t', sim.Tok t t' → sim.Looks (look t) (look' t') := by
  cases Core.looks_of_move hmove with
  | primary =>
    obtain ⟨⟨⟩, hstack⟩ := h
    exact ⟨_, rfl, fun _ _ => looks_primary hstack⟩
  | unary =>
    obtain ⟨⟨⟩, hstack⟩ := h
    exact ⟨_, rfl, fun _ _ => looks_unary hstack⟩
  | loop =>
    obtain ⟨⟨⟩, hstack⟩ := h
    next hleft => exact ⟨_, rfl, fun _ _ => looks_loop _ _ hleft hstack⟩
  | close =>
    obtain ⟨⟨⟩, hstack⟩ := h
    next he => exact ⟨_, rfl, fun _ _ => looks_close he hstack⟩
  | finish =>
    obtain ⟨⟨⟩, hstack⟩ := h
    next he =>
    cases hstack
    exact ⟨_, rfl, fun _ _ => looks_end he⟩

theorem Machines.looked {found : Bool × Core ε} {found' : Bool × Core ε'} {t t' : Token} {s : σ}
    {s' : σ'} (h : sim.Looks found found') (ht : sim.Tok t t') (hs : sim.Rel s s') :
    sim.Machines (.looked found t s) (.looked found' t' s') := by
  refine .mk h.cores ?_
  rw [← h.used]
  cases found.1 with
  | true => exact .empty hs
  | false => exact .held ht hs

theorem Cursors.of_empty {c : Cursor σ} {c' : Cursor σ'} (h : sim.Cursors c c')
    (hheld : c.held = none) : ∃ s', c' = ⟨none, s'⟩ ∧ sim.Rel c.rest s' := by
  cases h with
  | empty hs => exact ⟨_, rfl, hs⟩
  | held => cases hheld

theorem exists_token {s u : σ} {s' : σ'} {t : Token} (hs : sim.Rel s s')
    (hnext : src.next s = (.ok t, u)) :
    ∃ t' u', src'.next s' = (.ok t', u') ∧ sim.Tok t t' ∧ sim.Rel u u' := by
  have hdelivers := sim.next hs
  rw [hnext] at hdelivers
  generalize src'.next s' = found at hdelivers ⊢
  cases hdelivers with
  | token ht hu => exact ⟨_, _, rfl, ht, hu⟩

theorem exists_failure {s u : σ} {s' : σ'} {e : ε} (hs : sim.Rel s s')
    (hnext : src.next s = (.error e, u)) :
    ∃ e' u', src'.next s' = (.error e', u') ∧ sim.Err e e' ∧ sim.Rel u u' := by
  have hdelivers := sim.next hs
  rw [hnext] at hdelivers
  generalize src'.next s' = found at hdelivers ⊢
  cases hdelivers with
  | failure he hu => exact ⟨_, _, rfl, he, hu⟩

theorem Machines.step {m n : Machine σ ε} {m' : Machine σ' ε'} {ts : List Token}
    (h : sim.Machines m m') (hstep : m.step src limit = some (ts, n)) :
    ∃ ts' n', m'.step src' limit = some (ts', n') ∧ sim.Machines n n' := by
  obtain ⟨hcore, hcursor⟩ := h
  obtain ⟨next, hmove, -, rfl⟩ | ⟨look, t, hmove, hheld, -, rfl⟩ |
    ⟨look, t, rest, hmove, hheld, hnext, -, rfl⟩ | ⟨look, e, rest, hmove, hheld, hnext, -, rfl⟩ :=
    step_cases hstep
  · obtain ⟨next', hmove', hnext⟩ := hcore.silent hmove
    exact ⟨[], _, step_silent hmove', .mk hnext hcursor⟩
  · obtain ⟨look', hmove', hlooks⟩ := hcore.look hmove
    cases hcursor with
    | empty => cases hheld
    | held ht hs =>
      cases hheld
      exact ⟨[], _, step_held hmove', .looked (hlooks _ _ ht) ht hs⟩
  · obtain ⟨look', hmove', hlooks⟩ := hcore.look hmove
    obtain ⟨s', rfl, hs⟩ := hcursor.of_empty hheld
    obtain ⟨t', u', hnext', ht, hu⟩ := exists_token hs hnext
    exact ⟨[t'], _, step_pull hmove' hnext', .looked (hlooks t t' ht) ht hu⟩
  · obtain ⟨look', hmove', -⟩ := hcore.look hmove
    obtain ⟨s', rfl, hs⟩ := hcursor.of_empty hheld
    obtain ⟨e', u', hnext', he, hu⟩ := exists_failure hs hnext
    exact ⟨[], _, step_failure hmove' hnext', .mk (hcore.fail (.stop (.source he))) (.empty hu)⟩

theorem Machines.reaches {m n : Machine σ ε} {m' : Machine σ' ε'} (h : sim.Machines m m')
    (hrun : Reaches src limit m n) :
    ∃ n', Reaches src' limit m' n' ∧ sim.Machines n n' := by
  obtain ⟨ts, hrun⟩ := hrun
  induction hrun generalizing m' with
  | refl => exact ⟨m', .refl, h⟩
  | step hstep _ ih =>
    obtain ⟨ts', n', hstep', hn⟩ := h.step hstep
    obtain ⟨n'', hrun', hn'⟩ := ih hn
    exact ⟨n'', .head hstep' hrun', hn'⟩

inductive Answers (sim : Simulation src src') :
    Except (Stop ε) Expr → Except (Stop ε') Expr → Prop
  | ok {e e' : Expr} (h : e.Matches sim.Tok e') : Answers sim (.ok e) (.ok e')
  | error {s : Stop ε} {s' : Stop ε'} (h : sim.Stops s s') : Answers sim (.error s) (.error s')

theorem Faults.toStop {fault : Fault ε} {fault' : Fault ε'} (h : sim.Faults fault fault') :
    sim.Stops fault.toStop fault'.toStop := by
  cases h with
  | stop h => exact h
  | limit h => exact .syntax_ (.unexpected h)

theorem Machines.of_returned {p : Memory σ} {result : Except (Fault ε) Expr}
    {n' : Machine σ' ε'} (h : sim.Machines (p.returned result) n') :
    ∃ result' p', n' = Memory.returned p' result' ∧
      sim.Answers (result.mapError Fault.toStop) (result'.mapError Fault.toStop) ∧
      sim.Cursors p.cursor p'.cursor := by
  obtain ⟨c, depth, height⟩ := p
  cases result with
  | ok e =>
    obtain ⟨⟨hcontrol, hstack⟩, hc⟩ := h
    cases hstack
    cases hcontrol with
    | @accepted _ e' he => exact ⟨.ok e', ⟨_, depth, height⟩, rfl, .ok he, hc⟩
  | error fault =>
    obtain ⟨⟨hcontrol, hstack⟩, hc⟩ := h
    cases hstack
    cases hcontrol with
    | @failed _ fault' hfault =>
      exact ⟨.error fault', ⟨_, depth, height⟩, rfl, .error hfault.toStop, hc⟩

/-- A parser on corresponding sources gives corresponding answers and leaves corresponding rests. -/
theorem parse_answers (sim : Simulation src src') {c : Cursor σ} {c' : Cursor σ'}
    (hc : sim.Cursors c c') :
    sim.Answers (parse src c).1 (parse src' c').1 ∧
      sim.Cursors (parse src c).2 (parse src' c').2 := by
  obtain ⟨result, p, hcall, hparse⟩ := exists_parse_call src c 0
  have hstart : sim.Machines (Memory.call ⟨c, 0, 0⟩) (Memory.call ⟨c', 0, 0⟩) :=
    .mk (.mk (.call _) .nil) hc
  obtain ⟨n', hrun', hn⟩ := hstart.reaches hcall
  obtain ⟨result', p', rfl, hanswers, hcursors⟩ := hn.of_returned
  have hcall' : Call src' maxDepth ⟨c', 0, 0⟩ result' p' := hrun'
  have hparse' : parse src' c' = _ := hcall'.parse_eq rfl
  rw [hparse, hparse']
  exact ⟨hanswers, hcursors⟩

section Projection

variable {base : TokenSource σ' ε} {f : σ → σ'}

/-- A source that answers as another one does, and `f`, which takes its states to those of the
other. -/
def ofProjection (h : ∀ s, base.next (f s) = ((src.next s).1, f (src.next s).2)) :
    Simulation src base where
  Tok := Eq
  Err := Eq
  Rel s s' := f s = s'
  kind_eq := by
    rintro t _ rfl
    rfl
  literal_eq := by
    rintro t _ rfl
    rfl
  next := by
    rintro s _ rfl
    rw [h]
    obtain ⟨item, s'⟩ := src.next s
    cases item with
    | ok t => exact .token rfl rfl
    | error e => exact .failure rfl rfl

/-- What the states of a source hold beyond those of another one makes no difference to a parser. -/
theorem parse_projected (h : ∀ s, base.next (f s) = ((src.next s).1, f (src.next s).2))
    (c : Cursor σ) :
    parse base ⟨c.held, f c.rest⟩ =
      ((parse src c).1, ⟨(parse src c).2.held, f (parse src c).2.rest⟩) := by
  have hc : (ofProjection h).Cursors c ⟨c.held, f c.rest⟩ := by
    obtain ⟨held, rest⟩ := c
    cases held with
    | none => exact .empty rfl
    | some t => exact .held rfl rfl
  -- `Tok` is equality here, so what corresponds is equal
  obtain ⟨hanswers, hcursors⟩ := (ofProjection h).parse_answers hc
  refine Prod.ext ?_ ?_
  · generalize (parse src c).1 = result at hanswers ⊢
    generalize (parse base ⟨c.held, f c.rest⟩).1 = result' at hanswers ⊢
    cases hanswers with
    | ok h => exact congrArg Except.ok h.eq.symm
    | error h =>
      cases h with
      | source h => exact congrArg (Except.error ∘ Stop.source) (Eq.symm h)
      | syntax_ h => exact congrArg (Except.error ∘ Stop.syntax_) h.eq.symm
  · generalize (parse src c).2 = d at hcursors ⊢
    generalize (parse base ⟨c.held, f c.rest⟩).2 = d' at hcursors ⊢
    cases hcursors with
    | empty hs =>
      cases hs
      rfl
    | held ht hs =>
      cases ht
      cases hs
      rfl

end Projection

end Simulation

end Parser

end ExprCalc
