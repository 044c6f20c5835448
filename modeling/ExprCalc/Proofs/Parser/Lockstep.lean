import ExprCalc.Proofs.Parser.Simulation
import ExprCalc.Proofs.Run.ScanErrors

namespace ExprCalc.Parser

open Grammar

variable {σ σ' ε ε' α β : Type}

/-- The same token, or two end tokens with related places. -/
inductive Alike (near : Position → Position → Prop) : Token → Token → Prop
  | same (t : Token) : Alike near t t
  | ends {p q : Position} (h : near p q) : Alike near (.eof p) (.eof q)

/-- Two sources that deliver tokens which are alike, up to the end, from related states on. -/
structure Lockstep (src : TokenSource σ ε) (src' : TokenSource σ' ε') where
  near : Position → Position → Prop
  Related : σ → σ' → Prop
  next : ∀ {s s'}, Related s s' → ∃ t u t' u', src.next s = (.ok t, u) ∧
    src'.next s' = (.ok t', u') ∧ Alike near t t' ∧ (t.kind ≠ .eof → Related u u')

section Tokens

variable {near : Position → Position → Prop} {t t' : Token}

theorem Alike.kind_eq (h : Alike near t t') : t.kind = t'.kind := by
  cases h <;> rfl

theorem Alike.eq_of_ne_eof (h : Alike near t t') (ht : t.kind ≠ .eof) : t = t' := by
  cases h with
  | same => rfl
  | ends => exact absurd rfl ht

theorem Alike.eq (h : Alike Eq t t') : t = t' := by
  cases h with
  | same => rfl
  | ends h => rw [h]

theorem Alike.place_eq (h : Alike near t t') : Failure.place t = Failure.place t' := by
  have hend (p : Position) : Failure.place (.eof p) = utf8 "at end: " := if_pos rfl
  cases h with
  | same => rfl
  | ends => rw [hend, hend]

theorem message_eq_of_alike {e e' : SyntaxError} (h : e.Matches (Alike near) e') :
    (Failure.ofSyntax e).message = (Failure.ofSyntax e').message := by
  have hmessage : e.message = e'.message := by
    cases h with
    | unexpected h => rw [SyntaxError.message, SyntaxError.message, h.kind_eq]
    | expected kind h => rw [SyntaxError.message, SyntaxError.message, h.kind_eq]
  simp only [Failure.message, Failure.ofSyntax, Failure.messageOnto, hmessage, h.found.place_eq]

end Tokens

namespace Lockstep

variable {src : TokenSource σ ε} {src' : TokenSource σ' ε'} (l : Lockstep src src')

/-- Cursors at the same place. Nothing is said of the sources once the end token has come. -/
inductive Cursors : Cursor σ → Cursor σ' → Prop
  | empty {s : σ} {s' : σ'} (h : l.Related s s') : Cursors ⟨none, s⟩ ⟨none, s'⟩
  | held {t t' : Token} {s : σ} {s' : σ'} (ht : Alike l.near t t')
      (h : t.kind ≠ .eof → l.Related s s') : Cursors ⟨some t, s⟩ ⟨some t', s'⟩

/-- Two steps end at the same place, with related values or with errors that are alike. -/
inductive Results (V : α → α → Prop) : EStateM.Result (Stop ε) (Cursor σ) α →
    EStateM.Result (Stop ε') (Cursor σ') α → Prop
  | ok {a a' : α} {c : Cursor σ} {c' : Cursor σ'} (ha : V a a') (hc : l.Cursors c c') :
      Results V (.ok a c) (.ok a' c')
  | error {e e' : SyntaxError} {c : Cursor σ} {c' : Cursor σ'} (he : e.Matches (Alike l.near) e')
      (hc : l.Cursors c c') : Results V (.error (.syntax_ e) c) (.error (.syntax_ e') c')

/-- Two steps that go the same way from cursors at the same place. -/
def Steps (V : α → α → Prop) (m : Step σ ε α) (m' : Step σ' ε' α) : Prop :=
  ∀ c c', l.Cursors c c' → l.Results V (m c) (m' c')

variable {l} {V : α → α → Prop} {W : β → β → Prop}

theorem steps_pure {a a' : α} (h : V a a') : l.Steps V (pure a) (pure a') :=
  fun _ _ hc => .ok h hc

theorem steps_throw {e e' : SyntaxError} (h : e.Matches (Alike l.near) e') :
    l.Steps V (throw (.syntax_ e)) (throw (.syntax_ e')) :=
  fun _ _ hc => .error h hc

theorem steps_bind {m : Step σ ε α} {m' : Step σ' ε' α} {f : α → Step σ ε β}
    {f' : α → Step σ' ε' β} (hm : l.Steps V m m') (hf : ∀ a a', V a a' → l.Steps W (f a) (f' a')) :
    l.Steps W (m >>= f) (m' >>= f') := by
  intro c c' hc
  have hresults := hm c c' hc
  generalize hrun : m c = result at hresults
  generalize hrun' : m' c' = result' at hresults
  cases hresults with
  | ok ha hd =>
    rw [bind_of_ok hrun, bind_of_ok hrun']
    exact hf _ _ ha _ _ hd
  | error he hd =>
    rw [bind_of_error hrun, bind_of_error hrun']
    exact .error he hd

theorem exists_peek {c : Cursor σ} {c' : Cursor σ'} (hc : l.Cursors c c') :
    ∃ t s t' s', peek src c = .ok t ⟨some t, s⟩ ∧ peek src' c' = .ok t' ⟨some t', s'⟩ ∧
      Alike l.near t t' ∧ (t.kind ≠ .eof → l.Related s s') := by
  cases hc with
  | @held t t' s s' ht h => exact ⟨t, s, t', s', rfl, rfl, ht, h⟩
  | empty h =>
    obtain ⟨t, u, t', u', hnext, hnext', ht, hu⟩ := l.next h
    refine ⟨t, u, t', u', ?_, ?_, ht, hu⟩
    · simp only [peek, hnext]
    · simp only [peek, hnext']

theorem steps_peek : l.Steps (Alike l.near) (peek src) (peek src') := by
  intro c c' hc
  obtain ⟨t, s, t', s', hpeek, hpeek', ht, hs⟩ := exists_peek hc
  rw [hpeek, hpeek']
  exact .ok ht (.held ht hs)

/-- A token that is used up is the same on both sides. -/
inductive Accepted (near : Position → Position → Prop) : Token × Bool → Token × Bool → Prop
  | used (t : Token) : Accepted near (t, true) (t, true)
  | left {t t' : Token} (h : Alike near t t') : Accepted near (t, false) (t', false)

theorem steps_accept (kinds : List Kind) :
    l.Steps (Accepted l.near) (accept src kinds) (accept src' kinds) := by
  intro c c' hc
  obtain ⟨t, s, t', s', hpeek, hpeek', ht, hs⟩ := exists_peek hc
  rw [accept_of_peek kinds hpeek, accept_of_peek kinds hpeek', ← ht.kind_eq]
  split
  · next hused =>
    obtain rfl := ht.eq_of_ne_eof hused.1
    exact .ok (.used t) (.empty (hs hused.1))
  · exact .ok (.left ht) (.held ht hs)

variable {limit : Nat} {operand : Step σ ε Tree} {operand' : Step σ' ε' Tree}

theorem steps_chainFrom (kinds : List Kind) (h : l.Steps Eq operand operand') (left : Tree) :
    l.Steps Eq (chainFrom src limit kinds operand left)
      (chainFrom src' limit kinds operand' left) := by
  induction left using chainFrom.induct limit with
  | case1 left ih =>
    rw [chainFrom, chainFrom]
    apply steps_bind (steps_accept kinds)
    rintro _ _ (op | hleft)
    · apply steps_bind h
      rintro right _ rfl
      split
      · next hlimit => exact ih op right hlimit
      · exact steps_throw (.unexpected (.same op))
    · exact steps_pure rfl

theorem steps_chain (kinds : List Kind) (h : l.Steps Eq operand operand') :
    l.Steps Eq (chain src limit kinds operand) (chain src' limit kinds operand') := by
  apply steps_bind h
  rintro first _ rfl
  exact steps_chainFrom kinds h first

theorem steps_equality (h : l.Steps Eq operand operand') :
    l.Steps Eq (equality src limit operand) (equality src' limit operand') :=
  steps_chain _ <| steps_chain _ <| steps_chain _ <| steps_chain _ h

variable {inner : Step σ ε Tree} {inner' : Step σ' ε' Tree}

theorem steps_group (h : l.Steps Eq inner inner') :
    l.Steps Eq (group src inner) (group src' inner') := by
  apply steps_bind h
  rintro tree _ rfl
  apply steps_bind (steps_accept _)
  rintro _ _ (close | hleft)
  · exact steps_pure rfl
  · exact steps_throw (.expected .rightParen hleft)

theorem steps_primary (h : l.Steps Eq inner inner') :
    l.Steps Eq (primary src inner) (primary src' inner') := by
  intro c c' hc
  obtain ⟨t, s, t', s', hpeek, hpeek', ht, hs⟩ := exists_peek hc
  rw [primary_of_peek hpeek, primary_of_peek hpeek', ← ht.kind_eq]
  by_cases heof : t.kind = .eof
  · have hnone {u : Token} (hu : u.kind = .eof) : literal? u = none := by
      simp only [literal?, hu]
    rw [hnone heof, hnone (ht.kind_eq.symm.trans heof), heof]
    exact .error (.unexpected ht) (.held ht hs)
  · obtain rfl := ht.eq_of_ne_eof heof
    split
    · exact steps_group h _ _ (.empty (hs heof))
    · split
      · exact .ok rfl (.empty (hs heof))
      · split
        · exact .error (.unexpected ht) (.empty (hs heof))
        · exact .error (.unexpected ht) (.held ht hs)

theorem steps_unary (room : Nat) :
    l.Steps Eq (unary src limit room) (unary src' limit room) := by
  induction room with
  | zero =>
    apply steps_bind (steps_accept _)
    rintro _ _ (op | hleft)
    · exact steps_throw (.unexpected (.same op))
    · exact steps_throw (.unexpected hleft)
  | succ room ih =>
    apply steps_bind (steps_accept _)
    rintro _ _ (op | hleft)
    · apply steps_bind ih
      rintro operand _ rfl
      split
      · exact steps_pure rfl
      · exact steps_throw (.unexpected (.same op))
    · exact steps_primary (steps_equality ih)

theorem steps_whole : l.Steps Eq (whole src limit) (whole src' limit) := by
  apply steps_bind (steps_equality (steps_unary limit))
  rintro tree _ rfl
  apply steps_bind steps_peek
  intro t t' ht
  rw [← ht.kind_eq]
  split
  · exact steps_pure rfl
  · exact steps_throw (.unexpected ht)

end Lockstep

/-- What a stop means to the user of a parser; `fault` says it for the failures of the source. -/
def Stop.toFailure (fault : ε → Failure) : Stop ε → Failure
  | .source e => fault e
  | .syntax_ e => .ofSyntax e

def answers (src : TokenSource σ ε) (fault : ε → Failure) :
    (n : Nat) → Cursor σ → List (Except Failure Expr)
  | 0, _ => []
  | n + 1, c =>
    let (result, c) := parse src c
    result.mapError (Stop.toFailure fault) :: answers src fault n c

inductive AlikeAnswers (near : Position → Position → Prop) :
    Except Failure Expr → Except Failure Expr → Prop
  | ok (e : Expr) : AlikeAnswers near (.ok e) (.ok e)
  | error {e e' : SyntaxError} (h : e.Matches (Alike near) e') :
      AlikeAnswers near (.error (.ofSyntax e)) (.error (.ofSyntax e'))

theorem AlikeAnswers.eq {r r' : Except Failure Expr} (h : AlikeAnswers Eq r r') : r = r' := by
  cases h with
  | ok => rfl
  | error h => rw [(h.mono fun _ _ => Alike.eq).eq]

theorem AlikeAnswers.message_eq {near : Position → Position → Prop} {r r' : Except Failure Expr}
    (h : AlikeAnswers near r r') : r.mapError Failure.message = r'.mapError Failure.message := by
  cases h with
  | ok => rfl
  | error h => exact congrArg Except.error (message_eq_of_alike h)

namespace Lockstep

variable {src : TokenSource σ ε} {src' : TokenSource σ' ε'} (l : Lockstep src src')
  (fault : ε → Failure) (fault' : ε' → Failure) {c : Cursor σ} {c' : Cursor σ'}

theorem parse_alike (hc : l.Cursors c c') :
    AlikeAnswers l.near ((parse src c).1.mapError (Stop.toFailure fault))
        ((parse src' c').1.mapError (Stop.toFailure fault')) ∧
      l.Cursors (parse src c).2 (parse src' c').2 := by
  have hwhole : l.Results Eq (whole src maxDepth c) (whole src' maxDepth c') :=
    l.steps_whole c c' hc
  unfold parse
  generalize whole src maxDepth c = result at hwhole ⊢
  generalize whole src' maxDepth c' = result' at hwhole ⊢
  cases hwhole with
  | ok he hc =>
    obtain rfl := he
    exact ⟨.ok _, hc⟩
  | error he hc => exact ⟨.error he, hc⟩

theorem answers_alike (n : Nat) (hc : l.Cursors c c') :
    List.Forall₂ (AlikeAnswers l.near) (answers src fault n c) (answers src' fault' n c') := by
  induction n generalizing c c' with
  | zero => exact .nil
  | succ n ih =>
    obtain ⟨hanswer, hc⟩ := l.parse_alike fault fault' hc
    exact .cons hanswer (ih hc)

end Lockstep

open ExprCalc.Run

/-- A scanner without errors, and the list of its tokens. -/
def scannedListed : Lockstep scanning TokenList.source where
  near := Eq
  Related s list := s.items = list.rest.map .ok
  next := by
    rintro s ⟨rest, finish⟩ h
    change s.items = rest.map .ok at h
    cases rest with
    | nil => exact absurd h s.items_ne_nil
    | cons t ts =>
      by_cases hs : s.skipTrivia.rest = []
      · rw [Scanner.items_of_end hs] at h
        have hnext : s.next.1 = .ok t := (List.cons.inj h).1
        rw [Scanner.next_of_end hs] at hnext
        cases hnext
        exact ⟨_, _, _, _, Scanner.next_of_end hs, rfl, .same _, fun hne => absurd rfl hne⟩
      · rw [Scanner.items_of_ne_end hs] at h
        obtain ⟨hnext, hitems⟩ := List.cons.inj h
        exact ⟨t, s.next.2, t, ⟨ts, finish⟩, Prod.ext hnext rfl, rfl, .same t, fun _ => hitems⟩

/-- A list of tokens with an end token, and the same list without it. -/
def listedUnended : Lockstep TokenList.source TokenList.source where
  near _ _ := True
  Related list list' := ∃ p, list.rest = list'.rest ++ [.eof p]
  next := by
    rintro ⟨_, finish⟩ ⟨rest, finish'⟩ ⟨p, rfl⟩
    cases rest with
    | nil =>
      exact ⟨_, ⟨[], finish⟩, _, ⟨[], finish'⟩, rfl, rfl, .ends trivial, fun hne => absurd rfl hne⟩
    | cons t ts =>
      exact ⟨t, ⟨ts ++ [.eof p], finish⟩, t, ⟨ts, finish'⟩, rfl, rfl, .same t, fun _ => ⟨p, rfl⟩⟩

theorem map_ok_tokens {items : List ScanItem} (h : items.filterMap ScanItem.error? = []) :
    items = (items.filterMap ScanItem.token?).map .ok := by
  induction items with
  | nil => rfl
  | cons item items ih =>
    cases item with
    | ok t => exact congrArg (.ok t :: ·) (ih h)
    | error e => cases h

theorem exists_tokens_eq (source : Text) : ∃ tokens p, source.tokens = tokens ++ [.eof p] := by
  obtain ⟨stretches, last, p, hitems, -⟩ :=
    Scanner.items_covers _ (Scanner.aligned_ofText source)
  refine ⟨(stretches.map Scanner.Stretch.item).filterMap ScanItem.token?, p, ?_⟩
  rw [Text.tokens, Text.scan, hitems, List.filterMap_append]
  rfl

/-- Scanning tokens on demand and listing them first come to the same. For a source without scan
errors, all calls of the parser on its scanner give the answers of the same calls on the list of its
tokens. If the list lacks the end token, only the place of an end token in an error can differ,
which no message shows. -/
theorem answers_scanned_eq_listed (source : Text) (h : source.scanErrors = []) :
    ∃ tokens p, source.tokens = tokens ++ [.eof p] ∧ ∀ n,
      answers scanning .scan n (.start (.ofText source)) =
        answers TokenList.source Empty.elim n (.start (.ofList source.tokens)) ∧
      List.Forall₂ (fun r r' => AlikeAnswers (fun _ _ => True) r r' ∧
          r.mapError Failure.message = r'.mapError Failure.message)
        (answers scanning .scan n (.start (.ofText source)))
        (answers TokenList.source Empty.elim n (.start (.ofList tokens))) := by
  obtain ⟨tokens, p, htokens⟩ := exists_tokens_eq source
  have hscanned : scannedListed.Cursors (.start (.ofText source))
      (.start (.ofList source.tokens)) := .empty (map_ok_tokens h)
  have hunended : listedUnended.Cursors (.start (.ofList source.tokens))
      (.start (.ofList tokens)) := .empty ⟨p, htokens⟩
  refine ⟨tokens, p, htokens, fun n => ?_⟩
  have hsame : answers scanning .scan n (.start (.ofText source)) =
      answers TokenList.source Empty.elim n (.start (.ofList source.tokens)) := by
    have halike := scannedListed.answers_alike .scan Empty.elim n hscanned
    exact List.forall₂_eq_eq_eq ▸ halike.imp fun _ _ => AlikeAnswers.eq
  refine ⟨hsame, ?_⟩
  rw [hsame]
  refine (listedUnended.answers_alike Empty.elim Empty.elim n hunended).imp ?_
  exact fun r r' halike => ⟨halike, halike.message_eq⟩

def unclosedSource : Text :=
  utf8 "(nil"

theorem answers_unclosedSource :
    unclosedSource.scanErrors = [] ∧ ∀ n,
      answers scanning .scan n (.start (.ofText unclosedSource)) =
        answers TokenList.source Empty.elim n (.start (.ofList unclosedSource.tokens)) := by
  have hnone : unclosedSource.scanErrors = [] := by decide +kernel
  obtain ⟨tokens, p, -, hanswers⟩ := answers_scanned_eq_listed unclosedSource hnone
  exact ⟨hnone, fun n => (hanswers n).1⟩

end ExprCalc.Parser
