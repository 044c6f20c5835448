import ExprCalc.Proofs.Parser.Simulation
import ExprCalc.Proofs.Parser.Accepted
import ExprCalc.Proofs.Parser.Lockstep

namespace ExprCalc

namespace Run

open ExprCalc.Parser Grammar

theorem scanning_next (r : Recording) :
    scanning.next r.scanner =
      ((Recording.source.next r).1, (Recording.source.next r).2.scanner) := by
  simp only [Recording.source, Recording.next, scanning]
  obtain ⟨item, s⟩ := r.scanner.next
  cases item <;> rfl

/-- A parser on the scanner of a source ends as it does with a record of the tokens. -/
theorem parse_scanning (source : Text) :
    Parser.parse scanning (.start (.ofText source)) =
      ((parsed source).1, ⟨(parsed source).2.held, (parsed source).2.rest.scanner⟩) :=
  Simulation.parse_projected scanning_next (.start (.start source))

theorem ne_eof_of_tokens {source : Text} {ts : List Token} {p : Position}
    (h : source.tokens = ts ++ [.eof p]) (hnone : source.scanErrors = []) :
    ∀ t ∈ ts, t.kind ≠ .eof := by
  have hscan : source.scan = source.tokens.map .ok := map_ok_tokens hnone
  rw [h, List.map_append] at hscan
  exact ne_eof_of_scan hscan (List.cons_ne_nil _ _)

theorem pending_tokens {ts : List Token} (hts : ∀ t ∈ ts, t.kind ≠ .eof) (p : Position) :
    pending (.start (.ofList (ts ++ [.eof p]))) = ts := by
  change (ts ++ [Token.eof p]).takeWhile (fun t => decide (t.kind ≠ .eof)) = ts
  apply Scanner.takeWhile_append_stop
  · exact fun t ht => decide_eq_true (hts t ht)
  · intro t ht
    cases ht
    simp [Token.eof]

theorem derives_of_parsed {source : Text} {e : Expr} (h : (parsed source).1 = .ok e) :
    ∃ ts p n, source.tokens = ts ++ [.eof p] ∧ (∀ t ∈ ts, t.kind ≠ .eof) ∧
      Derives (.level .equality) ts e n := by
  obtain ⟨_, h', hnone⟩ | ⟨_, h', -⟩ | ⟨_, h', -⟩ := parsed_cases source
  · cases h.symm.trans h'
    obtain ⟨ts, p, htokens⟩ := exists_tokens_eq source
    have hts := ne_eof_of_tokens htokens hnone
    -- the parser finds the same tree in the list of the tokens
    have hstart : scannedListed.Cursors (.start (.ofText source))
        (.start (.ofList source.tokens)) := .empty (map_ok_tokens hnone)
    have hlisted := (scannedListed.parse_alike .scan Empty.elim hstart).1.eq
    rw [parse_scanning, h] at hlisted
    have hok : (Parser.parse TokenList.source (.start (.ofList source.tokens))).1 = .ok e := by
      generalize (Parser.parse TokenList.source (.start (.ofList source.tokens))).1 = result
        at hlisted ⊢
      cases result with
      | ok e' =>
        cases hlisted
        rfl
      | error s => cases hlisted
    obtain ⟨n, -, hderives, -⟩ := (whole_eq_ok_iff _ _ _).mp (parse_eq_ok_iff.mp hok)
    rw [htokens, pending_tokens hts p] at hderives
    exact ⟨ts, p, n, htokens, hts, hderives⟩
  · cases h.symm.trans h'
  · cases h.symm.trans h'

end Run

end ExprCalc
