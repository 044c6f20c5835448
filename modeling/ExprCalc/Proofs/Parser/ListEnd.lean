import ExprCalc.Proofs.Parser.Lockstep
import ExprCalc.Proofs.Scanner.Listing
import ExprCalc.Proofs.Scanner.Place

namespace ExprCalc

open Run

variable {σ ε : Type}

/-- What a source answers to its call number `n`, counted from zero. -/
def TokenSource.answer (src : TokenSource σ ε) : (s : σ) → (n : Nat) → Except ε Token
  | s, 0 => (src.next s).1
  | s, n + 1 => src.answer (src.next s).2 n

theorem TokenList.answer_source (tokens : List Token) (p : Position) (n : Nat) :
    source.answer ⟨tokens, p⟩ n = .ok (tokens[n]?.getD (.eof p)) := by
  induction n generalizing tokens with
  | zero => cases tokens <;> rfl
  | succ n ih =>
    cases tokens with
    | nil => exact ih []
    | cons t ts => exact ih ts

theorem TokenList.answer_ofList {tokens : List Token} {last : Token}
    (h : tokens.getLast? = some last) (n : Nat) :
    source.answer (.ofList tokens) n = .ok (tokens[n]?.getD (.eof last.next)) := by
  rw [ofList, h]
  exact answer_source tokens last.next n

theorem eof_eq_of_getD_eq {tokens : List Token} {p q : Position}
    (h : ∀ n : Nat, tokens[n]?.getD (.eof p) = tokens[n]?.getD (.eof q)) : p = q := by
  have hend := h tokens.length
  rw [List.getElem?_eq_none (Nat.le_refl _)] at hend
  exact congrArg Token.position hend

namespace Scanner

variable {s : Scanner} {tokens : List Token} {p : Position}

theorem answer_scanning (s : Scanner) (n : Nat) : scanning.answer s n = (s.after n).next.1 := by
  induction n generalizing s with
  | zero => rfl
  | succ n ih =>
    rw [after_succ]
    exact ih s.next.2

/-- A scanner without errors delivers its tokens and then its end token again and again. -/
theorem answer_of_items (h : s.items = tokens.map .ok ++ [.ok (.eof p)]) (n : Nat) :
    scanning.answer s n = .ok (tokens[n]?.getD (.eof p)) := by
  obtain ⟨hcalls, hlater⟩ := next_after s
  rw [answer_scanning]
  by_cases hn : n ≤ tokens.length
  · apply hcalls
    rw [h]
    obtain hlt | rfl := hn.lt_or_eq
    · simp [List.getElem?_append_left, hlt]
    · simp
  · have hlength : s.items.length ≤ n := by
      rw [h, List.length_append, List.length_map]
      exact Nat.lt_of_not_le hn
    have hlast := hlater n hlength
    rw [h, List.getLast?_concat] at hlast
    rw [List.getElem?_eq_none (Nat.le_of_not_le hn)]
    exact (Option.some.inj hlast).symm

/-- A call for a token moves the scanner over its lexeme. -/
theorem position_of_next {s' : Scanner} (hs : Aligned s) {t : Token} (h : s.next = (.ok t, s'))
    (ht : t.kind ≠ .eof) : s'.position = t.position.afterAll t.lexeme.runes := by
  obtain ⟨⟨_, rest, _, -, hrest, -⟩, -⟩ := next_finds hs
  unfold next at h
  cases hrunes : rest.runes with
  | nil =>
    simp only [hrest, hrunes] at h
    cases h
    exact absurd rfl ht
  | cons r rs =>
    simp only [hrest, hrunes, token] at h
    cases hmatch : longest r rs with
    | token kind more =>
      simp only [hmatch] at h
      cases h
      rw [runes_lexeme hrunes]
    | openString | nothing =>
      simp only [hmatch] at h
      cases h

/-- An item that others follow is not the end, and the call for it leaves them. -/
theorem next_of_items_cons {item : ScanItem} {items : List ScanItem} (h : s.items = item :: items)
    (hmore : items ≠ []) :
    s.skipTrivia.rest ≠ [] ∧ s.next = (item, s.next.2) ∧ s.next.2.items = items := by
  have hrest : s.skipTrivia.rest ≠ [] := by
    intro hnil
    rw [items_of_end hnil] at h
    exact hmore (List.cons.inj h).2.symm
  rw [items_of_ne_end hrest] at h
  obtain ⟨hitem, hitems⟩ := List.cons.inj h
  exact ⟨hrest, Prod.ext hitem rfl, hitems⟩

/-- Where no input is left after the last token, the end token stands after its lexeme. -/
theorem position_of_eof {last : Token} (hs : Aligned s)
    (hitems : s.items = tokens.map .ok ++ [.ok last, .ok (.eof p)])
    (hend : (s.after (tokens.length + 1)).rest = []) :
    p = last.position.afterAll last.lexeme.runes := by
  induction tokens generalizing s with
  | nil =>
    obtain ⟨hmore, hnext, hlast⟩ := next_of_items_cons hitems (List.cons_ne_nil _ _)
    have hskip : s.next.2.skipTrivia = s.next.2 := skipTrivia_of_rest_nil hend
    have hnil : s.next.2.skipTrivia.rest = [] := by
      rw [hskip]
      exact hend
    rw [items_of_end hnil, next_of_end hnil, hskip] at hlast
    cases hlast
    exact position_of_next hs hnext (kind_ne_eof_of_next hnext hmore)
  | cons t tokens ih =>
    obtain ⟨-, -, htail⟩ := next_of_items_cons hitems (by simp)
    rw [List.length_cons, after_succ] at hend
    exact ih (next_finds hs).2 htail hend

end Scanner

/-- The place after a lexeme is the one that is counted on its first line exactly if it has no
other. -/
theorem Token.afterAll_eq_next_iff {t : Token} (h : t.lexeme.length < 2 ^ 63) :
    t.position.afterAll t.lexeme.runes = t.next ↔ t.lexeme.IsLine := by
  obtain ⟨q, hq⟩ : ∃ q, t.position.afterAll t.lexeme.runes = q := ⟨_, rfl⟩
  have hline : q.line = t.position.line + Int64.ofNat (t.lexeme.count 10) := by
    rw [← hq, Position.line_afterAll, Text.count_newline]
  rw [← Text.count_eq_zero_iff, hq]
  constructor
  · rintro rfl
    have hzero : Int64.ofNat (t.lexeme.count 10) = 0 := Int64.left_eq_add.mp hline
    -- the number of line feeds fits into a line number, so none is lost there
    have hle : t.lexeme.count 10 ≤ t.lexeme.length := List.count_le_length
    have hcount := Int64.toInt_ofNat_of_lt (hle.trans_lt h)
    rw [hzero] at hcount
    exact Int.natCast_eq_zero.mp hcount.symm
  · intro hcount
    have hnone : .char '\n' ∉ t.lexeme.runes := by
      rw [← List.count_eq_zero, Text.count_newline, hcount]
    have hcolumn := Position.column_afterAll hnone t.position
    have hsame : q.line = t.position.line := by
      simpa [hcount] using hline
    rw [hq] at hcolumn
    obtain ⟨line, column⟩ := q
    cases hsame
    cases hcolumn
    rfl

/-- The tokens of a source without scan errors, listed without their end token, and the scanner of
the source, if it ends with the last of them. Both deliver these tokens and then an end token again
and again. The scanner has it after the last lexeme, and the list where this lexeme would end on its
first line. So they agree exactly if the lexeme holds no line feed, as only that of a string can. -/
theorem listed_end_agrees_iff (source : Text) (tokens : List Token) (last : Token) (p : Position)
    (herrors : source.scanErrors = []) (htokens : source.tokens = tokens ++ [.eof p])
    (hlast : tokens.getLast? = some last)
    (hend : ((Scanner.ofText source).after tokens.length).rest = [])
    (hlength : last.lexeme.length < 2 ^ 63) :
    ((∀ n, (TokenList.source.answer (.ofList tokens) n).mapError Empty.elim =
        scanning.answer (.ofText source) n) ↔ last.lexeme.IsLine) ∧
    (last.kind ≠ .string → last.lexeme.IsLine) ∧
    ∀ n : Nat,
      TokenList.source.answer (.ofList tokens) n = .ok (tokens[n]?.getD (.eof last.next)) ∧
      scanning.answer (.ofText source) n =
        .ok (tokens[n]?.getD (.eof (last.position.afterAll last.lexeme.runes))) := by
  have hitems : (Scanner.ofText source).items = tokens.map .ok ++ [.ok (.eof p)] := by
    have hscan : source.scan = source.tokens.map .ok := Parser.map_ok_tokens herrors
    rw [htokens, List.map_append] at hscan
    exact hscan
  have hlisted := TokenList.answer_ofList hlast
  have hscanned := Scanner.answer_of_items hitems
  have hmem : last ∈ source.tokens := by
    rw [htokens]
    exact List.mem_append_left _ (List.mem_of_getLast? hlast)
  obtain ⟨before, rfl⟩ := List.getLast?_eq_some_iff.mp hlast
  obtain rfl : p = last.position.afterAll last.lexeme.runes :=
    Scanner.position_of_eof (Scanner.aligned_ofText source) (by simpa using hitems)
      (by simpa using hend)
  refine ⟨?_, Text.isLine_lexeme_of_mem_tokens hmem, fun n => ⟨hlisted n, hscanned n⟩⟩
  -- the tokens before the end are the same, so only its place can differ
  rw [← Token.afterAll_eq_next_iff hlength]
  simp only [hlisted, hscanned]
  constructor
  · intro hsame
    exact (eof_eq_of_getD_eq fun n => Except.ok.inj (hsame n)).symm
  · intro hplace n
    rw [hplace]
    rfl

/-- The source `!"é` with a stray byte before the closing quote. -/
def straySource : Text :=
  utf8 "!\"é" ++ [0xFF, 34]

theorem listed_end_straySource :
    straySource.scanErrors = [] ∧ ((Scanner.ofText straySource).after 2).rest = [] ∧
      ∃ tokens p, straySource.tokens = tokens ++ [.eof p] ∧ tokens.length = 2 ∧
        ∀ n, (TokenList.source.answer (.ofList tokens) n).mapError Empty.elim =
          scanning.answer (.ofText straySource) n := by
  have herrors : straySource.scanErrors = [] := by decide +kernel
  have hend : ((Scanner.ofText straySource).after 2).rest = [] := by decide +kernel
  have hcount : straySource.tokens.length = 3 := by decide +kernel
  have hshort : ∀ t ∈ straySource.tokens, t.lexeme.length < 2 ^ 63 ∧ t.lexeme.IsLine := by
    decide +kernel
  obtain ⟨tokens, p, htokens⟩ := Parser.exists_tokens_eq straySource
  have htwo : tokens.length = 2 := by
    rw [htokens, List.length_append] at hcount
    exact Nat.succ.inj hcount
  obtain ⟨last, hlast⟩ : ∃ last, tokens.getLast? = some last :=
    ⟨_, List.getLast?_eq_some_getLast (List.ne_nil_of_length_eq_add_one htwo)⟩
  obtain ⟨hlength, hline⟩ := hshort last (by
    rw [htokens]
    exact List.mem_append_left _ (List.mem_of_getLast? hlast))
  have hagrees := listed_end_agrees_iff straySource tokens last p herrors htokens hlast
    (by rw [htwo]; exact hend) hlength
  exact ⟨herrors, hend, tokens, p, htokens, htwo, hagrees.1.mpr hline⟩

def twoLineTokens : List Token :=
  Text.twoLineString.tokens.dropLast

theorem listed_end_twoLineTokens :
    Text.twoLineString.scanErrors = [] ∧ twoLineTokens.length = 1 ∧
    ((Scanner.ofText Text.twoLineString).after 1).rest = [] ∧
    (TokenList.source.answer (.ofList twoLineTokens) 1).toOption.map Token.position =
      some ⟨1, 6⟩ ∧
    (scanning.answer (.ofText Text.twoLineString) 1).toOption.map Token.position = some ⟨2, 3⟩ ∧
    ¬ ∀ n, (TokenList.source.answer (.ofList twoLineTokens) n).mapError Empty.elim =
      scanning.answer (.ofText Text.twoLineString) n := by
  have hlisted : (TokenList.source.answer (.ofList twoLineTokens) 1).toOption.map Token.position =
      some ⟨1, 6⟩ := by decide +kernel
  have hscanned : (scanning.answer (.ofText Text.twoLineString) 1).toOption.map Token.position =
      some ⟨2, 3⟩ := by decide +kernel
  refine ⟨by decide +kernel, by decide +kernel, by decide +kernel, hlisted, hscanned, ?_⟩
  intro hsame
  rw [← hsame 1] at hscanned
  generalize TokenList.source.answer _ 1 = answer at hlisted hscanned
  cases answer with
  | error e => exact e.elim
  | ok t => exact absurd (hlisted.symm.trans hscanned) (by decide)

end ExprCalc
