import ExprCalc.Proofs.Text.Unquoted
import ExprCalc.Proofs.Scanner.Listing

namespace ExprCalc

def Token.withoutPayload (t : Token) : Token :=
  { t with payload := none }

theorem Lexeme.quote_not_mem {inside : List Rune}
    (h : Lexeme .string (.char '"' :: (inside ++ [.char '"']))) : .char '"' ∉ inside := by
  obtain ⟨-, inside', hinside, heq⟩ := continues_of_start Scanner.start_quote h
  rwa [List.append_cancel_right heq]

namespace Scanner.TokenAt

open ExprCalc.Parser

variable {rest : Text} {t : Token}

theorem literalValue?_number (h : TokenAt rest t) (hkind : t.kind = .number) :
    ∃ x, literalValue? t = some (.number x) ∧
      literalValue? t.withoutPayload = some (.number x) := by
  obtain ⟨x, hread, hpayload, -⟩ := h.number_payload hkind
  have hstring : t.kind ≠ .string := by
    rw [hkind]
    decide
  refine ⟨x, ?_, ?_⟩
  · rw [literalValue?, if_neg hstring, hpayload]
  · change literalValue? ⟨t.kind, t.lexeme, t.position, none⟩ = _
    rw [literalValue?, if_neg hstring]
    simp only [hread, Option.map_some]

theorem literalValue?_string (h : TokenAt rest t) (hkind : t.kind = .string) :
    ∃ inside, t.lexeme = 34 :: (inside ++ [34]) ∧ 34 ∉ inside ∧
      literalValue? t = some (.string inside) ∧
      literalValue? t.withoutPayload = t.lexeme.unquoted?.map .string := by
  obtain ⟨inside, hlexeme, hpayload⟩ := h.string_payload hkind
  refine ⟨inside, hlexeme, ?_, ?_, ?_⟩
  · have hrunes := h.longest.lexeme
    rw [hkind, hlexeme, Text.runes_cons_ascii (by decide), Text.runes_append_ascii (by decide)]
      at hrunes
    rw [Text.mem_iff_ascii_mem_runes (by decide)]
    exact hrunes.quote_not_mem
  · rw [literalValue?, if_pos hkind, hpayload]
  · change literalValue? ⟨t.kind, t.lexeme, t.position, none⟩ = _
    rw [literalValue?, if_pos hkind]

end Scanner.TokenAt

namespace Text

open ExprCalc.Parser

theorem tokenAt_of_kind {source : Text} {t : Token} (ht : t ∈ source.tokens)
    (hkind : t.kind ≠ .eof) : ∃ rest, Scanner.TokenAt rest t := by
  obtain ⟨p, rfl⟩ | hrest := tokenAt_of_mem_tokens ht
  · exact absurd rfl hkind
  · exact hrest

/-- The parser takes a numeral for the same value with and without its payload. It takes a string
for the same value exactly if the text between the quotes is UTF-8 and has no backslash and no line
feed. -/
theorem literalValue?_withoutPayload (source : Text) :
    (∀ t ∈ source.tokens, t.kind = .number →
      ∃ v, literalValue? t = some v ∧ literalValue? t.withoutPayload = some v) ∧
    ∀ t ∈ source.tokens, t.kind = .string →
      ∃ inside : Text, t.lexeme = 34 :: (inside ++ [34]) ∧
        ((∃ v, literalValue? t = some v ∧ literalValue? t.withoutPayload = some v) ↔
          inside.isUtf8 = true ∧ 92 ∉ inside ∧ 10 ∉ inside) := by
  constructor
  · intro t ht hkind
    obtain ⟨rest, hrest⟩ := tokenAt_of_kind ht (by simp [hkind])
    obtain ⟨x, hvalue, hfallback⟩ := hrest.literalValue?_number hkind
    exact ⟨.number x, hvalue, hfallback⟩
  · intro t ht hkind
    obtain ⟨rest, hrest⟩ := tokenAt_of_kind ht (by simp [hkind])
    obtain ⟨inside, hlexeme, hquote, hvalue, hfallback⟩ := hrest.literalValue?_string hkind
    refine ⟨inside, hlexeme, ?_⟩
    rw [← unquoted?_eq_self_iff hquote, ← hlexeme, hvalue, hfallback]
    constructor
    · rintro ⟨v, hv, hself⟩
      cases hv
      obtain ⟨t', hunquoted, hstring⟩ := Option.map_eq_some_iff.mp hself
      cases hstring
      exact hunquoted
    · intro hunquoted
      exact ⟨.string inside, rfl, by rw [hunquoted, Option.map_some]⟩

def escapedSource : Text :=
  utf8 "1.5 < \"\\n\""

theorem literalValue?_escapedSource :
    ∃ n ∈ escapedSource.tokens, ∃ s ∈ escapedSource.tokens,
      (∃ v, literalValue? n = some v ∧ literalValue? n.withoutPayload = some v) ∧
      ¬ ∃ v, literalValue? s = some v ∧ literalValue? s.withoutPayload = some v := by
  have htokens : escapedSource.tokens.map (fun t => (t.kind, t.lexeme)) =
      [(.number, utf8 "1.5"), (.less, utf8 "<"), (.string, utf8 "\"\\n\""), (.eof, [])] := by
    decide +kernel
  have hfind (kind : Kind) (lexeme : Text) (h : (kind, lexeme) ∈
      escapedSource.tokens.map fun t => (t.kind, t.lexeme)) :
      ∃ t ∈ escapedSource.tokens, t.kind = kind ∧ t.lexeme = lexeme := by
    simpa only [List.mem_map, Prod.mk.injEq] using h
  obtain ⟨n, hn, hnumber, -⟩ := hfind .number (utf8 "1.5") (by simp [htokens])
  obtain ⟨s, hs, hstring, hlexeme⟩ := hfind .string (utf8 "\"\\n\"") (by simp [htokens])
  obtain ⟨hnumbers, hstrings⟩ := literalValue?_withoutPayload escapedSource
  refine ⟨n, hn, s, hs, hnumbers n hn hnumber, ?_⟩
  obtain ⟨inside, hinside, hiff⟩ := hstrings s hs hstring
  rw [hiff]
  rintro ⟨-, hbackslash, -⟩
  have hmem : 92 ∈ 34 :: (inside ++ [34]) := by
    rw [← hinside, hlexeme]
    decide
  exact hbackslash (by simpa using hmem)

end Text

end ExprCalc
