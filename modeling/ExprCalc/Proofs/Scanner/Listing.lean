import ExprCalc.Proofs.Scanner.Place
import ExprCalc.Proofs.Text.SingleLine

namespace ExprCalc

theorem ScanError.isLine_message (e : ScanError) : e.message.IsLine := by
  cases e with
  | unterminatedString p =>
    simp only [message, Text.isLine_append]
    exact ⟨⟨by decide, p.isLine_text⟩, by decide⟩
  | unrecognizedCharacter code p =>
    simp only [message, Text.isLine_append]
    exact ⟨⟨⟨by decide, p.isLine_text⟩, by decide⟩, Text.isLine_quotedChar code⟩

theorem Token.count_text (t : Token) :
    t.text.count 10 = (t.payload.elim (utf8 "<nil>") Payload.text).count 10 := by
  have hname := Text.count_eq_zero_iff.mpr t.kind.isLine_name
  have hlexeme := Text.count_eq_zero_iff.mpr (Text.isLine_quoted t.lexeme)
  have hposition := Text.count_eq_zero_iff.mpr t.position.isLine_text
  have hopen : (utf8 "\x7b").count 10 = 0 := by decide
  have hcomma : (utf8 ", ").count 10 = 0 := by decide
  have hclose : (utf8 "\x7d").count 10 = 0 := by decide
  simp only [text, List.count_append, hname, hlexeme, hposition, hopen, hcomma, hclose]
  omega

namespace Lexeme

theorem newline_not_mem_of_fixed : ∀ p ∈ fixedLexemes, '\n' ∉ p.1.toList := by
  decide

theorem newline_not_mem_of_isWord {cs : List Char} (h : IsWord cs) : '\n' ∉ cs := by
  have hletter : ¬ ('\n' = '_' ∨ Text.isLetter '\n') := by decide +kernel
  cases cs with
  | nil => exact List.not_mem_nil
  | cons c cs =>
    intro hmem
    rcases List.mem_cons.mp hmem with rfl | hmem
    · exact hletter h.1
    · rcases h.2 _ hmem with hword | hdigit
      · exact hletter hword
      · cases hdigit

theorem newline_not_mem {kind : Kind} {rs : List Rune} (h : Lexeme kind rs)
    (hkind : kind ≠ .string) : .char '\n' ∉ rs := by
  have hchars {cs : List Char} (hcs : '\n' ∉ cs) : Rune.char '\n' ∉ cs.map .char := by
    simpa using hcs
  have hdigits {ds : List Char} (hds : ∀ d ∈ ds, d.isDigit) : '\n' ∉ ds :=
    fun hmem => absurd (hds _ hmem) (by decide)
  cases h with
  | fixed hmem => exact hchars (newline_not_mem_of_fixed _ hmem)
  | string => exact absurd rfl hkind
  | whole _ hds => exact hchars (hdigits hds)
  | decimal _ hds _ hfs =>
    apply hchars
    simp [hdigits hds, hdigits hfs]
  | keyword hword _ => exact hchars (newline_not_mem_of_isWord hword)
  | identifier hword _ => exact hchars (newline_not_mem_of_isWord hword)

end Lexeme

namespace Scanner

theorem TokenAt.isLine_lexeme {rest : Text} {t : Token} (h : TokenAt rest t)
    (hkind : t.kind ≠ .string) : t.lexeme.IsLine := by
  rw [← Text.count_eq_zero_iff, ← Text.count_newline]
  exact List.count_eq_zero_of_not_mem (h.longest.lexeme.newline_not_mem hkind)

/-- The payload of a string has the line feeds of its lexeme, and no other payload has any. -/
theorem TokenAt.count_text {rest : Text} {t : Token} (h : TokenAt rest t) :
    t.text.count 10 = t.lexeme.count 10 := by
  rw [t.count_text]
  by_cases hstring : t.kind = .string
  · obtain ⟨inside, hlexeme, hpayload⟩ := h.string_payload hstring
    rw [hlexeme, hpayload, List.count_cons, List.count_append]
    rfl
  · rw [Text.count_eq_zero_iff.mpr (h.isLine_lexeme hstring), Text.count_eq_zero_iff]
    by_cases hnumber : t.kind = .number
    · obtain ⟨x, -, hpayload, -⟩ := h.number_payload hnumber
      rw [hpayload]
      exact Number.isLine_text x
    · rw [h.no_payload hstring hnumber]
      decide

theorem Finds.eof_or_tokenAt {p : Position} {rest span tail : Text} {t : Token}
    (h : Finds p rest (.ok t) span tail) : t = .eof p ∨ TokenAt rest t := by
  cases h with
  | eof => exact .inl rfl
  | token hlongest => exact .inr (tokenAt_of_longestAt hlongest p)

theorem tokenAt_of_mem_items {s : Scanner} (hs : Aligned s) {t : Token} (h : .ok t ∈ s.items) :
    (∃ p, t = .eof p) ∨ ∃ rest, TokenAt rest t := by
  induction s using call_induction with
  | stop s hend =>
    rw [items_of_end hend, next_of_end hend, List.mem_singleton] at h
    cases h
    exact .inl ⟨_, rfl⟩
  | call s hmore ih =>
    obtain ⟨⟨gap, rest, span, -, -, hfinds⟩, haligned⟩ := next_finds hs
    rw [items_of_ne_end hmore] at h
    rcases List.mem_cons.mp h with h | h
    · rw [← h] at hfinds
      exact hfinds.eof_or_tokenAt.imp (fun heof => ⟨_, heof⟩) fun ht => ⟨rest, ht⟩
    · exact ih haligned h

end Scanner

namespace Text

theorem mem_tokens {source : Text} {t : Token} : t ∈ source.tokens ↔ .ok t ∈ source.scan := by
  rw [tokens, List.mem_filterMap]
  constructor
  · rintro ⟨item, hitem, ht⟩
    cases item with
    | ok u =>
      cases ht
      exact hitem
    | error e => cases ht
  · exact fun h => ⟨.ok t, h, rfl⟩

theorem tokenAt_of_mem_tokens {source : Text} {t : Token} (h : t ∈ source.tokens) :
    (∃ p, t = .eof p) ∨ ∃ rest, Scanner.TokenAt rest t :=
  Scanner.tokenAt_of_mem_items (Scanner.aligned_ofText source) (mem_tokens.mp h)

theorem count_text_of_mem_tokens {source : Text} {t : Token} (h : t ∈ source.tokens) :
    t.text.count 10 = t.lexeme.count 10 := by
  obtain ⟨p, rfl⟩ | ⟨rest, hrest⟩ := tokenAt_of_mem_tokens h
  · rw [Token.count_text]
    rfl
  · exact hrest.count_text

theorem isLine_lexeme_of_mem_tokens {source : Text} {t : Token} (h : t ∈ source.tokens)
    (hkind : t.kind ≠ .string) : t.lexeme.IsLine := by
  obtain ⟨p, rfl⟩ | ⟨rest, hrest⟩ := tokenAt_of_mem_tokens h
  · exact List.not_mem_nil
  · exact hrest.isLine_lexeme hkind

theorem isLine_text_error (e : ScanError) : IsLine (ScanItem.text (.error e)) :=
  isLine_append.mpr ⟨by decide, e.isLine_message⟩

theorem count_listed (items : List ScanItem)
    (h : ∀ t, .ok t ∈ items → t.text.count 10 = t.lexeme.count 10) :
    (items.flatMap fun item => line (ScanItem.text item)).count 10 =
      items.length + ((items.filterMap ScanItem.token?).flatMap Token.lexeme).count 10 := by
  induction items with
  | nil => rfl
  | cons item items ih =>
    have htail := ih fun t ht => h t (.tail item ht)
    rw [List.flatMap_cons, List.count_append, count_line, htail, List.length_cons]
    cases item with
    | ok t =>
      have ht : (ScanItem.text (.ok t)).count 10 = t.lexeme.count 10 := h t List.mem_cons_self
      have htoken : ScanItem.token? (.ok t) = some t := rfl
      rw [ht, List.filterMap_cons_some htoken, List.flatMap_cons, List.count_append]
      omega
    | error e =>
      have hnone : ScanItem.token? (.error e) = none := rfl
      rw [count_eq_zero_iff.mpr (isLine_text_error e), List.filterMap_cons_none hnone]
      omega

/-- A listing has a line for every item, and one more for every line feed in a lexeme. So the items
are its lines exactly if no token spans lines, as only a string can. -/
theorem listing_isLines_iff (source : Text) :
    (source.listing.IsLines (source.scan.map ScanItem.text) ↔
      ∀ t ∈ source.tokens, t.lexeme.IsLine) ∧
    source.listing.count 10 =
      source.scan.length + (source.tokens.flatMap Token.lexeme).count 10 ∧
    ∀ t ∈ source.tokens, t.kind ≠ .string → t.lexeme.IsLine := by
  refine ⟨⟨?_, ?_⟩, ?_, fun t => isLine_lexeme_of_mem_tokens⟩
  · intro h t ht
    have hmem : t.text ∈ source.scan.map ScanItem.text :=
      List.mem_map.mpr ⟨.ok t, mem_tokens.mp ht, rfl⟩
    rw [← count_eq_zero_iff, ← count_text_of_mem_tokens ht, count_eq_zero_iff]
    exact h.single _ hmem
  · intro h
    refine ⟨?_, ?_⟩
    · rw [listing, List.flatMap_map]
    · intro l hl
      obtain ⟨item, hitem, rfl⟩ := List.mem_map.mp hl
      cases item with
      | ok t =>
        have ht := mem_tokens.mpr hitem
        rw [← count_eq_zero_iff]
        exact (count_text_of_mem_tokens ht).trans (count_eq_zero_iff.mpr (h t ht))
      | error e => exact isLine_text_error e
  · exact count_listed source.scan fun t ht => count_text_of_mem_tokens (mem_tokens.mpr ht)

def twoLineString : Text :=
  utf8 "\"a\nb\""

theorem listing_twoLineString :
    twoLineString.scan.length = 2 ∧ twoLineString.listing.count 10 = 3 ∧
      ¬ twoLineString.listing.IsLines (twoLineString.scan.map ScanItem.text) := by
  refine ⟨by decide +kernel, by decide +kernel, ?_⟩
  intro h
  have hspans : ¬ ∀ l ∈ twoLineString.scan.map ScanItem.text, l.IsLine := by decide +kernel
  exact hspans h.single

end Text

end ExprCalc
