import ExprCalc.Proofs.Scanner.Trivia

namespace ExprCalc

def fixedLexemes : List (String × Kind) :=
  [("(", .leftParen), (")", .rightParen), ("\x7b", .leftBrace), ("\x7d", .rightBrace),
   (",", .comma), (".", .dot), ("-", .minus), ("+", .plus), (";", .semicolon), ("*", .star),
   ("/", .slash), ("!", .bang), ("!=", .bangEqual), ("=", .equal), ("==", .equalEqual),
   ("<", .less), ("<=", .lessEqual), (">", .greater), (">=", .greaterEqual)]

/-- A letter or an underscore, then letters, underscores and digits. -/
def IsWord : List Char → Prop
  | [] => False
  | c :: cs => (c = '_' ∨ Text.isLetter c) ∧ ∀ d ∈ cs, (d = '_' ∨ Text.isLetter d) ∨ d.isDigit

/-- `Lexeme kind rs`: the runes `rs` are a lexeme of a token of the given kind. -/
inductive Lexeme : Kind → List Rune → Prop
  | fixed {s : String} {kind : Kind} (h : (s, kind) ∈ fixedLexemes) :
      Lexeme kind (s.toList.map .char)
  | string {inside : List Rune} (h : .char '"' ∉ inside) :
      Lexeme .string (.char '"' :: (inside ++ [.char '"']))
  | whole {ds : List Char} (hne : ds ≠ []) (hds : ∀ d ∈ ds, d.isDigit) :
      Lexeme .number (ds.map .char)
  | decimal {ds fs : List Char} (hne : ds ≠ []) (hds : ∀ d ∈ ds, d.isDigit) (hne' : fs ≠ [])
      (hfs : ∀ d ∈ fs, d.isDigit) : Lexeme .number ((ds ++ '.' :: fs).map .char)
  | keyword {cs : List Char} {kind : Kind} (hword : IsWord cs)
      (h : (Text.ofRunes (cs.map .char), kind) ∈ Kind.keywords) : Lexeme kind (cs.map .char)
  | identifier {cs : List Char} (hword : IsWord cs)
      (h : ∀ kind, (Text.ofRunes (cs.map .char), kind) ∉ Kind.keywords) :
      Lexeme .identifier (cs.map .char)

namespace Lexeme

theorem letters_ascii : Text.letters.all (fun r => decide (0x80 ≤ r.low ∨
    (r.low = 0x41 ∧ r.high = 0x5A) ∨ (r.low = 0x61 ∧ r.high = 0x7A))) = true := by
  decide +kernel

theorem isLetter_ascii {c : Char} (h : Text.isLetter c) (hc : c.toNat < 0x80) :
    (0x41 ≤ c.toNat ∧ c.toNat ≤ 0x5A) ∨ (0x61 ≤ c.toNat ∧ c.toNat ≤ 0x7A) := by
  obtain ⟨r, hr, hcontains⟩ := List.any_eq_true.mp h
  have hrange := of_decide_eq_true (List.all_eq_true.mp letters_ascii r hr)
  simp only [Text.CodeRange.contains, Bool.and_eq_true, decide_eq_true_eq] at hcontains
  omega

theorem isDigit_char (c : Char) : Scanner.isDigit (.char c) = c.isDigit := by
  rfl

theorem startsWord_char (c : Char) :
    Scanner.startsWord (.char c) = true ↔ c = '_' ∨ Text.isLetter c := by
  simp [Scanner.startsWord]

theorem continuesWord_char (c : Char) :
    Scanner.continuesWord (.char c) = true ↔ (c = '_' ∨ Text.isLetter c) ∨ c.isDigit := by
  simp only [Scanner.continuesWord, Bool.or_eq_true, startsWord_char, isDigit_char]

/-- What a character says about the lexeme that it starts. -/
inductive Start where
  | mark (kind : Kind)
  | comparison (alone withEqual : Kind)
  | quote
  | digit
  | word
  | other

def Start.of (c : Char) : Start :=
  match Kind.ofMark? c, Kind.ofComparison? c with
  | some kind, _ => mark kind
  | none, some (alone, withEqual) => comparison alone withEqual
  | none, none =>
    if c = '"' then quote
    else if c.isDigit then digit
    else if c = '_' ∨ Text.isLetter c then word
    else other

/-- The characters that are marks, comparisons or quotes. -/
def symbols : List Char :=
  ['(', ')', '\x7b', '\x7d', ',', '.', '-', '+', ';', '*', '/', '!', '=', '<', '>', '"']

theorem mem_symbols_of_mark {c : Char} {kind : Kind} (h : Kind.ofMark? c = some kind) :
    c ∈ symbols := by
  unfold Kind.ofMark? at h
  split at h <;> cases h <;> decide

theorem mem_symbols_of_comparison {c : Char} {kinds : Kind × Kind}
    (h : Kind.ofComparison? c = some kinds) : c ∈ symbols := by
  unfold Kind.ofComparison? at h
  split at h <;> cases h <;> decide

theorem Start.of_eq {c : Char} (hc : c ∉ symbols) :
    Start.of c =
      if c.isDigit then digit else if c = '_' ∨ Text.isLetter c then word else other := by
  have hmark : Kind.ofMark? c = none :=
    Option.eq_none_iff_forall_ne_some.mpr fun _ h => hc (mem_symbols_of_mark h)
  have hcomparison : Kind.ofComparison? c = none :=
    Option.eq_none_iff_forall_ne_some.mpr fun _ h => hc (mem_symbols_of_comparison h)
  have hquote : c ≠ '"' := by
    rintro rfl
    exact hc (by decide)
  simp only [Start.of, hmark, hcomparison, if_neg hquote]

theorem start_of_isDigit {c : Char} (hc : c.isDigit) : Start.of c = .digit := by
  rw [Start.of_eq, if_pos hc]
  intro hmem
  have hall : symbols.all fun d => !d.isDigit := by decide
  have hnot := List.all_eq_true.mp hall c hmem
  rw [hc] at hnot
  cases hnot

theorem start_of_word {c : Char} (hc : c = '_' ∨ Text.isLetter c) : Start.of c = .word := by
  have hrange : c = '_' ∨ (0x41 ≤ c.toNat ∧ c.toNat ≤ 0x5A) ∨ (0x61 ≤ c.toNat ∧ c.toNat ≤ 0x7A) ∨
      0x80 ≤ c.toNat := by
    rcases hc with h | h
    · exact .inl h
    · have hletter := isLetter_ascii h
      omega
  have hall : symbols.all fun d => ¬ (d = '_' ∨ (0x41 ≤ d.toNat ∧ d.toNat ≤ 0x5A) ∨
      (0x61 ≤ d.toNat ∧ d.toNat ≤ 0x7A) ∨ 0x80 ≤ d.toNat) := by decide
  have hsymbol : c ∉ symbols := fun hmem =>
    of_decide_eq_true (List.all_eq_true.mp hall c hmem) hrange
  have hdigit : ¬ c.isDigit := by
    rw [Text.isDigit_iff]
    rcases hrange with rfl | h
    · decide
    · omega
  rw [Start.of_eq hsymbol, if_neg hdigit, if_pos hc]

theorem keywords_unique : ∀ p ∈ Kind.keywords, ∀ q ∈ Kind.keywords, p.1 = q.1 → p.2 = q.2 := by
  decide

theorem ofWord_of_mem {w : Text} {kind : Kind} (h : (w, kind) ∈ Kind.keywords) :
    Kind.ofWord w = kind := by
  unfold Kind.ofWord
  cases hlookup : Kind.keywords.lookup w with
  | none => simpa using List.lookup_eq_none_iff.mp hlookup _ h
  | some kind' =>
    obtain ⟨l₁, l₂, hsplit, -⟩ := List.lookup_eq_some_iff.mp hlookup
    have hmem : (w, kind') ∈ Kind.keywords := by
      rw [hsplit]
      simp
    exact keywords_unique _ hmem _ h rfl

theorem ofWord_of_not_mem {w : Text} (h : ∀ kind, (w, kind) ∉ Kind.keywords) :
    Kind.ofWord w = .identifier := by
  unfold Kind.ofWord
  have hnone : Kind.keywords.lookup w = none := by
    rw [List.lookup_eq_none_iff]
    rintro ⟨w', kind⟩ hmem
    simp only [bne_iff_ne]
    rintro rfl
    exact h kind hmem
  rw [hnone]
  rfl

theorem of_isWord {cs : List Char} (h : IsWord cs) :
    Lexeme (Kind.ofWord (Text.ofRunes (cs.map .char))) (cs.map .char) := by
  by_cases hmem : ∃ kind, (Text.ofRunes (cs.map .char), kind) ∈ Kind.keywords
  · obtain ⟨kind, hmem⟩ := hmem
    rw [ofWord_of_mem hmem]
    exact .keyword h hmem
  · have hnot : ∀ kind, (Text.ofRunes (cs.map .char), kind) ∉ Kind.keywords :=
      fun kind hkind => hmem ⟨kind, hkind⟩
    rw [ofWord_of_not_mem hnot]
    exact .identifier h hnot

/-- The lexemes that begin with the rune `r`, by the class of its character: their kind and the
runes after the first. -/
def Continues (r : Rune) (kind : Kind) (ls : List Rune) : Start → Prop
  | .mark kind' => kind = kind' ∧ ls = []
  | .comparison alone withEqual =>
    (kind = alone ∧ ls = []) ∨ (kind = withEqual ∧ ls = [.char '='])
  | .quote => kind = .string ∧ ∃ inside, .char '"' ∉ inside ∧ ls = inside ++ [.char '"']
  | .digit => kind = .number ∧ ∃ ds : List Char, (∀ d ∈ ds, d.isDigit) ∧
      (ls = ds.map .char ∨ ∃ f fs, (∀ d ∈ f :: fs, Char.isDigit d) ∧
        ls = ds.map .char ++ .char '.' :: .char f :: fs.map .char)
  | .word => kind = Kind.ofWord (Text.ofRunes (r :: ls)) ∧ ∃ cs : List Char,
      (∀ d ∈ cs, (d = '_' ∨ Text.isLetter d) ∨ d.isDigit) ∧ ls = cs.map .char
  | .other => False

theorem fixedLexemes_table : fixedLexemes.all (fun p =>
    match p.1.toList with
    | [c] => Kind.ofMark? c == some p.2 || (Kind.ofComparison? c).map Prod.fst == some p.2
    | [c, d] => d == '=' && (Kind.ofComparison? c).map Prod.snd == some p.2
    | _ => false) = true := by
  decide

theorem start_of_mark {c : Char} {kind : Kind} (h : Kind.ofMark? c = some kind) :
    Start.of c = .mark kind := by
  simp only [Start.of, h]

theorem start_of_comparison {c : Char} {alone withEqual : Kind}
    (h : Kind.ofComparison? c = some (alone, withEqual)) :
    Start.of c = .comparison alone withEqual := by
  have hmark : Kind.ofMark? c = none := by
    unfold Kind.ofComparison? at h
    split at h <;> cases h <;> decide
  simp only [Start.of, hmark, h]

theorem continues_of_fixed {s : String} {kind : Kind} (h : (s, kind) ∈ fixedLexemes) :
    ∃ c cs, s.toList = c :: cs ∧ Continues (.char c) kind (cs.map .char) (Start.of c) := by
  have htable := List.all_eq_true.mp fixedLexemes_table _ h
  simp only at htable
  split at htable
  · next c hs =>
    refine ⟨c, [], hs, ?_⟩
    rcases Bool.or_eq_true_iff.mp htable with hmark | hcomparison
    · rw [start_of_mark (beq_iff_eq.mp hmark)]
      exact ⟨rfl, rfl⟩
    · obtain ⟨⟨alone, withEqual⟩, hpair, rfl⟩ :=
        Option.map_eq_some_iff.mp (beq_iff_eq.mp hcomparison)
      rw [start_of_comparison hpair]
      exact .inl ⟨rfl, rfl⟩
  · next c d hs =>
    obtain ⟨hd, hcomparison⟩ := Bool.and_eq_true_iff.mp htable
    obtain ⟨⟨alone, withEqual⟩, hpair, rfl⟩ := Option.map_eq_some_iff.mp (beq_iff_eq.mp hcomparison)
    refine ⟨c, [d], hs, ?_⟩
    rw [start_of_comparison hpair, beq_iff_eq.mp hd]
    exact .inr ⟨rfl, rfl⟩
  · cases htable

theorem continues_of_lexeme {kind : Kind} {r : Rune} {ls : List Rune}
    (h : Lexeme kind (r :: ls)) : ∃ c, r = .char c ∧ Continues r kind ls (Start.of c) := by
  -- every rule of `Lexeme` fixes the class of the first character
  generalize hrs : r :: ls = rs at h
  cases h with
  | fixed hmem =>
    obtain ⟨c, cs, hs, hcontinues⟩ := continues_of_fixed hmem
    rw [hs] at hrs
    cases hrs
    exact ⟨c, rfl, hcontinues⟩
  | string hinside =>
    cases hrs
    exact ⟨'"', rfl, rfl, _, hinside, rfl⟩
  | @whole ds hne hds =>
    cases ds with
    | nil => exact absurd rfl hne
    | cons c ds =>
      cases hrs
      refine ⟨c, rfl, ?_⟩
      rw [start_of_isDigit (hds c List.mem_cons_self)]
      exact ⟨rfl, ds, fun d hd => hds d (.tail c hd), .inl rfl⟩
  | @decimal ds fs hne hds hne' hfs =>
    cases ds with
    | nil => exact absurd rfl hne
    | cons c ds =>
      cases fs with
      | nil => exact absurd rfl hne'
      | cons f fs =>
        cases hrs
        refine ⟨c, rfl, ?_⟩
        rw [start_of_isDigit (hds c List.mem_cons_self)]
        refine ⟨rfl, ds, fun d hd => hds d (.tail c hd), .inr ⟨f, fs, hfs, ?_⟩⟩
        simp
  | @keyword cs kind hword hmem =>
    cases cs with
    | nil => cases hword
    | cons c cs =>
      cases hrs
      refine ⟨c, rfl, ?_⟩
      rw [start_of_word hword.1]
      exact ⟨(ofWord_of_mem hmem).symm, cs, hword.2, rfl⟩
  | @identifier cs hword hmem =>
    cases cs with
    | nil => cases hword
    | cons c cs =>
      cases hrs
      refine ⟨c, rfl, ?_⟩
      rw [start_of_word hword.1]
      exact ⟨(ofWord_of_not_mem hmem).symm, cs, hword.2, rfl⟩

theorem continues_of_start {c : Char} {start : Start} {kind : Kind} {ls : List Rune}
    (hstart : Start.of c = start) (h : Lexeme kind (.char c :: ls)) :
    Continues (.char c) kind ls start := by
  obtain ⟨_, hc, hcontinues⟩ := continues_of_lexeme h
  cases hc
  rwa [hstart] at hcontinues

theorem of_mark {c : Char} {kind : Kind} (h : Kind.ofMark? c = some kind) :
    Lexeme kind [.char c] := by
  have hmem : (String.ofList [c], kind) ∈ fixedLexemes := by
    unfold Kind.ofMark? at h
    split at h <;> cases h <;> decide
  simpa using Lexeme.fixed hmem

theorem of_comparison {c : Char} {alone withEqual : Kind}
    (h : Kind.ofComparison? c = some (alone, withEqual)) :
    Lexeme alone [.char c] ∧ Lexeme withEqual [.char c, .char '='] := by
  have hmem : (String.ofList [c], alone) ∈ fixedLexemes ∧
      (String.ofList [c, '='], withEqual) ∈ fixedLexemes := by
    unfold Kind.ofComparison? at h
    split at h <;> cases h <;> decide
  exact ⟨by simpa using Lexeme.fixed hmem.1, by simpa using Lexeme.fixed hmem.2⟩

theorem lexeme_of_continues {c : Char} {kind : Kind} {ls : List Rune}
    (h : Continues (.char c) kind ls (Start.of c)) : Lexeme kind (.char c :: ls) := by
  unfold Start.of at h
  split at h
  · next hmark =>
    obtain ⟨rfl, rfl⟩ := h
    exact of_mark hmark
  · next hcomparison =>
    obtain ⟨rfl, rfl⟩ | ⟨rfl, rfl⟩ := h
    · exact (of_comparison hcomparison).1
    · exact (of_comparison hcomparison).2
  split at h
  · next hquote =>
    obtain ⟨rfl, inside, hinside, rfl⟩ := h
    rw [hquote]
    exact .string hinside
  split at h
  · next hdigit =>
    obtain ⟨rfl, ds, hds, rfl | ⟨f, fs, hfs, rfl⟩⟩ := h
    · exact .whole (List.cons_ne_nil c ds) (List.forall_mem_cons.mpr ⟨hdigit, hds⟩)
    · have hdecimal := Lexeme.decimal (List.cons_ne_nil c ds)
        (List.forall_mem_cons.mpr ⟨hdigit, hds⟩) (List.cons_ne_nil f fs) hfs
      simpa using hdecimal
  split at h
  · next hword =>
    obtain ⟨rfl, cs, hcs, rfl⟩ := h
    have hisWord : IsWord (c :: cs) := ⟨hword, hcs⟩
    exact of_isWord hisWord
  · cases h

end Lexeme

end ExprCalc
