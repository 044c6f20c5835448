import ExprCalc.Proofs.Scanner.Longest
import ExprCalc.Proofs.Number.Numeral

namespace ExprCalc

namespace Lexeme

theorem kind_of_fixed : ∀ p ∈ fixedLexemes, p.2 ≠ .eof ∧ p.2 ≠ .string ∧ p.2 ≠ .number := by
  decide

theorem kind_of_keyword : ∀ p ∈ Kind.keywords, p.2 ≠ .eof ∧ p.2 ≠ .string ∧ p.2 ≠ .number := by
  decide

theorem string_or_chars {kind : Kind} {rs : List Rune} (h : Lexeme kind rs) :
    (∃ inside, rs = .char '"' :: (inside ++ [.char '"'])) ∨
      ∃ cs : List Char, rs = cs.map .char := by
  cases h with
  | string => exact .inl ⟨_, rfl⟩
  | _ => exact .inr ⟨_, rfl⟩

theorem exists_inside {rs : List Rune} (h : Lexeme .string rs) :
    ∃ inside, rs = .char '"' :: (inside ++ [.char '"']) := by
  cases h with
  | fixed hmem => exact absurd rfl (kind_of_fixed _ hmem).2.1
  | string => exact ⟨_, rfl⟩
  | keyword _ hmem => exact absurd rfl (kind_of_keyword _ hmem).2.1

theorem word_ne_nil {cs : List Char} (h : IsWord cs) : cs ≠ [] := by
  rintro rfl
  exact h

theorem ne_nil {kind : Kind} {rs : List Rune} (h : Lexeme kind rs) : rs ≠ [] := by
  cases h with
  | fixed hmem =>
    obtain ⟨c, cs, hs, -⟩ := continues_of_fixed hmem
    rw [hs]
    exact List.cons_ne_nil _ _
  | string => exact List.cons_ne_nil _ _
  | whole hne _ => simpa using hne
  | decimal => simp
  | keyword hword _ => simpa using word_ne_nil hword
  | identifier hword _ => simpa using word_ne_nil hword

theorem kind_ne_eof {rs : List Rune} : ¬ Lexeme .eof rs := by
  intro h
  cases h with
  | fixed hmem => exact (kind_of_fixed _ hmem).1 rfl
  | keyword _ hmem => exact (kind_of_keyword _ hmem).1 rfl

theorem kind_unique {kind kind' : Kind} {rs : List Rune} (h : Lexeme kind rs)
    (h' : Lexeme kind' rs) : kind = kind' := by
  obtain ⟨r, ls, rfl⟩ := List.exists_cons_of_ne_nil h.ne_nil
  obtain ⟨c, rfl, hcontinues⟩ := continues_of_lexeme h
  have hcontinues' := continues_of_start rfl h'
  cases hstart : Start.of c with
  | comparison alone withEqual =>
    rw [hstart] at hcontinues hcontinues'
    obtain ⟨rfl, rfl⟩ | ⟨rfl, rfl⟩ := hcontinues
    · obtain ⟨hkind, -⟩ | ⟨-, hls⟩ := hcontinues'
      · exact hkind.symm
      · cases hls
    · obtain ⟨-, hls⟩ | ⟨hkind, -⟩ := hcontinues'
      · cases hls
      · exact hkind.symm
  | other =>
    rw [hstart] at hcontinues
    cases hcontinues
  | _ =>
    rw [hstart] at hcontinues hcontinues'
    rw [hcontinues.1, hcontinues'.1]

theorem runes_append {kind : Kind} {l : Text} (h : Lexeme kind l.runes) (t : Text) :
    (l ++ t).runes = l.runes ++ t.runes := by
  obtain ⟨inside, hl⟩ | ⟨cs, hl⟩ := h.string_or_chars
  · -- the closing quote keeps the bytes inside from joining those after it
    have hbytes : l = (34 :: Text.ofRunes inside) ++ 34 :: [] := by
      rw [← Text.ofRunes_runes l, hl]
      simp [Rune.bytes, Rune.encode]
    rw [hbytes, List.append_assoc, List.singleton_append, Text.runes_append_ascii (by decide),
      Text.runes_append_ascii (by decide), List.append_assoc]
    rfl
  · have hchars := Text.runes_chars_append cs t
    rwa [← hl, Text.ofRunes_runes] at hchars

/-- The runes of a numeral before its point, without leading zeros. -/
def significant (rs : List Rune) : List Rune :=
  (rs.takeWhile (· ≠ .char '.')).dropWhile (· = .char '0')

theorem digit_eq_zero {c : Char} (hc : c.isDigit) :
    (Number.digit c == 0) = decide (Rune.char c = .char '0') := by
  have hnat := (Text.isDigit_iff c).mp hc
  rw [Bool.eq_iff_iff, beq_iff_eq, decide_eq_true_iff, Number.digit]
  constructor
  · intro h
    rw [← Char.ofNat_toNat c, show c.toNat = 48 by omega]
  · rintro ⟨⟩
    rfl

theorem dropWhile_zeros {ds : List Char} (hds : ∀ d ∈ ds, d.isDigit) :
    ds.dropWhile ((· == 0) ∘ Number.digit) = ds.dropWhile fun d => Rune.char d = .char '0' := by
  induction ds with
  | nil => rfl
  | cons d ds ih =>
    have htail := ih fun c hc => hds c (.tail d hc)
    rw [List.dropWhile_cons, List.dropWhile_cons, htail, Function.comp_apply,
      digit_eq_zero (hds d List.mem_cons_self)]

theorem length_significant {ds : List Char} (hds : ∀ d ∈ ds, d.isDigit) (rs : List Rune)
    (hrs : rs = [] ∨ rs.head? = some (.char '.')) :
    (significant (ds.map .char ++ rs)).length =
      ((ds.map Number.digit).dropWhile (· == 0)).length := by
  have htake : (ds.map Rune.char ++ rs).takeWhile (· ≠ .char '.') = ds.map .char := by
    apply Scanner.takeWhile_append_stop
    · intro r hr
      obtain ⟨d, hd, rfl⟩ := List.mem_map.mp hr
      apply decide_eq_true
      rintro ⟨⟩
      exact absurd (hds '.' hd) (by decide)
    · intro r hr
      rcases hrs with rfl | hrs
      · cases hr
      · rw [hrs] at hr
        cases hr
        decide
  rw [significant, htake, List.dropWhile_map, List.dropWhile_map, List.length_map,
    List.length_map, dropWhile_zeros hds]
  rfl

/-- Every numeral is read as a number, and a long one as infinity. -/
theorem read?_of_number {rs : List Rune} (h : Lexeme .number rs) :
    ∃ x, Number.read? (Text.ofRunes rs) = some x ∧ (310 < (significant rs).length → x = 1 / 0) := by
  cases h with
  | fixed hmem => exact absurd rfl (kind_of_fixed _ hmem).2.2
  | whole hne hds =>
    refine ⟨_, Number.read?_of_isNumeral (.whole hne hds), ?_⟩
    intro hlong
    apply Number.value_eq_inf
    rwa [← length_significant hds [] (.inl rfl), List.append_nil]
  | @decimal ds fs hne hds _ hfs =>
    refine ⟨_, Number.read?_of_isNumeral (.decimal hne hds hfs), ?_⟩
    intro hlong
    apply Number.value_eq_inf
    rw [List.map_append] at hlong
    rwa [← length_significant hds (('.' :: fs).map .char) (.inr rfl)]
  | keyword _ hmem => exact absurd rfl (kind_of_keyword _ hmem).2.2

end Lexeme

namespace Scanner

def input (s : Scanner) : Text :=
  Text.ofRunes s.rest

/-- The runes that are left are those of the bytes that are left. -/
def Aligned (s : Scanner) : Prop :=
  s.input.runes = s.rest

def NoLexemeAt (rest : Text) : Prop :=
  ∀ kind l, Lexeme kind (Text.runes l) → ¬ l <+: rest

structure LongestAt (rest : Text) (kind : Kind) (l : Text) : Prop where
  starts : l <+: rest
  lexeme : Lexeme kind l.runes
  longest : ∀ kind' l', Lexeme kind' (Text.runes l') → l' <+: rest → l'.length ≤ l.length

/-- `Finds p rest item span tail`: the input `rest` at `p` starts with `item`, which takes the bytes
`span` and leaves `tail`. -/
inductive Finds (p : Position) : (rest : Text) → ScanItem → (span tail : Text) → Prop
  | eof : Finds p [] (.ok (.eof p)) [] []
  | token {kind : Kind} {l tail : Text} (h : LongestAt (l ++ tail) kind l) :
      Finds p (l ++ tail) (.ok ⟨kind, l, p, payload kind l.runes⟩) l tail
  | openString {inside : Text} (hinside : 34 ∉ inside) (hnone : NoLexemeAt (34 :: inside)) :
      Finds p (34 :: inside) (.error (.unterminatedString p)) (34 :: inside) []
  | nothing {r : Rune} {tail : Text} (hrunes : (r.bytes ++ tail).runes = r :: tail.runes)
      (hr : r ≠ .char '"') (hnone : NoLexemeAt (r.bytes ++ tail)) :
      Finds p (r.bytes ++ tail) (.error (.unrecognizedCharacter (Int32.ofNat r.shown.toNat) p))
        r.bytes tail

section Bytes

variable {rest : Text} {r : Rune} {rs : List Rune}

theorem runes_of_starts {kind : Kind} {l : Text} (hrest : rest.runes = r :: rs)
    (hl : Lexeme kind l.runes) (hstarts : l <+: rest) :
    ∃ ls, l.runes = r :: ls ∧ ls <+: rs := by
  obtain ⟨t, rfl⟩ := hstarts
  obtain ⟨r', ls, hls⟩ := List.exists_cons_of_ne_nil hl.ne_nil
  rw [hl.runes_append, hls, List.cons_append] at hrest
  obtain ⟨rfl, hrs⟩ := List.cons.inj hrest
  exact ⟨ls, hls, Text.runes t, hrs⟩

theorem noLexemeAt_of_runes (hrest : rest.runes = r :: rs) (h : NoLexeme r rs) :
    NoLexemeAt rest := by
  intro kind l hl hstarts
  obtain ⟨ls, hls, hls'⟩ := runes_of_starts hrest hl hstarts
  exact h kind ls (hls ▸ hl) hls'

theorem runes_lexeme (hrest : rest.runes = r :: rs) (more : Nat) :
    (Text.ofRunes (r :: rs.take more)).runes = r :: rs.take more := by
  have htake := Text.runes_ofRunes_take rest (more + 1)
  rwa [hrest, List.take_succ_cons] at htake

theorem rest_eq_append (hrest : rest.runes = r :: rs) (more : Nat) :
    rest = Text.ofRunes (r :: rs.take more) ++ Text.ofRunes (rs.drop more) := by
  rw [← Text.ofRunes_append, List.cons_append, List.take_append_drop, ← hrest, Text.ofRunes_runes]

theorem longestAt_of_runes {kind : Kind} {more : Nat} (hrest : rest.runes = r :: rs)
    (h : Munches r rs kind more) : LongestAt rest kind (Text.ofRunes (r :: rs.take more)) := by
  refine ⟨⟨_, (rest_eq_append hrest more).symm⟩, ?_, ?_⟩
  · rw [runes_lexeme hrest]
    exact h.lexeme
  · intro kind' l hl hstarts
    obtain ⟨ls, hls, hls'⟩ := runes_of_starts hrest hl hstarts
    -- of two lists of runes at the same place, the one with fewer runes has fewer bytes
    have hle : ls.length ≤ more := h.longest kind' ls (hls ▸ hl) hls'
    obtain ⟨u, hu⟩ : ls <+: rs.take more := List.prefix_take_iff.mpr ⟨hls', hle⟩
    rw [← Text.ofRunes_runes l, hls, ← hu, ← List.cons_append, Text.ofRunes_append,
      List.length_append]
    exact Nat.le_add_right _ _

theorem token_finds (hrest : rest.runes = r :: rs) (p : Position) :
    (∃ span, Finds p rest (token r rs p).1 span (token r rs p).2.input) ∧
      Aligned (token r rs p).2 := by
  have hholds := longest_holds r rs
  have hbytes : rest = r.bytes ++ Text.ofRunes rs := by
    rw [← Text.ofRunes_cons, ← hrest, Text.ofRunes_runes]
  unfold token
  cases hmatch : longest r rs with
  | token kind more =>
    rw [hmatch] at hholds
    have hlongest := longestAt_of_runes hrest hholds
    have hsplit := rest_eq_append hrest more
    rw [hsplit] at hlongest
    have hfinds := Finds.token (p := p) hlongest
    rw [← hsplit, runes_lexeme hrest] at hfinds
    have hdrop := Text.runes_ofRunes_drop rest (more + 1)
    rw [hrest, List.drop_succ_cons] at hdrop
    exact ⟨⟨_, hfinds⟩, hdrop⟩
  | openString =>
    rw [hmatch] at hholds
    obtain ⟨rfl, hquote, hnone⟩ := hholds
    have hnone := noLexemeAt_of_runes hrest hnone
    -- a quote among the bytes would be a rune of its own
    have hinside : 34 ∉ Text.ofRunes rs := by
      intro hmem
      obtain ⟨r, hr, hb⟩ := List.mem_flatMap.mp hmem
      have hr' : r ∈ rest.runes := by
        rw [hrest]
        exact .tail _ hr
      rw [Text.eq_ascii_of_mem_bytes hr' hb (by decide)] at hr
      exact hquote hr
    subst hbytes
    exact ⟨⟨_, .openString hinside hnone⟩, rfl⟩
  | nothing =>
    rw [hmatch] at hholds
    obtain ⟨hr, hnone⟩ := hholds
    have hdrop := Text.runes_ofRunes_drop rest 1
    rw [hrest, List.drop_succ_cons, List.drop_zero] at hdrop
    have hnone := noLexemeAt_of_runes hrest hnone
    subst hbytes
    exact ⟨⟨r.bytes, .nothing (by rw [hrest, hdrop]) hr hnone⟩, hdrop⟩

end Bytes

theorem next_finds {s : Scanner} (hs : Aligned s) :
    (∃ gap rest span, Skips s.input gap rest ∧ s.skipTrivia.rest = rest.runes ∧
      Finds s.skipTrivia.position rest s.next.1 span s.next.2.input) ∧ Aligned s.next.2 := by
  obtain ⟨gap, rest, hskips, hdrop⟩ := exists_skips s.input
  rw [hs] at hdrop
  have hrest : s.skipTrivia.rest = rest.runes := hdrop
  unfold next
  cases hrunes : rest.runes with
  | nil =>
    have hnil : rest = [] := by
      rw [← Text.ofRunes_runes rest, hrunes]
      rfl
    subst hnil
    have hinput : s.skipTrivia.input = [] := by
      rw [input, hrest]
      rfl
    simp only [hrest, Text.runes_nil]
    rw [Aligned, hinput, hrest]
    exact ⟨⟨gap, [], [], hskips, rfl, .eof⟩, rfl⟩
  | cons r rs =>
    simp only [hrest, hrunes]
    obtain ⟨⟨span, hfinds⟩, haligned⟩ := token_finds hrunes s.skipTrivia.position
    exact ⟨⟨gap, rest, span, hskips, hrunes.symm, hfinds⟩, haligned⟩

def after (s : Scanner) : Nat → Scanner
  | 0 => s
  | n + 1 => (s.after n).next.2

theorem input_ofText (source : Text) : (ofText source).input = source :=
  Text.ofRunes_runes source

theorem aligned_ofText (source : Text) : Aligned (ofText source) := by
  rw [Aligned, input_ofText]
  rfl

theorem aligned_after {s : Scanner} (hs : Aligned s) (n : Nat) : Aligned (s.after n) := by
  induction n with
  | zero => exact hs
  | succ n ih => exact (next_finds ih).2

/-- What a token says about the input that starts with it. -/
structure TokenAt (rest : Text) (t : Token) : Prop where
  longest : LongestAt rest t.kind t.lexeme
  kind_unique : ∀ kind, Lexeme kind t.lexeme.runes → kind = t.kind
  string_payload : t.kind = .string →
    ∃ inside, t.lexeme = 34 :: (inside ++ [34]) ∧ t.payload = some (.string inside)
  number_payload : t.kind = .number →
    ∃ x, Number.read? t.lexeme = some x ∧ t.payload = some (.number x) ∧
      (310 < (Lexeme.significant t.lexeme.runes).length → x = 1 / 0)
  no_payload : t.kind ≠ .string → t.kind ≠ .number → t.payload = none

theorem tokenAt_of_longestAt {rest l : Text} {kind : Kind} (h : LongestAt rest kind l)
    (p : Position) : TokenAt rest ⟨kind, l, p, payload kind l.runes⟩ where
  longest := h
  kind_unique kind' h' := h'.kind_unique h.lexeme
  string_payload := by
    rintro rfl
    obtain ⟨inside, hinside⟩ := h.lexeme.exists_inside
    refine ⟨Text.ofRunes inside, ?_, ?_⟩
    · rw [← Text.ofRunes_runes l, hinside]
      simp [Rune.bytes, Rune.encode]
    · simp [payload, hinside]
  number_payload := by
    rintro rfl
    obtain ⟨x, hx, hlong⟩ := h.lexeme.read?_of_number
    have hpayload : payload .number l.runes = some (.number x) := by
      simp only [payload, hx, Option.map_some]
    rw [Text.ofRunes_runes] at hx
    exact ⟨x, hx, hpayload, hlong⟩
  no_payload hstring hnumber := by
    simp only [payload]

theorem Finds.of_nil {p : Position} {item : ScanItem} {span tail : Text}
    (h : Finds p [] item span tail) : item = .ok (.eof p) := by
  generalize hrest : [] = rest at h
  cases h with
  | eof => rfl
  | token h =>
    rw [List.nil_eq_append_iff.mp hrest |>.1] at h
    exact absurd rfl h.lexeme.ne_nil
  | openString => cases hrest
  | nothing => exact absurd (List.nil_eq_append_iff.mp hrest).1 (Text.bytes_ne_nil _)

theorem Finds.of_lexeme {p : Position} {rest : Text} {item : ScanItem} {span tail l : Text}
    {kind : Kind} (h : Finds p rest item span tail) (hl : Lexeme kind l.runes)
    (hstarts : l <+: rest) : ∃ t, item = .ok t ∧ TokenAt rest t ∧ rest = t.lexeme ++ tail := by
  cases h with
  | eof =>
    rw [List.prefix_nil.mp hstarts] at hl
    exact absurd rfl hl.ne_nil
  | token h => exact ⟨_, rfl, tokenAt_of_longestAt h p, rfl⟩
  | openString _ hnone => exact absurd hstarts (hnone kind l hl)
  | nothing _ _ hnone => exact absurd hstarts (hnone kind l hl)

theorem Finds.of_noLexemeAt {p : Position} {rest : Text} {item : ScanItem} {span tail : Text}
    (h : Finds p rest item span tail) (hne : rest ≠ []) (hnone : NoLexemeAt rest) :
    (rest.head? = some 34 → item = .error (.unterminatedString p)) ∧
    (rest.head? ≠ some 34 → ∃ r, rest.runes.head? = some r ∧
      item = .error (.unrecognizedCharacter (Int32.ofNat r.shown.toNat) p)) := by
  cases h with
  | eof => exact absurd rfl hne
  | token h => exact absurd h.starts (hnone _ _ h.lexeme)
  | openString => exact ⟨fun _ => rfl, fun h => absurd rfl h⟩
  | @nothing r tail hrunes hr =>
    refine ⟨fun hquote => ?_, fun _ => ⟨r, by rw [hrunes]; rfl, rfl⟩⟩
    rw [← Text.head?_runes_eq_ascii (by decide), hrunes] at hquote
    exact absurd (Option.some.inj hquote) hr

/-- Every call of the scanner takes the longest lexeme after the trivia. Where no lexeme stands, a
quote is an open string and any other rune an unrecognized character. -/
theorem next_takes_longest (source : Text) (n : Nat) :
    ((ofText source).after 0).input = source ∧
    ∃ gap rest p, Skips ((ofText source).after n).input gap rest ∧
      (∀ gap' rest', Skips ((ofText source).after n).input gap' rest' →
        gap' = gap ∧ rest' = rest) ∧
      (rest = [] → ((ofText source).after n).next.1 = .ok (.eof p)) ∧
      ((∃ kind l, Lexeme kind (Text.runes l) ∧ l <+: rest) →
        ∃ t, ((ofText source).after n).next.1 = .ok t ∧ TokenAt rest t ∧
          rest = t.lexeme ++ ((ofText source).after (n + 1)).input) ∧
      (rest ≠ [] → NoLexemeAt rest →
        (rest.head? = some 34 →
          ((ofText source).after n).next.1 = .error (.unterminatedString p)) ∧
        (rest.head? ≠ some 34 → ∃ r, rest.runes.head? = some r ∧
          ((ofText source).after n).next.1 =
            .error (.unrecognizedCharacter (Int32.ofNat r.shown.toNat) p))) := by
  have haligned := aligned_after (aligned_ofText source) n
  obtain ⟨⟨gap, rest, span, hskips, -, hfinds⟩, -⟩ := next_finds haligned
  refine ⟨input_ofText source, gap, rest, ((ofText source).after n).skipTrivia.position, ?_⟩
  refine ⟨hskips, fun _ _ h => skips_unique h hskips, ?_, ?_, hfinds.of_noLexemeAt⟩
  · rintro rfl
    exact hfinds.of_nil
  · rintro ⟨kind, l, hl, hstarts⟩
    exact hfinds.of_lexeme hl hstarts

end Scanner

end ExprCalc
