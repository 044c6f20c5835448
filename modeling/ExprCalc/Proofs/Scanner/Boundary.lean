import ExprCalc.Proofs.Scanner.Place

namespace ExprCalc

namespace Scanner

open Lexeme

def blankRunes : List Rune :=
  [.char ' ', .char '\r', .char '\t', .char '\n']

section Blank

variable {b : Rune} (hb : b ∈ blankRunes)

theorem not_continuesWord_of_blank : ∀ b ∈ blankRunes, continuesWord b = false := by
  decide +kernel

theorem not_isDigit_of_blank : ∀ b ∈ blankRunes, isDigit b = false := by
  decide

theorem ne_of_blank : ∀ b ∈ blankRunes, b ≠ .char '=' ∧ b ≠ .char '.' ∧ b ≠ .char '/' := by
  decide

theorem runLength_append_of_neg {p : Rune → Bool} (hp : p b = false) (rs more : List Rune) :
    runLength p (rs ++ b :: more) = runLength p rs := by
  induction rs with
  | nil => simp [runLength, hp]
  | cons r rs ih =>
    simp only [runLength, List.cons_append, List.takeWhile_cons] at ih ⊢
    split
    · rw [List.length_cons, List.length_cons, ih]
    · rfl

include hb

theorem numeralLength_append_blank (rs more : List Rune) :
    numeralLength (rs ++ b :: more) = numeralLength rs := by
  have hdigit := not_isDigit_of_blank b hb
  have hpoint := (ne_of_blank b hb).2.1
  have hwhole := runLength_append_of_neg hdigit rs more
  simp only [numeralLength, hwhole, List.drop_append_of_le_length runLength_le]
  -- the point of a numeral and the digit after it both come before the blank
  rcases rs.drop (runLength isDigit rs) with _ | ⟨x, _ | ⟨y, ys⟩⟩
  · simp [hpoint]
  · by_cases hx : x = .char '.'
    · simp [hx, hdigit]
    · simp [hx]
  · by_cases hx : x = .char '.'
    · simp [hx, runLength_append_of_neg hdigit]
    · simp [hx]

theorem longest_append_blank {r : Rune} {rs : List Rune} (hopen : longest r rs ≠ .openString)
    (more : List Rune) : longest r (rs ++ b :: more) = longest r rs := by
  cases r with
  | stray => rfl
  | char c =>
    rw [longest_char] at hopen
    rw [longest_char, longest_char]
    cases hstart : Start.of c with
    | mark | other => rfl
    | comparison alone withEqual =>
      have hequal := (ne_of_blank b hb).1
      cases rs <;> simp [hequal]
    | quote =>
      rw [hstart] at hopen
      -- the string is closed, and the blank comes after its quote
      have hquote : .char '"' ∈ rs := by
        by_contra hquote
        apply hopen
        simp only [drop_runLength_quote hquote, List.isEmpty_nil, if_true]
      obtain ⟨inside, rest, rfl, hinside⟩ := List.eq_append_cons_of_mem hquote
      simp only [List.append_assoc, List.cons_append, runLength_quote hinside, List.drop_left,
        List.isEmpty_cons]
    | digit => simp only [numeralLength_append_blank hb]
    | word =>
      have hword := not_continuesWord_of_blank b hb
      simp only [runLength_append_of_neg hword, List.take_append_of_le_length runLength_le]

end Blank

def followedBy (s : Scanner) (more : List Rune) : Scanner :=
  ⟨s.rest ++ more, s.position⟩

theorem drop_followedBy {s : Scanner} {n : Nat} (hn : n ≤ s.rest.length) (more : List Rune) :
    (s.followedBy more).drop n = (s.drop n).followedBy more := by
  simp only [followedBy, drop, List.drop_append_of_le_length hn, List.take_append_of_le_length hn]

theorem triviaLength_le (mode : Gap) (rs : List Rune) : triviaLength mode rs ≤ rs.length := by
  induction rs generalizing mode with
  | nil => cases mode <;> exact Nat.le_refl 0
  | cons r rs ih =>
    have htail (mode' : Gap) : 1 + triviaLength mode' rs ≤ rs.length + 1 := by
      have hle := ih mode'
      omega
    cases mode with
    | comment => exact htail _
    | none =>
      cases r with
      | stray => exact Nat.zero_le _
      | char c =>
        simp only [triviaLength]
        split
        · exact htail _
        · split
          · exact htail _
          · exact Nat.zero_le _

section Blank

variable {b : Rune} (hb : b ∈ blankRunes)
include hb

/-- Trivia that ends before the end of the input ends there before a blank. -/
theorem triviaLength_append_blank {mode : Gap} {rs : List Rune}
    (h : triviaLength mode rs < rs.length) (more : List Rune) :
    triviaLength mode (rs ++ b :: more) = triviaLength mode rs := by
  induction rs generalizing mode with
  | nil => cases h
  | cons r rs ih =>
    have htail {mode' : Gap} (h : 1 + triviaLength mode' rs < rs.length + 1) :
        triviaLength mode' (rs ++ b :: more) = triviaLength mode' rs := ih (by omega)
    cases mode with
    | comment =>
      simp only [List.cons_append, triviaLength, List.length_cons] at h ⊢
      rw [htail h]
    | none =>
      cases r with
      | stray => rfl
      | char c =>
        -- a slash before the blank has no second one after it, so it starts no comment
        have hhead : c = '/' ∧ (rs ++ b :: more).head? = some (.char '/') ↔
            c = '/' ∧ rs.head? = some (.char '/') := by
          have hslash := (ne_of_blank b hb).2.2
          cases rs <;> simp [hslash]
        simp only [List.cons_append, triviaLength, List.length_cons, hhead] at h ⊢
        split at h
        · next hblank => rw [if_pos hblank, if_pos hblank, htail h]
        · next hblank =>
          rw [if_neg hblank, if_neg hblank]
          split at h
          · next hcomment => rw [if_pos hcomment, if_pos hcomment, htail h]
          · next hcomment => rw [if_neg hcomment, if_neg hcomment]

theorem skipTrivia_followedBy {s : Scanner} (h : s.skipTrivia.rest ≠ []) (more : List Rune) :
    (s.followedBy (b :: more)).skipTrivia = s.skipTrivia.followedBy (b :: more) := by
  have hlt : triviaLength .none s.rest < s.rest.length := by
    apply Nat.lt_of_not_le
    intro hle
    exact h (List.drop_eq_nil_of_le hle)
  have hlength := triviaLength_append_blank hb hlt more
  simp only [skipTrivia]
  rw [← drop_followedBy (Nat.le_of_lt hlt), ← hlength]
  rfl

theorem token_append_blank {r : Rune} {rs : List Rune} (p : Position)
    (hopen : longest r rs ≠ .openString) (more : List Rune) :
    token r (rs ++ b :: more) p = ((token r rs p).1, (token r rs p).2.followedBy (b :: more)) := by
  have hholds := longest_holds r rs
  simp only [token, longest_append_blank hb hopen]
  cases hmatch : longest r rs with
  | token kind length =>
    rw [hmatch] at hholds
    simp only [List.take_append_of_le_length hholds.le, List.drop_append_of_le_length hholds.le]
    rfl
  | openString => exact absurd hmatch hopen
  | nothing => rfl

/-- A call that meets neither the end of the input nor an open string does not look at what comes
after a blank. -/
theorem next_followedBy {s : Scanner} (h : s.skipTrivia.rest ≠ [])
    (hopen : ∀ p, s.next.1 ≠ .error (.unterminatedString p)) (more : List Rune) :
    (s.followedBy (b :: more)).next = (s.next.1, s.next.2.followedBy (b :: more)) := by
  obtain ⟨r, rs, hrest⟩ := List.exists_cons_of_ne_nil h
  have hmatch : longest r rs ≠ .openString := by
    intro hmatch
    apply hopen s.skipTrivia.position
    simp only [next, hrest, token, hmatch]
  have hrest' : (s.skipTrivia.followedBy (b :: more)).rest = r :: (rs ++ b :: more) := by
    rw [followedBy, hrest, List.cons_append]
  simp only [next, skipTrivia_followedBy hb h, hrest', hrest]
  exact token_append_blank hb _ hmatch more

end Blank

/-- Trivia that goes on to the end of the input goes on over a line feed, which ends a comment. -/
theorem triviaLength_append_newline {mode : Gap} {rs : List Rune}
    (h : triviaLength mode rs = rs.length) (more : List Rune) :
    triviaLength mode (rs ++ .char '\n' :: more) = rs.length + 1 + triviaLength .none more := by
  induction rs generalizing mode with
  | nil => cases mode <;> simp [triviaLength]
  | cons r rs ih =>
    have htail {mode' : Gap} (h : 1 + triviaLength mode' rs = rs.length + 1) :
        1 + triviaLength mode' (rs ++ .char '\n' :: more) =
          rs.length + 1 + 1 + triviaLength .none more := by
      rw [ih (by omega)]
      omega
    cases mode with
    | comment =>
      simp only [List.cons_append, triviaLength, List.length_cons] at h ⊢
      exact htail h
    | none =>
      cases r with
      | stray => cases h
      | char c =>
        simp only [List.cons_append, triviaLength, List.length_cons] at h ⊢
        split at h
        · next hblank =>
          rw [if_pos hblank]
          exact htail h
        · next hblank =>
          split at h
          · next hslash =>
            -- the second slash is already there, since a single one would not be trivia
            have hhead : (rs ++ .char '\n' :: more).head? = some (.char '/') := by
              rw [List.head?_append, hslash.2]
              rfl
            rw [if_neg hblank, if_pos ⟨hslash.1, hhead⟩]
            exact htail h
          · cases h

/-- The place after all the input. -/
def finish (s : Scanner) : Position :=
  s.position.afterAll s.rest

theorem finish_drop (s : Scanner) (n : Nat) : (s.drop n).finish = s.finish := by
  simp only [finish, drop, Position.afterAll]
  rw [← List.foldl_append, List.take_append_drop]

theorem skipTrivia_append_newline {s : Scanner} (h : s.skipTrivia.rest = []) (more : List Rune) :
    (s.followedBy (.char '\n' :: more)).skipTrivia =
      (⟨more, s.finish.after (.char '\n')⟩ : Scanner).skipTrivia := by
  have hlength : triviaLength .none s.rest = s.rest.length :=
    Nat.le_antisymm (triviaLength_le _ _) (List.drop_eq_nil_iff.mp h)
  simp only [skipTrivia, followedBy, triviaLength_append_newline hlength]
  rw [← drop_drop, ← drop_drop]
  congr 1
  simp [drop, finish, Position.afterAll]

theorem items_congr {s s' : Scanner} (h : s.skipTrivia = s'.skipTrivia) : s.items = s'.items := by
  have hnext : s.next = s'.next := by simp only [next, h]
  by_cases hend : s.skipTrivia.rest = []
  · have hend' : s'.skipTrivia.rest = [] := h ▸ hend
    rw [items_of_end hend, items_of_end hend', hnext]
  · have hend' : s'.skipTrivia.rest ≠ [] := h ▸ hend
    rw [items_of_ne_end hend, items_of_ne_end hend', hnext]

theorem items_of_next_eof {s s' : Scanner} {t : Token} (h : s.next = (.ok t, s'))
    (ht : t.kind = .eof) : s'.items = s.items := by
  have hend : s.skipTrivia.rest = [] := by
    by_contra hmore
    exact kind_ne_eof_of_next h hmore ht
  rw [next_of_end hend] at h
  cases h
  exact items_congr (skipTrivia_of_rest_nil hend)

/-- The items up to a line feed are those up to the end, and the scanner starts again after it. -/
theorem items_followedBy {s : Scanner} (hopen : ∀ p, .error (.unterminatedString p) ∉ s.items)
    (more : List Rune) :
    (s.followedBy (.char '\n' :: more)).items =
      s.items.dropLast ++ (⟨more, s.finish.after (.char '\n')⟩ : Scanner).items := by
  induction s using call_induction with
  | stop s h =>
    rw [items_of_end h, items_congr (skipTrivia_append_newline h more)]
    rfl
  | call s h ih =>
    -- a call that is not the last one is the same in the longer input and leaves more of it
    have hblank : Rune.char '\n' ∈ blankRunes := by decide
    rw [items_of_ne_end h] at hopen ⊢
    have hopen' : ∀ p, s.next.1 ≠ .error (.unterminatedString p) :=
      fun p heq => hopen p (heq ▸ List.mem_cons_self)
    have hnext := next_followedBy hblank h hopen' more
    have hmore : (s.followedBy (.char '\n' :: more)).skipTrivia.rest ≠ [] := by
      rw [skipTrivia_followedBy hblank h]
      simp [followedBy]
    obtain ⟨n, hn⟩ := next_eq_drop s
    have hfinish : s.next.2.finish = s.finish := by rw [hn, finish_drop]
    rw [items_of_ne_end hmore, hnext, ih fun p hp => hopen p (.tail _ hp), hfinish,
      List.dropLast_cons_of_ne_nil (items_ne_nil _)]
    rfl

end Scanner

def Position.below (p : Position) (lines : Int64) : Position :=
  ⟨p.line + lines, p.column⟩

def Token.below (t : Token) (lines : Int64) : Token :=
  { t with position := t.position.below lines }

def ScanError.below (lines : Int64) : ScanError → ScanError
  | unterminatedString p => unterminatedString (p.below lines)
  | unrecognizedCharacter code p => unrecognizedCharacter code (p.below lines)

/-- The item some lines further down. Nothing but its line changes. -/
def ScanItem.below (lines : Int64) : ScanItem → ScanItem
  | .ok t => .ok (t.below lines)
  | .error e => .error (e.below lines)

theorem Position.afterAll_below (p : Position) (lines : Int64) (rs : List Rune) :
    (p.below lines).afterAll rs = (p.afterAll rs).below lines := by
  induction rs generalizing p with
  | nil => rfl
  | cons r rs ih =>
    have hafter : (p.below lines).after r = (p.after r).below lines := by
      unfold after
      split
      · simp [below, Int64.add_assoc, Int64.add_comm]
      · rfl
    change ((p.below lines).after r).afterAll rs = ((p.after r).afterAll rs).below lines
    rw [hafter, ih]

namespace Scanner

def below (s : Scanner) (lines : Int64) : Scanner :=
  ⟨s.rest, s.position.below lines⟩

theorem drop_below (s : Scanner) (lines : Int64) (n : Nat) :
    (s.below lines).drop n = (s.drop n).below lines := by
  simp only [drop, below, Position.afterAll_below]

theorem skipTrivia_below (s : Scanner) (lines : Int64) :
    (s.below lines).skipTrivia = s.skipTrivia.below lines :=
  drop_below s lines _

theorem token_below (r : Rune) (rs : List Rune) (p : Position) (lines : Int64) :
    token r rs (p.below lines) =
      (ScanItem.below lines (token r rs p).1, (token r rs p).2.below lines) := by
  have hafter (rs : List Rune) := p.afterAll_below lines rs
  unfold token
  cases longest r rs with
  | token kind more =>
    simp only [hafter]
    rfl
  | openString =>
    simp only [hafter]
    rfl
  | nothing =>
    have hone := hafter [r]
    change (p.below lines).after r = (p.after r).below lines at hone
    simp only [hone]
    rfl

theorem next_below (s : Scanner) (lines : Int64) :
    (s.below lines).next = (ScanItem.below lines s.next.1, s.next.2.below lines) := by
  simp only [next, skipTrivia_below]
  cases hrest : s.skipTrivia.rest with
  | nil =>
    simp only [below, hrest]
    rfl
  | cons r rs =>
    simp only [below, hrest]
    exact token_below r rs _ lines

theorem items_below (s : Scanner) (lines : Int64) :
    (s.below lines).items = s.items.map (ScanItem.below lines) := by
  induction s using call_induction with
  | stop s h =>
    have h' : (s.below lines).skipTrivia.rest = [] := by
      rw [skipTrivia_below]
      exact h
    rw [items_of_end h, items_of_end h', next_below]
    rfl
  | call s h ih =>
    have h' : (s.below lines).skipTrivia.rest ≠ [] := by
      rw [skipTrivia_below]
      exact h
    rw [items_of_ne_end h, items_of_ne_end h', next_below, ih]
    rfl

end Scanner

namespace Text

theorem mem_scanErrors {source : Text} {e : ScanError} :
    e ∈ source.scanErrors ↔ .error e ∈ source.scan := by
  rw [scanErrors, List.mem_filterMap]
  constructor
  · rintro ⟨item, hitem, he⟩
    cases item with
    | ok t => cases he
    | error e' =>
      cases he
      exact hitem
  · exact fun h => ⟨.error e, h, rfl⟩

theorem finish_newline (t : Text) :
    (Scanner.ofText t).finish.after (.char '\n') =
      Position.start.below (Int64.ofNat (t.count 10 + 1)) := by
  have hline : ((Scanner.ofText t).finish).line = Int64.ofNat (1 + t.count 10) :=
    Position.line_after_text t
  rw [Position.after, if_pos rfl, hline, Position.below, Nat.add_comm 1, Int64.add_comm]
  rfl

/-- A line feed is a hard boundary. If the text before it leaves no string open, the items are those
of this text without its end token, which is its last item, and those of the text after it, as many
lines further down as there are line feeds before them. -/
theorem scan_append_newline (s t : Text) (h : ∀ p, .unterminatedString p ∉ s.scanErrors) :
    (s ++ 10 :: t).scan =
      s.scan.dropLast ++ t.scan.map (ScanItem.below (Int64.ofNat (s.count 10 + 1))) ∧
    ∃ p, s.scan = s.scan.dropLast ++ [.ok (.eof p)] := by
  constructor
  · have hopen : ∀ p, .error (.unterminatedString p) ∉ (Scanner.ofText s).items :=
      fun p hp => h p (mem_scanErrors.mpr hp)
    have hrunes : Scanner.ofText (s ++ 10 :: t) =
        (Scanner.ofText s).followedBy (.char '\n' :: t.runes) := by
      rw [Scanner.ofText, runes_append_ascii (by decide)]
      rfl
    rw [scan, hrunes, Scanner.items_followedBy hopen, finish_newline]
    exact congrArg _ (Scanner.items_below (Scanner.ofText t) _)
  · obtain ⟨stretches, last, p, hitems, -⟩ :=
      Scanner.items_covers _ (Scanner.aligned_ofText s)
    rw [scan, hitems, List.dropLast_concat]
    exact ⟨p, rfl⟩

/-- A string of two lines, an unrecognized character, a numeral before a point, and the first bytes
of a character that is cut off. -/
def cutOff : Text :=
  utf8 "\"a\nb\" @ 7." ++ [0xE2, 0x82]

theorem scan_after_cutOff :
    (∀ p, .unterminatedString p ∉ cutOff.scanErrors) ∧
    (cutOff ++ 10 :: utf8 "= // x").scan =
      cutOff.scan.dropLast ++ (utf8 "= // x").scan.map (ScanItem.below 2) := by
  have hclosed : ∀ e ∈ cutOff.scanErrors, e matches .unrecognizedCharacter _ _ := by
    decide +kernel
  have hopen : ∀ p, .unterminatedString p ∉ cutOff.scanErrors :=
    fun p hp => absurd (hclosed _ hp) Bool.false_ne_true
  exact ⟨hopen, (scan_append_newline cutOff _ hopen).1⟩

end Text

end ExprCalc
