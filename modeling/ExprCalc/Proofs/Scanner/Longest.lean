import Mathlib.Data.List.TakeWhile
import ExprCalc.Proofs.Scanner.Lexeme

namespace ExprCalc.Scanner

open Lexeme

/-- The longest lexeme at the start of `r :: rs` has `more` runes after the first. -/
structure Munches (r : Rune) (rs : List Rune) (kind : Kind) (more : Nat) : Prop where
  le : more ≤ rs.length
  lexeme : Lexeme kind (r :: rs.take more)
  longest : ∀ kind' ls, Lexeme kind' (r :: ls) → ls <+: rs → ls.length ≤ more

def NoLexeme (r : Rune) (rs : List Rune) : Prop :=
  ∀ kind ls, Lexeme kind (r :: ls) → ¬ ls <+: rs

section Runs

variable {p : Rune → Bool} {rs : List Rune}

theorem take_runLength : rs.take (runLength p rs) = rs.takeWhile p :=
  List.prefix_iff_eq_take.mp (List.takeWhile_prefix p) |>.symm

theorem drop_runLength : rs.drop (runLength p rs) = rs.dropWhile p := by
  have h : (rs.takeWhile p ++ rs.dropWhile p).drop (runLength p rs) = rs.dropWhile p :=
    List.drop_left
  rwa [List.takeWhile_append_dropWhile] at h

theorem runLength_le : runLength p rs ≤ rs.length :=
  (List.takeWhile_prefix p).length_le

theorem length_le_runLength {ls : List Rune} (h : ls <+: rs) (hls : ∀ r ∈ ls, p r) :
    ls.length ≤ runLength p rs := by
  obtain ⟨more, rfl⟩ := h
  rw [runLength, List.takeWhile_append_of_pos hls, List.length_append]
  exact Nat.le_add_right _ _

theorem runLength_append_stop {ls more : List Rune} (hls : ∀ r ∈ ls, p r)
    (hmore : ∀ r, more.head? = some r → ¬ p r) : runLength p (ls ++ more) = ls.length := by
  rw [runLength, takeWhile_append_stop hls hmore]

theorem exists_chars (p : Rune → Bool) (rs : List Rune) (hp : ∀ b, ¬ p (.stray b)) :
    ∃ cs : List Char, rs.take (runLength p rs) = cs.map .char ∧ ∀ c ∈ cs, p (.char c) := by
  rw [take_runLength]
  induction rs with
  | nil => exact ⟨[], rfl, by simp⟩
  | cons r rs ih =>
    by_cases hr : p r
    · cases r with
      | stray b => exact absurd hr (hp b)
      | char c =>
        obtain ⟨cs, hcs, hall⟩ := ih
        refine ⟨c :: cs, ?_, List.forall_mem_cons.mpr ⟨hr, hall⟩⟩
        rw [List.takeWhile_cons_of_pos hr, hcs, List.map_cons]
    · exact ⟨[], List.takeWhile_cons_of_neg hr, by simp⟩

end Runs

section Classes

variable {c : Char} {rs : List Rune}

theorem munches_mark {kind : Kind} (h : Start.of c = .mark kind) : Munches (.char c) rs kind 0 := by
  refine ⟨Nat.zero_le _, lexeme_of_continues ?_, ?_⟩
  · rw [h]
    exact ⟨rfl, rfl⟩
  · intro kind' ls hlexeme _
    rw [(continues_of_start h hlexeme).2]
    exact Nat.le_refl 0

theorem munches_withEqual {alone withEqual : Kind} (h : Start.of c = .comparison alone withEqual)
    (hrs : rs.head? = some (.char '=')) : Munches (.char c) rs withEqual 1 := by
  obtain ⟨rest, rfl⟩ : ∃ rest, rs = .char '=' :: rest := List.head?_eq_some_iff.mp hrs
  refine ⟨by simp, lexeme_of_continues ?_, ?_⟩
  · rw [h]
    exact .inr ⟨rfl, rfl⟩
  · intro kind' ls hlexeme _
    obtain ⟨-, rfl⟩ | ⟨-, rfl⟩ := continues_of_start h hlexeme <;> decide

theorem munches_alone {alone withEqual : Kind} (h : Start.of c = .comparison alone withEqual)
    (hrs : rs.head? ≠ some (.char '=')) : Munches (.char c) rs alone 0 := by
  refine ⟨Nat.zero_le _, lexeme_of_continues ?_, ?_⟩
  · rw [h]
    exact .inl ⟨rfl, rfl⟩
  · intro kind' ls hlexeme hstarts
    obtain ⟨-, rfl⟩ | ⟨-, rfl⟩ := continues_of_start h hlexeme
    · exact Nat.le_refl 0
    · obtain ⟨rest, rfl⟩ := hstarts
      exact absurd rfl hrs

/-- The text of a string ends at the first quote after it. -/
theorem runLength_quote {inside : List Rune} (h : .char '"' ∉ inside) (rest : List Rune) :
    runLength (· ≠ .char '"') (inside ++ .char '"' :: rest) = inside.length := by
  apply runLength_append_stop
  · intro r hr
    exact decide_eq_true fun heq => h (heq ▸ hr)
  · intro r hr
    cases hr
    decide

theorem drop_runLength_quote (h : .char '"' ∉ rs) :
    rs.drop (runLength (· ≠ .char '"') rs) = [] := by
  rw [drop_runLength, List.dropWhile_eq_nil_iff]
  intro r hr
  exact decide_eq_true fun heq => h (heq ▸ hr)

theorem start_quote : Start.of '"' = .quote := by
  rfl

theorem munches_string {inside rest : List Rune} (hinside : .char '"' ∉ inside) :
    Munches (.char '"') (inside ++ .char '"' :: rest) .string (inside.length + 1) := by
  have htake : (inside ++ .char '"' :: rest).take (inside.length + 1) = inside ++ [.char '"'] := by
    rw [List.take_length_add_append]
    rfl
  refine ⟨by simp, ?_, ?_⟩
  · rw [htake]
    exact .string hinside
  · intro kind' ls hlexeme hstarts
    obtain ⟨-, inside', hinside', rfl⟩ := continues_of_start start_quote hlexeme
    -- two strings at the same place end at the same quote
    obtain ⟨rest', hrest'⟩ := hstarts
    rw [List.append_assoc, List.singleton_append] at hrest'
    have hlength := runLength_quote hinside' rest'
    rw [hrest', runLength_quote hinside] at hlength
    rw [List.length_append, ← hlength]
    exact Nat.le_refl _

theorem noLexeme_open (hrs : .char '"' ∉ rs) : NoLexeme (.char '"') rs := by
  intro kind ls hlexeme hstarts
  obtain ⟨-, inside, -, rfl⟩ := continues_of_start start_quote hlexeme
  exact hrs (hstarts.subset (by simp))

theorem munches_word (h : Start.of c = .word) :
    Munches (.char c) rs
      (Kind.ofWord (Text.ofRunes (.char c :: rs.take (runLength continuesWord rs))))
      (runLength continuesWord rs) := by
  refine ⟨runLength_le, lexeme_of_continues ?_, ?_⟩
  · rw [h]
    obtain ⟨cs, hcs, hall⟩ := exists_chars continuesWord rs (by
      simp [continuesWord, startsWord, isDigit])
    exact ⟨rfl, cs, fun d hd => (continuesWord_char d).mp (hall d hd), hcs⟩
  · intro kind' ls hlexeme hstarts
    obtain ⟨-, cs, hcs, rfl⟩ := continues_of_start h hlexeme
    apply length_le_runLength hstarts
    intro r hr
    obtain ⟨d, hd, rfl⟩ := List.mem_map.mp hr
    exact (continuesWord_char d).mpr (hcs d hd)

theorem exists_digits (rs : List Rune) : ∃ ds : List Char,
    rs.take (runLength isDigit rs) = ds.map .char ∧ ∀ d ∈ ds, d.isDigit :=
  exists_chars isDigit rs (by simp [isDigit])

theorem isDigit_of_mem_map {ds : List Char} (hds : ∀ d ∈ ds, d.isDigit) :
    ∀ r ∈ ds.map Rune.char, isDigit r := by
  intro r hr
  obtain ⟨d, hd, rfl⟩ := List.mem_map.mp hr
  exact hds d hd

theorem numeralLength_point {ds : List Char} (hds : ∀ d ∈ ds, d.isDigit) {f : Rune}
    (hf : isDigit f) (more : List Rune) :
    numeralLength (ds.map .char ++ .char '.' :: f :: more) =
      ds.length + 2 + runLength isDigit more := by
  have hwhole : runLength isDigit (ds.map .char ++ .char '.' :: f :: more) =
      (ds.map Rune.char).length := by
    apply runLength_append_stop (isDigit_of_mem_map hds)
    intro r hr
    cases hr
    decide
  simp only [numeralLength]
  rw [hwhole, List.drop_left]
  simp only [if_pos hf, List.length_map]

theorem runLength_le_numeralLength (rs : List Rune) : runLength isDigit rs ≤ numeralLength rs := by
  simp only [numeralLength]
  split
  · split <;> omega
  · exact Nat.le_refl _

/-- A numeral either stops after its digits, or goes on with a point and at least one digit. -/
theorem numeral_cases (rs : List Rune) : ∃ ds : List Char, (∀ d ∈ ds, d.isDigit) ∧ ∃ more,
    (rs = ds.map .char ++ more ∧ numeralLength rs = ds.length) ∨
    ∃ f : Char, f.isDigit ∧ rs = ds.map .char ++ .char '.' :: .char f :: more := by
  obtain ⟨ds, hds, hdigits⟩ := exists_digits rs
  refine ⟨ds, hdigits, ?_⟩
  have hlength : runLength isDigit rs = ds.length := by
    rw [← List.length_map Rune.char, ← hds, List.length_take_of_le runLength_le]
  have hsplit : rs = ds.map .char ++ rs.drop (runLength isDigit rs) := by
    rw [← hds, List.take_append_drop]
  -- the point belongs to the numeral only if a digit follows it
  by_cases hpoint : ∃ f more, rs.drop (runLength isDigit rs) = .char '.' :: f :: more ∧ isDigit f
  · obtain ⟨f, more, hdrop, hf⟩ := hpoint
    cases f with
    | stray b => cases hf
    | char f => exact ⟨more, .inr ⟨f, hf, by rw [← hdrop, ← hsplit]⟩⟩
  · refine ⟨_, .inl ⟨hsplit, ?_⟩⟩
    simp only [numeralLength]
    split
    · next f more hdrop => rw [if_neg fun hf => hpoint ⟨f, more, hdrop, hf⟩, hlength]
    · exact hlength

theorem length_le_numeralLength {kind : Kind} {ls : List Rune}
    (h : Continues (.char c) kind ls .digit) (hstarts : ls <+: rs) :
    ls.length ≤ numeralLength rs := by
  obtain ⟨-, ds, hds, rfl | ⟨f, fs, hfs, rfl⟩⟩ := h
  · exact Nat.le_trans (length_le_runLength hstarts (isDigit_of_mem_map hds))
      (runLength_le_numeralLength rs)
  · obtain ⟨more, rfl⟩ := hstarts
    obtain ⟨hf, hfs⟩ := List.forall_mem_cons.mp hfs
    have hfraction : (fs.map Rune.char).length ≤ runLength isDigit (fs.map .char ++ more) :=
      length_le_runLength (List.prefix_append _ _) (isDigit_of_mem_map hfs)
    rw [List.append_assoc, List.cons_append, List.cons_append,
      numeralLength_point hds (f := .char f) hf]
    simp only [List.length_append, List.length_cons, List.length_map] at hfraction ⊢
    omega

theorem numeral_take (c : Char) (rs : List Rune) : numeralLength rs ≤ rs.length ∧
    Continues (.char c) .number (rs.take (numeralLength rs)) .digit := by
  obtain ⟨ds, hds, more, ⟨hrs, hlength⟩ | ⟨f, hf, hrs⟩⟩ := numeral_cases rs
  · have hlength' : numeralLength rs = (ds.map Rune.char).length := by
      rw [hlength, List.length_map]
    refine ⟨?_, rfl, ds, hds, .inl ?_⟩
    · rw [hlength', hrs, List.length_append]
      exact Nat.le_add_right _ _
    · rw [hlength', hrs, List.take_left]
  · obtain ⟨fs, hfs, hdigits⟩ := exists_digits more
    have hlength := numeralLength_point hds (f := .char f) hf more
    rw [← hrs] at hlength
    have hle : runLength isDigit more ≤ more.length := runLength_le
    refine ⟨?_, rfl, ds, hds, .inr ⟨f, fs, List.forall_mem_cons.mpr ⟨hf, hdigits⟩, ?_⟩⟩
    · rw [hlength, hrs]
      simp only [List.length_append, List.length_cons, List.length_map]
      omega
    · rw [hlength, hrs, ← hfs, Nat.add_assoc, ← List.length_map Rune.char,
        List.take_length_add_append, Nat.add_comm 2, List.take_succ_cons, List.take_succ_cons]

theorem munches_number (h : Start.of c = .digit) :
    Munches (.char c) rs .number (numeralLength rs) := by
  obtain ⟨hle, htake⟩ := numeral_take c rs
  refine ⟨hle, lexeme_of_continues (by rwa [h]), ?_⟩
  intro kind' ls hlexeme hstarts
  exact length_le_numeralLength (continues_of_start h hlexeme) hstarts

theorem noLexeme_other (h : Start.of c = .other) : NoLexeme (.char c) rs := by
  intro kind ls hlexeme _
  exact continues_of_start h hlexeme

theorem noLexeme_stray (b : UInt8) : NoLexeme (.stray b) rs := by
  intro kind ls hlexeme _
  obtain ⟨_, hc, -⟩ := continues_of_lexeme hlexeme
  cases hc

end Classes

theorem longest_char (c : Char) (rs : List Rune) :
    longest (.char c) rs =
      match Start.of c with
      | .mark kind => .token kind 0
      | .comparison alone withEqual =>
        if rs.head? = some (.char '=') then .token withEqual 1 else .token alone 0
      | .quote =>
        if (rs.drop (runLength (· ≠ .char '"') rs)).isEmpty then .openString
        else .token .string (runLength (· ≠ .char '"') rs + 1)
      | .digit => .token .number (numeralLength rs)
      | .word =>
        .token (Kind.ofWord (Text.ofRunes (.char c :: rs.take (runLength continuesWord rs))))
          (runLength continuesWord rs)
      | .other => .nothing := by
  simp only [longest, Start.of, isDigit_char, startsWord_char]
  cases Kind.ofMark? c with
  | some kind => rfl
  | none =>
    cases Kind.ofComparison? c with
    | some kinds => rfl
    | none =>
      by_cases hquote : c = '"'
      · simp only [if_pos hquote]
      by_cases hdigit : c.isDigit
      · simp only [if_neg hquote, if_pos hdigit]
      by_cases hword : c = '_' ∨ Text.isLetter c
      · simp only [if_neg hquote, if_neg hdigit, if_pos hword]
      · simp only [if_neg hquote, if_neg hdigit, if_neg hword]

/-- What a match says about the lexemes at the start of `r :: rs`. -/
def Match.Holds (r : Rune) (rs : List Rune) : Match → Prop
  | .token kind more => Munches r rs kind more
  | .openString => r = .char '"' ∧ .char '"' ∉ rs ∧ NoLexeme r rs
  | .nothing => r ≠ .char '"' ∧ NoLexeme r rs

theorem start_eq_quote {c : Char} (h : Start.of c = .quote) : c = '"' := by
  unfold Start.of at h
  split at h
  · cases h
  · cases h
  · by_cases hc : c = '"'
    · exact hc
    · rw [if_neg hc] at h
      split at h
      · cases h
      · split at h <;> cases h

/-- The scanner's choice is the longest lexeme; it has none only where there is none. -/
theorem longest_holds (r : Rune) (rs : List Rune) : (longest r rs).Holds r rs := by
  cases r with
  | stray b => exact ⟨by simp, noLexeme_stray b⟩
  | char c =>
    rw [longest_char]
    cases hstart : Start.of c with
    | mark kind => exact munches_mark hstart
    | comparison alone withEqual =>
      simp only
      split
      · next hequal => exact munches_withEqual hstart hequal
      · next hequal => exact munches_alone hstart hequal
    | quote =>
      obtain rfl := start_eq_quote hstart
      -- up to the first quote, or to the end if there is none
      by_cases hquote : .char '"' ∈ rs
      · obtain ⟨inside, rest, rfl, hinside⟩ := List.eq_append_cons_of_mem hquote
        simp only [runLength_quote hinside, List.drop_left, List.isEmpty_cons]
        exact munches_string hinside
      · simp only [drop_runLength_quote hquote, List.isEmpty_nil]
        exact ⟨rfl, hquote, noLexeme_open hquote⟩
    | digit => exact munches_number hstart
    | word => exact munches_word hstart
    | other =>
      refine ⟨?_, noLexeme_other hstart⟩
      rintro ⟨⟩
      cases hstart

end ExprCalc.Scanner
