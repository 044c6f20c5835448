import ExprCalc.Token.Basic
import ExprCalc.Proofs.Text.Runes

namespace ExprCalc

namespace Text

def IsLine (t : Text) : Prop :=
  10 ∉ t

instance (t : Text) : Decidable t.IsLine :=
  inferInstanceAs (Decidable (10 ∉ t))

/-- The text consists of the given lines, each with a line feed after it and none inside. -/
structure IsLines (t : Text) (ls : List Text) : Prop where
  eq_concat : t = ls.flatMap line
  single : ∀ l ∈ ls, l.IsLine

@[simp]
theorem isLine_append {s t : Text} : IsLine (s ++ t) ↔ s.IsLine ∧ t.IsLine := by
  simp [IsLine, not_or]

theorem isLine_flatMap {α : Type} {f : α → Text} {xs : List α} (h : ∀ x ∈ xs, (f x).IsLine) :
    IsLine (xs.flatMap f) := by
  intro hmem
  obtain ⟨x, hx, hfx⟩ := List.mem_flatMap.mp hmem
  exact h x hx hfx

theorem count_eq_zero_iff {t : Text} : t.count 10 = 0 ↔ t.IsLine :=
  List.count_eq_zero

theorem append_mark_cancel {mark : UInt8} {l l' rest rest' : Text} (hl : mark ∉ l)
    (hl' : mark ∉ l') (h : l ++ mark :: rest = l' ++ mark :: rest') : l = l' ∧ rest = rest' := by
  have hends {s : Text} (hs : mark ∉ s) (tail : Text) :
      (s ++ mark :: tail).idxOf mark = s.length := by
    rw [List.idxOf_append, if_neg hs, List.idxOf_cons_self, Nat.zero_add]
  have hlength : l.length = l'.length := by
    rw [← hends hl rest, h, hends hl' rest']
  obtain ⟨hline, htail⟩ := List.append_inj h hlength
  exact ⟨hline, (List.cons.inj htail).2⟩

/-- A text has only one division into lines. -/
theorem IsLines.unique {t : Text} {ls ls' : List Text} (h : t.IsLines ls) (h' : t.IsLines ls') :
    ls = ls' := by
  obtain ⟨rfl, hsingle⟩ := h
  obtain ⟨hconcat, hsingle'⟩ := h'
  induction ls generalizing ls' with
  | nil =>
    cases ls' with
    | nil => rfl
    | cons l' ls' => simp [line] at hconcat
  | cons l ls ih =>
    cases ls' with
    | nil => simp [line] at hconcat
    | cons l' ls' =>
      rw [List.flatMap_cons, List.flatMap_cons, line, line, ← List.append_cons,
        ← List.append_cons] at hconcat
      obtain ⟨hl, hls⟩ := List.forall_mem_cons.mp hsingle
      obtain ⟨hl', hls'⟩ := List.forall_mem_cons.mp hsingle'
      obtain ⟨rfl, htail⟩ := append_mark_cancel hl hl' hconcat
      rw [ih hls htail hls']

theorem count_line (t : Text) : (line t).count 10 = t.count 10 + 1 := by
  rw [line, List.count_append]
  rfl

theorem isLine_encode {c : Char} (hc : c ≠ '\n') : IsLine (Rune.encode c) :=
  fun hmem => hc (Rune.encode_ascii hmem (by decide))

theorem newline_not_mem_toDigits {base : Nat} (hbase : 1 < base) (n : Nat) :
    '\n' ∉ Nat.toDigits base n := by
  induction n using Nat.strongRecOn with
  | ind n ih =>
    rw [Nat.toDigits_eq_if hbase]
    split
    · simp
    · next hn =>
      have hlt : n / base < n := Nat.div_lt_self (by omega) hbase
      simpa using ih _ hlt

theorem isLine_toDigits {base : Nat} (hbase : 1 < base) (n : Nat) :
    IsLine ((Nat.toDigits base n).flatMap Rune.encode) :=
  isLine_flatMap fun _ hc => isLine_encode fun heq => newline_not_mem_toDigits hbase n (heq ▸ hc)

theorem isLine_ofNat (n : Nat) : IsLine (ofNat n) :=
  isLine_toDigits (by decide) n

theorem isLine_ofInt (n : Int) : IsLine (ofInt n) := by
  cases n with
  | ofNat n => exact isLine_ofNat n
  | negSucc n => exact isLine_append.mpr ⟨by decide, isLine_ofNat (n + 1)⟩

theorem isLine_zeros (count : Nat) : IsLine (List.replicate count 48) := by
  intro hmem
  exact absurd (List.eq_of_mem_replicate hmem) (by decide)

theorem isLine_hex (width n : Nat) : IsLine (hex width n) :=
  isLine_append.mpr ⟨isLine_zeros _, isLine_toDigits (by decide) n⟩

theorem newline_not_printable : isPrintable '\n' = false := by
  decide +kernel

theorem shortEscapes_letters : ∀ p ∈ shortEscapes, p.2 ≠ '\n' := by
  decide

theorem isLine_escapedChar {quote : Char} (hquote : quote ≠ '\n') (c : Char) :
    IsLine (escapedChar quote c) := by
  have hbackslash : IsLine (Rune.encode '\\') := by decide
  unfold escapedChar
  split
  · next hc =>
    refine isLine_append.mpr ⟨hbackslash, isLine_encode ?_⟩
    rcases hc with rfl | rfl
    · exact hquote
    · decide
  split
  · next hprintable =>
    apply isLine_encode
    rintro rfl
    rw [newline_not_printable] at hprintable
    cases hprintable
  split
  · next letter hletter =>
    obtain ⟨before, after, htable, -⟩ := List.lookup_eq_some_iff.mp hletter
    refine isLine_append.mpr ⟨hbackslash, isLine_encode (shortEscapes_letters (c, letter) ?_)⟩
    simp [htable]
  · have hmark {s : String} (hs : IsLine (utf8 s)) (width : Nat) :
        IsLine (utf8 s ++ hex width c.toNat) :=
      isLine_append.mpr ⟨hs, isLine_hex width c.toNat⟩
    split
    · exact hmark (by decide) 2
    split
    · exact hmark (by decide) 4
    · exact hmark (by decide) 8

theorem isLine_escaped (r : Rune) : IsLine (escaped r) := by
  cases r with
  | char c => exact isLine_escapedChar (by decide) c
  | stray b => exact isLine_append.mpr ⟨by decide, isLine_hex 2 b.toNat⟩

theorem isLine_quoted (t : Text) : IsLine t.quoted := by
  simp only [quoted, isLine_append]
  exact ⟨⟨by decide, isLine_flatMap fun r _ => isLine_escaped r⟩, by decide⟩

theorem isLine_quotedChar (code : Int32) : IsLine (quotedChar code) := by
  simp only [quotedChar, isLine_append]
  exact ⟨⟨by decide, isLine_escapedChar (by decide) _⟩, by decide⟩

end Text

namespace Number

open Text

def writtenBytes : Text :=
  utf8 "0123456789+-.eINafn"

def digitBytes : Text :=
  utf8 "0123456789"

theorem digit_mem_digitBytes : ∀ n < 58, 48 ≤ n → n.toUInt8 ∈ digitBytes := by
  decide

theorem digitBytes_subset : digitBytes ⊆ writtenBytes := by
  decide

theorem encode_of_isDigit {c : Char} (hc : c.isDigit) : Rune.encode c = [c.toNat.toUInt8] := by
  have hrange := (isDigit_iff c).mp hc
  rw [Rune.encode, if_pos (by omega)]

theorem ofNat_subset (n : Nat) : ofNat n ⊆ digitBytes := by
  intro b hb
  obtain ⟨c, hc, hb⟩ := List.mem_flatMap.mp hb
  have hdigit := Nat.isDigit_of_mem_toDigits (by decide) (by decide) hc
  have hrange := (isDigit_iff c).mp hdigit
  rw [encode_of_isDigit hdigit, List.mem_singleton] at hb
  rw [hb]
  exact digit_mem_digitBytes _ (by omega) hrange.1

theorem ofNat_subset_writtenBytes (n : Nat) : ofNat n ⊆ writtenBytes :=
  List.Subset.trans (ofNat_subset n) digitBytes_subset

theorem zeros_subset (count : Nat) : List.replicate count 48 ⊆ digitBytes := by
  intro b hb
  rw [List.eq_of_mem_replicate hb]
  decide

theorem positional_subset {digits : Text} (h : digits ⊆ writtenBytes) (x : Int) :
    positional digits x ⊆ writtenBytes := by
  have hzeros (n : Nat) : List.replicate n 48 ⊆ writtenBytes :=
    List.Subset.trans (zeros_subset n) digitBytes_subset
  have htake (n : Nat) : digits.take n ⊆ writtenBytes :=
    List.Subset.trans (List.take_subset n digits) h
  have hdrop (n : Nat) : digits.drop n ⊆ writtenBytes :=
    List.Subset.trans (List.drop_subset n digits) h
  unfold positional
  split
  · simp only [List.append_subset]
    exact ⟨⟨by decide, hzeros _⟩, h⟩
  · simp only
    split
    · exact List.append_subset.mpr ⟨h, hzeros _⟩
    · simp only [List.append_subset]
      exact ⟨⟨htake _, by decide⟩, hdrop _⟩

theorem scientific_subset {digits : Text} (h : digits ⊆ writtenBytes) (x : Int) :
    scientific digits x ⊆ writtenBytes := by
  have hsign : utf8 (if x < 0 then "e-" else "e+") ⊆ writtenBytes := by
    split <;> decide
  have hfraction : (if digits.length ≤ 1 then [] else utf8 "." ++ digits.drop 1) ⊆
      writtenBytes := by
    split
    · decide
    · exact List.append_subset.mpr ⟨by decide, List.Subset.trans (List.drop_subset 1 digits) h⟩
  simp only [scientific, List.append_subset]
  exact ⟨⟨⟨⟨List.Subset.trans (List.take_subset 1 digits) h, hfraction⟩, hsign⟩,
    List.Subset.trans (zeros_subset _) digitBytes_subset⟩, ofNat_subset_writtenBytes _⟩

theorem decimal_subset (d : Decimal) : d.text ⊆ writtenBytes := by
  simp only [Decimal.text]
  split
  · exact positional_subset (ofNat_subset_writtenBytes _) _
  · exact scientific_subset (ofNat_subset_writtenBytes _) _

theorem text_subset (x : Float) : Number.text x ⊆ writtenBytes := by
  have hsign (negative : Prop) [Decidable negative] :
      (if negative then [] else utf8 "-") ⊆ writtenBytes := by
    split <;> decide
  simp only [Number.text]
  split
  · decide
  split
  · split <;> decide
  split
  · exact List.append_subset.mpr ⟨hsign _, by decide⟩
  · exact List.append_subset.mpr ⟨hsign _, decimal_subset _⟩

theorem isLine_text (x : Float) : IsLine (Number.text x) :=
  fun hmem => absurd (text_subset x hmem) (by decide)

end Number

theorem Position.isLine_text (p : Position) : p.text.IsLine := by
  simp only [Position.text, Text.isLine_append]
  exact ⟨⟨Text.isLine_ofInt _, by decide⟩, Text.isLine_ofInt _⟩

theorem Kind.isLine_name (k : Kind) : k.name.IsLine := by
  cases k with
  | unknown code =>
    simp only [Kind.name, Text.isLine_append]
    exact ⟨⟨by decide, Text.isLine_ofInt _⟩, by decide⟩
  | _ => decide

end ExprCalc
