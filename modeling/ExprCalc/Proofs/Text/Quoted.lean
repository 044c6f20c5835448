import Mathlib.Algebra.Group.Nat.Defs
import ExprCalc.Proofs.Text.SingleLine

namespace ExprCalc.Text

theorem digitValue?_digitChar : ∀ n < 16, digitValue? (Nat.digitChar n) = some n := by
  decide

theorem length_encode_digitChar : ∀ n < 16, (Rune.encode (Nat.digitChar n)).length = 1 := by
  decide

theorem fixedDigits?_digitChar {n : Nat} (hn : n < 16) (count value : Nat) (rest : List Rune) :
    fixedDigits? 16 (count + 1) value (.char (Nat.digitChar n) :: rest) =
      fixedDigits? 16 count (value * 16 + n) rest := by
  rw [fixedDigits?, digitValue?_digitChar n hn]
  exact if_pos hn

theorem fixedDigits?_zeros (zeros count : Nat) (rest : List Rune) :
    fixedDigits? 16 (zeros + count) 0 (List.replicate zeros (.char '0') ++ rest) =
      fixedDigits? 16 count 0 rest := by
  induction zeros with
  | zero => rw [Nat.zero_add, List.replicate_zero, List.nil_append]
  | succ zeros ih =>
    rw [Nat.add_right_comm, List.replicate_succ, List.cons_append]
    exact (fixedDigits?_digitChar (n := 0) (by decide) _ 0 _).trans ih

theorem fixedDigits?_toDigits (n count : Nat) (rest : List Rune) :
    fixedDigits? 16 ((Nat.toDigits 16 n).length + count) 0
        ((Nat.toDigits 16 n).map .char ++ rest) = fixedDigits? 16 count n rest := by
  induction n using Nat.strongRecOn generalizing count rest with
  | ind n ih =>
    rw [Nat.toDigits_eq_if (by decide)]
    split
    · next hn =>
      rw [List.length_singleton, Nat.add_comm 1 count]
      refine (fixedDigits?_digitChar hn count 0 rest).trans ?_
      rw [Nat.zero_mul, Nat.zero_add]
    · next hn =>
      have hlt : n / 16 < n := Nat.div_lt_self (by omega) (by decide)
      rw [List.length_append, List.length_singleton, Nat.add_assoc, List.map_append,
        List.append_assoc, ih _ hlt, Nat.add_comm 1 count]
      refine (fixedDigits?_digitChar (Nat.mod_lt n (by decide)) count _ rest).trans ?_
      rw [Nat.div_add_mod']

theorem length_encode_toDigits (n : Nat) :
    ((Nat.toDigits 16 n).flatMap Rune.encode).length = (Nat.toDigits 16 n).length := by
  induction n using Nat.strongRecOn with
  | ind n ih =>
    rw [Nat.toDigits_eq_if (by decide)]
    split
    · next hn =>
      rw [List.flatMap_singleton]
      exact length_encode_digitChar n hn
    · next hn =>
      have hlt : n / 16 < n := Nat.div_lt_self (by omega) (by decide)
      rw [List.flatMap_append, List.flatMap_singleton, List.length_append, List.length_append,
        ih _ hlt, length_encode_digitChar _ (Nat.mod_lt n (by decide)), List.length_singleton]

theorem runes_hex (width n : Nat) (t : Text) :
    (hex width n ++ t).runes =
      List.replicate (width - (Nat.toDigits 16 n).length) (.char '0') ++
        ((Nat.toDigits 16 n).map .char ++ t.runes) := by
  have hzeros (count : Nat) :
      List.replicate count 48 = (List.replicate count '0').flatMap Rune.encode := by
    rw [List.flatMap_replicate]
    exact List.flatten_replicate_singleton.symm
  rw [hex, length_encode_toDigits, hzeros, ← ofRunes_chars, ← ofRunes_chars, List.append_assoc,
    runes_chars_append, runes_chars_append, List.map_replicate]

theorem fixedDigits?_hex {width n : Nat} (hwidth : 0 < width) (hn : n < 16 ^ width) (t : Text) :
    fixedDigits? 16 width 0 (hex width n ++ t).runes = some (n, t.runes) := by
  have hlength : (Nat.toDigits 16 n).length ≤ width :=
    (Nat.length_toDigits_le_iff (by decide) hwidth).mpr hn
  have hzeros := fixedDigits?_zeros (width - (Nat.toDigits 16 n).length)
    (Nat.toDigits 16 n).length ((Nat.toDigits 16 n).map .char ++ t.runes)
  rw [Nat.sub_add_cancel hlength] at hzeros
  rw [runes_hex, hzeros]
  exact fixedDigits?_toDigits n 0 t.runes

theorem quotedUnit?_escape (t : Text) :
    quotedUnit? '"' (Rune.encode '\\' ++ t).runes = escape? '"' t.runes := by
  rw [runes_encode_append]
  rfl

theorem quotedUnit?_mark {mark : Text} (letter : Char)
    (hmark : mark = Rune.encode '\\' ++ Rune.encode letter) (digits t : Text) :
    quotedUnit? '"' (mark ++ digits ++ t).runes =
      escape? '"' (.char letter :: (digits ++ t).runes) := by
  rw [hmark, List.append_assoc, List.append_assoc, quotedUnit?_escape, runes_encode_append]

theorem quotedUnit?_byte {n : Nat} (hn : n < 256) (t : Text) :
    quotedUnit? '"' (utf8 "\\x" ++ hex 2 n ++ t).runes = some ([n.toUInt8], t.runes) := by
  refine (quotedUnit?_mark 'x' rfl (hex 2 n) t).trans ?_
  rw [escape?, fixedDigits?_hex (by decide) hn]
  rfl

theorem codePoint?_hex (c : Char) {width : Nat} (hwidth : 0 < width) (hc : c.toNat < 16 ^ width)
    (t : Text) :
    (do
      let (n, rest) ← fixedDigits? 16 width 0 (hex width c.toNat ++ t).runes
      return (← codePoint? n, rest)) = some (Rune.encode c, t.runes) := by
  have hvalid : c.toNat.isValidChar := c.valid
  have hcode : codePoint? c.toNat = some (Rune.encode c) := by
    rw [codePoint?, if_pos hvalid, Char.ofNat_toNat]
  simp only [fixedDigits?_hex hwidth hc, Option.bind_eq_bind, Option.bind_some, hcode, pure]

theorem shortEscapes_read : ∀ p ∈ shortEscapes, ∀ rest : List Rune,
    escape? '"' (.char p.2 :: rest) = some (Rune.encode p.1, rest) := by
  simp [shortEscapes, escape?]

/-- What is written for a rune between quotes is read as the bytes of the rune. -/
theorem quotedUnit?_escaped (r : Rune) (t : Text) :
    quotedUnit? '"' (escaped r ++ t).runes = some (r.bytes, t.runes) := by
  cases r with
  | stray b =>
    rw [escaped, quotedUnit?_byte b.toNat_lt]
    simp [Rune.bytes]
  | char c =>
    simp only [escaped, escapedChar, Rune.bytes]
    split
    · next hc =>
      rw [List.append_assoc, quotedUnit?_escape, runes_encode_append]
      rcases hc with rfl | rfl <;> rfl
    split
    · next hc hprintable =>
      -- the reader refuses a line feed that stands for itself, but none is printable
      have hnewline : c ≠ '\n' := by
        rintro rfl
        rw [newline_not_printable] at hprintable
        cases hprintable
      rw [not_or] at hc
      rw [runes_encode_append, quotedUnit?, if_neg hc.2, if_neg (not_or.mpr ⟨hc.1, hnewline⟩)]
    split
    · next letter hletter =>
      obtain ⟨before, after, htable, -⟩ := List.lookup_eq_some_iff.mp hletter
      rw [List.append_assoc, quotedUnit?_escape, runes_encode_append]
      exact shortEscapes_read (c, letter) (by simp [htable]) t.runes
    -- what is left is written by its code point; below 0x80 that is also its only byte
    split
    · next hlt => rw [quotedUnit?_byte (by omega), Rune.encode, if_pos hlt]
    split
    · next hlt =>
      exact (quotedUnit?_mark 'u' rfl (hex 4 c.toNat) t).trans (codePoint?_hex c (by decide) hlt t)
    · have hlt : c.toNat < 16 ^ 8 := Nat.lt_trans (Rune.toNat_lt_of_char c) (by decide)
      exact (quotedUnit?_mark 'U' rfl (hex 8 c.toNat) t).trans (codePoint?_hex c (by decide) hlt t)

theorem eq_of_runes_eq {s t : Text} (h : s.runes = t.runes) : s = t := by
  rw [← ofRunes_runes s, h, ofRunes_runes]

theorem escaped_append_cancel {rs rs' : List Rune} {rest rest' : Text}
    (h : rs.flatMap escaped ++ 34 :: rest = rs'.flatMap escaped ++ 34 :: rest') :
    ofRunes rs = ofRunes rs' ∧ rest = rest' := by
  -- a quote that is not escaped is no unit of the inside
  have hquote (r : Rune) (t u : Text) : 34 :: t ≠ escaped r ++ u := by
    intro heq
    have hunit := quotedUnit?_escaped r u
    rw [← heq, runes_cons_ascii (by decide)] at hunit
    cases hunit
  induction rs generalizing rs' with
  | nil =>
    cases rs' with
    | nil => exact ⟨rfl, (List.cons.inj h).2⟩
    | cons r' rs' =>
      rw [List.flatMap_cons, List.append_assoc] at h
      exact absurd h (hquote r' _ _)
  | cons r rs ih =>
    cases rs' with
    | nil =>
      rw [List.flatMap_cons, List.append_assoc] at h
      exact absurd h.symm (hquote r _ _)
    | cons r' rs' =>
      rw [List.flatMap_cons, List.flatMap_cons, List.append_assoc, List.append_assoc] at h
      have hunit := quotedUnit?_escaped r (rs.flatMap escaped ++ 34 :: rest)
      rw [h, quotedUnit?_escaped, Option.some.injEq, Prod.mk.injEq] at hunit
      obtain ⟨hrs, hrest⟩ := ih (eq_of_runes_eq hunit.2).symm
      rw [ofRunes_cons, ofRunes_cons, hunit.1, hrs]
      exact ⟨rfl, hrest⟩

/-- A quoted text at the start of a text tells what is quoted and what follows. -/
theorem quoted_append_cancel {t t' rest rest' : Text} (h : t.quoted ++ rest = t'.quoted ++ rest') :
    t = t' ∧ rest = rest' := by
  have hsplit (t rest : Text) :
      t.quoted ++ rest = 34 :: (t.runes.flatMap escaped ++ 34 :: rest) := by
    rw [quoted, List.append_assoc, List.append_assoc]
    rfl
  rw [hsplit, hsplit] at h
  obtain ⟨ht, hrest⟩ := escaped_append_cancel (List.cons.inj h).2
  rw [ofRunes_runes, ofRunes_runes] at ht
  exact ⟨ht, hrest⟩

end ExprCalc.Text
