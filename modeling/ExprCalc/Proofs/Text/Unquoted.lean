import ExprCalc.Text.Quoted
import ExprCalc.Proofs.Text.Runes
import Mathlib.Data.List.Perm.Basic

/-!
Which texts stand for themselves between double quotes. Reading goes unit by unit: a plain character
gives its own bytes, an escape gives fewer bytes than it takes, and a stray byte gives the three
bytes of the replacement character. The gains of strays do not make up for the losses of escapes:
after an escape the result is behind the text by some ASCII bytes, and as long as it is, what comes
next in the text is not the replacement character.
-/

namespace ExprCalc.Text

def IsAscii (t : Text) : Prop :=
  ∀ b ∈ t, b.toNat < 0x80

theorem isAscii_append {t u : Text} : IsAscii (t ++ u) ↔ IsAscii t ∧ IsAscii u :=
  List.forall_mem_append

/-- `Takes rs n rest`: the runes `rs` are `n` ASCII bytes and `rest`. -/
def Takes (rs : List Rune) (n : Nat) (rest : List Rune) : Prop :=
  ∃ written, ofRunes rs = written ++ ofRunes rest ∧ IsAscii written ∧ written.length = n

/-- `ReadsAs rs t`: between double quotes, the runes `rs` are read as the text `t`. -/
inductive ReadsAs : List Rune → Text → Prop
  | nil : ReadsAs [] []
  | plain {c : Char} {rs : List Rune} {t : Text} (hbackslash : c ≠ '\\') (hnewline : c ≠ '\n')
      (h : ReadsAs rs t) : ReadsAs (.char c :: rs) (Rune.encode c ++ t)
  | escape {meant t : Text} {rs rest : List Rune} {n : Nat} (htakes : Takes rs n rest)
      (hlength : meant.length ≤ n) (h : ReadsAs rest t) : ReadsAs (.char '\\' :: rs) (meant ++ t)
  | stray {b : UInt8} {rs : List Rune} {t : Text} (h : ReadsAs rs t) :
      ReadsAs (.stray b :: rs) (Rune.encode (Rune.stray b).shown ++ t)

theorem length_encode_le (c : Char) : (Rune.encode c).length ≤ 4 := by
  simp only [Rune.encode]
  split
  · simp
  split
  · simp
  split <;> simp

theorem Takes.refl (rs : List Rune) : Takes rs 0 rs :=
  ⟨[], rfl, fun _ hb => absurd hb List.not_mem_nil, rfl⟩

theorem Takes.cons {c : Char} {rs rest : List Rune} {n : Nat} (hc : c.toNat < 0x80)
    (h : Takes rs n rest) : Takes (.char c :: rs) (n + 1) rest := by
  obtain ⟨written, hrs, hascii, hlength⟩ := h
  have hencode : Rune.encode c = [c.toNat.toUInt8] := by rw [Rune.encode, if_pos hc]
  refine ⟨c.toNat.toUInt8 :: written, ?_, ?_, congrArg (· + 1) hlength⟩
  · rw [ofRunes_cons, hrs, Rune.bytes, hencode]
    rfl
  · rintro b (_ | ⟨_, hb⟩)
    · rwa [Rune.toNat_toUInt8_of_lt (by omega)]
    · exact hascii b hb

theorem toNat_lt_of_digitValue? {c : Char} {d : Nat} (h : digitValue? c = some d) :
    c.toNat < 0x80 := by
  have hle {a b : Char} (hab : a ≤ b) : a.toNat ≤ b.toNat := hab
  unfold digitValue? at h
  split at h
  · next hc => exact Nat.lt_of_le_of_lt (hle hc.2) (by decide)
  split at h
  · next hc => exact Nat.lt_of_le_of_lt (hle hc.2) (by decide)
  split at h
  · next hc => exact Nat.lt_of_le_of_lt (hle hc.2) (by decide)
  · cases h

theorem takes_of_fixedDigits? {base count value n : Nat} {rs rest : List Rune}
    (h : fixedDigits? base count value rs = some (n, rest)) : Takes rs count rest := by
  induction count generalizing value rs with
  | zero =>
    cases h
    exact .refl _
  | succ count ih =>
    cases rs with
    | nil => cases h
    | cons r rs =>
      cases r with
      | stray b => cases h
      | char c =>
        rw [fixedDigits?] at h
        split at h
        · next d hd =>
          split at h
          · exact .cons (toNat_lt_of_digitValue? hd) (ih h)
          · cases h
        · cases h

theorem length_le_of_codePoint? {n : Nat} {t : Text} (h : codePoint? n = some t) :
    t.length ≤ 4 := by
  unfold codePoint? at h
  split at h
  · cases h
    exact length_encode_le _
  · cases h

theorem shortEscapes_ascii : ∀ p ∈ shortEscapes,
    (Rune.encode p.1).length = 1 ∧ p.2.toNat < 0x80 := by
  decide

/-- An escape is written in ASCII, and what it means is no longer than what follows its
backslash. -/
theorem takes_of_escape? {rs rest : List Rune} {meant : Text}
    (h : escape? '"' rs = some (meant, rest)) : ∃ n, Takes rs n rest ∧ meant.length ≤ n := by
  unfold escape? at h
  split at h
  · next rs =>
    obtain ⟨⟨n, rest'⟩, hdigits, h⟩ := Option.bind_eq_some_iff.mp h
    cases h
    exact ⟨3, .cons (by decide) (takes_of_fixedDigits? hdigits), by simp⟩
  · next rs =>
    obtain ⟨⟨n, rest'⟩, hdigits, h⟩ := Option.bind_eq_some_iff.mp h
    obtain ⟨t, hcode, h⟩ := Option.bind_eq_some_iff.mp h
    cases h
    have hlength := length_le_of_codePoint? hcode
    exact ⟨5, .cons (by decide) (takes_of_fixedDigits? hdigits), by omega⟩
  · next rs =>
    obtain ⟨⟨n, rest'⟩, hdigits, h⟩ := Option.bind_eq_some_iff.mp h
    obtain ⟨t, hcode, h⟩ := Option.bind_eq_some_iff.mp h
    cases h
    have hlength := length_le_of_codePoint? hcode
    exact ⟨9, .cons (by decide) (takes_of_fixedDigits? hdigits), by omega⟩
  · next c rs _ _ _ =>
    -- three octal digits, then the quotes and the backslash, then the letters of the table
    split at h
    · obtain ⟨⟨n, rest'⟩, hdigits, h⟩ := Option.bind_eq_some_iff.mp h
      simp only at h
      split at h
      · cases h
        exact ⟨3, takes_of_fixedDigits? hdigits, by simp⟩
      · cases h
    split at h
    · next hc =>
      cases h
      rcases hc with rfl | rfl
      · exact ⟨1, .cons (by decide) (.refl _), by decide⟩
      · exact ⟨1, .cons (by decide) (.refl _), by decide⟩
    split at h
    · next meaning letter hfind =>
      cases h
      have hletter : letter = c := by simpa using List.find?_some hfind
      obtain ⟨hlength, hascii⟩ := shortEscapes_ascii _ (List.mem_of_find?_eq_some hfind)
      rw [hletter] at hascii
      exact ⟨1, .cons hascii (.refl _), Nat.le_of_eq hlength⟩
    · cases h
  · cases h

theorem readsAs_of_insideDoubleQuotes? {fuel : Nat} {rs : List Rune} {t : Text}
    (h : insideDoubleQuotes? fuel rs = some t) : ReadsAs rs t := by
  induction fuel generalizing rs t with
  | zero =>
    -- no fuel is left only where nothing is left to read
    cases rs with
    | nil =>
      cases h
      exact .nil
    | cons r rs => cases h
  | succ fuel ih =>
    cases rs with
    | nil =>
      cases h
      exact .nil
    | cons r rs =>
      rw [insideDoubleQuotes?] at h
      split at h
      · next meant rest hunit =>
        obtain ⟨t', hrest, rfl⟩ := Option.map_eq_some_iff.mp h
        cases r with
        | stray b =>
          cases hunit
          exact .stray (ih hrest)
        | char c =>
          rw [quotedUnit?] at hunit
          split at hunit
          · next hc =>
            subst hc
            obtain ⟨n, htakes, hlength⟩ := takes_of_escape? hunit
            exact .escape htakes hlength (ih hrest)
          split at hunit
          · cases hunit
          · next hbackslash hother =>
            cases hunit
            exact .plain hbackslash (fun hnewline => hother (.inr hnewline)) (ih hrest)
      · cases h
      · simp

theorem exists_rest_of_append_eq {d t w r : Text} (h : d ++ t = w ++ r)
    (hlength : d.length ≤ w.length) : ∃ w', w = d ++ w' ∧ t = w' ++ r := by
  obtain ⟨w', hw, ht⟩ | ⟨d', hd, hr⟩ := List.append_eq_append_iff.mp h
  · exact ⟨w', hw, ht⟩
  · have hnil : d' = [] := by
      rw [hd, List.length_append] at hlength
      exact List.length_eq_zero_iff.mp (by omega)
    subst hnil
    exact ⟨[], by simpa using hd.symm, hr.symm⟩

theorem encode_shown_stray (b : UInt8) :
    Rune.encode (Rune.stray b).shown = [0xEF, 0xBF, 0xBD] := by
  change Rune.encode (Char.ofNat 0xFFFD) = _
  decide

/-- After an escape, the reading is behind the text by some ASCII bytes. -/
theorem exists_behind_of_escape {meant t behind : Text} {rs rest : List Rune} {n : Nat}
    (htakes : Takes rs n rest) (hlength : meant.length ≤ n) (hascii : IsAscii behind)
    (h : meant ++ t = behind ++ ofRunes (.char '\\' :: rs)) :
    ∃ behind', IsAscii behind' ∧ behind' ≠ [] ∧ t = behind' ++ ofRunes rest := by
  obtain ⟨written, hrs, hwritten, rfl⟩ := htakes
  have hbytes : ofRunes (.char '\\' :: rs) = (92 :: written) ++ ofRunes rest := by
    rw [ofRunes_cons, hrs]
    rfl
  rw [hbytes, ← List.append_assoc] at h
  obtain ⟨behind', hsplit, ht⟩ := exists_rest_of_append_eq h (by simp; omega)
  have hall : IsAscii (behind ++ 92 :: written) :=
    isAscii_append.mpr ⟨hascii, List.forall_mem_cons.mpr ⟨by decide, hwritten⟩⟩
  rw [hsplit] at hall
  refine ⟨behind', (isAscii_append.mp hall).2, ?_, ht⟩
  rintro rfl
  have hlengths := congrArg List.length hsplit
  simp only [List.length_append, List.length_cons, List.length_nil] at hlengths
  omega

/-- A reading does not catch up with a text that it is behind of by some ASCII bytes. -/
theorem ReadsAs.ne_behind {rs : List Rune} {t behind : Text} (h : ReadsAs rs t)
    (hascii : IsAscii behind) (hne : behind ≠ []) : t ≠ behind ++ ofRunes rs := by
  induction h generalizing behind with
  | nil =>
    intro heq
    exact hne (List.append_eq_nil_iff.mp heq.symm).1
  | @plain c rs t _ _ _ ih =>
    intro heq
    rw [ofRunes_cons, Rune.bytes, ← List.append_assoc] at heq
    obtain ⟨behind', hsplit, ht⟩ := exists_rest_of_append_eq heq (by simp)
    -- the character moves from the end of the bytes behind to their start
    have hperm : behind'.Perm behind := by
      have hrotated : (Rune.encode c ++ behind').Perm (Rune.encode c ++ behind) :=
        hsplit ▸ List.perm_append_comm
      exact (List.perm_append_left_iff _).mp hrotated
    refine ih (fun b hb => hascii b (hperm.subset hb)) ?_ ht
    rintro rfl
    exact hne hperm.nil_eq.symm
  | escape htakes hlength _ ih =>
    intro heq
    obtain ⟨behind', hascii', hne', ht⟩ := exists_behind_of_escape htakes hlength hascii heq
    exact ih hascii' hne' ht
  | stray =>
    intro heq
    obtain ⟨b, behind, rfl⟩ := List.exists_cons_of_ne_nil hne
    -- a stray is read as a character beyond ASCII
    rw [encode_shown_stray] at heq
    have hlead : (0xEF : UInt8) = b := (List.cons.inj heq).1
    exact absurd (hascii b List.mem_cons_self) (hlead ▸ by decide)

/-- Runes that are read as their own bytes are plain characters. -/
theorem ReadsAs.plain_of_self {rs : List Rune} {t : Text} (h : ReadsAs rs t)
    (haligned : (ofRunes rs).runes = rs) (hself : t = ofRunes rs) :
    ∀ r ∈ rs, ∃ c, r = .char c ∧ c ≠ '\\' ∧ c ≠ '\n' := by
  induction h with
  | nil => exact fun _ hr => absurd hr List.not_mem_nil
  | @plain c rs t hbackslash hnewline _ ih =>
    rw [ofRunes_cons, Rune.bytes] at haligned hself
    rw [runes_encode_append] at haligned
    have hrest := ih (List.cons.inj haligned).2 (List.append_cancel_left hself)
    exact List.forall_mem_cons.mpr ⟨⟨c, rfl, hbackslash, hnewline⟩, hrest⟩
  | escape htakes hlength hreads _ =>
    have hnone : IsAscii [] := fun _ hb => absurd hb List.not_mem_nil
    obtain ⟨behind, hascii, hne, ht⟩ := exists_behind_of_escape htakes hlength hnone hself
    exact absurd ht (hreads.ne_behind hascii hne)
  | @stray b rs t _ _ =>
    -- the replacement character would have been decoded in place of its first byte
    rw [← hself, runes_encode_append] at haligned
    cases haligned

theorem insideDoubleQuotes?_of_plain {rs : List Rune} (hquote : .char '"' ∉ rs)
    (h : ∀ r ∈ rs, ∃ c, r = .char c ∧ c ≠ '\\' ∧ c ≠ '\n') :
    insideDoubleQuotes? rs.length rs = some (ofRunes rs) := by
  induction rs with
  | nil => rfl
  | cons r rs ih =>
    obtain ⟨⟨c, rfl, hbackslash, hnewline⟩, hrest⟩ := List.forall_mem_cons.mp h
    have hc : c ≠ '"' := by
      rintro rfl
      exact hquote List.mem_cons_self
    have hunit : quotedUnit? '"' (.char c :: rs) = some (Rune.encode c, rs) := by
      rw [quotedUnit?, if_neg hbackslash, if_neg (not_or.mpr ⟨hc, hnewline⟩)]
    rw [List.length_cons, insideDoubleQuotes?, hunit]
    · simp only [ih (fun hmem => hquote (.tail _ hmem)) hrest, Option.map_some, ofRunes_cons,
        Rune.bytes]
    · exact List.cons_ne_nil _ _

theorem unquoted?_of_doubleQuotes (t : Text) :
    unquoted? (34 :: (t ++ [34])) = insideDoubleQuotes? t.runes.length t.runes := by
  have hrunes : runes (34 :: (t ++ [34])) = .char '"' :: (t.runes ++ [.char '"']) := by
    rw [runes_cons_ascii (by decide), runes_append_ascii (by decide)]
    rfl
  simp only [unquoted?, hrunes, between?, List.getLast?_concat, List.dropLast_concat, and_self,
    if_true]

theorem mem_iff_ascii_mem_runes {b : UInt8} (hb : b.toNat < 0x80) (t : Text) :
    b ∈ t ↔ ascii b ∈ t.runes := by
  constructor
  · intro hmem
    rw [← ofRunes_runes t] at hmem
    obtain ⟨r, hr, hmem⟩ := List.mem_flatMap.mp hmem
    rwa [← eq_ascii_of_mem_bytes hr hmem hb]
  · intro hmem
    rw [← ofRunes_runes t]
    refine List.mem_flatMap.mpr ⟨_, hmem, ?_⟩
    rw [bytes_ascii hb]
    exact List.mem_singleton_self b

theorem plain_iff {t : Text} : (∀ r ∈ t.runes, ∃ c, r = .char c ∧ c ≠ '\\' ∧ c ≠ '\n') ↔
    t.isUtf8 = true ∧ 92 ∉ t ∧ 10 ∉ t := by
  rw [mem_iff_ascii_mem_runes (b := 92) (by decide), mem_iff_ascii_mem_runes (b := 10) (by decide),
    isUtf8, List.all_eq_true]
  constructor
  · intro h
    refine ⟨?_, ?_, ?_⟩
    · intro r hr
      obtain ⟨c, rfl, -⟩ := h r hr
      rfl
    · intro hmem
      obtain ⟨c, hc, hbackslash, -⟩ := h _ hmem
      cases hc
      exact hbackslash rfl
    · intro hmem
      obtain ⟨c, hc, -, hnewline⟩ := h _ hmem
      cases hc
      exact hnewline rfl
  · rintro ⟨hchars, hbackslash, hnewline⟩ r hr
    cases r with
    | stray b => cases hchars _ hr
    | char c =>
      refine ⟨c, rfl, ?_, ?_⟩
      · rintro rfl
        exact hbackslash hr
      · rintro rfl
        exact hnewline hr

/-- The texts without a quote that are read as themselves between double quotes. -/
theorem unquoted?_eq_self_iff {t : Text} (hquote : 34 ∉ t) :
    unquoted? (34 :: (t ++ [34])) = some t ↔ t.isUtf8 = true ∧ 92 ∉ t ∧ 10 ∉ t := by
  rw [unquoted?_of_doubleQuotes, ← plain_iff]
  constructor
  · intro h
    refine (readsAs_of_insideDoubleQuotes? h).plain_of_self ?_ ?_
    · rw [ofRunes_runes]
    · rw [ofRunes_runes]
  · intro h
    rw [mem_iff_ascii_mem_runes (by decide)] at hquote
    rw [insideDoubleQuotes?_of_plain hquote h, ofRunes_runes]

end ExprCalc.Text
