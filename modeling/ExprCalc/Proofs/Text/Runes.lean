import ExprCalc.Text.Lemmas

namespace ExprCalc

namespace Rune

theorem toNat_toUInt8_of_lt {n : Nat} (h : n < 256) : n.toUInt8.toNat = n := by
  simp [Nat.toUInt8, UInt8.toNat_ofNat', Nat.mod_eq_of_lt h]

theorem toNat_lt_of_char (c : Char) : c.toNat < 0x110000 := by
  have h : c.toNat.isValidChar := c.valid
  unfold Nat.isValidChar at h
  omega

theorem tailBits_cons {m : Nat} (hm : m < 64) (count high : Nat) (t : Text) :
    tailBits (count + 1) high ((0x80 + m).toUInt8 :: t) = tailBits count (high * 64 + m) t := by
  rw [tailBits, toNat_toUInt8_of_lt (by omega), if_pos (by omega), Nat.add_sub_cancel_left]

theorem form?_one {m : Nat} (hm : m < 0x20) :
    form? (0xC0 + m).toUInt8 = some ⟨1, m, 0x80⟩ := by
  simp only [form?, toNat_toUInt8_of_lt (show 0xC0 + m < 256 by omega)]
  rw [if_neg (by omega), if_neg (by omega), if_pos (by omega), Nat.add_sub_cancel_left]

theorem form?_two {m : Nat} (hm : m < 0x10) :
    form? (0xE0 + m).toUInt8 = some ⟨2, m, 0x800⟩ := by
  simp only [form?, toNat_toUInt8_of_lt (show 0xE0 + m < 256 by omega)]
  rw [if_neg (by omega), if_neg (by omega), if_neg (by omega), if_pos (by omega),
    Nat.add_sub_cancel_left]

theorem form?_three {m : Nat} (hm : m < 0x8) :
    form? (0xF0 + m).toUInt8 = some ⟨3, m, 0x10000⟩ := by
  simp only [form?, toNat_toUInt8_of_lt (show 0xF0 + m < 256 by omega)]
  rw [if_neg (by omega), if_neg (by omega), if_neg (by omega), if_neg (by omega),
    if_pos (by omega), Nat.add_sub_cancel_left]

theorem decode?_eq_some {lead : UInt8} {t : Text} {f : Form} {c : Char}
    (hform : form? lead = some f) (hcode : tailBits f.tails f.high t = some c.toNat)
    (hleast : f.least ≤ c.toNat) : decode? lead t = some (c, f.tails) := by
  have hvalid : c.toNat.isValidChar := c.valid
  simp [decode?, hform, hcode, hvalid, hleast, Char.ofNat_toNat]

theorem first_encode (c : Char) (t : Text) :
    ∃ lead tail, encode c = lead :: tail ∧ first lead (tail ++ t) = (.char c, tail.length) := by
  have hmax := toNat_lt_of_char c
  simp only [encode]
  -- one case for each length of the encoding
  split
  · next h =>
    have hform : form? c.toNat.toUInt8 = some ⟨0, c.toNat, 0⟩ := by
      simp only [form?, toNat_toUInt8_of_lt (show c.toNat < 256 by omega), if_pos h]
    refine ⟨_, _, rfl, ?_⟩
    rw [first, decode?_eq_some hform rfl (by simp)]
    rfl
  split
  · next h₁ h₂ =>
    refine ⟨_, _, rfl, ?_⟩
    rw [first, decode?_eq_some (form?_one (by omega)) (c := c) ?_ (by simp; omega)]
    · rfl
    · rw [List.cons_append, tailBits_cons (by omega), tailBits]
      simp only [Option.some.injEq]
      omega
  split
  · next h₁ h₂ h₃ =>
    refine ⟨_, _, rfl, ?_⟩
    rw [first, decode?_eq_some (form?_two (by omega)) (c := c) ?_ (by simp; omega)]
    · rfl
    · rw [List.cons_append, tailBits_cons (by omega), List.cons_append, tailBits_cons (by omega),
        tailBits]
      simp only [Option.some.injEq]
      omega
  · next h₁ h₂ h₃ =>
    refine ⟨_, _, rfl, ?_⟩
    rw [first, decode?_eq_some (form?_three (by omega)) (c := c) ?_ (by simp; omega)]
    · rfl
    · rw [List.cons_append, tailBits_cons (by omega), List.cons_append, tailBits_cons (by omega),
        List.cons_append, tailBits_cons (by omega), tailBits]
      simp only [Option.some.injEq]
      omega

theorem first_of_lt {b : UInt8} (hb : b.toNat < 0x80) (t : Text) :
    first b t = (.char (Char.ofNat b.toNat), 0) := by
  have hvalid : b.toNat.isValidChar := .inl (by omega)
  simp [first, decode?, form?, tailBits, hb, hvalid]

theorem first_le (lead : UInt8) (t : Text) : (first lead t).2 ≤ t.length := by
  simp only [first]
  split
  · next c n h => exact (encode_of_decode? lead t c n h).1
  · exact Nat.zero_le _

theorem tailBits_append {count high code : Nat} {t : Text} (h : tailBits count high t = some code)
    (u : Text) : tailBits count high (t ++ u) = some code := by
  induction t generalizing count high with
  | nil =>
    cases count with
    | zero => exact h
    | succ count => cases h
  | cons b t ih =>
    cases count with
    | zero => exact h
    | succ count =>
      simp only [List.cons_append, tailBits] at h ⊢
      split at h
      · next hb =>
        rw [if_pos hb]
        exact ih h
      · cases h

theorem decode?_append {lead : UInt8} {t : Text} {c : Char} {n : Nat}
    (h : decode? lead t = some (c, n)) (u : Text) : decode? lead (t ++ u) = some (c, n) := by
  unfold decode? at h ⊢
  obtain ⟨f, hf, h⟩ := Option.bind_eq_some_iff.mp h
  obtain ⟨code, hcode, h⟩ := Option.bind_eq_some_iff.mp h
  exact Option.bind_eq_some_iff.mpr ⟨f, hf,
    Option.bind_eq_some_iff.mpr ⟨code, tailBits_append hcode u, h⟩⟩

theorem encode_ascii {c : Char} {b : UInt8} (hmem : b ∈ encode c) (hb : b.toNat < 0x80) :
    c = Char.ofNat b.toNat := by
  have hmax := toNat_lt_of_char c
  have hlarge {n : Nat} (hn : 0x80 ≤ n) (hn' : n < 256) : b ≠ n.toUInt8 := by
    rintro rfl
    rw [toNat_toUInt8_of_lt hn'] at hb
    omega
  simp only [encode] at hmem
  split at hmem
  · next h =>
    rw [List.mem_singleton.mp hmem, toNat_toUInt8_of_lt (by omega), Char.ofNat_toNat]
  split at hmem
  · simp only [List.mem_cons, List.not_mem_nil, or_false] at hmem
    rcases hmem with h | h <;> exact absurd h (hlarge (by omega) (by omega))
  split at hmem
  · simp only [List.mem_cons, List.not_mem_nil, or_false] at hmem
    rcases hmem with h | h | h <;> exact absurd h (hlarge (by omega) (by omega))
  · simp only [List.mem_cons, List.not_mem_nil, or_false] at hmem
    rcases hmem with h | h | h | h <;> exact absurd h (hlarge (by omega) (by omega))

theorem tailBits_append_ascii {b : UInt8} (hb : b.toNat < 0x80) (count high : Nat) (xs ys : Text) :
    tailBits count high (xs ++ b :: ys) = tailBits count high xs := by
  induction xs generalizing count high with
  | nil =>
    cases count with
    | zero => rfl
    | succ count =>
      simp only [List.nil_append, tailBits]
      rw [if_neg (by omega)]
  | cons x xs ih =>
    cases count with
    | zero => rfl
    | succ count => simp only [List.cons_append, tailBits, ih]

/-- No rune reaches across an ASCII byte. -/
theorem first_append_ascii {b : UInt8} (hb : b.toNat < 0x80) (lead : UInt8) (xs ys : Text) :
    first lead (xs ++ b :: ys) = first lead xs := by
  simp only [first, decode?, tailBits_append_ascii hb]

end Rune

namespace Text

theorem runesAfter_eq (skip : Nat) (t : Text) : runesAfter skip t = runes (t.drop skip) := by
  induction skip generalizing t with
  | zero => rfl
  | succ skip ih =>
    cases t with
    | nil => rfl
    | cons b t => exact ih t

theorem runes_nil : runes [] = [] :=
  rfl

theorem runes_cons (b : UInt8) (t : Text) :
    runes (b :: t) = (Rune.first b t).1 :: runes (t.drop (Rune.first b t).2) := by
  rw [← runesAfter_eq]
  rfl

@[simp]
theorem ofRunes_nil : ofRunes [] = [] :=
  rfl

@[simp]
theorem ofRunes_cons (r : Rune) (rs : List Rune) : ofRunes (r :: rs) = r.bytes ++ ofRunes rs :=
  rfl

@[simp]
theorem ofRunes_append (rs rs' : List Rune) : ofRunes (rs ++ rs') = ofRunes rs ++ ofRunes rs' :=
  List.flatMap_append

theorem exists_runes_eq_cons {t : Text} (ht : t ≠ []) :
    ∃ r t', t = r.bytes ++ t' ∧ t.runes = r :: t'.runes := by
  cases t with
  | nil => exact absurd rfl ht
  | cons b t =>
    refine ⟨(Rune.first b t).1, t.drop (Rune.first b t).2, ?_, runes_cons b t⟩
    rw [Rune.bytes_first, List.cons_append, List.take_append_drop]

theorem bytes_ne_nil (r : Rune) : r.bytes ≠ [] := by
  cases r with
  | stray b => exact List.cons_ne_nil b []
  | char c =>
    obtain ⟨lead, tail, hencode, -⟩ := Rune.first_encode c []
    rw [Rune.bytes, hencode]
    exact List.cons_ne_nil lead tail

/-- Induction over a text, rune by rune. -/
theorem rune_induction {P : Text → Prop} (nil : P [])
    (cons : ∀ r t, (r.bytes ++ t).runes = r :: t.runes → P t → P (r.bytes ++ t)) (t : Text) :
    P t := by
  by_cases ht : t = []
  · rw [ht]
    exact nil
  · obtain ⟨r, t', hbytes, hrunes⟩ := exists_runes_eq_cons ht
    rw [hbytes] at hrunes ⊢
    exact cons r t' hrunes (rune_induction nil cons t')
termination_by t.length
decreasing_by
  have hpos := List.length_pos_iff.mpr (bytes_ne_nil r)
  rw [hbytes, List.length_append]
  omega

theorem runes_ofRunes_drop (t : Text) (n : Nat) :
    (ofRunes (t.runes.drop n)).runes = t.runes.drop n := by
  induction n generalizing t with
  | zero => rw [List.drop_zero, ofRunes_runes]
  | succ n ih =>
    by_cases ht : t = []
    · rw [ht]
      rfl
    · obtain ⟨r, t', -, hrunes⟩ := exists_runes_eq_cons ht
      rw [hrunes, List.drop_succ_cons]
      exact ih t'

theorem runes_encode_append (c : Char) (t : Text) :
    runes (Rune.encode c ++ t) = .char c :: runes t := by
  obtain ⟨lead, tail, hencode, hfirst⟩ := Rune.first_encode c t
  rw [hencode, List.cons_append, runes_cons, hfirst, List.drop_left]

theorem ofRunes_chars (cs : List Char) : ofRunes (cs.map .char) = cs.flatMap Rune.encode :=
  List.flatMap_map ..

theorem runes_chars_append (cs : List Char) (t : Text) :
    runes (ofRunes (cs.map .char) ++ t) = cs.map .char ++ runes t := by
  induction cs with
  | nil => rfl
  | cons c cs ih =>
    rw [List.map_cons, ofRunes_cons, List.append_assoc, List.cons_append, ← ih]
    exact runes_encode_append c _

/-- A rune is decoded in the same way when the text after it is cut short. -/
theorem runes_bytes_append_left {r : Rune} {t u : Text}
    (h : (r.bytes ++ (t ++ u)).runes = r :: (t ++ u).runes) :
    (r.bytes ++ t).runes = r :: t.runes := by
  cases r with
  | char c => exact runes_encode_append c t
  | stray b =>
    change runes (b :: (t ++ u)) = _ at h
    change runes (b :: t) = _
    rw [runes_cons] at h ⊢
    -- were the byte the start of a character in the shorter text, it would be in the longer one
    have hfirst := (List.cons.inj h).1
    unfold Rune.first at hfirst ⊢
    cases hdecode : Rune.decode? b t with
    | none => rfl
    | some found =>
      rw [Rune.decode?_append hdecode u] at hfirst
      cases hfirst

theorem runes_ofRunes_take (t : Text) (n : Nat) :
    (ofRunes (t.runes.take n)).runes = t.runes.take n := by
  induction t using rune_induction generalizing n with
  | nil => rw [runes_nil, List.take_nil, ofRunes_nil, runes_nil]
  | cons r t hrunes ih =>
    cases n with
    | zero => rfl
    | succ n =>
      have hsplit : ofRunes (t.runes.take n) ++ ofRunes (t.runes.drop n) = t := by
        rw [← ofRunes_append, List.take_append_drop, ofRunes_runes]
      -- the bytes of the runes taken are a cut of the text after the first rune
      rw [hrunes, List.take_succ_cons, ofRunes_cons]
      rw [← hsplit] at hrunes
      rw [runes_bytes_append_left hrunes, ih]

/-- The rune of an ASCII byte. -/
def ascii (b : UInt8) : Rune :=
  .char (Char.ofNat b.toNat)

theorem isDigit_iff (c : Char) : c.isDigit ↔ 48 ≤ c.toNat ∧ c.toNat ≤ 57 := by
  simp only [Char.isDigit, Bool.and_eq_true, decide_eq_true_eq]
  exact Iff.rfl

theorem bytes_ascii {b : UInt8} (hb : b.toNat < 0x80) : (ascii b).bytes = [b] := by
  have hvalid : b.toNat.isValidChar := .inl (by omega)
  simp [ascii, Rune.bytes, Rune.encode, Rune.toNat_ofNat_of_valid hvalid, hb]

theorem runes_cons_ascii {b : UInt8} (hb : b.toNat < 0x80) (t : Text) :
    runes (b :: t) = ascii b :: runes t := by
  rw [runes_cons, Rune.first_of_lt hb]
  rfl

theorem head?_runes_eq_ascii {b : UInt8} (hb : b.toNat < 0x80) (t : Text) :
    t.runes.head? = some (ascii b) ↔ t.head? = some b := by
  cases t with
  | nil => simp [runes_nil]
  | cons x t =>
    constructor
    · intro h
      rw [runes_cons, List.head?_cons, Option.some.injEq] at h
      have hbytes := Rune.bytes_first x t
      rw [h, bytes_ascii hb] at hbytes
      rw [(List.cons.inj hbytes).1, List.head?_cons]
    · intro h
      cases h
      rw [runes_cons_ascii hb, List.head?_cons]

/-- An ASCII byte divides a text into two that are decoded separately. -/
theorem runes_append_ascii {b : UInt8} (hb : b.toNat < 0x80) (xs ys : Text) :
    runes (xs ++ b :: ys) = runes xs ++ ascii b :: runes ys := by
  cases xs with
  | nil => exact runes_cons_ascii hb ys
  | cons x xs =>
    have ih := runes_append_ascii hb (xs.drop (Rune.first x xs).2) ys
    rw [List.cons_append, runes_cons, runes_cons, Rune.first_append_ascii hb,
      List.drop_append_of_le_length (Rune.first_le x xs), ih]
    rfl
termination_by xs.length

theorem stray_of_mem_runes {t : Text} {b : UInt8} (h : .stray b ∈ t.runes) : 0x80 ≤ b.toNat := by
  induction t using rune_induction with
  | nil => cases h
  | cons r t hrunes ih =>
    rw [hrunes] at h
    rcases List.mem_cons.mp h with rfl | h
    · -- an ASCII byte would have been decoded as a character
      apply Nat.le_of_not_lt
      intro hb
      have hascii := runes_cons_ascii hb t
      rw [← List.singleton_append] at hascii
      cases hrunes.symm.trans hascii
    · exact ih h

/-- The only rune of a text that holds an ASCII byte is the one for that byte. -/
theorem eq_ascii_of_mem_bytes {t : Text} {r : Rune} (hr : r ∈ t.runes) {b : UInt8}
    (hmem : b ∈ r.bytes) (hb : b.toNat < 0x80) : r = ascii b := by
  cases r with
  | char c => rw [ascii, ← Rune.encode_ascii hmem hb]
  | stray s =>
    have hs := stray_of_mem_runes hr
    rw [List.mem_singleton.mp hmem] at hb
    omega

end Text

end ExprCalc
