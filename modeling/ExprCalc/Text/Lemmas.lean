import ExprCalc.Text.Basic

namespace ExprCalc

namespace Rune

theorem toUInt8_eq_of_toNat_eq {b : UInt8} {n : Nat} (h : b.toNat = n) : n.toUInt8 = b := by
  subst h
  simp

theorem toNat_ofNat_of_valid {n : Nat} (h : n.isValidChar) : (Char.ofNat n).toNat = n := by
  unfold Char.ofNat
  rw [dif_pos h]
  rfl

theorem form?_eq_some (lead : UInt8) (f : Form) (h : form? lead = some f) :
    (f = ⟨0, lead.toNat, 0⟩ ∧ lead.toNat < 0x80) ∨
    (f = ⟨1, lead.toNat - 0xC0, 0x80⟩ ∧ 0xC0 ≤ lead.toNat ∧ lead.toNat < 0xE0) ∨
    (f = ⟨2, lead.toNat - 0xE0, 0x800⟩ ∧ 0xE0 ≤ lead.toNat ∧ lead.toNat < 0xF0) ∨
    (f = ⟨3, lead.toNat - 0xF0, 0x10000⟩ ∧ 0xF0 ≤ lead.toNat ∧ lead.toNat < 0xF8) := by
  simp only [form?] at h
  split at h
  · simp_all
  · split at h
    · simp at h
    · split at h
      · simp only [Option.some.injEq] at h
        exact .inr (.inl ⟨h.symm, by omega, by omega⟩)
      · split at h
        · simp only [Option.some.injEq] at h
          exact .inr (.inr (.inl ⟨h.symm, by omega, by omega⟩))
        · split at h
          · simp only [Option.some.injEq] at h
            exact .inr (.inr (.inr ⟨h.symm, by omega, by omega⟩))
          · simp at h

/-- Continuation bytes are the digits, in base 64, of the code after its high part. -/
theorem tailBits_succ_eq_some (count high code : Nat) (t : Text)
    (h : tailBits (count + 1) high t = some code) :
    ∃ b bs, t = b :: bs ∧ 0x80 ≤ b.toNat ∧ b.toNat < 0xC0 ∧
      tailBits count (high * 64 + (b.toNat - 0x80)) bs = some code := by
  cases t with
  | nil => simp [tailBits] at h
  | cons b bs =>
    simp only [tailBits] at h
    split at h
    · exact ⟨b, bs, rfl, by omega, by omega, h⟩
    · simp at h

/-- A character that is decoded is written with the very bytes it was read from. -/
theorem encode_of_decode? (lead : UInt8) (rest : Text) (c : Char) (n : Nat)
    (h : decode? lead rest = some (c, n)) :
    n ≤ rest.length ∧ encode c = lead :: rest.take n := by
  unfold decode? at h
  obtain ⟨f, hf, h⟩ := Option.bind_eq_some_iff.1 h
  obtain ⟨code, hcode, h⟩ := Option.bind_eq_some_iff.1 h
  split at h
  · next valid =>
    obtain ⟨rfl, rfl⟩ := Prod.mk.inj (Option.some.inj h)
    have toNat := toNat_ofNat_of_valid valid.1
    have least := valid.2
    -- the lead byte has the top bits of the code and each tail byte six more
    rcases form?_eq_some lead f hf with ⟨rfl, h₁⟩ | ⟨rfl, h₁, h₂⟩ | ⟨rfl, h₁, h₂⟩ | ⟨rfl, h₁, h₂⟩
    · simp only [tailBits, Option.some.injEq] at hcode
      have r₁ : code < 0x80 := by omega
      simp only [encode, toNat, if_pos r₁, toUInt8_eq_of_toNat_eq hcode]
      simp
    · obtain ⟨b, bs, rfl, hb₁, hb₂, hcode⟩ := tailBits_succ_eq_some _ _ _ _ hcode
      simp only [tailBits, Option.some.injEq] at hcode
      simp only at least
      have e₁ : lead.toNat = 0xC0 + code / 64 := by omega
      have e₂ : b.toNat = 0x80 + code % 64 := by omega
      have r₁ : ¬ code < 0x80 := by omega
      have r₂ : code < 0x800 := by omega
      simp only [encode, toNat, if_neg r₁, if_pos r₂, toUInt8_eq_of_toNat_eq e₁,
        toUInt8_eq_of_toNat_eq e₂]
      simp
    · obtain ⟨a, _, rfl, ha₁, ha₂, hcode⟩ := tailBits_succ_eq_some _ _ _ _ hcode
      obtain ⟨b, bs, rfl, hb₁, hb₂, hcode⟩ := tailBits_succ_eq_some _ _ _ _ hcode
      simp only [tailBits, Option.some.injEq] at hcode
      simp only at least
      have e₁ : lead.toNat = 0xE0 + code / 4096 := by omega
      have e₂ : a.toNat = 0x80 + code / 64 % 64 := by omega
      have e₃ : b.toNat = 0x80 + code % 64 := by omega
      have r₁ : ¬ code < 0x80 := by omega
      have r₂ : ¬ code < 0x800 := by omega
      have r₃ : code < 0x10000 := by omega
      simp only [encode, toNat, if_neg r₁, if_neg r₂, if_pos r₃, toUInt8_eq_of_toNat_eq e₁,
        toUInt8_eq_of_toNat_eq e₂, toUInt8_eq_of_toNat_eq e₃]
      simp
    · obtain ⟨x, _, rfl, hx₁, hx₂, hcode⟩ := tailBits_succ_eq_some _ _ _ _ hcode
      obtain ⟨a, _, rfl, ha₁, ha₂, hcode⟩ := tailBits_succ_eq_some _ _ _ _ hcode
      obtain ⟨b, bs, rfl, hb₁, hb₂, hcode⟩ := tailBits_succ_eq_some _ _ _ _ hcode
      simp only [tailBits, Option.some.injEq] at hcode
      simp only at least
      have e₁ : lead.toNat = 0xF0 + code / 262144 := by omega
      have e₂ : x.toNat = 0x80 + code / 4096 % 64 := by omega
      have e₃ : a.toNat = 0x80 + code / 64 % 64 := by omega
      have e₄ : b.toNat = 0x80 + code % 64 := by omega
      have r₁ : ¬ code < 0x80 := by omega
      have r₂ : ¬ code < 0x800 := by omega
      have r₃ : ¬ code < 0x10000 := by omega
      simp only [encode, toNat, if_neg r₁, if_neg r₂, if_neg r₃, toUInt8_eq_of_toNat_eq e₁,
        toUInt8_eq_of_toNat_eq e₂, toUInt8_eq_of_toNat_eq e₃, toUInt8_eq_of_toNat_eq e₄]
      simp
  · simp at h

theorem bytes_first (lead : UInt8) (rest : Text) :
    (first lead rest).1.bytes = lead :: rest.take (first lead rest).2 := by
  simp only [first]
  split
  · next c n h => exact (encode_of_decode? lead rest c n h).2
  · simp [bytes]

end Rune

namespace Text

theorem ofRunes_runesAfter (t : Text) (skip : Nat) : ofRunes (runesAfter skip t) = t.drop skip := by
  induction t generalizing skip with
  | nil => cases skip <;> simp [runesAfter, ofRunes]
  | cons b bs ih =>
    cases skip with
    | zero =>
      have tail := ih (Rune.first b bs).2
      simp only [ofRunes] at tail
      simp [runesAfter, ofRunes, Rune.bytes_first, tail]
    | succ skip => simp [runesAfter, ih]

@[simp]
theorem ofRunes_runes (t : Text) : ofRunes t.runes = t := by
  simp [runes, ofRunes_runesAfter]

end Text

end ExprCalc
