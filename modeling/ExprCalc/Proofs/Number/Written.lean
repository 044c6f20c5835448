import ExprCalc.Proofs.Number.Interval
import ExprCalc.Proofs.Scanner.Trivia
import ExprCalc.Proofs.Text.SingleLine

namespace ExprCalc.Number

open Text

def rowValue (t : Text) : Nat :=
  t.foldl (fun n b => 10 * n + (b.toNat - 48)) 0

def pointValue (t : Text) : ℚ :=
  let whole := t.takeWhile (· ≠ 46)
  let fraction := t.drop (whole.length + 1)
  rowValue (whole ++ fraction) / 10 ^ fraction.length

/-- The exponent after its mark: a sign and digits, or nothing. -/
def exponentValue : Text → Int
  | 43 :: t => rowValue t
  | 45 :: t => -rowValue t
  | _ => 0

def writtenValue (t : Text) : ℚ :=
  let mantissa := t.takeWhile (· ≠ 101)
  pointValue mantissa * 10 ^ exponentValue (t.drop (mantissa.length + 1))

theorem foldl_row (t : Text) (n : Nat) :
    t.foldl (fun n b => 10 * n + (b.toNat - 48)) n = n * 10 ^ t.length + rowValue t := by
  induction t generalizing n with
  | nil => simp [rowValue]
  | cons b t ih =>
    rw [rowValue, List.foldl_cons, List.foldl_cons, ih, ih (10 * 0 + _), List.length_cons, pow_succ]
    ring

theorem rowValue_append (s t : Text) :
    rowValue (s ++ t) = rowValue s * 10 ^ t.length + rowValue t := by
  rw [rowValue, List.foldl_append, foldl_row]
  rfl

theorem rowValue_zeros (count : Nat) : rowValue (List.replicate count 48) = 0 := by
  induction count with
  | zero => rfl
  | succ count ih => exact ih

theorem rowValue_zeros_append (count : Nat) (t : Text) :
    rowValue (List.replicate count 48 ++ t) = rowValue t := by
  rw [rowValue_append, rowValue_zeros, Nat.zero_mul, Nat.zero_add]

theorem rowValue_ofNat (n : Nat) : rowValue (ofNat n) = n := by
  have hdigits : ∀ cs : List Char, (∀ c ∈ cs, c.isDigit) → ∀ init,
      (cs.flatMap Rune.encode).foldl (fun n b => 10 * n + (b.toNat - 48)) init =
        Nat.ofDigitChars 10 cs init := by
    intro cs hcs
    induction cs with
    | nil => exact fun _ => rfl
    | cons c cs ih =>
      intro init
      obtain ⟨hc, hcs⟩ := List.forall_mem_cons.mp hcs
      have hrange := (isDigit_iff c).mp hc
      have hbyte : c.toNat.toUInt8.toNat = c.toNat := Rune.toNat_toUInt8_of_lt (by omega)
      rw [List.flatMap_cons, encode_of_isDigit hc, List.singleton_append, List.foldl_cons, ih hcs,
        hbyte]
      rfl
  rw [rowValue, ofNat, hdigits _ fun c hc => Nat.isDigit_of_mem_toDigits (by decide) (by decide) hc]
  exact Nat.ofDigitChars_ten_toDigits

theorem ofNat_ne_nil (n : Nat) : ofNat n ≠ [] := by
  obtain ⟨c, cs, hcs⟩ := List.exists_cons_of_ne_nil (Nat.toDigits_ne_nil (n := n) (b := 10))
  rw [ofNat, hcs, List.flatMap_cons]
  exact fun h => bytes_ne_nil (.char c) (List.append_eq_nil_iff.mp h).1

theorem takeWhile_mark {mark : UInt8} {t : Text} (ht : mark ∉ t) {rest : Text}
    (hrest : rest = [] ∨ rest.head? = some mark) : (t ++ rest).takeWhile (· ≠ mark) = t := by
  apply Scanner.takeWhile_append_stop
  · exact fun b hb => decide_eq_true fun heq => ht (heq ▸ hb)
  · intro b hb
    rcases hrest with rfl | hrest
    · cases hb
    · rw [hrest] at hb
      cases hb
      simp

theorem pointValue_row {t : Text} (ht : 46 ∉ t) : pointValue t = rowValue t := by
  have hwhole := takeWhile_mark ht (.inl rfl)
  have hfraction : t.drop (t.length + 1) = [] := List.drop_eq_nil_of_le (Nat.le_succ _)
  rw [List.append_nil] at hwhole
  simp only [pointValue, hwhole, hfraction]
  simp

theorem pointValue_point {ds : Text} (hds : 46 ∉ ds) (fs : Text) :
    pointValue (ds ++ 46 :: fs) = rowValue (ds ++ fs) / 10 ^ fs.length := by
  have hwhole : (ds ++ 46 :: fs).takeWhile (· ≠ 46) = ds := takeWhile_mark hds (.inr rfl)
  have hfraction : (ds ++ 46 :: fs).drop (ds.length + 1) = fs := by
    rw [List.drop_length_add_append]
    rfl
  simp only [pointValue, hwhole, hfraction]

theorem writtenValue_point {t : Text} (ht : 101 ∉ t) : writtenValue t = pointValue t := by
  have hmantissa := takeWhile_mark ht (.inl rfl)
  have hrest : t.drop (t.length + 1) = [] := List.drop_eq_nil_of_le (Nat.le_succ _)
  rw [List.append_nil] at hmantissa
  simp only [writtenValue, hmantissa, hrest, exponentValue]
  simp

theorem writtenValue_exponent {t : Text} (ht : 101 ∉ t) (x : Text) :
    writtenValue (t ++ 101 :: x) = pointValue t * 10 ^ exponentValue x := by
  have hmantissa : (t ++ 101 :: x).takeWhile (· ≠ 101) = t := takeWhile_mark ht (.inr rfl)
  have hrest : (t ++ 101 :: x).drop (t.length + 1) = x := by
    rw [List.drop_length_add_append]
    rfl
  simp only [writtenValue, hmantissa, hrest]

section Digits

variable {digits : Text} (hdigits : digits ⊆ digitBytes)
include hdigits

theorem point_not_mem : 46 ∉ digits :=
  fun hmem => absurd (hdigits hmem) (by decide)

theorem mark_not_mem : 101 ∉ digits :=
  fun hmem => absurd (hdigits hmem) (by decide)

theorem writtenValue_positional (x : Int) :
    writtenValue (positional digits x) = rowValue digits * 10 ^ (x + 1 - digits.length) := by
  have hzeros (n : Nat) :
      46 ∉ List.replicate n (48 : UInt8) ∧ 101 ∉ List.replicate n (48 : UInt8) :=
    ⟨point_not_mem (zeros_subset n), mark_not_mem (zeros_subset n)⟩
  have hpoint := point_not_mem hdigits
  have hmark := mark_not_mem hdigits
  have htake (n : Nat) : 101 ∉ digits.take n := fun hmem => hmark (List.mem_of_mem_take hmem)
  have hdrop (n : Nat) : 101 ∉ digits.drop n := fun hmem => hmark (List.mem_of_mem_drop hmem)
  unfold positional
  split
  · next hx =>
    -- the digits come after the point, with zeros between them
    obtain ⟨k, hk⟩ : ∃ k, k = (-x - 1).toNat := ⟨_, rfl⟩
    have hsplit : utf8 "0." ++ List.replicate k 48 ++ digits =
        [48] ++ 46 :: (List.replicate k 48 ++ digits) := rfl
    have hexponent : x + 1 - digits.length = -((k + digits.length : Nat) : Int) := by omega
    rw [← hk, hsplit, writtenValue_point, pointValue_point, hexponent, zpow_neg, zpow_natCast]
    · have hrow : rowValue ([48] ++ (List.replicate k 48 ++ digits)) = rowValue digits :=
        rowValue_zeros_append (k + 1) digits
      rw [hrow, List.length_append, List.length_replicate]
      rfl
    · decide
    · simp [hzeros, hmark]
  · next hx =>
    simp only
    split
    · next hlength =>
      -- zeros are appended up to where the point would stand
      have hexponent : x + 1 - digits.length = ((x.toNat + 1 - digits.length : Nat) : Int) := by
        omega
      rw [writtenValue_point, pointValue_row, hexponent, zpow_natCast, rowValue_append,
        rowValue_zeros]
      · simp
      · simp [hzeros, hpoint]
      · simp [hzeros, hmark]
    · next hlength =>
      have hexponent : x + 1 - digits.length = -((digits.length - (x.toNat + 1) : Nat) : Int) := by
        omega
      have hsplit : digits.take (x.toNat + 1) ++ utf8 "." ++ digits.drop (x.toNat + 1) =
          digits.take (x.toNat + 1) ++ 46 :: digits.drop (x.toNat + 1) := by
        rw [List.append_assoc]
        rfl
      rw [hsplit, writtenValue_point, pointValue_point, hexponent, zpow_neg, zpow_natCast,
        List.take_append_drop, List.length_drop]
      · rfl
      · exact fun hmem => hpoint (List.mem_of_mem_take hmem)
      · simp [htake, hdrop]

def mantissa (digits : Text) : Text :=
  digits.take 1 ++ if digits.length ≤ 1 then [] else utf8 "." ++ digits.drop 1

theorem pointValue_mantissa (hne : digits ≠ []) :
    pointValue (mantissa digits) = rowValue digits * 10 ^ (1 - (digits.length : Int)) := by
  have hlength := List.length_pos_iff.mpr hne
  have hpoint := point_not_mem hdigits
  unfold mantissa
  split
  · next hone =>
    have hexponent : 1 - (digits.length : Int) = 0 := by omega
    rw [List.append_nil, List.take_of_length_le hone, pointValue_row hpoint, hexponent, zpow_zero,
      mul_one]
  · have hexponent : 1 - (digits.length : Int) = -((digits.length - 1 : Nat) : Int) := by omega
    change pointValue (digits.take 1 ++ 46 :: digits.drop 1) = _
    rw [pointValue_point fun hmem => hpoint (List.mem_of_mem_take hmem), List.take_append_drop,
      List.length_drop, hexponent, zpow_neg, zpow_natCast]
    rfl

theorem mark_not_mem_mantissa : 101 ∉ mantissa digits := by
  have hmark := mark_not_mem hdigits
  have htake : 101 ∉ digits.take 1 := fun hmem => hmark (List.mem_of_mem_take hmem)
  have hdrop : 101 ∉ digits.drop 1 := fun hmem => hmark (List.mem_of_mem_drop hmem)
  rw [mantissa, List.mem_append, not_or]
  refine ⟨htake, ?_⟩
  split
  · exact List.not_mem_nil
  · exact List.not_mem_cons_of_ne_of_not_mem (by decide) hdrop

theorem writtenValue_scientific (hne : digits ≠ []) (x : Int) :
    writtenValue (scientific digits x) = rowValue digits * 10 ^ (x + 1 - digits.length) := by
  obtain ⟨size, hsize⟩ : ∃ size, size = List.replicate (2 - (Text.ofNat x.natAbs).length) 48 ++
      Text.ofNat x.natAbs := ⟨_, rfl⟩
  have hrow : rowValue size = x.natAbs := by
    rw [hsize, rowValue_zeros_append, rowValue_ofNat]
  have hsplit : scientific digits x =
      mantissa digits ++ 101 :: (if x < 0 then 45 else 43) :: size := by
    have hmark : utf8 (if x < 0 then "e-" else "e+") = [101, if x < 0 then 45 else 43] := by
      split <;> rfl
    simp only [scientific, mantissa, hsize, hmark, List.append_assoc]
    rfl
  have hexponent : exponentValue ((if x < 0 then 45 else 43) :: size) = x := by
    split
    · rw [exponentValue, hrow]
      omega
    · rw [exponentValue, hrow]
      omega
  rw [hsplit, writtenValue_exponent (mark_not_mem_mantissa hdigits), hexponent,
    pointValue_mantissa hdigits hne, mul_assoc, ← zpow_add₀ (by norm_num)]
  congr 2
  omega

end Digits

/-- The text of a decimal is read back as its value. -/
theorem writtenValue_text (d : Decimal) : writtenValue d.text = d.value := by
  have hdigits := ofNat_subset d.digits
  have hne : ofNat d.digits ≠ [] := ofNat_ne_nil d.digits
  have hexponent : d.exponent + ((ofNat d.digits).length : Int) - 1 + 1 - (ofNat d.digits).length =
      d.exponent := by
    omega
  simp only [Decimal.text]
  split
  · rw [writtenValue_positional hdigits, rowValue_ofNat, hexponent, Decimal.value]
  · rw [writtenValue_scientific hdigits hne, rowValue_ofNat, hexponent, Decimal.value]

/-- The text of a number after its sign, by its bits without the sign bit. -/
def unsigned (magnitude : Nat) : Text :=
  if 0x7FF * 2 ^ 52 < magnitude then utf8 "NaN"
  else if magnitude = 0x7FF * 2 ^ 52 then utf8 "Inf"
  else if magnitude = 0 then utf8 "0"
  else (Binary.ofBits magnitude).shortest.text

/-- The sign that is written before a number; positive infinity has one too. -/
def signText (bits : Nat) : Text :=
  if 0x7FF * 2 ^ 52 < bits % 2 ^ 63 then []
  else if bits < 2 ^ 63 then (if bits % 2 ^ 63 = 0x7FF * 2 ^ 52 then [43] else [])
  else [45]

theorem text_eq (x : Float) :
    text x = signText x.toBits.toNat ++ unsigned (x.toBits.toNat % 2 ^ 63) := by
  simp only [text, signText, unsigned, Nat.pow_eq]
  split
  · rfl
  · split
    · split <;> rfl
    · split
      · split <;> rfl
      · split <;> rfl

theorem exists_head_text (d : Decimal) : ∃ b t, d.text = b :: t ∧ b ∈ digitBytes := by
  obtain ⟨b, ds, hds⟩ := List.exists_cons_of_ne_nil (ofNat_ne_nil d.digits)
  have hb : b ∈ digitBytes := ofNat_subset d.digits (hds ▸ List.mem_cons_self)
  simp only [Decimal.text, hds]
  split
  · unfold positional
    split
    · exact ⟨48, _, rfl, by decide⟩
    · simp only
      split
      · exact ⟨b, _, rfl, hb⟩
      · exact ⟨b, _, rfl, hb⟩
  · exact ⟨b, _, rfl, hb⟩

/-- What a text without a sign starts with tells infinity, what is no number and the others
apart. -/
theorem exists_head_unsigned (m : Nat) :
    ∃ b t, unsigned m = b :: t ∧
      (0x7FF * 2 ^ 52 < m ∧ b = 78 ∨ m = 0x7FF * 2 ^ 52 ∧ b = 73 ∨
        m < 0x7FF * 2 ^ 52 ∧ b ∈ digitBytes) := by
  unfold unsigned
  split
  · next h => exact ⟨78, _, rfl, .inl ⟨h, rfl⟩⟩
  · split
    · next h => exact ⟨73, _, rfl, .inr (.inl ⟨h, rfl⟩)⟩
    · have hlt : m < 0x7FF * 2 ^ 52 := by omega
      split
      · exact ⟨48, _, rfl, .inr (.inr ⟨hlt, by decide⟩)⟩
      · obtain ⟨b, t, ht, hb⟩ := exists_head_text (Binary.ofBits m).shortest
        exact ⟨b, t, ht, .inr (.inr ⟨hlt, hb⟩)⟩

/-- The text of a finite number is read back as a number that rounds to it. -/
theorem rounds_unsigned {m : Nat} (hm : m < 0x7FF * 2 ^ 52) :
    (Binary.ofBits m).Rounds (writtenValue (unsigned m)) := by
  rw [unsigned, if_neg (by omega), if_neg (by omega)]
  split
  · next hzero =>
    -- zero has an interval too, though no decimal is searched for it
    have hvalue : (Binary.ofBits m).value = writtenValue (utf8 "0") := by
      rw [hzero, writtenValue_point (by decide), pointValue_row (by decide)]
      exact (congrArg (· * _) (mul_zero (4 : ℚ))).trans (zero_mul _)
    rw [← hvalue]
    exact Binary.rounds_value _
  · next hne =>
    rw [writtenValue_text]
    exact Binary.rounds_shortest (Binary.normal_ofBits (Nat.pos_of_ne_zero hne) (by omega))

theorem unsigned_ne_infinity {m : Nat} (hm : m < 0x7FF * 2 ^ 52) :
    unsigned m ≠ unsigned (0x7FF * 2 ^ 52) := by
  obtain ⟨b, t, ht, ⟨hlt, -⟩ | ⟨heq, -⟩ | ⟨-, hb⟩⟩ := exists_head_unsigned m
  · omega
  · omega
  · rw [ht]
    intro heq
    obtain rfl : b = 73 := (List.cons.inj heq).1
    exact absurd hb (by decide)

theorem unsigned_injective {m n : Nat} (hm : m ≤ 0x7FF * 2 ^ 52) (hn : n ≤ 0x7FF * 2 ^ 52)
    (h : unsigned m = unsigned n) : m = n := by
  obtain rfl | hm := hm.eq_or_lt
  · obtain rfl | hn := hn.eq_or_lt
    · rfl
    · exact absurd h.symm (unsigned_ne_infinity hn)
  · obtain rfl | hn := hn.eq_or_lt
    · exact absurd h (unsigned_ne_infinity hm)
    · have hrounds := rounds_unsigned hm
      rw [h] at hrounds
      exact Binary.rounds_unique (by omega) (by omega) hrounds (rounds_unsigned hn)

/-- Only one pattern of bits is no number. -/
theorem toBits_of_nan {x : Float} (h : 0x7FF * 2 ^ 52 < x.toBits.toNat % 2 ^ 63) :
    x.toBits.toBitVec = Float.Model.UnpackedFloat.packedNaN .binary64 := by
  apply x.toModel.valid.eq_packedNaN
  · apply BitVec.eq_of_toNat_eq
    have hfield : x.toBits.toNat / 2 ^ 52 % 2 ^ 11 = 2 ^ 11 - 1 := by omega
    delta Float.toBits at hfield
    simpa [Float.Model.UnpackedFloat.unpackExponent, Nat.shiftRight_eq_div_pow] using hfield
  · intro hmantissa
    have hzero : x.toBits.toNat % 2 ^ 52 = 0 := by
      delta Float.toBits
      simpa [Float.Model.UnpackedFloat.unpackMantissa] using congrArg BitVec.toNat hmantissa
    omega

theorem mem_signText {bits : Nat} {b : UInt8} (hb : b ∈ signText bits) : b ∈ [43, 45] := by
  unfold signText at hb
  split at hb
  · cases hb
  · split at hb
    · split at hb
      · exact List.mem_append_left [45] hb
      · cases hb
    · exact List.mem_cons_of_mem _ hb

theorem takeWhile_signText (bits m : Nat) :
    (signText bits ++ unsigned m).takeWhile (· ∈ [43, 45]) = signText bits := by
  apply Scanner.takeWhile_append_stop
  · exact fun b hb => decide_eq_true (mem_signText hb)
  · obtain ⟨b, t, ht, hb⟩ := exists_head_unsigned m
    rw [ht]
    rintro _ ⟨⟩
    intro hmem
    have hsign : b = 43 ∨ b = 45 := by simpa using hmem
    obtain ⟨-, rfl⟩ | ⟨-, rfl⟩ | ⟨-, hb⟩ := hb
    · exact absurd hsign (by decide)
    · exact absurd hsign (by decide)
    · rcases hsign with rfl | rfl <;> exact absurd hb (by decide)

theorem lt_of_unsigned_eq {m n : Nat} (h : unsigned m = unsigned n) (hm : 0x7FF * 2 ^ 52 < m) :
    0x7FF * 2 ^ 52 < n := by
  have hnan : unsigned m = utf8 "NaN" := if_pos hm
  obtain ⟨b, t, ht, hb⟩ := exists_head_unsigned n
  rw [← h, hnan] at ht
  obtain rfl : 78 = b := (List.cons.inj ht).1
  obtain ⟨hlt, -⟩ | ⟨-, hb⟩ | ⟨-, hb⟩ := hb
  · exact hlt
  · exact absurd hb (by decide)
  · exact absurd hb (by decide)

theorem signText_eq_minus_iff {bits : Nat} (h : bits % 2 ^ 63 ≤ 0x7FF * 2 ^ 52) :
    signText bits = [45] ↔ 2 ^ 63 ≤ bits := by
  rw [signText, if_neg (Nat.not_lt.mpr h)]
  split
  · next hlt =>
    refine iff_of_false ?_ (Nat.not_le.mpr hlt)
    split <;> decide
  · next hlt => exact iff_of_true rfl (Nat.not_lt.mp hlt)

theorem toBits_injective : Function.Injective Float.toBits := by
  rintro ⟨⟨_, _⟩⟩ ⟨⟨_, _⟩⟩ rfl
  rfl

theorem text_injective : Function.Injective text := by
  intro x y h
  apply toBits_injective
  rw [text_eq, text_eq] at h
  have hsign : signText x.toBits.toNat = signText y.toBits.toNat := by
    rw [← takeWhile_signText _ (x.toBits.toNat % 2 ^ 63), h, takeWhile_signText]
  rw [hsign, List.append_cancel_left_eq] at h
  by_cases hnan : 0x7FF * 2 ^ 52 < x.toBits.toNat % 2 ^ 63
  · have hnan' := lt_of_unsigned_eq h hnan
    exact UInt64.eq_of_toBitVec_eq ((toBits_of_nan hnan).trans (toBits_of_nan hnan').symm)
  · have hnan' : ¬ 0x7FF * 2 ^ 52 < y.toBits.toNat % 2 ^ 63 :=
      fun hlt => hnan (lt_of_unsigned_eq h.symm hlt)
    rw [Nat.not_lt] at hnan hnan'
    have hmagnitude := unsigned_injective hnan hnan' h
    have hminus : 2 ^ 63 ≤ x.toBits.toNat ↔ 2 ^ 63 ≤ y.toBits.toNat := by
      rw [← signText_eq_minus_iff hnan, ← signText_eq_minus_iff hnan', hsign]
    have hx := x.toBits.toNat_lt
    have hy := y.toBits.toNat_lt
    apply UInt64.toNat_inj.mp
    omega

end ExprCalc.Number
