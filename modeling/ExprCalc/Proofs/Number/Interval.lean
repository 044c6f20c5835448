import Mathlib.Algebra.Order.Field.Power
import Mathlib.Data.Nat.Cast.Order.Field
import Mathlib.Data.Rat.Cast.Order
import Mathlib.Tactic.FieldSimp
import Mathlib.Tactic.LinearCombination
import Mathlib.Tactic.Linarith
import Mathlib.Tactic.NormNum
import Mathlib.Tactic.Positivity
import Mathlib.Tactic.Ring
import ExprCalc.Number.Shortest

/-!
The decimal that is chosen for a binary number rounds to it, and to no other. The intervals of the
numbers that round to one binary number meet at their ends, and of two that meet only the one with
the even mantissa has the end. Seventeen digits always lead to a decimal inside the interval, since
their grid is finer than the distance of binary numbers.
-/

namespace ExprCalc.Number

theorem pow_toNat_div (a : Nat) (ha : a ≠ 0) (k : Int) :
    ((Nat.pow a k.toNat : Nat) : ℚ) / (Nat.pow a (-k).toNat : Nat) = (a : ℚ) ^ k := by
  have ha' : (a : ℚ) ≠ 0 := Nat.cast_ne_zero.mpr ha
  cases k with
  | ofNat n => simp
  | negSucc n =>
    have hneg : (-Int.negSucc n).toNat = n + 1 := rfl
    rw [hneg, Int.toNat_negSucc, zpow_negSucc]
    simp

theorem lt_pow_digitCount (n : Nat) : n < 10 ^ digitCount n :=
  (Nat.length_toDigits_le_iff (by decide) Nat.length_toDigits_pos).mp (Nat.le_refl _)

theorem pow_digitCount_le {n : Nat} (hn : 0 < n) : 10 ^ (digitCount n - 1) ≤ n := by
  by_cases hone : digitCount n - 1 = 0
  · rw [hone]
    exact hn
  · apply Nat.le_of_not_lt
    intro hlt
    have hle := (Nat.length_toDigits_le_iff (by decide) (Nat.pos_of_ne_zero hone)).mpr hlt
    change digitCount n ≤ digitCount n - 1 at hle
    omega

theorem pow_decimalExponent_le {num den : Nat} (hnum : 0 < num) (hden : 0 < den) :
    (10 : ℚ) ^ decimalExponent num den ≤ num / den := by
  have hden' : (0 : ℚ) < den := Nat.cast_pos.mpr hden
  unfold decimalExponent
  split
  · next hle =>
    have hpos : 0 < digitCount (num / den) := Nat.length_toDigits_pos
    have hexponent : (digitCount (num / den) : Int) - 1 = (digitCount (num / den) - 1 : Nat) := by
      omega
    have hfloor : 10 ^ (digitCount (num / den) - 1) ≤ num / den :=
      pow_digitCount_le (Nat.div_pos hle hden)
    rw [hexponent, zpow_natCast]
    calc (10 : ℚ) ^ (digitCount (num / den) - 1) ≤ (num / den : Nat) := by exact_mod_cast hfloor
      _ ≤ num / den := Nat.cast_div_le
  · obtain ⟨ceil, hceil⟩ : ∃ ceil, ceil = (den + num - 1) / num := ⟨_, rfl⟩
    have hle : den ≤ ceil * num := by
      have hlt := Nat.lt_div_mul_add (a := den + num - 1) hnum
      rw [← hceil] at hlt
      omega
    have hpow : ceil ≤ 10 ^ digitCount (ceil - 1) := by
      have hlt := lt_pow_digitCount (ceil - 1)
      omega
    rw [← hceil, zpow_neg, zpow_natCast, le_div_iff₀ hden', inv_mul_le_iff₀ (by positivity)]
    exact_mod_cast hle.trans (Nat.mul_le_mul_right num hpow)

namespace Binary

/-- A quarter of the distance to the next larger number. -/
def quarter (b : Binary) : ℚ :=
  2 ^ (b.exponent - 2)

def value (b : Binary) : ℚ :=
  4 * b.mantissa * b.quarter

def low (b : Binary) : ℚ :=
  (4 * b.mantissa - if b.isLowestOfBinade then 1 else 2) * b.quarter

def high (b : Binary) : ℚ :=
  (4 * b.mantissa + 2) * b.quarter

/-- The number `q` rounds to `b`: it lies inside the interval, or it is an end of it and the
mantissa is even. -/
structure Rounds (b : Binary) (q : ℚ) : Prop where
  low : b.low < q ∨ b.mantissa % 2 = 0 ∧ b.low = q
  high : q < b.high ∨ b.mantissa % 2 = 0 ∧ q = b.high

theorem quarter_pos (b : Binary) : 0 < b.quarter :=
  zpow_pos (by norm_num) _

theorem low_lt_value (b : Binary) : b.low < b.value := by
  have hquarter := b.quarter_pos
  unfold low value
  split <;> nlinarith

theorem value_lt_high (b : Binary) : b.value < b.high := by
  have hquarter := b.quarter_pos
  unfold high value
  nlinarith

theorem rounds_value (b : Binary) : b.Rounds b.value :=
  ⟨.inl b.low_lt_value, .inl b.value_lt_high⟩

end Binary

def nearestIn (low value high units : Nat) (closed : Bool) : Option Nat :=
  let below := value / units
  let above := below + 1
  let belowIn := low < below * units || (closed && low == below * units)
  let aboveIn := above * units < high || (closed && above * units == high)
  match belowIn, aboveIn with
  | false, false => none
  | true, false => some below
  | false, true => some above
  | true, true =>
    let twice := 2 * (value - below * units)
    if twice < units then some below
    else if units < twice then some above
    else some (if below % 2 == 0 then below else above)

section Nearest

variable {low value high units : Nat} {closed : Bool} (hlow : low < value) (hhigh : value < high)
  (hunits : 0 < units)
include hlow hhigh hunits

theorem nearestIn_eq_some {n : Nat} (h : nearestIn low value high units closed = some n) :
    (low < n * units ∨ closed ∧ low = n * units) ∧
      (n * units < high ∨ closed ∧ n * units = high) := by
  have hbelow : value / units * units ≤ value := Nat.div_mul_le_self _ _
  have habove : value < (value / units + 1) * units := by
    rw [Nat.add_mul, Nat.one_mul]
    exact Nat.lt_div_mul_add hunits
  -- the point below the value is below the high end, and the one above it above the low end
  have hpoints : (n = value / units ∧ (low < n * units ∨ closed ∧ low = n * units)) ∨
      (n = value / units + 1 ∧ (n * units < high ∨ closed ∧ n * units = high)) := by
    simp only [nearestIn] at h
    split at h
    · cases h
    · next hin _ =>
      cases h
      exact .inl ⟨rfl, by simpa using hin⟩
    · next _ hin =>
      cases h
      exact .inr ⟨rfl, by simpa using hin⟩
    · next hin hin' =>
      have hchoice : n = value / units ∨ n = value / units + 1 := by
        split at h
        · exact .inl (Option.some.inj h).symm
        · split at h
          · exact .inr (Option.some.inj h).symm
          · split at h
            · exact .inl (Option.some.inj h).symm
            · exact .inr (Option.some.inj h).symm
      obtain rfl | rfl := hchoice
      · exact .inl ⟨rfl, by simpa using hin⟩
      · exact .inr ⟨rfl, by simpa using hin'⟩
  obtain ⟨rfl, hin⟩ | ⟨rfl, hin⟩ := hpoints
  · exact ⟨hin, .inl (by omega)⟩
  · exact ⟨.inl (by omega), hin⟩

omit hlow hhigh hunits in
/-- A grid without a point in the interval is not finer than it. -/
theorem nearestIn_eq_none (h : nearestIn low value high units closed = none) :
    high ≤ low + units := by
  simp only [nearestIn] at h
  split at h
  · next hbelow habove =>
    simp only [Bool.or_eq_false_iff, decide_eq_false_iff_not] at hbelow habove
    have hsucc : (value / units + 1) * units = value / units * units + units := by
      rw [Nat.add_mul, Nat.one_mul]
    omega
  · cases h
  · cases h
  · split at h
    · cases h
    · split at h <;> cases h

end Nearest

namespace Binary

variable {b : Binary} {unit : Int}

/-- The size of a unit of the numerators that a grid is searched with. -/
def gridScale (b : Binary) (unit : Int) : ℚ :=
  10 ^ (-unit) * (Nat.pow 2 (2 - b.exponent).toNat * Nat.pow 10 unit.toNat : Nat)

theorem gridScale_pos : 0 < b.gridScale unit := by
  have hten : (0 : ℚ) < 10 ^ (-unit) := zpow_pos (by norm_num) _
  have hunits : 0 < Nat.pow 2 (2 - b.exponent).toNat * Nat.pow 10 unit.toNat :=
    Nat.mul_pos (Nat.pow_pos (by decide)) (Nat.pow_pos (by decide))
  exact mul_pos hten (Nat.cast_pos.mpr hunits)

theorem cast_quarters (b : Binary) (unit : Int) (x : Nat) :
    ((x * Nat.pow 2 (b.exponent - 2).toNat * Nat.pow 10 (-unit).toNat : Nat) : ℚ) =
      x * b.quarter * b.gridScale unit := by
  have htwo := pow_toNat_div 2 (by decide) (b.exponent - 2)
  have hten := pow_toNat_div 10 (by decide) (-unit)
  rw [neg_sub, div_eq_iff (Nat.cast_ne_zero.mpr (Nat.pow_pos (by decide)).ne')] at htwo
  rw [neg_neg, div_eq_iff (Nat.cast_ne_zero.mpr (Nat.pow_pos (by decide)).ne')] at hten
  rw [Nat.cast_mul, Nat.cast_mul, htwo, hten, quarter, gridScale, Nat.cast_mul]
  push_cast
  ring

/-- A point of the grid, as a numerator. -/
theorem cast_point (b : Binary) (unit : Int) (n : Nat) :
    ((n * (Nat.pow 2 (2 - b.exponent).toNat * Nat.pow 10 unit.toNat) : Nat) : ℚ) =
      n * 10 ^ unit * b.gridScale unit := by
  have hten : (10 : ℚ) ^ unit * 10 ^ (-unit) = 1 := by
    rw [← zpow_add₀ (by norm_num), add_neg_cancel, zpow_zero]
  rw [Nat.cast_mul, gridScale, mul_assoc (n : ℚ), ← mul_assoc ((10 : ℚ) ^ unit), hten, one_mul]

theorem cast_low (hm : 0 < b.mantissa) :
    ((4 * b.mantissa - if b.isLowestOfBinade then 1 else 2 : Nat) : ℚ) * b.quarter = b.low := by
  have hle : (if b.isLowestOfBinade then 1 else 2) ≤ 4 * b.mantissa := by
    split <;> omega
  rw [Nat.cast_sub hle, low]
  push_cast
  rfl

/-- A grid is searched with the ends and the value as numerators of one scale. -/
theorem exists_numerators (hm : 0 < b.mantissa) (unit : Int) :
    ∃ low value high units : Nat,
      b.onGrid? unit = nearestIn low value high units (b.mantissa % 2 == 0) ∧ 0 < units ∧
      (low : ℚ) = b.low * b.gridScale unit ∧ (value : ℚ) = b.value * b.gridScale unit ∧
      (high : ℚ) = b.high * b.gridScale unit ∧
      ∀ n : Nat, ((n * units : Nat) : ℚ) = n * 10 ^ unit * b.gridScale unit := by
  refine ⟨_, _, _, _, rfl, ?_, ?_, ?_, ?_, b.cast_point unit⟩
  · exact Nat.mul_pos (Nat.pow_pos (by decide)) (Nat.pow_pos (by decide))
  · exact (b.cast_quarters unit _).trans (by rw [cast_low hm])
  · refine (b.cast_quarters unit _).trans ?_
    rw [value]
    push_cast
    rfl
  · refine (b.cast_quarters unit _).trans ?_
    rw [high]
    push_cast
    rfl

theorem rounds_of_onGrid? (hm : 0 < b.mantissa) {n : Nat} (h : b.onGrid? unit = some n) :
    b.Rounds (n * 10 ^ unit) := by
  obtain ⟨low, value, high, units, hsearch, hunits, hlow, hvalue, hhigh, hpoint⟩ :=
    exists_numerators hm unit
  have hscale : 0 < b.gridScale unit := gridScale_pos
  have hlt {x y : Nat} {p q : ℚ} (hx : (x : ℚ) = p * b.gridScale unit)
      (hy : (y : ℚ) = q * b.gridScale unit) : x < y ↔ p < q := by
    rw [← Nat.cast_lt (α := ℚ), hx, hy, mul_lt_mul_iff_of_pos_right hscale]
  have heq {x y : Nat} {p q : ℚ} (hx : (x : ℚ) = p * b.gridScale unit)
      (hy : (y : ℚ) = q * b.gridScale unit) : x = y ↔ p = q := by
    rw [← Nat.cast_inj (R := ℚ), hx, hy, mul_left_inj' hscale.ne']
  rw [hsearch] at h
  obtain ⟨hleft, hright⟩ := nearestIn_eq_some ((hlt hlow hvalue).mpr b.low_lt_value)
    ((hlt hvalue hhigh).mpr b.value_lt_high) hunits h
  rw [hlt hlow (hpoint n), heq hlow (hpoint n), beq_iff_eq] at hleft
  rw [hlt (hpoint n) hhigh, heq (hpoint n) hhigh, beq_iff_eq] at hright
  exact ⟨hleft, hright⟩

/-- A grid that is finer than the interval has a point in it. -/
theorem onGrid?_ne_none (hm : 0 < b.mantissa) (h : (10 : ℚ) ^ unit < b.high - b.low) :
    b.onGrid? unit ≠ none := by
  obtain ⟨low, value, high, units, hsearch, -, hlow, -, hhigh, hpoint⟩ := exists_numerators hm unit
  have hscale : 0 < b.gridScale unit := gridScale_pos
  rw [hsearch]
  intro hnone
  have hle := nearestIn_eq_none hnone
  have hunits : (units : ℚ) = 10 ^ unit * b.gridScale unit := by
    have hone := hpoint 1
    rwa [Nat.one_mul, Nat.cast_one, one_mul] at hone
  rw [← Nat.cast_le (α := ℚ), Nat.cast_add, hlow, hhigh, hunits] at hle
  nlinarith

end Binary

def Decimal.value (d : Decimal) : ℚ :=
  d.digits * 10 ^ d.exponent

theorem Decimal.value_trim (fuel : Nat) (d : Decimal) : (d.trim fuel).value = d.value := by
  induction fuel generalizing d with
  | zero => rfl
  | succ fuel ih =>
    rw [trim]
    split
    · next h =>
      have hdigits : d.digits = d.digits / 10 * 10 := by omega
      rw [ih, value, value, zpow_add_one₀ (by norm_num)]
      nth_rewrite 2 [hdigits]
      push_cast
      ring
    · rfl

namespace Binary

variable {b : Binary}

theorem rounds_searchGrids (hm : 0 < b.mantissa) {top : Int} {count more : Nat}
    (h : b.onGrid? (top - (count + more : Nat) + 1) ≠ none) :
    b.Rounds (b.searchGrids top count more).value := by
  induction more generalizing count with
  | zero =>
    obtain ⟨n, hn⟩ := Option.ne_none_iff_exists'.mp h
    rw [Nat.add_zero] at hn
    rw [searchGrids, hn]
    exact rounds_of_onGrid? hm hn
  | succ more ih =>
    rw [searchGrids]
    split
    · next n hn => exact rounds_of_onGrid? hm hn
    · apply ih
      rwa [Nat.add_right_comm, Nat.add_assoc]

/-- What is known of the numbers that have bits. -/
structure Normal (b : Binary) : Prop where
  pos : 0 < b.mantissa
  lt : b.mantissa < 2 ^ 53
  lowest : b.isLowestOfBinade → b.mantissa = 2 ^ 52

/-- The interval is wider than a unit of the seventeenth digit. -/
theorem width_lt (hb : b.Normal) : b.value / 10 ^ 16 < b.high - b.low := by
  have hquarter := b.quarter_pos
  have hlt : (b.mantissa : ℚ) < 2 ^ 53 := by exact_mod_cast hb.lt
  unfold value high low
  split
  · next hlowest =>
    have hm : (b.mantissa : ℚ) = 2 ^ 52 := by exact_mod_cast hb.lowest hlowest
    rw [hm, div_lt_iff₀ (by norm_num)]
    nlinarith
  · rw [div_lt_iff₀ (by norm_num)]
    nlinarith

/-- The decimal that is chosen rounds to the number. -/
theorem rounds_shortest (hb : b.Normal) : b.Rounds b.shortest.value := by
  obtain ⟨num, den, hnum, hden, hshortest, hvalue⟩ : ∃ num den : Nat, 0 < num ∧ 0 < den ∧
      b.shortest = (b.searchGrids (decimalExponent num den) 1 16).trim 17 ∧
      (num : ℚ) / den = b.value := by
    refine ⟨_, _, ?_, ?_, rfl, ?_⟩
    · exact Nat.mul_pos (Nat.mul_pos (by decide) hb.pos) (Nat.pow_pos (by decide))
    · exact Nat.pow_pos (by decide)
    · have hquarter := pow_toNat_div 2 (by decide) (b.exponent - 2)
      rw [neg_sub] at hquarter
      rw [Nat.cast_mul, mul_div_assoc, hquarter, value, quarter]
      push_cast
      rfl
  rw [hshortest, Decimal.value_trim]
  -- the last grid of the search is finer than the interval, so the search ends on a point inside
  apply rounds_searchGrids hb.pos
  apply onGrid?_ne_none hb.pos
  have hexponent : decimalExponent num den - (1 + 16 : Nat) + 1 = decimalExponent num den - 16 := by
    omega
  have hle := pow_decimalExponent_le hnum hden
  rw [hvalue] at hle
  calc (10 : ℚ) ^ (decimalExponent num den - (1 + 16 : Nat) + 1)
      = 10 ^ decimalExponent num den / 10 ^ 16 := by
        rw [hexponent, zpow_sub₀ (by norm_num)]
        norm_num
    _ ≤ b.value / 10 ^ 16 := by gcongr
    _ < b.high - b.low := width_lt hb

theorem normal_ofBits {bits : Nat} (h : 0 < bits) (h' : bits < 2 ^ 63) : (ofBits bits).Normal := by
  simp only [ofBits, Nat.pow_eq]
  split
  · next hfield =>
    refine ⟨?_, ?_, ?_⟩
    · simp only
      omega
    · simp only
      omega
    · intro hlowest
      cases hlowest
  · refine ⟨?_, ?_, ?_⟩
    · simp only
      omega
    · simp only
      omega
    · intro hlowest
      simp only [Bool.and_eq_true, beq_iff_eq] at hlowest ⊢
      omega

theorem mantissa_ofBits (bits : Nat) : (ofBits bits).mantissa % 2 = bits % 2 := by
  simp only [ofBits, Nat.pow_eq]
  split
  · simp only
    omega
  · simp only
    omega

theorem ofBits_fields {field fraction : Nat} (hfield : field < 2 ^ 11)
    (hfraction : fraction < 2 ^ 52) :
    ofBits (field * 2 ^ 52 + fraction) =
      if field = 0 then ⟨fraction, -1074, false⟩
      else ⟨fraction + 2 ^ 52, (field : Int) - 1075, fraction == 0 && 1 < field⟩ := by
  have hfield' : (field * 2 ^ 52 + fraction) / 2 ^ 52 % 2 ^ 11 = field := by omega
  have hfraction' : (field * 2 ^ 52 + fraction) % 2 ^ 52 = fraction := by omega
  simp only [ofBits, Nat.pow_eq, hfield', hfraction']

theorem high_eq_low {b b' : Binary} (hmantissa : b'.mantissa = b.mantissa + 1)
    (hexponent : b'.exponent = b.exponent) (hlowest : b'.isLowestOfBinade = false) :
    b.high = b'.low := by
  rw [high, low, quarter, quarter, hmantissa, hexponent, hlowest]
  push_cast
  ring

/-- The last number of a binade meets the first of the next, where the distances double. -/
theorem high_eq_low_of_lowest {b b' : Binary} (hmantissa : 2 * b'.mantissa = b.mantissa + 1)
    (hexponent : b'.exponent = b.exponent + 1) (hlowest : b'.isLowestOfBinade = true) :
    b.high = b'.low := by
  have hquarter : b'.quarter = b.quarter * 2 := by
    rw [quarter, hexponent, add_sub_right_comm, zpow_add_one₀ (by norm_num), quarter]
  have hcast : 2 * (b'.mantissa : ℚ) = b.mantissa + 1 := by exact_mod_cast hmantissa
  rw [high, low, hquarter, if_pos hlowest]
  linear_combination (-4 * b.quarter) * hcast

/-- The interval of a number ends where that of the next one starts. -/
theorem high_eq_low_succ {bits : Nat} (h : bits + 1 < 2 ^ 63) :
    (ofBits bits).high = (ofBits (bits + 1)).low := by
  obtain ⟨field, fraction, hfield, hfraction, rfl⟩ : ∃ field fraction : Nat, field < 2 ^ 11 ∧
      fraction < 2 ^ 52 ∧ bits = field * 2 ^ 52 + fraction :=
    ⟨bits / 2 ^ 52, bits % 2 ^ 52, by omega, by omega, by omega⟩
  rw [ofBits_fields hfield hfraction]
  by_cases hlast : fraction + 1 < 2 ^ 52
  · rw [Nat.add_assoc, ofBits_fields hfield hlast]
    split
    · exact high_eq_low rfl rfl rfl
    · exact high_eq_low (Nat.add_right_comm fraction 1 _) rfl rfl
  · -- the next number is the lowest of the next binade, twice as far from its own successor
    have hnext : field * 2 ^ 52 + fraction + 1 = (field + 1) * 2 ^ 52 + 0 := by omega
    rw [hnext, ofBits_fields (by omega) (by decide), if_neg (Nat.succ_ne_zero field)]
    split
    · next hzero =>
      subst hzero
      refine high_eq_low ?_ rfl rfl
      simp only
      omega
    · next hfield =>
      refine high_eq_low_of_lowest ?_ ?_ ?_
      · simp only
        omega
      · simp only
        omega
      · simp only [beq_self_eq_true, Bool.true_and, decide_eq_true_iff]
        omega

theorem low_lt_low {m n : Nat} (h : m < n) (hn : n < 2 ^ 63) : (ofBits m).low < (ofBits n).low := by
  induction n, h using Nat.le_induction with
  | base =>
    rw [← high_eq_low_succ hn]
    exact (low_lt_value _).trans (value_lt_high _)
  | succ n _ ih =>
    rw [← high_eq_low_succ hn]
    exact (ih (by omega)).trans ((low_lt_value _).trans (value_lt_high _))

/-- No number rounds to two binary numbers. Where their intervals meet, one of the mantissas is
odd. -/
theorem not_rounds_of_lt {m n : Nat} (h : m < n) (hn : n < 2 ^ 63) {q : ℚ}
    (hm : (ofBits m).Rounds q) : ¬ (ofBits n).Rounds q := by
  intro hq
  have hend : (ofBits m).high = (ofBits (m + 1)).low := high_eq_low_succ (by omega)
  have hle : q ≤ (ofBits m).high := hm.high.elim le_of_lt fun h => h.2.le
  have hge : (ofBits n).low ≤ q := hq.low.elim le_of_lt fun h => h.2.le
  obtain hlt | rfl : m + 1 < n ∨ n = m + 1 := by omega
  · have hlow := low_lt_low hlt hn
    linarith
  · obtain ⟨heven, -⟩ := hm.high.resolve_left (by linarith)
    obtain ⟨heven', -⟩ := hq.low.resolve_left (by linarith)
    have hparity := mantissa_ofBits m
    have hparity' := mantissa_ofBits (m + 1)
    omega

theorem rounds_unique {m n : Nat} (hm : m < 2 ^ 63) (hn : n < 2 ^ 63) {q : ℚ}
    (h : (ofBits m).Rounds q) (h' : (ofBits n).Rounds q) : m = n := by
  rcases Nat.lt_trichotomy m n with hlt | heq | hlt
  · exact absurd h' (not_rounds_of_lt hlt hn h)
  · exact heq
  · exact absurd h (not_rounds_of_lt hlt hm h')

end Binary

end ExprCalc.Number
