import Mathlib

namespace ExprCalc.Number

open Float.Model Float.Model.UnpackedFloat

abbrev Extended := WithBot (WithTop ℚ)

def Extended.ofRat (q : ℚ) : Extended :=
  ((q : WithTop ℚ) : WithBot (WithTop ℚ))

theorem cmp_ofRat (p q : ℚ) : cmp (Extended.ofRat p) (Extended.ofRat q) = cmp p q :=
  (WithBot.coe_strictMono.comp WithTop.coe_strictMono).cmp_map_eq p q

def partsValue? : UnpackedFloat → Option Extended
  | .notANumber => none
  | .infinity .positive => some ⊤
  | .infinity .negative => some ⊥
  | .zero _ => some (.ofRat 0)
  | .finite .positive mantissa exponent _ => some (.ofRat (mantissa * 2 ^ exponent))
  | .finite .negative mantissa exponent _ => some (.ofRat (-(mantissa * 2 ^ exponent)))

/-- The value of a number, if it is one. Both zeros have the same. -/
def value? (x : Float) : Option Extended :=
  partsValue? x.toModel.unpack

theorem isNaN_iff (x : Float) : x.isNaN ↔ value? x = none := by
  change x.toModel.unpack.isNaN ↔ partsValue? x.toModel.unpack = none
  cases x.toModel.unpack with
  | notANumber => exact iff_of_true rfl rfl
  | zero => exact iff_of_false Bool.false_ne_true (Option.some_ne_none _)
  | infinity s | finite s =>
    cases s <;> exact iff_of_false Bool.false_ne_true (Option.some_ne_none _)

theorem exists_value {x : Float} (h : ¬ x.isNaN) : ∃ p, value? x = some p := by
  rw [isNaN_iff] at h
  exact Option.ne_none_iff_exists'.mp h

theorem not_exists_values {x y : Float} (h : x.isNaN ∨ y.isNaN) (P : Extended → Extended → Prop) :
    ¬ ∃ p ∈ value? x, ∃ q ∈ value? y, P p q := by
  rw [isNaN_iff, isNaN_iff] at h
  rcases h with hx | hy
  · simp [hx]
  · simp [hy]

/-- The mantissa is below `2 ^ 53`, and not below `2 ^ 52` unless the exponent is the least. -/
structure Fits (mantissa : Nat) (exponent : Int) : Prop where
  lt : mantissa < 2 ^ 53
  least : -1074 ≤ exponent
  full : -1074 < exponent → 2 ^ 52 ≤ mantissa

def FitParts : UnpackedFloat → Prop
  | .finite _ mantissa exponent _ => Fits mantissa exponent
  | _ => True

theorem fitParts_unpack (x : Float) : FitParts x.toModel.unpack := by
  have hfraction := (@unpackMantissa .binary64 x.toModel.toBits.toBitVec).isLt
  simp only [Float.Model.unpack, UnpackedFloat.unpack]
  split
  · split <;> trivial
  · split
    · next hzero =>
      -- a subnormal number: the exponent is the lowest, and the mantissa has no leading bit
      split
      · trivial
      · rw [hzero]
        exact ⟨hfraction.trans (by decide), Int.le_refl _, fun h => absurd h (Int.lt_irrefl _)⟩
    · next hfield =>
      have hfield' : (@unpackExponent .binary64 x.toModel.toBits.toBitVec).toNat ≠ 0 :=
        fun h => hfield (BitVec.eq_of_toNat_eq h)
      have hmantissa : (1#1 ++ @unpackMantissa .binary64 x.toModel.toBits.toBitVec).toNat =
          2 ^ 52 + (@unpackMantissa .binary64 x.toModel.toBits.toBitVec).toNat := by
        rw [BitVec.toNat_append, ← Nat.shiftLeft_add_eq_or_of_lt (BitVec.isLt _)]
        simp [Nat.shiftLeft_eq]
      have hbias : (Format.exponentBias .binary64 : Int) = 1023 := rfl
      refine ⟨?_, ?_, fun _ => ?_⟩
      · rw [hmantissa]
        dsimp only at hfraction ⊢
        omega
      · rw [hbias]
        omega
      · rw [hmantissa]
        exact Nat.le_add_right _ _

theorem scaled_pos {m : Nat} (hm : 0 < m) (e : Int) : (0 : ℚ) < m * 2 ^ e := by
  positivity

section Scaled

variable {m n : Nat} {d e : Int} (hm : Fits m d) (hn : Fits n e)
include hm hn

/-- A larger exponent outweighs every mantissa. -/
theorem scaled_lt_scaled (h : d < e) : (m : ℚ) * 2 ^ d < n * 2 ^ e := by
  have hlt : (m : ℚ) < 2 ^ 53 := by exact_mod_cast hm.lt
  have hle : (2 : ℚ) ^ 52 ≤ n := by exact_mod_cast hn.full (hm.least.trans_lt h)
  calc (m : ℚ) * 2 ^ d < 2 ^ 53 * 2 ^ d := by gcongr
    _ = 2 ^ 52 * 2 ^ (d + 1) := by rw [zpow_add_one₀ (by norm_num)]; ring
    _ ≤ n * 2 ^ e := by
      gcongr
      · norm_num
      · omega

theorem compare_scaled :
    (compare d e).then (compare m n) = cmp ((m : ℚ) * 2 ^ d) (n * 2 ^ e) := by
  rcases lt_trichotomy d e with h | rfl | h
  · rw [compare_lt_iff_lt.mpr h, (cmp_eq_lt_iff _ _).mpr (scaled_lt_scaled hm hn h)]
    rfl
  · have hpos : (0 : ℚ) < 2 ^ d := by positivity
    rw [compare_eq_iff_eq.mpr rfl, cmp_mul_pos_right hpos, Nat.strictMono_cast.cmp_map_eq,
      cmp_eq_compare]
    rfl
  · rw [compare_gt_iff_gt.mpr h, (cmp_eq_gt_iff _ _).mpr (scaled_lt_scaled hn hm h)]
    rfl

end Scaled

theorem cmp_neg_neg (p q : ℚ) : cmp (-p) (-q) = (cmp p q).swap := by
  rw [cmp_swap]
  exact StrictAnti.cmp_map_eq (fun _ _ => neg_lt_neg) p q

theorem compare_parts {u v : UnpackedFloat} (hu : FitParts u) (hv : FitParts v) :
    u.compare v = (partsValue? u).bind fun p => (partsValue? v).map (cmp p) := by
  cases u with
  | notANumber => rfl
  | infinity s =>
    cases v with
    | notANumber | zero => cases s <;> rfl
    | infinity t | finite t => cases s <;> cases t <;> rfl
  | zero s =>
    cases v with
    | notANumber => rfl
    | infinity t => cases t <;> rfl
    | zero t => simp [partsValue?, UnpackedFloat.compare]
    | finite t n e hn =>
      have hpos := scaled_pos hn e
      cases t with
      | negative =>
        simp [partsValue?, UnpackedFloat.compare, cmp_ofRat,
          (cmp_eq_gt_iff _ _).mpr (neg_lt_zero.mpr hpos)]
      | positive =>
        simp [partsValue?, UnpackedFloat.compare, cmp_ofRat, (cmp_eq_lt_iff _ _).mpr hpos]
  | finite s m d hm =>
    have hpos := scaled_pos hm d
    cases v with
    | notANumber => cases s <;> rfl
    | infinity t => cases s <;> cases t <;> rfl
    | zero t =>
      cases s with
      | negative =>
        simp [partsValue?, UnpackedFloat.compare, cmp_ofRat,
          (cmp_eq_lt_iff _ _).mpr (neg_lt_zero.mpr hpos)]
      | positive =>
        simp [partsValue?, UnpackedFloat.compare, cmp_ofRat, (cmp_eq_gt_iff _ _).mpr hpos]
    | finite t n e hn =>
      -- the sign decides, unless it is the same; then the magnitudes do, or their negatives
      have hpos' := scaled_pos hn e
      have hlt : -((m : ℚ) * 2 ^ d) < n * 2 ^ e := (neg_lt_zero.mpr hpos).trans hpos'
      have hgt : -((n : ℚ) * 2 ^ e) < m * 2 ^ d := (neg_lt_zero.mpr hpos').trans hpos
      cases s <;> cases t <;>
        simp [partsValue?, UnpackedFloat.compare, cmp_ofRat, cmp_neg_neg, compare_scaled hu hv,
          (cmp_eq_lt_iff _ _).mpr hlt, (cmp_eq_gt_iff _ _).mpr hgt]

/-- What a comparison finds is what the values say, if there are two. -/
theorem exists_compare (x y : Float) (P : Ordering → Prop) :
    (∃ o ∈ x.toModel.unpack.compare y.toModel.unpack, P o) ↔
      ∃ p ∈ value? x, ∃ q ∈ value? y, P (cmp p q) := by
  rw [compare_parts (fitParts_unpack x) (fitParts_unpack y), ← value?, ← value?]
  cases value? x with
  | none => simp
  | some p =>
    cases value? y with
    | none => simp
    | some q => simp

theorem lt_iff (x y : Float) : x < y ↔ ∃ p ∈ value? x, ∃ q ∈ value? y, p < q := by
  have hlt : x < y ↔ ∃ o ∈ x.toModel.unpack.compare y.toModel.unpack, o = .lt := by
    change decide ((x.toModel.unpack.compare y.toModel.unpack == some .lt) = true) = true ↔ _
    simp
  rw [hlt, exists_compare]
  simp only [cmp_eq_lt_iff]

theorem le_iff (x y : Float) : x ≤ y ↔ ∃ p ∈ value? x, ∃ q ∈ value? y, p ≤ q := by
  have hle : x ≤ y ↔ ∃ o ∈ x.toModel.unpack.compare y.toModel.unpack, o ≠ .gt := by
    change decide ((x.toModel.unpack.compare y.toModel.unpack).any (·.isLE) = true) = true ↔ _
    rw [decide_eq_true_iff, Option.any_eq_true]
    simp only [Ordering.isLE_iff_ne_gt, Option.mem_def]
  rw [hle, exists_compare]
  simp only [ne_eq, cmp_eq_gt_iff, not_lt]

theorem beq_iff (x y : Float) : x == y ↔ ∃ p ∈ value? x, ∃ q ∈ value? y, p = q := by
  have heq : (x == y) = true ↔ ∃ o ∈ x.toModel.unpack.compare y.toModel.unpack, o = .eq := by
    change (x.toModel.unpack.compare y.toModel.unpack == some .eq) = true ↔ _
    simp
  rw [heq, exists_compare]
  simp only [cmp_eq_eq_iff]

end ExprCalc.Number
