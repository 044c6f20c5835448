import Mathlib.Algebra.Group.Nat.Defs
import ExprCalc.Number.Read
import ExprCalc.Proofs.Text.Runes

namespace ExprCalc.Number

def digit (c : Char) : Nat := c.toNat - 48

theorem digitOf?_of_isDigit {c : Char} (hc : c.isDigit) : digitOf? false c = some (digit c) := by
  have hnat := (Text.isDigit_iff c).mp hc
  have hrange : '0' ≤ c ∧ c ≤ '9' := hnat
  have hvalue : Text.digitValue? c = some (digit c) := by
    rw [Text.digitValue?, if_pos hrange]
    rfl
  simp only [digitOf?, hvalue, Option.bind_eq_bind, Option.bind_some]
  rw [if_pos (by simp only [digit]; simp; omega)]

theorem digitRun_append {ds : List Char} (hds : ∀ d ∈ ds, d.isDigit) (cs : List Char)
    (hcs : cs = [] ∨ cs.head? = some '.') : digitRun false (ds ++ cs) = (ds.map digit, cs) := by
  induction ds with
  | nil =>
    cases cs with
    | nil => rfl
    | cons c cs =>
      obtain h | h := hcs
      · cases h
      · cases h
        rfl
  | cons d ds ih =>
    have hd := digitOf?_of_isDigit (hds d List.mem_cons_self)
    have htail := ih fun c hc => hds c (.tail d hc)
    simp only [digitRun, Prod.mk.injEq] at htail ⊢
    simp only [List.cons_append, List.map_cons]
    rw [List.takeWhile_cons_of_pos (by simp [hd]), List.dropWhile_cons_of_pos (by simp [hd])]
    rw [List.filterMap_cons_some hd, htail.1, htail.2]
    exact ⟨rfl, rfl⟩

/-- A row of digits with an optional point and more digits. -/
inductive IsNumeral : List Char → List Nat → List Nat → Prop
  | whole {ds : List Char} (hne : ds ≠ []) (hds : ∀ d ∈ ds, d.isDigit) :
      IsNumeral ds (ds.map digit) []
  | decimal {ds fs : List Char} (hne : ds ≠ []) (hds : ∀ d ∈ ds, d.isDigit)
      (hfs : ∀ d ∈ fs, d.isDigit) : IsNumeral (ds ++ '.' :: fs) (ds.map digit) (fs.map digit)

theorem readNumeral?_of_isNumeral {cs : List Char} {whole fraction : List Nat}
    (h : IsNumeral cs whole fraction) :
    readNumeral? false cs = some ⟨false, whole, fraction, 0⟩ := by
  cases h with
  | whole hne hds =>
    have hrun := digitRun_append hds [] (.inl rfl)
    rw [List.append_nil] at hrun
    simp [readNumeral?, hrun, hne]
  | @decimal ds fs hne hds hfs =>
    have hrun := digitRun_append hds ('.' :: fs) (.inr rfl)
    have hrun' := digitRun_append hfs [] (.inl rfl)
    rw [List.append_nil] at hrun'
    simp [readNumeral?, hrun, hrun', hne]

theorem chars_of_isNumeral {cs : List Char} {whole fraction : List Nat}
    (h : IsNumeral cs whole fraction) :
    (∃ d more, cs = d :: more ∧ d.isDigit) ∧ ∀ c ∈ cs, c.isDigit ∨ c = '.' := by
  cases h with
  | @whole ds hne hds =>
    obtain ⟨d, more, rfl⟩ := List.exists_cons_of_ne_nil hne
    exact ⟨⟨d, more, rfl, hds d List.mem_cons_self⟩, fun c hc => .inl (hds c hc)⟩
  | @decimal ds fs hne hds hfs =>
    obtain ⟨d, more, rfl⟩ := List.exists_cons_of_ne_nil hne
    refine ⟨⟨d, more ++ '.' :: fs, rfl, hds d List.mem_cons_self⟩, ?_⟩
    intro c hc
    rcases List.mem_append.mp hc with hc | hc
    · exact .inl (hds c hc)
    · rcases List.mem_cons.mp hc with rfl | hc
      · exact .inr rfl
      · exact .inl (hfs c hc)

theorem separatorsFit_of_no_separator {cs : List Char} (hcs : ∀ c ∈ cs, c ≠ '_') :
    ∀ before, before ≠ .separator → separatorsFit false before cs = true := by
  induction cs with
  | nil =>
    intro before h
    exact decide_eq_true h
  | cons c cs ih =>
    intro before h
    have ih := ih fun d hd => hcs d (.tail c hd)
    rw [separatorsFit]
    split
    · exact ih .digit (by decide)
    · rw [if_neg (hcs c List.mem_cons_self), ih .other (by decide), Bool.and_true]
      exact decide_eq_true h

theorem toLower_of_isDigit {c : Char} (hc : c.isDigit) : c.toLower = c := by
  have hnat := (Text.isDigit_iff c).mp hc
  have hupper : ¬ ('A'.val ≤ c.val ∧ c.val ≤ 'Z'.val) := by
    rintro ⟨h, -⟩
    have h : 65 ≤ c.toNat := h
    omega
  exact dif_neg hupper

/-- A text that starts with a digit is no word for a special number. -/
theorem map_toLower_ne {d : Char} (hd : d.isDigit) (more : List Char) {word : List Char}
    (hword : word.head?.all fun c => !c.isDigit) : (d :: more).map Char.toLower ≠ word := by
  rintro rfl
  rw [List.map_cons, toLower_of_isDigit hd] at hword
  simp [hd] at hword

theorem readMagnitude?_of_isNumeral {cs : List Char} {whole fraction : List Nat}
    (h : IsNumeral cs whole fraction) :
    readMagnitude? cs = some (Numeral.value ⟨false, whole, fraction, 0⟩) := by
  obtain ⟨⟨d, more, rfl, hd⟩, hall⟩ := chars_of_isNumeral h
  have hfit : separatorsFit false .other (d :: more) = true := by
    refine separatorsFit_of_no_separator ?_ .other (by decide)
    rintro c hc rfl
    rcases hall '_' hc with h | h <;> revert h <;> decide
  have hword : ¬ ((d :: more).map Char.toLower = "inf".toList ∨
      (d :: more).map Char.toLower = "infinity".toList) := by
    rintro (h | h)
    · exact map_toLower_ne hd more (by decide) h
    · exact map_toLower_ne hd more (by decide) h
  -- the second character of a numeral is no mark of a base
  have hbase {x : Char} (hx : ¬ (x.isDigit ∨ x = '.')) (rest : List Char) :
      d :: more ≠ '0' :: x :: rest := by
    intro heq
    exact hx (hall x (by rw [heq]; simp))
  unfold readMagnitude?
  extract_lets word
  rw [if_neg hword]
  split
  next heq =>
  split at heq
  · next rest heq' => exact absurd heq' (hbase (by decide) rest)
  · next rest heq' => exact absurd heq' (hbase (by decide) rest)
  · cases heq
    rw [if_pos hfit, readNumeral?_of_isNumeral h]
    rfl

/-- A numeral is read as the number nearest to it. -/
theorem read?_of_isNumeral {cs : List Char} {whole fraction : List Nat}
    (h : IsNumeral cs whole fraction) :
    read? (Text.ofRunes (cs.map .char)) = some (Numeral.value ⟨false, whole, fraction, 0⟩) := by
  have hshown : (Text.ofRunes (cs.map .char)).runes.map Rune.shown = cs := by
    have hrunes := Text.runes_chars_append cs []
    rw [List.append_nil, Text.runes_nil, List.append_nil] at hrunes
    rw [hrunes, List.map_map]
    exact List.map_id _
  obtain ⟨⟨d, more, rfl, hd⟩, -⟩ := chars_of_isNumeral h
  rw [read?, hshown]
  split
  · next cs heq =>
    cases heq
    exact absurd hd (by decide)
  · next cs heq =>
    cases heq
    exact absurd hd (by decide)
  · rw [if_neg (map_toLower_ne hd more (by decide)), readMagnitude?_of_isNumeral h]

theorem le_foldl_digits (ds : List Nat) (n : Nat) :
    n * 10 ^ ds.length ≤ ds.foldl (fun n d => n * 10 + d) n := by
  induction ds generalizing n with
  | nil => simp
  | cons d ds ih =>
    rw [List.foldl_cons, List.length_cons, Nat.pow_succ', ← Nat.mul_assoc]
    exact Nat.le_trans (Nat.mul_le_mul_right _ (Nat.le_add_right _ d)) (ih (n * 10 + d))

theorem lt_digitCount {n k : Nat} (h : 10 ^ k ≤ n) : k < digitCount n := by
  cases k with
  | zero => exact Nat.length_toDigits_pos
  | succ k =>
    have hiff := Nat.length_toDigits_le_iff (b := 10) (n := n) (by decide) (Nat.succ_pos k)
    exact Nat.lt_of_not_le fun hle => Nat.not_lt.mpr h (hiff.mp hle)

/-- The digits that are kept and the number of those left out say how large a numeral is. -/
theorem le_digitsValue {ds : List Nat} (hds : ds.dropWhile (· == 0) ≠ []) :
    0 < (digitsValue 10 ds).1 ∧ (ds.dropWhile (· == 0)).length ≤
      digitCount (digitsValue 10 ds).1 + (digitsValue 10 ds).2 := by
  obtain ⟨d, more, hmore⟩ := List.exists_cons_of_ne_nil hds
  have hd : d ≠ 0 := by
    have hhead := List.head?_dropWhile_not (fun n : Nat => n == 0) ds
    rw [hmore] at hhead
    simpa using hhead
  have hkept : 10 ^ (more.take 799).length ≤
      ((d :: more).take significantDigits).foldl (fun n d => n * 10 + d) 0 := by
    have hle := le_foldl_digits (more.take 799) (0 * 10 + d)
    exact Nat.le_trans (Nat.le_mul_of_pos_left _ (by omega)) hle
  have hlength : (more.take 799).length + ((d :: more).drop significantDigits).length =
      more.length := by
    simp only [significantDigits, List.length_take, List.length_drop, List.length_cons]
    omega
  have hpos := Nat.lt_of_lt_of_le (Nat.pow_pos (by decide)) hkept
  simp only [digitsValue, hmore, List.length_cons]
  split
  · next hany =>
    -- a digit one stands for the tail that was left out, so there is one digit more
    have hkept' := Nat.mul_le_mul_right 10 hkept
    rw [← Nat.pow_succ] at hkept'
    have hcount := lt_digitCount (Nat.le_trans hkept' (Nat.le_add_right _ 1))
    obtain ⟨x, hx, -⟩ := List.any_eq_true.mp hany
    have htail := List.length_pos_of_mem hx
    refine ⟨Nat.succ_pos _, ?_⟩
    simp only
    omega
  · have hcount := lt_digitCount hkept
    refine ⟨hpos, ?_⟩
    simp only
    omega

/-- A numeral with more than 310 digits before its point, leading zeros apart, is out of range. -/
theorem value_eq_inf {whole fraction : List Nat} (h : 310 < (whole.dropWhile (· == 0)).length) :
    Numeral.value ⟨false, whole, fraction, 0⟩ = 1 / 0 := by
  have hne : whole.dropWhile (· == 0) ≠ [] := List.ne_nil_of_length_pos (by omega)
  have hdrop : (whole ++ fraction).dropWhile (· == 0) = whole.dropWhile (· == 0) ++ fraction := by
    rw [List.dropWhile_append, List.isEmpty_eq_false_iff.mpr hne]
    rfl
  have hds : (whole ++ fraction).dropWhile (· == 0) ≠ [] := by
    rw [hdrop]
    exact List.append_ne_nil_of_left_ne_nil hne fraction
  obtain ⟨hpos, hle⟩ := le_digitsValue hds
  rw [hdrop, List.length_append] at hle
  have hlarge : 310 < ((digitsValue 10 (whole ++ fraction)).2 - fraction.length : Int) + 0 +
      digitCount (digitsValue 10 (whole ++ fraction)).1 := by omega
  have hrange : ¬ ((digitsValue 10 (whole ++ fraction)).1 = 0 ∨
      ((digitsValue 10 (whole ++ fraction)).2 - fraction.length : Int) + 0 +
        digitCount (digitsValue 10 (whole ++ fraction)).1 < -330) := by omega
  exact (if_neg hrange).trans (if_pos hlarge)

end ExprCalc.Number
