import ExprCalc.Proofs.Eval.Kinds
import ExprCalc.Proofs.Number.Order

namespace ExprCalc

open Number

namespace Value

def IsNaN : Value → Prop
  | number x => x.isNaN
  | nil | string _ | boolean _ => False

/-- What equality looks at: of a number its value, if it has one. -/
inductive Content where
  | nil
  | number (value : Option Extended)
  | string (t : Text)
  | boolean (b : Bool)

def content : Value → Content
  | nil => .nil
  | number x => .number (value? x)
  | string t => .string t
  | boolean b => .boolean b

theorem isNaN_iff_content (a : Value) : a.IsNaN ↔ a.content = .number none := by
  cases a with
  | number x => rw [IsNaN, isNaN_iff, content, Content.number.injEq]
  | nil | string | boolean => simp [IsNaN, content]

def Content.kind : Content → ValueKind
  | nil => .nil
  | number _ => .number
  | string _ => .string
  | boolean _ => .boolean

theorem kind_content (a : Value) : a.content.kind = a.kind := by
  cases a <;> rfl

/-- Values are equal if they have the same content, and a number also needs a value. -/
theorem equal_iff (a b : Value) :
    a.equal b ↔ a.content = b.content ∧ a.content ≠ .number none := by
  cases a with
  | number x =>
    cases b with
    | number y =>
      rw [equal, beq_iff]
      simp only [content, Content.number.injEq, ne_eq]
      cases value? x with
      | none => simp
      | some p => simp [eq_comm]
    | nil | string | boolean => simp [equal, content]
  | nil | string | boolean => cases b <;> simp [equal, content]

theorem equal_comm (a b : Value) : a.equal b = b.equal a := by
  rw [Bool.eq_iff_iff, equal_iff, equal_iff]
  constructor
  · rintro ⟨hcontent, hne⟩
    exact ⟨hcontent.symm, hcontent ▸ hne⟩
  · rintro ⟨hcontent, hne⟩
    exact ⟨hcontent.symm, hcontent ▸ hne⟩

theorem equal_trans {a b c : Value} (hab : a.equal b) (hbc : b.equal c) : a.equal c := by
  rw [equal_iff] at hab hbc ⊢
  exact ⟨hab.1.trans hbc.1, hab.2⟩

theorem equal_of_kind_ne {a b : Value} (h : a.kind ≠ b.kind) : a.equal b = false := by
  rw [Bool.eq_false_iff]
  intro hequal
  have hcontent := ((equal_iff a b).mp hequal).1
  exact h (by rw [← kind_content, hcontent, kind_content])

theorem equal_self_iff (a : Value) : a.equal a ↔ ¬ a.IsNaN := by
  rw [equal_iff, isNaN_iff_content]
  exact and_iff_right rfl

end Value

/-- Byte by byte: a text comes before another one if it is a proper start of it, or if it has the
lesser byte where the two differ first. -/
theorem Text.lt_iff_bytes (s t : Text) :
    s < t ↔ (s <+: t ∧ s ≠ t) ∨
      ∃ common x y, common ++ [x] <+: s ∧ common ++ [y] <+: t ∧ x < y := by
  induction s generalizing t with
  | nil => cases t <;> simp
  | cons x s ih =>
    cases t with
    | nil => simp
    | cons y t =>
      rw [List.cons_lt_cons_iff, ih]
      constructor
      · rintro (hlt | ⟨rfl, ⟨hstart, hne⟩ | ⟨common, x', y', hs, ht, hlt⟩⟩)
        · exact .inr ⟨[], x, y, by simp, by simp, hlt⟩
        · exact .inl ⟨by simpa using hstart, by simpa using hne⟩
        · exact .inr ⟨x :: common, x', y', by simpa using hs, by simpa using ht, hlt⟩
      · rintro (⟨hstart, hne⟩ | ⟨common, x', y', hs, ht, hlt⟩)
        · obtain ⟨rfl, htail⟩ := List.cons_prefix_cons.mp hstart
          exact .inr ⟨rfl, .inl ⟨htail, by simpa using hne⟩⟩
        · cases common with
          | nil =>
            obtain ⟨rfl, -⟩ := List.cons_prefix_cons.mp hs
            obtain ⟨rfl, -⟩ := List.cons_prefix_cons.mp ht
            exact .inl hlt
          | cons z common =>
            obtain ⟨rfl, hs'⟩ := List.cons_prefix_cons.mp hs
            obtain ⟨rfl, ht'⟩ := List.cons_prefix_cons.mp ht
            exact .inr ⟨rfl, .inr ⟨common, x', y', hs', ht', hlt⟩⟩

namespace Expr

open Value

/-- What a comparison says of two values, unless it fails. -/
def truth? (op : Kind) (a b : Value) : Option Bool :=
  match applyBinary ⟨op, [], .start, none⟩ a b with
  | .ok (.boolean r) => some r
  | _ => none

/-- A comparison gives its truth value or fails at its token. -/
theorem applyBinary_of_comparison {op : Token} (hop : op.kind ∈ equalityOperators ++ orderOperators)
    (a b : Value) :
    applyBinary op a b =
      (truth? op.kind a b).elim (refuse op [a, b]) fun r => .ok (.boolean r) := by
  obtain ⟨kind, lexeme, p, payload⟩ := op
  simp only [equalityOperators, orderOperators, List.cons_append, List.nil_append, List.mem_cons,
    List.not_mem_nil, or_false] at hop
  rcases hop with rfl | rfl | rfl | rfl | rfl | rfl <;> cases a <;> cases b <;> rfl

inductive Orderable : Value → Value → Prop
  | numbers (x y : Float) : Orderable (.number x) (.number y)
  | strings (s t : Text) : Orderable (.string s) (.string t)

theorem truth?_eq_none_iff {op : Kind} (hop : op ∈ orderOperators) (a b : Value) :
    truth? op a b = none ↔ ¬ Orderable a b := by
  simp only [orderOperators, List.mem_cons, List.not_mem_nil, or_false] at hop
  constructor
  · intro hnone hordered
    rcases hop with rfl | rfl | rfl | rfl <;> cases hordered <;> cases hnone
  · intro hordered
    cases a with
    | number x =>
      cases b with
      | number y => exact absurd (.numbers x y) hordered
      | nil | string | boolean => rcases hop with rfl | rfl | rfl | rfl <;> rfl
    | string s =>
      cases b with
      | string t => exact absurd (.strings s t) hordered
      | nil | number | boolean => rcases hop with rfl | rfl | rfl | rfl <;> rfl
    | nil | boolean => rcases hop with rfl | rfl | rfl | rfl <;> cases b <;> rfl

theorem converse_less (a b : Value) : truth? .less a b = truth? .greater b a := by
  cases a <;> cases b <;> rfl

theorem converse_lessEqual (a b : Value) : truth? .lessEqual a b = truth? .greaterEqual b a := by
  cases a <;> cases b <;> rfl

theorem less_trans {a b c : Value} (hab : truth? .less a b = some true)
    (hbc : truth? .less b c = some true) : truth? .less a c = some true := by
  have hordered {a b : Value} (h : truth? .less a b = some true) : Orderable a b := by
    by_contra hnot
    rw [(truth?_eq_none_iff (by decide) a b).mpr hnot] at h
    cases h
  cases hordered hab with
  | numbers x y =>
    cases hordered hbc with
    | numbers _ z =>
      have hxy : x < y := of_decide_eq_true (Option.some.inj hab)
      have hyz : y < z := of_decide_eq_true (Option.some.inj hbc)
      rw [lt_iff] at hxy hyz
      obtain ⟨p, hp, q, hq, hpq⟩ := hxy
      obtain ⟨q', hq', r, hr, hqr⟩ := hyz
      obtain rfl : q = q' := Option.mem_unique hq hq'
      exact congrArg some (decide_eq_true ((lt_iff x z).mpr ⟨p, hp, r, hr, hpq.trans hqr⟩))
  | strings s t =>
    cases hordered hbc with
    | strings _ u =>
      have hst : s < t := of_decide_eq_true (Option.some.inj hab)
      have htu : t < u := of_decide_eq_true (Option.some.inj hbc)
      exact congrArg some (decide_eq_true (List.lt_trans hst htu))

theorem truth?_of_isNaN {a b : Value} (h : Orderable a b) (hnan : a.IsNaN ∨ b.IsNaN) {op : Kind}
    (hop : op ∈ .equalEqual :: orderOperators) : truth? op a b = some false := by
  cases h with
  | strings s t => exact hnan.elim False.elim False.elim
  | numbers x y =>
    have hless {x y : Float} (h : x.isNaN ∨ y.isNaN) : decide (x < y) = false :=
      decide_eq_false fun hlt => not_exists_values h _ ((lt_iff x y).mp hlt)
    have hlessEqual {x y : Float} (h : x.isNaN ∨ y.isNaN) : decide (x ≤ y) = false :=
      decide_eq_false fun hle => not_exists_values h _ ((le_iff x y).mp hle)
    have hequal : (x == y) = false :=
      Bool.eq_false_iff.mpr fun heq => not_exists_values hnan _ ((beq_iff x y).mp heq)
    simp only [orderOperators, List.mem_cons, List.not_mem_nil, or_false] at hop
    rcases hop with rfl | rfl | rfl | rfl | rfl
    · exact congrArg some hequal
    · exact congrArg some (hless hnan)
    · exact congrArg some (hlessEqual hnan)
    · exact congrArg some (hless hnan.symm)
    · exact congrArg some (hlessEqual hnan.symm)

section Linear

variable {α : Type} [LE α] [LT α] [DecidableEq α] [DecidableLE α] [DecidableLT α]

/-- The comparisons of `a` and `b` are those of `p` and `q`. -/
structure ComparedAs (a b : Value) (p q : α) : Prop where
  equal : truth? .equalEqual a b = some (decide (p = q))
  less : truth? .less a b = some (decide (p < q))
  lessEqual : truth? .lessEqual a b = some (decide (p ≤ q))
  greater : truth? .greater a b = some (decide (q < p))
  greaterEqual : truth? .greaterEqual a b = some (decide (q ≤ p))

variable [Std.IsLinearOrder α] [Std.LawfulOrderLT α] {a b : Value} {p q : α}

theorem ComparedAs.count_eq_one (h : ComparedAs a b p q) :
    [truth? .less a b, truth? .equalEqual a b, truth? .greater a b].count (some true) = 1 := by
  rw [h.less, h.equal, h.greater]
  rcases Std.lt_trichotomy p q with hlt | rfl | hgt
  · have hne : p ≠ q := Std.ne_of_lt hlt
    have hngt : ¬ q < p := Std.not_gt_of_lt hlt
    simp [hlt, hne, hngt]
  · have hirrefl : ¬ p < p := Std.lt_irrefl
    simp [hirrefl]
  · have hne : p ≠ q := (Std.ne_of_lt hgt).symm
    have hnlt : ¬ p < q := Std.not_gt_of_lt hgt
    simp [hgt, hne, hnlt]

theorem ComparedAs.lessEqual_iff (h : ComparedAs a b p q) :
    truth? .lessEqual a b = some true ↔
      truth? .less a b = some true ∨ truth? .equalEqual a b = some true := by
  rw [h.lessEqual, h.less, h.equal]
  simp [Std.le_iff_lt_or_eq]

end Linear

theorem compared_numbers {x y : Float} {p q : Extended} (hx : value? x = some p)
    (hy : value? y = some q) : ComparedAs (.number x) (.number y) p q where
  equal := by
    have hequal : (x == y) = decide (p = q) := by
      rw [Bool.eq_iff_iff, beq_iff]
      simp [hx, hy, eq_comm]
    exact congrArg some hequal
  less := congrArg some (decide_eq_decide.mpr (by simp [lt_iff, hx, hy]))
  lessEqual := congrArg some (decide_eq_decide.mpr (by simp [le_iff, hx, hy]))
  greater := congrArg some (decide_eq_decide.mpr (by simp [lt_iff, hx, hy]))
  greaterEqual := congrArg some (decide_eq_decide.mpr (by simp [le_iff, hx, hy]))

theorem compared_strings (s t : Text) : ComparedAs (.string s) (.string t) s t where
  equal := congrArg some (beq_eq_decide s t)
  less := rfl
  lessEqual := rfl
  greater := rfl
  greaterEqual := rfl

structure EqualityLaws (a b c : Value) : Prop where
  negation : ∃ r, truth? .equalEqual a b = some r ∧ truth? .bangEqual a b = some !r
  symm : truth? .equalEqual a b = truth? .equalEqual b a
  trans : truth? .equalEqual a b = some true → truth? .equalEqual b c = some true →
    truth? .equalEqual a c = some true
  kinds : a.kind ≠ b.kind → truth? .equalEqual a b = some false
  refl : truth? .equalEqual a a = some true ↔ ¬ a.IsNaN

structure OrderLaws (a b c : Value) : Prop where
  fails : ∀ op ∈ orderOperators, truth? op a b = none ↔ ¬ Orderable a b
  converse : truth? .less a b = truth? .greater b a
  converseEqual : truth? .lessEqual a b = truth? .greaterEqual b a
  trans : truth? .less a b = some true → truth? .less b c = some true →
    truth? .less a c = some true
  trichotomy : Orderable a b → ¬ a.IsNaN → ¬ b.IsNaN →
    [truth? .less a b, truth? .equalEqual a b, truth? .greater a b].count (some true) = 1
  lessEqual : Orderable a b → ¬ a.IsNaN → ¬ b.IsNaN → (truth? .lessEqual a b = some true ↔
    truth? .less a b = some true ∨ truth? .equalEqual a b = some true)
  nan : Orderable a b → a.IsNaN ∨ b.IsNaN → ∀ op ∈ .equalEqual :: orderOperators,
    truth? op a b = some false

theorem equalityLaws (a b c : Value) : EqualityLaws a b c where
  negation := ⟨a.equal b, rfl, rfl⟩
  symm := congrArg some (equal_comm a b)
  trans hab hbc := congrArg some (equal_trans (Option.some.inj hab) (Option.some.inj hbc))
  kinds h := congrArg some (equal_of_kind_ne h)
  refl := by
    rw [← equal_self_iff]
    exact Option.some_inj

theorem orderLaws (a b c : Value) : OrderLaws a b c where
  fails _ hop := truth?_eq_none_iff hop a b
  converse := converse_less a b
  converseEqual := converse_lessEqual a b
  trans := less_trans
  trichotomy h ha hb := by
    cases h with
    | numbers x y =>
      obtain ⟨p, hp⟩ := exists_value ha
      obtain ⟨q, hq⟩ := exists_value hb
      exact (compared_numbers hp hq).count_eq_one
    | strings s t => exact (compared_strings s t).count_eq_one
  lessEqual h ha hb := by
    cases h with
    | numbers x y =>
      obtain ⟨p, hp⟩ := exists_value ha
      obtain ⟨q, hq⟩ := exists_value hb
      exact (compared_numbers hp hq).lessEqual_iff
    | strings s t => exact (compared_strings s t).lessEqual_iff
  nan h hnan _ hop := truth?_of_isNaN h hnan hop

/-- Every token of a comparison operator gives the truth value of its comparison or, if there is
none, fails with the kinds of its operands. For all values the laws of equality and of the orderings
hold. Numbers that have values are compared as these, and strings byte by byte. -/
theorem comparisons_consistent :
    (∀ (op : Token) (a b : Value), op.kind ∈ equalityOperators ++ orderOperators →
      applyBinary op a b =
        (truth? op.kind a b).elim (refuse op [a, b]) fun r => .ok (.boolean r)) ∧
    (∀ a b c, EqualityLaws a b c ∧ OrderLaws a b c) ∧
    (∀ x y p q, value? x = some p → value? y = some q →
      ComparedAs (.number x) (.number y) p q) ∧
    ∀ s t : Text, ComparedAs (.string s) (.string t) s t ∧
      (s < t ↔ (s <+: t ∧ s ≠ t) ∨
        ∃ common x y, common ++ [x] <+: s ∧ common ++ [y] <+: t ∧ x < y) :=
  ⟨fun _ a b hop => applyBinary_of_comparison hop a b,
    fun a b c => ⟨equalityLaws a b c, orderLaws a b c⟩,
    fun _ _ _ _ hx hy => compared_numbers hx hy,
    fun s t => ⟨compared_strings s t, Text.lt_iff_bytes s t⟩⟩

/-- Both zeros have the same value. -/
example : truth? .equalEqual (.number 0) (.number (-0)) = some true := by decide +kernel

end Expr

end ExprCalc
