import ExprCalc.Proofs.Eval.Postfix
import ExprCalc.Proofs.Number.Written
import ExprCalc.Proofs.Run.ScanErrors

namespace ExprCalc

namespace Value

theorem text_ne_nil (v : Value) : v.text ≠ [] := by
  cases v with
  | nil => decide
  | boolean b => cases b <;> decide
  | string t => exact List.cons_ne_nil _ _
  | number x =>
    rw [text, Number.text_eq]
    obtain ⟨b, t, hunsigned, -⟩ := Number.exists_head_unsigned (x.toBits.toNat % 2 ^ 63)
    rw [hunsigned]
    exact List.append_ne_nil_of_right_ne_nil _ (List.cons_ne_nil _ _)

end Value

namespace Expr

def nonEmpty (ts : List Text) : List Text :=
  ts.filter fun t => !t.isEmpty

/-- The first text is empty and another is not. -/
def skipsFirst (ts : List Text) : Bool :=
  ts.head? == some [] && !(nonEmpty ts).isEmpty

/-- The space that the next text keeps when the first is skipped. -/
def leadingSpace (ts : List Text) : Text :=
  if skipsFirst ts then utf8 " " else []

theorem leadingSpace_eq_nil_iff (ts : List Text) : leadingSpace ts = [] ↔ ¬ skipsFirst ts := by
  rw [leadingSpace]
  cases skipsFirst ts <;> decide

theorem flatMap_spaced (ts : List Text) :
    ts.flatMap spaced = (nonEmpty ts).flatMap (utf8 " " ++ ·) := by
  induction ts with
  | nil => rfl
  | cons t ts ih =>
    rw [List.flatMap_cons, ih]
    cases t <;> rfl

theorem elements_eq (ts : List Text) :
    elements ts = leadingSpace ts ++ Text.joinWith (utf8 " ") (nonEmpty ts) := by
  match ts with
  | [] => rfl
  | [] :: ts =>
    -- the empty text is gone from both sides, and all that are left on the left have a space
    have hskip : nonEmpty ([] :: ts) = nonEmpty ts := rfl
    rw [elements, flatMap_spaced, leadingSpace, skipsFirst, hskip]
    cases nonEmpty ts with
    | nil => rfl
    | cons t ts =>
      rw [Text.joinWith_cons, List.flatMap_cons, List.append_assoc]
      rfl
  | (b :: t) :: ts =>
    have hfirst : nonEmpty ((b :: t) :: ts) = (b :: t) :: nonEmpty ts := rfl
    rw [elements, flatMap_spaced, hfirst, Text.joinWith_cons]
    rfl

theorem spaced_elements (ts : List Text) :
    spaced (elements ts) = leadingSpace ts ++ (nonEmpty ts).flatMap (utf8 " " ++ ·) := by
  match ts with
  | [] => rfl
  | [] :: ts =>
    have hskip : nonEmpty ([] :: ts) = nonEmpty ts := rfl
    rw [elements, flatMap_spaced, leadingSpace, skipsFirst, hskip]
    cases nonEmpty ts <;> rfl
  | (b :: t) :: ts =>
    rw [elements, flatMap_spaced]
    rfl

/-- A list between parentheses, in which every element that is not empty has one space before
it. -/
def listed (name : String) (ts : List Text) : Text :=
  utf8 "(" ++ utf8 name ++ (nonEmpty ts).flatMap (utf8 " " ++ ·) ++ utf8 ")"

theorem parenthesized_eq (name : String) (ts : List Text) :
    parenthesized name ts = utf8 "(" ++ utf8 name ++
      (leadingSpace ts ++ (nonEmpty ts).flatMap (utf8 " " ++ ·)) ++ utf8 ")" := by
  rw [parenthesized, spaced_elements]

theorem parenthesized_eq_listed_iff (name : String) (ts : List Text) :
    parenthesized name ts = listed name ts ↔ ¬ skipsFirst ts := by
  rw [parenthesized_eq, listed, List.append_cancel_right_eq, List.append_cancel_left_eq,
    List.append_left_eq_self, leadingSpace_eq_nil_iff]

theorem length_parenthesized (name : String) (ts : List Text) :
    (parenthesized name ts).length = (listed name ts).length + (skipsFirst ts).toNat := by
  have hspace : (leadingSpace ts).length = (skipsFirst ts).toNat := by
    rw [leadingSpace]
    cases skipsFirst ts <;> rfl
  rw [parenthesized_eq, listed]
  simp only [List.length_append, hspace]
  omega

theorem length_listed (name : String) (ts : List Text) :
    (listed name ts).length = (utf8 name).length + (ts.map fun t => (spaced t).length).sum + 2 := by
  have hends : (utf8 "(").length + (utf8 ")").length = 2 := by decide
  rw [listed, ← flatMap_spaced]
  simp only [List.length_append, List.length_flatMap]
  omega

theorem length_spaced {t : Text} (h : t ≠ []) : (spaced t).length = t.length + 1 := by
  have hspace : (utf8 " ").length = 1 := by decide
  rw [spaced, if_neg (by simpa using h), List.length_append, hspace, Nat.add_comm]

def parts? : Expr → Option (String × List Text)
  | missing => none
  | literal _ value => some ("literal", [value.text])
  | unary op operand => some ("unary", [op.lexeme, operand.text])
  | binary left op right => some ("binary", [left.text, op.lexeme, right.text])

theorem text_literal (token : Token) (value : Value) :
    (literal token value).text = parenthesized "literal" [value.text] := by
  have h := value.text_ne_nil
  simp [text, textOnto, parenthesized, elements, spaced, h, utf8, Rune.encode]

theorem text_eq_parenthesized {e : Expr} {name : String} {ts : List Text}
    (h : e.parts? = some (name, ts)) : e.text = parenthesized name ts := by
  cases e with
  | missing => cases h
  | literal token value =>
    cases h
    exact text_literal token value
  | unary op operand =>
    cases h
    exact text_unary op operand
  | binary left op right =>
    cases h
    exact text_binary left op right

def isBare : Expr → Bool
  | unary op _ => op.lexeme.isEmpty
  | missing | literal _ _ | binary _ _ _ => false

theorem skipsFirst_of_head_ne {t : Text} (h : t ≠ []) (ts : List Text) :
    skipsFirst (t :: ts) = false := by
  simp [skipsFirst, h]

theorem skipsFirst_parts {e : Expr} {name : String} {ts : List Text}
    (h : e.parts? = some (name, ts)) : skipsFirst ts = e.isBare := by
  cases e with
  | missing => cases h
  | literal token value =>
    cases h
    exact skipsFirst_of_head_ne value.text_ne_nil _
  | unary op operand =>
    cases h
    have hoperand := operand.text_ne_nil
    cases hlexeme : op.lexeme <;> simp [isBare, hlexeme, skipsFirst, nonEmpty, hoperand]
  | binary left op right =>
    cases h
    exact skipsFirst_of_head_ne left.text_ne_nil _

/-- The text of a tree with one space before every element that is not empty. -/
def singleSpaced : Expr → Text
  | missing => utf8 "<nil>"
  | literal _ value => listed "literal" [value.text]
  | unary op operand => listed "unary" [op.lexeme, operand.singleSpaced]
  | binary left op right => listed "binary" [left.singleSpaced, op.lexeme, right.singleSpaced]

theorem singleSpaced_ne_nil (e : Expr) : e.singleSpaced ≠ [] := by
  cases e with
  | missing => decide
  | literal | unary | binary => exact List.append_ne_nil_of_right_ne_nil _ (by decide)

theorem text_eq_listed_iff {e : Expr} {name : String} {ts : List Text}
    (h : e.parts? = some (name, ts)) : e.text = listed name ts ↔ ¬ e.isBare := by
  rw [text_eq_parenthesized h, parenthesized_eq_listed_iff, skipsFirst_parts h]

theorem length_text_eq {e : Expr} {name : String} {ts : List Text}
    (h : e.parts? = some (name, ts)) :
    e.text.length = (listed name ts).length + [e].countP isBare := by
  rw [text_eq_parenthesized h, length_parenthesized, skipsFirst_parts h, List.countP_singleton]
  cases e.isBare <;> rfl

/-- No operand is empty, so each gets its space in both texts. -/
theorem length_spaced_text {e : Expr} {n : Nat}
    (h : e.text.length = e.singleSpaced.length + n) :
    (spaced e.text).length = (spaced e.singleSpaced).length + n := by
  rw [length_spaced e.text_ne_nil, length_spaced e.singleSpaced_ne_nil, h]
  omega

theorem nodes_unary (op : Token) (operand : Expr) :
    (unary op operand).nodes = operand.nodes ++ [unary op operand] := by
  simp [nodes_eq (unary op operand), children]

theorem nodes_binary (left : Expr) (op : Token) (right : Expr) :
    (binary left op right).nodes = left.nodes ++ right.nodes ++ [binary left op right] := by
  simp [nodes_eq (binary left op right), children]

/-- The text of a tree has one more space for each of its bare operators. -/
theorem length_text (e : Expr) : e.text.length = e.singleSpaced.length + e.nodes.countP isBare := by
  induction e with
  | missing => rfl
  | literal token value => exact length_text_eq rfl
  | unary op operand ih =>
    have hoperand := length_spaced_text ih
    rw [length_text_eq rfl, singleSpaced, length_listed, length_listed, nodes_unary,
      List.countP_append]
    simp only [List.map_cons, List.map_nil, List.sum_cons, List.sum_nil]
    omega
  | binary left op right ihl ihr =>
    have hleft := length_spaced_text ihl
    have hright := length_spaced_text ihr
    rw [length_text_eq rfl, singleSpaced, length_listed, length_listed, nodes_binary,
      List.countP_append, List.countP_append]
    simp only [List.map_cons, List.map_nil, List.sum_cons, List.sum_nil]
    omega

theorem text_eq_singleSpaced {e : Expr} (h : ∀ n ∈ e.nodes, ¬ n.isBare) :
    e.text = e.singleSpaced := by
  induction e with
  | missing => rfl
  | literal token value => exact (text_eq_listed_iff rfl).mpr Bool.false_ne_true
  | unary op operand ih =>
    rw [nodes_unary, List.forall_mem_append, List.forall_mem_singleton] at h
    rw [(text_eq_listed_iff rfl).mpr h.2, ih h.1, singleSpaced]
  | binary left op right ihl ihr =>
    rw [nodes_binary, List.forall_mem_append, List.forall_mem_append] at h
    obtain ⟨⟨hleft, hright⟩, hself⟩ := h
    rw [List.forall_mem_singleton] at hself
    rw [(text_eq_listed_iff rfl).mpr hself, ihl hleft, ihr hright, singleSpaced]

theorem text_eq_singleSpaced_iff (e : Expr) :
    e.text = e.singleSpaced ↔ ∀ n ∈ e.nodes, ¬ n.isBare := by
  refine ⟨fun heq => ?_, text_eq_singleSpaced⟩
  -- equal texts have equal lengths, which leaves no room for the space of a bare operator
  have hlength := e.length_text
  rw [heq, Nat.left_eq_add] at hlength
  exact List.countP_eq_zero.mp hlength

/-- The elements of a list are joined by single spaces unless the first is empty and another is
not: then a space stands in front of them. Among nodes this happens to bare operators only, and
each of them adds one space to the text of its tree. -/
theorem elements_separated_iff (ts : List Text) (e : Expr) :
    (elements ts = Text.joinWith (utf8 " ") (nonEmpty ts) ↔ ¬ skipsFirst ts) ∧
    (skipsFirst ts → elements ts = utf8 " " ++ Text.joinWith (utf8 " ") (nonEmpty ts)) ∧
    (∀ name parts, e.parts? = some (name, parts) → (e.text = listed name parts ↔ ¬ e.isBare)) ∧
    (e.text = e.singleSpaced ↔ ∀ n ∈ e.nodes, ¬ n.isBare) ∧
    e.text.length = e.singleSpaced.length + e.nodes.countP isBare := by
  refine ⟨?_, fun hskip => ?_, ?_, ?_, ?_⟩
  · rw [elements_eq, List.append_left_eq_self, leadingSpace_eq_nil_iff]
  · rw [elements_eq, leadingSpace, if_pos hskip]
  · exact fun name parts hparts => text_eq_listed_iff hparts
  · exact text_eq_singleSpaced_iff e
  · exact length_text e

def bareNegation : Expr :=
  let one : Token := ⟨.number, utf8 "1", ⟨1, 2⟩, some (.number 1)⟩
  unary ⟨.minus, [], ⟨1, 1⟩, none⟩ (literal one (.number 1))

theorem elements_bareNegation :
    bareNegation.parts? = some ("unary", [[], utf8 "(literal 1)"]) ∧
    elements [[], utf8 "(literal 1)"] = utf8 " (literal 1)" ∧
    elements [[], utf8 "(literal 1)"] ≠
      Text.joinWith (utf8 " ") (nonEmpty [[], utf8 "(literal 1)"]) ∧
    bareNegation.text = utf8 "(unary  (literal 1))" ∧
    bareNegation.singleSpaced = utf8 "(unary (literal 1))" ∧
    bareNegation.text ≠ bareNegation.singleSpaced := by
  decide +kernel

end Expr

end ExprCalc
