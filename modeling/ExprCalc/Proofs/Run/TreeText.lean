import ExprCalc.Proofs.Number.Written
import ExprCalc.Proofs.Parser.Bookkeeping
import ExprCalc.Proofs.Parser.FirstError
import ExprCalc.Proofs.Run.Layout
import ExprCalc.Proofs.Text.Quoted

namespace ExprCalc

open Grammar

structure Token.Equivalent (t t' : Token) : Prop where
  kind : t.kind = t'.kind
  payload : t.payload = t'.payload

/-- A token of the scanner that is a unary or binary operator. -/
structure Token.IsOperator (t : Token) : Prop where
  spelled : t.Spelled
  kind : t.kind ∈ operatorKinds

theorem Lexeme.fixed_of_operator {kind : Kind} {rs : List Rune} (h : Lexeme kind rs)
    (hkind : kind ∈ operatorKinds) :
    ∃ s : String, (s, kind) ∈ fixedLexemes ∧ rs = s.toList.map .char := by
  have hwords : ∀ p ∈ Kind.keywords, p.2 ∉ operatorKinds := by decide
  cases h with
  | fixed hmem => exact ⟨_, hmem, rfl⟩
  | keyword _ hmem => exact absurd hkind (hwords _ hmem)
  | string | whole | decimal | identifier => exact absurd hkind (by decide)

namespace Token.IsOperator

variable {t t' : Token}

theorem exists_fixed (h : t.IsOperator) :
    ∃ s : String, (s, t.kind) ∈ fixedLexemes ∧ t.lexeme = utf8 s := by
  obtain ⟨s, hmem, hrunes⟩ := h.spelled.lexeme.fixed_of_operator h.kind
  refine ⟨s, hmem, ?_⟩
  rw [← Text.ofRunes_runes t.lexeme, hrunes]
  exact Text.ofRunes_chars s.toList

theorem space_not_mem (h : t.IsOperator) : 32 ∉ t.lexeme := by
  have hall : ∀ p ∈ fixedLexemes, 32 ∉ utf8 p.1 := by decide
  obtain ⟨s, hmem, hlexeme⟩ := h.exists_fixed
  rw [hlexeme]
  exact hall (s, t.kind) hmem

theorem lexeme_ne_nil (h : t.IsOperator) : t.lexeme ≠ [] := by
  intro hnil
  have hrunes := h.spelled.lexeme.ne_nil
  rw [hnil] at hrunes
  exact hrunes rfl

/-- An operator is written in one way only. -/
theorem equivalent_iff (h : t.IsOperator) (h' : t'.IsOperator) :
    t.Equivalent t' ↔ t.lexeme = t'.lexeme := by
  constructor
  · intro heq
    have hall : ∀ p ∈ fixedLexemes, ∀ q ∈ fixedLexemes, p.2 = q.2 → p.1 = q.1 := by decide
    obtain ⟨s, hmem, hlexeme⟩ := h.exists_fixed
    obtain ⟨s', hmem', hlexeme'⟩ := h'.exists_fixed
    rw [hlexeme, hlexeme']
    exact congrArg utf8 (hall (s, t.kind) hmem (s', t'.kind) hmem' heq.kind)
  · intro heq
    have hkind : t.kind = t'.kind := by
      have hlexeme := h.spelled.lexeme
      rw [heq] at hlexeme
      exact hlexeme.kind_unique h'.spelled.lexeme
    refine ⟨hkind, ?_⟩
    rw [h.spelled.payload, h'.spelled.payload, hkind, heq]

end Token.IsOperator

namespace Value

/-- The kind of the tokens that stand for a value. -/
def tokenKind : Value → Kind
  | nil => .nilWord
  | number _ => .number
  | string _ => .string
  | boolean b => if b then .trueWord else .falseWord

def payload : Value → Option Payload
  | number x => some (.number x)
  | string t => some (.string t)
  | nil | boolean _ => none

theorem of_literal? {t : Token} {v : Value} (h : t.Spelled) (hv : literal? t = some v) :
    t.kind = v.tokenKind ∧ t.payload = v.payload := by
  have hlexeme := h.lexeme
  have hpayload := h.payload
  cases hkind : t.kind with
  | number =>
    -- every numeral is read, so the value is the payload and not read again from the lexeme
    rw [hkind] at hlexeme hpayload
    obtain ⟨x, hx, -⟩ := hlexeme.read?_of_number
    rw [Scanner.payload, hx] at hpayload
    simp only [literal?, hkind, Parser.literalValue?, hpayload] at hv
    cases hv
    exact ⟨rfl, hpayload⟩
  | string =>
    rw [hkind, Scanner.payload] at hpayload
    simp only [literal?, hkind, Parser.literalValue?, hpayload] at hv
    cases hv
    exact ⟨rfl, hpayload⟩
  | trueWord | falseWord | nilWord =>
    rw [hkind] at hpayload
    simp only [literal?, hkind] at hv
    cases hv
    exact ⟨rfl, hpayload⟩
  | _ =>
    simp only [literal?, hkind] at hv
    cases hv

/-- The bytes that values other than strings are written with. -/
def plainBytes : Text :=
  Number.writtenBytes ++ utf8 "niltruefalse"

theorem text_subset {v : Value} (h : v.kind ≠ .string) : v.text ⊆ plainBytes := by
  cases v with
  | string t => exact absurd rfl h
  | number x => exact List.Subset.trans (Number.text_subset x) (List.subset_append_left _ _)
  | nil => decide
  | boolean b => cases b <;> decide

theorem text_ne_number {v : Value} (h : v.kind ≠ .string) (h' : v.kind ≠ .number) (x : Float) :
    v.text ≠ Number.text x := by
  intro heq
  have hsubset := Number.text_subset x
  rw [← heq] at hsubset
  cases v with
  | string t => exact h rfl
  | number x => exact h' rfl
  | nil => exact absurd hsubset (by decide)
  | boolean b => cases b <;> exact absurd hsubset (by decide)

theorem text_injective {v v' : Value} (h : v.kind ≠ .string) (h' : v'.kind ≠ .string)
    (heq : v.text = v'.text) : v = v' := by
  have hwords : ∀ a b, (boolean a).text = (boolean b).text → a = b := by decide
  cases v with
  | string t => exact absurd rfl h
  | number x =>
    cases v' with
    | string t => exact absurd rfl h'
    | number y => exact congrArg number (Number.text_injective heq)
    | nil | boolean => exact absurd heq.symm (text_ne_number (by simp [kind]) (by simp [kind]) x)
  | nil =>
    cases v' with
    | string t => exact absurd rfl h'
    | number y => exact absurd heq (text_ne_number (by simp [kind]) (by simp [kind]) y)
    | nil => rfl
    | boolean b => cases b <;> exact absurd heq (by decide)
  | boolean a =>
    cases v' with
    | string t => exact absurd rfl h'
    | number y => exact absurd heq (text_ne_number (by simp [kind]) (by simp [kind]) y)
    | nil => cases a <;> exact absurd heq (by decide)
    | boolean b => exact congrArg boolean (hwords a b heq)

theorem quoted_append_ne {v : Value} (h : v.kind ≠ .string) (t rest rest' : Text) :
    t.quoted ++ rest ≠ v.text ++ 41 :: rest' := by
  intro heq
  have hsubset := text_subset h
  have hquoted : (t.quoted ++ rest).head? = some 34 := rfl
  rw [heq] at hquoted
  cases htext : v.text with
  | nil =>
    rw [htext] at hquoted
    cases hquoted
  | cons b bs =>
    rw [htext] at hquoted hsubset
    cases hquoted
    exact absurd (hsubset List.mem_cons_self) (by decide)

/-- The text of a value ends at the parenthesis after it, even if a string holds parentheses. -/
theorem text_append_cancel {v v' : Value} {rest rest' : Text}
    (h : v.text ++ 41 :: rest = v'.text ++ 41 :: rest') : v = v' ∧ rest = rest' := by
  have hstring {v : Value} (hv : v.kind = .string) : ∃ t, v = .string t := by
    cases v with
    | string t => exact ⟨t, rfl⟩
    | _ => cases hv
  by_cases hv : v.kind = .string
  · obtain ⟨t, rfl⟩ := hstring hv
    by_cases hv' : v'.kind = .string
    · obtain ⟨t', rfl⟩ := hstring hv'
      obtain ⟨rfl, hrest⟩ := Text.quoted_append_cancel h
      exact ⟨rfl, (List.cons.inj hrest).2⟩
    · exact absurd h (quoted_append_ne hv' t _ _)
  · by_cases hv' : v'.kind = .string
    · obtain ⟨t', rfl⟩ := hstring hv'
      exact absurd h.symm (quoted_append_ne hv t' _ _)
    · have hparen {v : Value} (hv : v.kind ≠ .string) : 41 ∉ v.text :=
        fun hmem => absurd (text_subset hv hmem) (by decide)
      obtain ⟨htext, hrest⟩ := Text.append_mark_cancel (hparen hv) (hparen hv') h
      exact ⟨text_injective hv hv' htext, hrest⟩

end Value

namespace Expr

/-- What the parser makes of tokens of the scanner: operators and literals in their places. -/
def Formed : Expr → Prop
  | missing => False
  | literal t v => t.Spelled ∧ literal? t = some v
  | unary op operand => op.IsOperator ∧ operand.Formed
  | binary left op right => op.IsOperator ∧ left.Formed ∧ right.Formed

/-- The byte after the parenthesis that a node is written with. -/
def initial : Expr → UInt8
  | missing => 110
  | literal _ _ => 108
  | unary _ _ => 117
  | binary _ _ _ => 98

theorem getElem?_text (e : Expr) (rest : Text) : (e.text ++ rest)[1]? = some e.initial := by
  cases e <;> rfl

theorem initial_eq {e e' : Expr} {rest rest' : Text} (h : e.text ++ rest = e'.text ++ rest') :
    e.initial = e'.initial := by
  have hinitial := getElem?_text e rest
  rw [h, getElem?_text, Option.some.injEq] at hinitial
  exact hinitial.symm

theorem text_literal_append (t : Token) (v : Value) (rest : Text) :
    (literal t v).text ++ rest = utf8 "(literal " ++ (v.text ++ 41 :: rest) := by
  simp [text, textOnto, utf8, Rune.encode]

theorem text_unary_append (op : Token) (operand : Expr) (rest : Text) :
    (unary op operand).text ++ rest =
      utf8 "(unary " ++ (op.lexeme ++ 32 :: (operand.text ++ 41 :: rest)) := by
  rw [← textOnto_eq, textOnto, textOnto_eq]
  simp [utf8, Rune.encode]

theorem text_binary_append {op : Token} (hop : op.lexeme ≠ []) (left right : Expr) (rest : Text) :
    (binary left op right).text ++ rest =
      utf8 "(binary " ++
        (left.text ++ 32 :: (op.lexeme ++ 32 :: (right.text ++ 41 :: rest))) := by
  rw [← textOnto_eq, textOnto, textOnto_eq, textOnto_eq]
  simp [spaced, hop, utf8, Rune.encode]

/-- The text of a tree at the start of a text tells the tree and what follows. -/
theorem text_append_cancel {e e' : Expr} (he : e.Formed) (he' : e'.Formed) {rest rest' : Text}
    (h : e.text ++ rest = e'.text ++ rest') : e.Matches Token.Equivalent e' ∧ rest = rest' := by
  -- the byte after the parenthesis says which node it is, so only like nodes remain
  induction e generalizing e' rest rest' with
  | missing => exact he.elim
  | literal t v =>
    have hinitial := initial_eq h
    cases e' with
    | literal t' v' =>
      rw [text_literal_append, text_literal_append, List.append_cancel_left_eq] at h
      obtain ⟨rfl, hrest⟩ := Value.text_append_cancel h
      obtain ⟨hkind, hpayload⟩ := Value.of_literal? he.1 he.2
      obtain ⟨hkind', hpayload'⟩ := Value.of_literal? he'.1 he'.2
      exact ⟨.literal ⟨hkind.trans hkind'.symm, hpayload.trans hpayload'.symm⟩ v, hrest⟩
    | missing | unary | binary => exact absurd hinitial (by simp [initial])
  | unary op operand ih =>
    have hinitial := initial_eq h
    cases e' with
    | unary op' operand' =>
      rw [text_unary_append, text_unary_append, List.append_cancel_left_eq] at h
      obtain ⟨hop, h⟩ := Text.append_mark_cancel he.1.space_not_mem he'.1.space_not_mem h
      obtain ⟨hoperand, h⟩ := ih he.2 he'.2 h
      exact ⟨.unary ((he.1.equivalent_iff he'.1).mpr hop) hoperand, (List.cons.inj h).2⟩
    | missing | literal | binary => exact absurd hinitial (by simp [initial])
  | binary left op right ihl ihr =>
    have hinitial := initial_eq h
    cases e' with
    | binary left' op' right' =>
      rw [text_binary_append he.1.lexeme_ne_nil, text_binary_append he'.1.lexeme_ne_nil,
        List.append_cancel_left_eq] at h
      obtain ⟨hleft, h⟩ := ihl he.2.1 he'.2.1 h
      obtain ⟨hop, h⟩ := Text.append_mark_cancel he.1.space_not_mem he'.1.space_not_mem
        (List.cons.inj h).2
      obtain ⟨hright, h⟩ := ihr he.2.2 he'.2.2 h
      exact ⟨.binary ((he.1.equivalent_iff he'.1).mpr hop) hleft hright, (List.cons.inj h).2⟩
    | missing | literal | unary => exact absurd hinitial (by simp [initial])

theorem Matches.text_eq {e e' : Expr} (h : e.Matches Token.Equivalent e') (he : e.Formed)
    (he' : e'.Formed) : e.text = e'.text := by
  induction h with
  | literal ht v => rfl
  | unary hop _ ih =>
    rw [text_unary, text_unary, (he.1.equivalent_iff he'.1).mp hop, ih he.2 he'.2]
  | binary hop _ _ ihl ihr =>
    rw [text_binary, text_binary, (he.1.equivalent_iff he'.1).mp hop, ihl he.2.1 he'.2.1,
      ihr he.2.2 he'.2.2]

end Expr

namespace Parser

variable {σ ε : Type}

theorem derives_of_parse {src : TokenSource σ ε} {c : Cursor σ} {e : Expr}
    (h : (parse src c).1 = .ok e) : ∃ ts n, Derives (.level .equality) ts e n := by
  obtain ⟨result, p, hcall, hparse⟩ := exists_parse_call src c 0
  rw [hparse] at h
  cases result with
  | error fault => cases h
  | ok e' =>
    cases h
    -- the tokens of a call are known if it starts without one, so the held token is put back
    obtain ⟨ts, hrun⟩ := hcall.putBack
    obtain ⟨us, -, n, hderives⟩ := hrun.tracks (tracks_call _)
    exact ⟨us, n, hderives⟩

/-- A scanner beside itself: its tokens are spelled, and what it leaves is read as it stands. -/
def spelledTokens : Simulation Run.scanning Run.scanning where
  Tok t t' := t = t' ∧ (t.kind ≠ .eof → t.Spelled)
  Err _ _ := True
  Rel s s' := s = s' ∧ s.Aligned
  kind_eq h := congrArg Token.kind h.1
  literal_eq h := congrArg literal? h.1
  next := by
    rintro s _ ⟨rfl, hs⟩
    obtain ⟨⟨gap, rest, span, -, -, hfinds⟩, haligned⟩ := Scanner.next_finds hs
    change Delivers _ _ _ s.next s.next
    generalize s.next = found at hfinds haligned ⊢
    obtain ⟨item, s'⟩ := found
    cases item with
    | error e => exact .failure trivial ⟨rfl, haligned⟩
    | ok t =>
      refine .token ⟨rfl, fun hne => ?_⟩ ⟨rfl, haligned⟩
      rcases hfinds.eof_or_tokenAt with rfl | ht
      · exact absurd rfl hne
      · exact ht.spelled

theorem formed_of_derives {r : Phrase} {ts : List Token} {e : Expr} {n : Nat}
    (h : Derives r ts e n) (hs : e.Matches spelledTokens.Tok e) : e.Formed := by
  have hliteral : ∀ k ∈ literalKinds, k ≠ .eof := by decide
  have hoperator : ∀ k ∈ operatorKinds, k ≠ .eof := by decide
  induction h with
  | literal value =>
    cases hs with
    | literal ht => exact ⟨ht.2 (hliteral _ (mem_literalKinds value)), value⟩
  | group _ _ _ ih => exact ih hs
  | primary _ ih => exact ih hs
  | operand _ ih => exact ih hs
  | unary hop _ ih =>
    have hmem := mem_operatorKinds_of_unary hop
    cases hs with
    | unary ht he => exact ⟨⟨ht.2 (hoperator _ hmem), hmem⟩, ih he⟩
  | binary hop _ _ ihl ihr =>
    have hmem := mem_operatorKinds_of_level hop
    cases hs with
    | binary ht hl hr => exact ⟨⟨ht.2 (hoperator _ hmem), hmem⟩, ihl hl, ihr hr⟩

theorem formed_of_mem_answers {n : Nat} {c : Cursor Scanner} (hc : spelledTokens.Cursors c c)
    {e : Expr} (h : .ok e ∈ answers Run.scanning .scan n c) : e.Formed := by
  induction n generalizing c with
  | zero => cases h
  | succ n ih =>
    obtain ⟨hanswers, hcursors⟩ := spelledTokens.parse_answers hc
    rcases List.mem_cons.mp h with heq | hmem
    · have hparse : (parse Run.scanning c).1 = .ok e := by
        change .ok e = (parse Run.scanning c).1.mapError _ at heq
        generalize (parse Run.scanning c).1 = result at heq
        cases result with
        | error stop => cases heq
        | ok e' =>
          cases heq
          rfl
      obtain ⟨ts, k, hderives⟩ := derives_of_parse hparse
      rw [hparse] at hanswers
      cases hanswers with
      | ok hs => exact formed_of_derives hderives hs
    · exact ih hcursors hmem

/-- Two trees that are returned in any calls of the parser, on the scanners of any two sources, have
the same text exactly if they have one shape, operators of the same kinds at corresponding nodes,
and literals of the same kinds with the same payloads and values. -/
theorem text_identifies_tree (source source' : Text) (m n : Nat) (e e' : Expr)
    (h : .ok e ∈ answers Run.scanning .scan m (.start (.ofText source)))
    (h' : .ok e' ∈ answers Run.scanning .scan n (.start (.ofText source'))) :
    e.text = e'.text ↔ e.Matches Token.Equivalent e' := by
  have hformed {source : Text} {n : Nat} {e : Expr}
      (h : .ok e ∈ answers Run.scanning .scan n (.start (.ofText source))) : e.Formed :=
    formed_of_mem_answers (.empty ⟨rfl, Scanner.aligned_ofText source⟩) h
  constructor
  · intro htext
    have happend : e.text ++ [] = e'.text ++ [] := congrArg (· ++ []) htext
    exact (Expr.text_append_cancel (hformed h) (hformed h') happend).1
  · intro hmatches
    exact hmatches.text_eq (hformed h) (hformed h')

def negatedSource : Text :=
  utf8 "!(1.50 == \"a)\")"

/-- The source `! ((1.5)=="a)") // again`, which spells the number in another way. -/
def respelledSource : Text :=
  utf8 "! ((1.5)==\"a)\") // again"

theorem text_identifies_negatedSource :
    ∃ e e', .ok e ∈ answers Run.scanning .scan 1 (.start (.ofText negatedSource)) ∧
      .ok e' ∈ answers Run.scanning .scan 1 (.start (.ofText respelledSource)) ∧
      e.text = e'.text ∧ e.Matches Token.Equivalent e' := by
  have hanswer {source t : Text}
      (h : (parse Run.scanning (.start (.ofText source))).1.toOption.map Expr.text = some t) :
      ∃ e, .ok e ∈ answers Run.scanning .scan 1 (.start (.ofText source)) ∧ e.text = t := by
    change ∃ e, .ok e ∈ [(parse Run.scanning (.start (.ofText source))).1.mapError _] ∧ _
    generalize (parse Run.scanning (.start (.ofText source))).1 = result at h ⊢
    cases result with
    | error stop => cases h
    | ok e => exact ⟨e, List.mem_singleton_self _, Option.some.inj h⟩
  have hnegated : (parse Run.scanning (.start (.ofText negatedSource))).1.toOption.map Expr.text =
      some (utf8 "(unary ! (binary (literal 1.5) == (literal \"a)\")))") := by
    decide +kernel
  have hrespelled :
      (parse Run.scanning (.start (.ofText respelledSource))).1.toOption.map Expr.text =
        some (utf8 "(unary ! (binary (literal 1.5) == (literal \"a)\")))") := by
    decide +kernel
  obtain ⟨e, he, htext⟩ := hanswer hnegated
  obtain ⟨e', he', htext'⟩ := hanswer hrespelled
  have heq : e.text = e'.text := htext.trans htext'.symm
  exact ⟨e, e', he, he', heq, (text_identifies_tree _ _ 1 1 e e' he he').mp heq⟩

end Parser

end ExprCalc
