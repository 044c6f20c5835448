import ExprCalc.Proofs.Scanner.Boundary
import ExprCalc.Proofs.Scanner.Listing
import ExprCalc.Proofs.Run.Trace

namespace ExprCalc

structure Token.Same (t t' : Token) : Prop where
  kind : t.kind = t'.kind
  lexeme : t.lexeme = t'.lexeme
  payload : t.payload = t'.payload

/-- The lexeme of a token is one of its kind, and the token has the payload that it stands for. -/
structure Token.Spelled (t : Token) : Prop where
  lexeme : Lexeme t.kind t.lexeme.runes
  payload : t.payload = Scanner.payload t.kind t.lexeme.runes

namespace Scanner

open Lexeme

theorem longest_of_lexeme {kind : Kind} {r : Rune} {ls : List Rune} (h : Lexeme kind (r :: ls)) :
    longest r ls = .token kind ls.length := by
  have hholds := longest_holds r ls
  cases hmatch : longest r ls with
  | token kind' more =>
    rw [hmatch] at hholds
    have hmore : more = ls.length :=
      Nat.le_antisymm hholds.le (hholds.longest kind ls h List.prefix_rfl)
    have hlexeme := hholds.lexeme
    rw [hmore, List.take_length] at hlexeme
    rw [hmore, h.kind_unique hlexeme]
  | openString =>
    rw [hmatch] at hholds
    exact absurd List.prefix_rfl (hholds.2.2 kind ls h)
  | nothing =>
    rw [hmatch] at hholds
    exact absurd List.prefix_rfl (hholds.2 kind ls h)

/-- The runes are none, or a space comes first. -/
def Spaced (rs : List Rune) : Prop :=
  rs = [] ∨ ∃ more, rs = .char ' ' :: more

variable {kind : Kind} {l : Text} {more : List Rune}

theorem longest_spaced {r : Rune} {ls : List Rune} (h : Lexeme kind (r :: ls))
    (hmore : Spaced more) : longest r (ls ++ more) = .token kind ls.length := by
  have hlongest := longest_of_lexeme h
  obtain rfl | ⟨more, rfl⟩ := hmore
  · rw [List.append_nil, hlongest]
  · rw [longest_append_blank (by decide) (by rw [hlongest]; simp), hlongest]

theorem start_of_blank {c : Char} (h : c = ' ' ∨ c = '\r' ∨ c = '\t' ∨ c = '\n') :
    Start.of c = .other := by
  rcases h with rfl | rfl | rfl | rfl <;>
    rw [Start.of_eq (by decide), if_neg (by decide), if_neg (by decide +kernel)]

theorem triviaLength_lexeme {rs : List Rune} (h : Lexeme kind rs) (hmore : Spaced more) :
    triviaLength .none (rs ++ more) = 0 := by
  obtain ⟨r, ls, rfl⟩ := List.exists_cons_of_ne_nil h.ne_nil
  obtain ⟨c, rfl, hcontinues⟩ := continues_of_lexeme h
  have hblank : ¬ (c = ' ' ∨ c = '\r' ∨ c = '\t' ∨ c = '\n') := by
    intro hc
    rw [start_of_blank hc] at hcontinues
    exact hcontinues
  -- a slash is a lexeme by itself, so what follows it is in `more`
  have hslash : ¬ (c = '/' ∧ (ls ++ more).head? = some (.char '/')) := by
    rintro ⟨rfl, hhead⟩
    have hstart : Start.of '/' = .mark .slash := rfl
    rw [hstart] at hcontinues
    rw [hcontinues.2, List.nil_append] at hhead
    obtain rfl | ⟨more, rfl⟩ := hmore <;> cases hhead
  rw [List.cons_append, triviaLength, if_neg hblank, if_neg hslash]

theorem items_lexeme (h : Lexeme kind l.runes) (hmore : Spaced more) (p : Position) :
    (⟨l.runes ++ more, p⟩ : Scanner).items =
      .ok ⟨kind, l, p, payload kind l.runes⟩ :: (⟨more, p.afterAll l.runes⟩ : Scanner).items := by
  have hskip : (⟨l.runes ++ more, p⟩ : Scanner).skipTrivia = ⟨l.runes ++ more, p⟩ := by
    rw [skipTrivia, triviaLength_lexeme h hmore]
    rfl
  obtain ⟨r, ls, hrunes⟩ := List.exists_cons_of_ne_nil h.ne_nil
  have hlexeme : Text.ofRunes (r :: ls) = l := by rw [← hrunes, Text.ofRunes_runes]
  rw [hrunes] at h hskip ⊢
  have hne : (⟨r :: ls ++ more, p⟩ : Scanner).skipTrivia.rest ≠ [] := by
    rw [hskip]
    exact List.cons_ne_nil _ _
  rw [items_of_ne_end hne, next, hskip]
  simp only [List.cons_append, token, longest_spaced h hmore, List.take_left, List.drop_left,
    hlexeme]

theorem items_space (rs : List Rune) (p : Position) :
    (⟨.char ' ' :: rs, p⟩ : Scanner).items = (⟨rs, p.after (.char ' ')⟩ : Scanner).items := by
  apply items_congr
  have hlength : triviaLength .none (.char ' ' :: rs) = 1 + triviaLength .none rs := rfl
  rw [skipTrivia, hlength, ← drop_drop]
  rfl

def spacedLexemes (ts : List Token) : Text :=
  ts.flatMap fun t => 32 :: t.lexeme

theorem spaced_spacedLexemes (ts : List Token) : Spaced (spacedLexemes ts).runes := by
  cases ts with
  | nil => exact .inl rfl
  | cons t ts =>
    refine .inr ⟨(t.lexeme ++ spacedLexemes ts).runes, ?_⟩
    exact Text.runes_cons_ascii (by decide) _

theorem items_spacedLexemes {ts : List Token} (hts : ∀ t ∈ ts, t.Spelled) (p : Position) :
    ∃ us q, (⟨(spacedLexemes ts).runes, p⟩ : Scanner).items = us.map .ok ++ [.ok (.eof q)] ∧
      List.Forall₂ Token.Same ts us := by
  induction ts generalizing p with
  | nil =>
    refine ⟨[], p, ?_, .nil⟩
    rw [items_of_end (by rfl)]
    rfl
  | cons t ts ih =>
    obtain ⟨ht, hts⟩ := List.forall_mem_cons.mp hts
    have hrunes : (spacedLexemes (t :: ts)).runes =
        .char ' ' :: (t.lexeme.runes ++ (spacedLexemes ts).runes) := by
      rw [← ht.lexeme.runes_append]
      exact Text.runes_cons_ascii (by decide) _
    obtain ⟨us, q, hitems, hsame⟩ := ih hts _
    rw [hrunes, items_space, items_lexeme ht.lexeme (spaced_spacedLexemes ts), hitems]
    exact ⟨_ :: us, q, rfl, .cons ⟨rfl, rfl, ht.payload⟩ hsame⟩

theorem TokenAt.spelled {rest : Text} {t : Token} (h : TokenAt rest t) : t.Spelled := by
  refine ⟨h.longest.lexeme, ?_⟩
  -- what a token says about its payload leaves only one
  have h' := tokenAt_of_longestAt h.longest t.position
  by_cases hstring : t.kind = .string
  · obtain ⟨inside, hlexeme, hpayload⟩ := h.string_payload hstring
    obtain ⟨inside', hlexeme', hpayload'⟩ := h'.string_payload hstring
    have hinside := List.append_cancel_right (List.cons.inj (hlexeme.symm.trans hlexeme')).2
    rw [hpayload, hinside]
    exact hpayload'.symm
  · by_cases hnumber : t.kind = .number
    · obtain ⟨x, hx, hpayload, -⟩ := h.number_payload hnumber
      obtain ⟨x', hx', hpayload', -⟩ := h'.number_payload hnumber
      cases hx.symm.trans hx'
      rw [hpayload]
      exact hpayload'.symm
    · rw [h.no_payload hstring hnumber]
      exact (h'.no_payload hstring hnumber).symm

end Scanner

namespace Text

/-- The lexemes of a source with a space between neighbours. The end token is not written. -/
def respaced (source : Text) : Text :=
  joinWith (utf8 " ") ((source.tokens.filter fun t => t.kind ≠ .eof).map Token.lexeme)

theorem spelled_of_mem_tokens {source : Text} {t : Token} (h : t ∈ source.tokens)
    (ht : t.kind ≠ .eof) : t.Spelled := by
  obtain ⟨p, rfl⟩ | ⟨rest, hrest⟩ := tokenAt_of_mem_tokens h
  · exact absurd rfl ht
  · exact hrest.spelled

/-- Lexemes with spaces between them are scanned to the tokens they come from. -/
theorem scan_joined {ts : List Token} (hts : ∀ t ∈ ts, t.Spelled) :
    ∃ us q, (joinWith (utf8 " ") (ts.map Token.lexeme)).scan = us.map .ok ++ [.ok (.eof q)] ∧
      List.Forall₂ Token.Same ts us := by
  cases ts with
  | nil => exact Scanner.items_spacedLexemes hts .start
  | cons t ts =>
    obtain ⟨ht, hts⟩ := List.forall_mem_cons.mp hts
    have hjoin : joinWith (utf8 " ") ((t :: ts).map Token.lexeme) =
        t.lexeme ++ Scanner.spacedLexemes ts := by
      rw [List.map_cons, joinWith_cons, List.flatMap_map]
      rfl
    obtain ⟨us, q, hitems, hsame⟩ := Scanner.items_spacedLexemes hts _
    rw [hjoin, scan, Scanner.ofText, ht.lexeme.runes_append,
      Scanner.items_lexeme ht.lexeme (Scanner.spaced_spacedLexemes ts), hitems]
    exact ⟨_ :: us, q, rfl, .cons ⟨rfl, rfl, ht.payload⟩ hsame⟩

theorem tokens_respaced {source : Text} (h : source.scanErrors = []) :
    source.respaced.scanErrors = [] ∧
      List.Forall₂ Token.Same source.tokens source.respaced.tokens := by
  obtain ⟨ts, p, htokens⟩ := Parser.exists_tokens_eq source
  have hne := Run.ne_eof_of_tokens htokens h
  have hspelled : ∀ t ∈ ts, t.Spelled := fun t ht =>
    spelled_of_mem_tokens (htokens ▸ List.mem_append_left _ ht) (hne t ht)
  have hfilter : (source.tokens.filter fun t => t.kind ≠ .eof) = ts := by
    rw [htokens, List.filter_append, List.filter_eq_self.mpr fun t ht => decide_eq_true (hne t ht)]
    exact List.append_nil ts
  obtain ⟨us, q, hscan, hsame⟩ := scan_joined hspelled
  rw [← hfilter, ← respaced] at hscan
  constructor
  · rw [scanErrors, hscan, Run.errors_after_tokens]
    rfl
  · have htokens' : source.respaced.tokens = us ++ [.eof q] := by
      rw [tokens, hscan, List.filterMap_append, List.filterMap_map]
      exact congrArg (· ++ [Token.eof q]) List.filterMap_some
    rw [htokens, htokens']
    exact List.rel_append hsame (.cons ⟨rfl, rfl, rfl⟩ .nil)

end Text

namespace Expr

variable {R : Token → Token → Prop}

/-- The same value, or errors about operands of the same kinds, at related operators. -/
inductive EvalMatches (R : Token → Token → Prop) :
    Except EvalError Value → Except EvalError Value → Prop
  | ok (v : Value) : EvalMatches R (.ok v) (.ok v)
  | type {op op' : Token} (hop : R op op') (ks : List ValueKind) :
      EvalMatches R (.error (.type ⟨op, ks⟩)) (.error (.type ⟨op', ks⟩))

theorem EvalMatches.bind {r r' : Except EvalError Value} {f f' : Value → Except EvalError Value}
    (h : EvalMatches R r r') (hf : ∀ v, EvalMatches R (f v) (f' v)) :
    EvalMatches R (r >>= f) (r' >>= f') := by
  cases h with
  | ok v => exact hf v
  | type hop ks => exact .type hop ks

theorem applyUnary_matches {op op' : Token} (hop : R op op') (hkind : op.kind = op'.kind)
    (x : Value) : EvalMatches R (applyUnary op x) (applyUnary op' x) := by
  unfold applyUnary
  rw [← hkind]
  split
  · exact .ok _
  · exact .ok _
  · exact .type hop _

theorem applyBinary_matches {op op' : Token} (hop : R op op') (hkind : op.kind = op'.kind)
    (x y : Value) : EvalMatches R (applyBinary op x y) (applyBinary op' x y) := by
  unfold applyBinary
  rw [← hkind]
  split
  · exact .ok _
  · exact .ok _
  · split
    · split
      · exact .ok _
      · exact .ok _
      · exact .type hop _
    · split
      · exact .ok _
      · exact .type hop _
    · exact .type hop _

theorem eval_matches (hR : ∀ t t', R t t' → t.kind = t'.kind) {e e' : Expr}
    (h : e.Matches R e') : EvalMatches R e.eval e'.eval := by
  induction h with
  | literal _ v => exact .ok v
  | unary hop _ ih => exact ih.bind (applyUnary_matches hop (hR _ _ hop))
  | binary hop _ _ ihl ihr =>
    exact ihl.bind fun x => ihr.bind fun y => applyBinary_matches hop (hR _ _ hop) x y

end Expr

theorem Token.Same.literal_eq {t t' : Token} (h : t.Same t') : Grammar.literal? t = Grammar.literal? t' := by
  simp only [Grammar.literal?, Parser.literalValue?, h.kind, h.lexeme, h.payload]

namespace Run

open ExprCalc.Parser Grammar

/-- The tokens stand at the same index in the two sources, and are the same but for their place. -/
structure Corresponds (source source' : Text) (t t' : Token) : Prop where
  same : t.Same t'
  index : ∃ i : Nat, source.tokens[i]? = some t ∧ source'.tokens[i]? = some t'

theorem same_of_getElem? {ts us : List Token} {i : Nat} {t u : Token}
    (h : List.Forall₂ Token.Same ts us) (ht : ts[i]? = some t) (hu : us[i]? = some u) :
    t.Same u := by
  obtain ⟨hi, rfl⟩ := List.getElem?_eq_some_iff.mp ht
  obtain ⟨hi', rfl⟩ := List.getElem?_eq_some_iff.mp hu
  exact h.get hi hi'

/-- A scanner that has delivered the tokens in front of the index delivers the one at it. -/
theorem next_of_items {s : Scanner} {ts : List Token} {i : Nat}
    (h : s.items = (ts.drop i).map .ok) :
    ∃ t s', s.next = (.ok t, s') ∧ ts[i]? = some t ∧
      s'.items = (ts.drop (if t.kind = .eof then i else i + 1)).map .ok := by
  obtain ⟨item, s', hnext⟩ : ∃ item s', s.next = (item, s') := ⟨_, _, rfl⟩
  cases item with
  | error e =>
    rw [Scanner.items_of_next_error hnext] at h
    cases hdrop : ts.drop i <;> rw [hdrop] at h <;> cases h
  | ok t =>
    refine ⟨t, s', hnext, ?_⟩
    have hitems := Scanner.items_of_next_ok hnext
    cases hdrop : ts.drop i with
    | nil =>
      rw [h, hdrop] at hitems
      cases hitems
    | cons u us =>
      have htail : ts.drop (i + 1) = us := by rw [← List.drop_drop, hdrop]; rfl
      have hindex : ts[i]? = some u := by rw [← List.head?_drop, hdrop]; rfl
      rw [h, hdrop] at hitems
      obtain ⟨hu, hrest⟩ := List.cons.inj hitems
      cases hu
      refine ⟨hindex, ?_⟩
      split
      · next heof => rw [Scanner.items_of_next_eof hnext heof, h]
      · next heof => rw [htail, hrest, if_neg heof]

def layouts {source source' : Text}
    (h : List.Forall₂ Token.Same source.tokens source'.tokens) : Simulation scanning scanning where
  Tok := Corresponds source source'
  Err _ _ := False
  Rel s s' := ∃ i : Nat, s.items = (source.tokens.drop i).map .ok ∧
    s'.items = (source'.tokens.drop i).map .ok
  kind_eq ht := ht.same.kind
  literal_eq ht := ht.same.literal_eq
  next := by
    rintro s s' ⟨i, hs, hs'⟩
    obtain ⟨t, u, hnext, ht, hu⟩ := next_of_items hs
    obtain ⟨t', u', hnext', ht', hu'⟩ := next_of_items hs'
    have hsame : t.Same t' := same_of_getElem? h ht ht'
    change Delivers _ _ _ s.next s'.next
    rw [hnext, hnext']
    refine .token ⟨hsame, i, ht, ht'⟩ ⟨_, hu, ?_⟩
    rw [hu', hsame.kind]

/-- How two parses of the same tokens end: with trees that match, or with errors of one sort at
related tokens. -/
inductive SameTree (R : Token → Token → Prop) : Except Failure Expr → Except Failure Expr → Prop
  | tree {e e' : Expr} (h : e.Matches R e') : SameTree R (.ok e) (.ok e')
  | syntax_ {e e' : SyntaxError} (h : e.Matches R e') :
      SameTree R (.error (.during (utf8 "parse") (.ofSyntax e)))
        (.error (.during (utf8 "parse") (.ofSyntax e')))

inductive SameValue (R : Token → Token → Prop) : Except Failure Value → Except Failure Value → Prop
  | value (v : Value) : SameValue R (.ok v) (.ok v)
  | syntax_ {e e' : SyntaxError} (h : e.Matches R e') :
      SameValue R (.error (.during (utf8 "parse") (.ofSyntax e)))
        (.error (.during (utf8 "parse") (.ofSyntax e')))
  | type {op op' : Token} (h : R op op') (ks : List ValueKind) :
      SameValue R (.error (.during (utf8 "eval") (.ofType ⟨op, ks⟩)))
        (.error (.during (utf8 "eval") (.ofType ⟨op', ks⟩)))

section Layouts

variable {source source' : Text} (h : List.Forall₂ Token.Same source.tokens source'.tokens)
  (hnone : source.scanErrors = []) (hnone' : source'.scanErrors = [])
include h hnone hnone'

theorem parsed_layouts : (layouts h).Answers (parsed source).1 (parsed source').1 := by
  have hscan : source.scan = source.tokens.map .ok := map_ok_tokens hnone
  have hscan' : source'.scan = source'.tokens.map .ok := map_ok_tokens hnone'
  have hstart : (layouts h).Cursors (.start (.ofText source)) (.start (.ofText source')) :=
    .empty ⟨0, hscan, hscan'⟩
  have hanswers := ((layouts h).parse_answers hstart).1
  rwa [parse_scanning, parse_scanning] at hanswers

theorem sameTree_layouts (tracing tracing' : Tracing) :
    SameTree (Corresponds source source') (parse tracing source).result
      (parse tracing' source').result := by
  have hanswers := parsed_layouts h hnone hnone'
  rw [parse_result, parse_result]
  generalize (parsed source).1 = r at hanswers ⊢
  generalize (parsed source').1 = r' at hanswers ⊢
  cases hanswers with
  | ok he => exact .tree he
  | error hstop =>
    cases hstop with
    | source he => cases he
    | syntax_ he => exact .syntax_ he

theorem sameValue_layouts (tracing tracing' : Tracing) :
    SameValue (Corresponds source source') (evaluate tracing source).result
      (evaluate tracing' source').result := by
  have hanswers := parsed_layouts h hnone hnone'
  rw [evaluate_result, evaluate_result]
  generalize (parsed source).1 = r at hanswers ⊢
  generalize (parsed source').1 = r' at hanswers ⊢
  cases hanswers with
  | @ok e e' he =>
    have heval := Expr.eval_matches (fun _ _ ht => ht.same.kind) he
    simp only
    generalize e.eval = v at heval ⊢
    generalize e'.eval = v' at heval ⊢
    cases heval with
    | ok v => exact .value v
    | type hop ks => exact .type hop ks
  | error hstop =>
    cases hstop with
    | source he => cases he
    | syntax_ he => exact .syntax_ he

end Layouts

/-- Layout and comments carry no meaning. The lexemes of a source without scan errors, written with
spaces between them, have no scan errors and are scanned to the same tokens; the parser finds in
them the same tree or an error of the same sort at the corresponding token, and the evaluation gives
the same value or the same error. -/
theorem layout_carries_no_meaning (tracing tracing' : Tracing) (source : Text)
    (h : source.scanErrors = []) :
    source.respaced.scanFailure = none ∧
    List.Forall₂ Token.Same source.tokens source.respaced.tokens ∧
    (∃ us q, source.respaced.tokens = us ++ [.eof q] ∧ ∀ t ∈ us, t.kind ≠ .eof) ∧
    SameTree (Corresponds source source.respaced) (parse tracing source).result
      (parse tracing' source.respaced).result ∧
    SameValue (Corresponds source source.respaced) (evaluate tracing source).result
      (evaluate tracing' source.respaced).result := by
  obtain ⟨hnone, hsame⟩ := Text.tokens_respaced h
  refine ⟨?_, hsame, ?_, ?_, ?_⟩
  · rw [Text.scanFailure, hnone]
    rfl
  · obtain ⟨us, q, htokens⟩ := exists_tokens_eq source.respaced
    exact ⟨us, q, htokens, ne_eof_of_tokens htokens hnone⟩
  · exact sameTree_layouts hsame h hnone tracing tracing'
  · exact sameValue_layouts hsame h hnone tracing tracing'

/-- Operators without spaces, a comment, and a string with two slashes, a line feed and a byte that
belongs to no character. -/
def laidOut : Text :=
  utf8 "-(7 // seven\n)<=\"a//\nb" ++ [0xFF, 34]

theorem respaced_laidOut :
    laidOut.scanErrors = [] ∧
    laidOut.respaced = utf8 "- ( 7 ) <= \"a//\nb" ++ [0xFF, 34] ∧
    SameValue (Corresponds laidOut laidOut.respaced) (evaluate ⟨false, false⟩ laidOut).result
      (evaluate ⟨true, true⟩ laidOut.respaced).result := by
  have hnone : laidOut.scanErrors = [] := by decide +kernel
  have hrespaced : laidOut.respaced = utf8 "- ( 7 ) <= \"a//\nb" ++ [0xFF, 34] := by
    decide +kernel
  exact ⟨hnone, hrespaced,
    (layout_carries_no_meaning ⟨false, false⟩ ⟨true, true⟩ laidOut hnone).2.2.2.2⟩

end Run

end ExprCalc
