import ExprCalc.Proofs.Run.Parsed
import ExprCalc.Proofs.Eval.Postfix

namespace ExprCalc

namespace Run

open ExprCalc.Parser

/-- The items that a parser with this cursor has not taken. It does not go past an end token. -/
def left (c : Cursor Recording) : List ScanItem :=
  match c.held with
  | none => c.rest.scanner.items
  | some t => if t.kind = .eof then [] else c.rest.scanner.items

/-- The scan error that the machine has failed with. -/
def met : Control ScanError → List ScanItem
  | .failed (.stop (.source e)) => [.error e]
  | _ => []

/-- The items of a source are those taken, the error that ended the run, and those left. -/
def Accounts (source : Text) (m : Machine Recording ScanError) : Prop :=
  source.scan = m.cursor.rest.taken.reverse.map .ok ++ (met m.core.control ++ left m.cursor)

theorem met_of_goesOn {limit : Nat} {core next : Core ScanError} (h : core.GoesOn limit next) :
    met next.control = met core.control := by
  cases h with
  | level | unary => rfl
  | @resume _ _ e frame stack =>
    cases frame with
    | first | group => rfl
    | right =>
      simp only [Core.resume]
      split <;> rfl
    | unary op =>
      cases op with
      | none => rfl
      | some op =>
        simp only [Core.resume]
        split <;> rfl
  | @unwind _ _ fault frame stack => cases frame <;> rfl

theorem met_of_looks {limit : Nat} {core : Core ScanError} {look : Token → Bool × Core ScanError}
    (h : core.Looks limit look) (t : Token) :
    met core.control = [] ∧ met (look t).2.control = [] := by
  cases h with
  | primary =>
    refine ⟨rfl, ?_⟩
    unfold Core.primaryLook
    split
    · rfl
    · split <;> rfl
  | unary =>
    refine ⟨rfl, ?_⟩
    unfold Core.unaryLook
    simp only
    split
    · rfl
    · split <;> rfl
  | loop =>
    refine ⟨rfl, ?_⟩
    unfold Core.loopLook
    split <;> rfl
  | close =>
    refine ⟨rfl, ?_⟩
    unfold Core.closeLook
    split <;> rfl
  | finish =>
    refine ⟨rfl, ?_⟩
    unfold Core.endLook
    split <;> rfl

theorem left_looked {found : Bool × Core ScanError} {t : Token} {r : Recording}
    (h : t.kind = .eof → found.1 = false) :
    left (Machine.looked found t r).cursor = if t.kind = .eof then [] else r.scanner.items := by
  by_cases heof : t.kind = .eof
  · simp [Machine.looked, left, h heof, heof]
  · cases hused : found.1 <;> simp [Machine.looked, left, hused, heof]

theorem recording_error {r r' : Recording} {e : ScanError}
    (h : Recording.source.next r = (.error e, r')) : r'.taken = r.taken := by
  simp only [Recording.source, Recording.next] at h
  generalize r.scanner.next = found at h
  obtain ⟨item, s⟩ := found
  cases item <;> cases h
  rfl

/-- Every step accounts for all items. -/
theorem accounts_step {source : Text} {limit : Nat} {m m' : Machine Recording ScanError}
    {ts : List Token} (h : Accounts source m)
    (hstep : m.step Recording.source limit = some (ts, m')) : Accounts source m' := by
  obtain ⟨core, c⟩ := m
  unfold Accounts at h ⊢
  rw [h]
  -- only a step that asks the source moves an item, from those left to those taken or met
  obtain ⟨next, hmove, -, rfl⟩ | ⟨look, t, hmove, hheld, -, rfl⟩ |
    ⟨look, t, r, hmove, hheld, hnext, -, rfl⟩ | ⟨look, e, r, hmove, hheld, hnext, -, rfl⟩ :=
    step_cases hstep
  · rw [met_of_goesOn (Core.goesOn_of_move hmove)]
  · obtain ⟨hcore, hlook⟩ := met_of_looks (Core.looks_of_move hmove) t
    rw [left_looked (Core.looks_of_move hmove).left_of_eof]
    simp only [Machine.looked, hcore, hlook, left, hheld]
  · obtain ⟨hcore, hlook⟩ := met_of_looks (Core.looks_of_move hmove) t
    obtain ⟨s, hscanner, rfl⟩ := recording_next_ok.mp hnext
    rw [left_looked (Core.looks_of_move hmove).left_of_eof]
    simp only [Machine.looked, hcore, hlook, left, hheld, Scanner.items_of_next_ok hscanner]
    simp
  · obtain ⟨hcore, -⟩ := met_of_looks (Core.looks_of_move hmove) (.eof .start)
    simp only [fail_control, hcore, left, hheld, recording_error hnext,
      Scanner.items_of_next_error (recording_next_error hnext)]
    rfl

theorem accounts_start (source : Text) : Accounts source (Memory.start (.start source)).call :=
  rfl

/-- A parse takes all tokens of the source, or those before its first error, or some at its start
that are no sentence. -/
theorem pulled_cases (source : Text) :
    (∃ e, (parsed source).1 = .ok e ∧ source.scan = (pulled source).map .ok) ∨
    (∃ e later, (parsed source).1 = .error (.source e) ∧
      source.scan = (pulled source).map .ok ++ .error e :: later) ∨
    ∃ e later, (parsed source).1 = .error (.syntax_ e) ∧
      source.scan = (pulled source).map .ok ++ later := by
  obtain ⟨result, p, hcall, -, hwhole⟩ :=
    @call_of_whole _ _ Recording.source maxDepth (.start (.start source)) rfl
  have haccounts : Accounts source (p.returned result) :=
    Reaches.invariant hcall (accounts_start source) fun _ _ _ => accounts_step
  have hparsed : parsed source = (result.mapError Fault.toStop, p.cursor) :=
    hcall.parse_eq rfl
  rw [pulled, hparsed]
  cases result with
  | ok e =>
    -- a call that returns a tree holds the end token, after which nothing is left
    obtain ⟨t, hheld, heof⟩ := held_of_whole hwhole
    refine .inl ⟨e, rfl, ?_⟩
    simpa [Accounts, Memory.returned, met, left, hheld, heof] using haccounts
  | error fault =>
    cases fault with
    | limit t => exact .inr (.inr ⟨.unexpected t, left p.cursor, rfl, haccounts⟩)
    | stop s =>
      cases s with
      | source e => exact .inr (.inl ⟨e, left p.cursor, rfl, haccounts⟩)
      | syntax_ e => exact .inr (.inr ⟨e, left p.cursor, rfl, haccounts⟩)

theorem pulls_pulled (source : Text) :
    ∃ s, Pulls scanning (.ofText source) (pulled source) s ∧
      (s = (parsed source).2.rest.scanner ∨
        ∃ e, (parsed source).1 = .error (.source e) ∧
          s.next = (.error e, (parsed source).2.rest.scanner)) := by
  have hdemands : Demands Recording.source (whole Recording.source maxDepth) := demands_whole
  obtain ⟨ts, r, result, held, hpulls, hdecided⟩ | ⟨ts, r, e, r', hpulls, hnext, hrun⟩ :=
    hdemands none (.start source)
  · obtain ⟨hscanner, htaken⟩ := pulls_of_recording hpulls
    rw [pulled, parsed_of_finish (hdecided.run _ _ hpulls)]
    refine ⟨r.scanner, ?_, .inl rfl⟩
    simpa [htaken, Recording.start] using hscanner
  · obtain ⟨hscanner, htaken⟩ := pulls_of_recording hpulls
    have hparsed : parsed source = (.error (.source e), ⟨none, r'⟩) := by
      rw [parsed, Parser.parse, Cursor.start, hrun]
    rw [pulled, hparsed]
    refine ⟨r.scanner, ?_, .inr ⟨e, rfl, recording_next_error hnext⟩⟩
    simpa [recording_error hnext, htaken, Recording.start] using hscanner

/-- The lines of some items in a listing. -/
def listed (items : List ScanItem) : Text :=
  items.flatMap fun item => Text.line (ScanItem.text item)

theorem listed_tokens (ts : List Token) : listed (ts.map .ok) = tokenTrace ts := by
  rw [listed, List.flatMap_map]
  rfl

theorem listing_of_scan {source : Text} {ts : List Token} {later : List ScanItem}
    (h : source.scan = ts.map .ok ++ later) : source.listing = tokenTrace ts ++ listed later := by
  rw [Text.listing, h, List.flatMap_append, ← listed, ← listed, listed_tokens]

/-- What a traced run of a source writes for the tokens, when it ends with the given result. The
second field is about a parser that is not traced. -/
structure TokenPart (source : Text) (result : Except Failure Expr) (read : Text) : Prop where
  lines : read = tokenTrace (pulled source)
  pulls : ∃ s, Pulls scanning (.ofText source) (pulled source) s ∧
    (s = (Parser.parse scanning (.start (.ofText source))).2.rest ∨
      ∃ e, s.next = (.error e, (Parser.parse scanning (.start (.ofText source))).2.rest))
  starts : read <+: source.listing
  whole : ∀ e, result = .ok e → read = source.listing ∧
    ∃ ts p, pulled source = ts ++ [.eof p] ∧ ∀ t ∈ ts, t.kind ≠ .eof
  upToError : ∀ f, result = .error (.during (utf8 "lex") f) →
    ∃ e later, source.scan = (pulled source).map .ok ++ .error e :: later ∧
      source.listing = read ++ (Text.line (utf8 "error: " ++ e.message) ++ listed later)

theorem parse_result (tracing : Tracing) (source : Text) :
    (parse tracing source).result =
      (parsed source).1.mapError fun stop => failure stop (parsed source).2.rest.scanner := by
  unfold parse
  rw [← parsed]
  obtain ⟨outcome, c⟩ := parsed source
  cases outcome <;> rfl

theorem exists_pulled_eof {source : Text} {e : Expr} (h : (parsed source).1 = .ok e)
    (hscan : source.scan = (pulled source).map .ok) :
    ∃ ts p, pulled source = ts ++ [.eof p] ∧ ∀ t ∈ ts, t.kind ≠ .eof := by
  have htokens : source.tokens = pulled source := by
    rw [Text.tokens, hscan, List.filterMap_map]
    exact List.filterMap_some
  obtain ⟨ts, p, -, hts, hne, -⟩ := derives_of_parsed h
  exact ⟨ts, p, htokens.symm.trans hts, hne⟩

theorem tokenPart (tracing : Tracing) (source : Text) :
    TokenPart source (parse tracing source).result (tokenTrace (pulled source)) := by
  have hresult := parse_result tracing source
  refine ⟨rfl, ?_, ?_, ?_, ?_⟩
  · obtain ⟨s, hpulls, hs⟩ := pulls_pulled source
    rw [parse_scanning]
    exact ⟨s, hpulls, hs.imp_right fun ⟨e, _, hnext⟩ => ⟨e, hnext⟩⟩
  · obtain ⟨e, -, hscan⟩ | ⟨e, later, -, hscan⟩ | ⟨e, later, -, hscan⟩ := pulled_cases source
    · rw [← List.append_nil (List.map _ _)] at hscan
      exact ⟨_, (listing_of_scan hscan).symm⟩
    · exact ⟨_, (listing_of_scan hscan).symm⟩
    · exact ⟨_, (listing_of_scan hscan).symm⟩
  · intro e he
    obtain ⟨_, hparsed, hscan⟩ | ⟨_, _, hparsed, -⟩ | ⟨_, _, hparsed, -⟩ := pulled_cases source
    · refine ⟨?_, exists_pulled_eof hparsed hscan⟩
      rw [← List.append_nil (List.map _ _)] at hscan
      rw [listing_of_scan hscan]
      exact (List.append_nil _).symm
    · rw [hresult, hparsed] at he
      cases he
    · rw [hresult, hparsed] at he
      cases he
  · intro f hf
    obtain ⟨_, hparsed, -⟩ | ⟨e, later, -, hscan⟩ | ⟨e, _, hparsed, -⟩ := pulled_cases source
    · rw [hresult, hparsed] at hf
      cases hf
    · exact ⟨e, later, hscan, listing_of_scan hscan⟩
    · -- a syntax error is reported for another activity
      rw [hresult, hparsed] at hf
      have hactivity : utf8 "parse" = utf8 "lex" := by
        cases hf
      exact absurd hactivity (by decide)

def nodeLine (t : Token) : Text :=
  Text.line (utf8 "\t" ++ t.position.text ++ utf8 " " ++ t.lexeme)

structure TreePart (tracing : Tracing) (result : Except Failure Expr) (tree : Text) : Prop where
  present : tree ≠ [] ↔ tracing.tree ∧ ∃ e, result = .ok e
  lines : ∀ e, tracing.tree → result = .ok e →
    ∃ ts : List Token, e.nodes.map Expr.token? = ts.map some ∧
      tree = Text.line e.text ++ ts.flatMap nodeLine

theorem exists_node_tokens {r : Grammar.Phrase} {us : List Token} {e : Expr} {n : Nat}
    (h : Grammar.Derives r us e n) :
    ∃ ts : List Token, e.nodes.map Expr.token? = ts.map some := by
  induction h with
  | @literal t => exact ⟨[t], rfl⟩
  | group _ _ _ ih => exact ih
  | primary _ ih => exact ih
  | @unary op _ e _ _ _ ih =>
    obtain ⟨ts, hts⟩ := ih
    refine ⟨ts ++ [op], ?_⟩
    simp [Expr.nodes_eq (.unary op e), Expr.children, hts, Expr.token?]
  | operand _ ih => exact ih
  | @binary _ op _ _ left right _ _ _ _ _ ihl ihr =>
    obtain ⟨ts, hts⟩ := ihl
    obtain ⟨us, hus⟩ := ihr
    refine ⟨ts ++ (us ++ [op]), ?_⟩
    simp [Expr.nodes_eq (.binary left op right), Expr.children, hts, hus, Expr.token?]

theorem flatMap_nodeTrace {nodes : List Expr} {ts : List Token}
    (h : nodes.map Expr.token? = ts.map some) : nodes.flatMap nodeTrace = ts.flatMap nodeLine := by
  induction nodes generalizing ts with
  | nil =>
    obtain rfl := List.map_eq_nil_iff.mp h.symm
    rfl
  | cons x nodes ih =>
    cases ts with
    | nil => cases h
    | cons t ts =>
      obtain ⟨hx, hnodes⟩ := List.cons.inj h
      rw [List.flatMap_cons, List.flatMap_cons, ih hnodes, nodeTrace, hx]
      rfl

theorem treeTrace_eq {e : Expr} {ts : List Token} (h : e.nodes.map Expr.token? = ts.map some) :
    treeTrace e = Text.line e.text ++ ts.flatMap nodeLine := by
  rw [treeTrace, Expr.textOnto_eq, flatMap_nodeTrace h, Text.line, List.append_assoc]
  rfl

theorem parse_trace (tracing : Tracing) (source : Text) :
    (parse tracing source).trace =
      (if tracing.tokens then tokenTrace (pulled source) else []) ++
        match (parsed source).1 with
        | .ok e => if tracing.tree then treeTrace e else []
        | .error _ => [] := by
  unfold parse pulled
  rw [← parsed]
  obtain ⟨outcome, c⟩ := parsed source
  cases outcome with
  | ok e => rfl
  | error stop => exact (List.append_nil _).symm

theorem treePart (tracing : Tracing) (source : Text) :
    TreePart tracing (parse tracing source).result
      (match (parsed source).1 with
      | .ok e => if tracing.tree then treeTrace e else []
      | .error _ => []) := by
  rw [parse_result]
  cases hparsed : (parsed source).1 with
  | error stop =>
    refine ⟨⟨fun h => absurd rfl h, ?_⟩, ?_⟩
    · rintro ⟨-, e, ⟨⟩⟩
    · rintro e - ⟨⟩
  | ok e =>
    obtain ⟨_, _, n, -, -, hderives⟩ := derives_of_parsed hparsed
    obtain ⟨ts, hts⟩ := exists_node_tokens hderives
    have htrace := treeTrace_eq hts
    refine ⟨⟨?_, ?_⟩, ?_⟩
    · intro h
      refine ⟨?_, e, rfl⟩
      by_contra htree
      exact h (if_neg htree)
    · rintro ⟨htree, -⟩
      simp only [htree, if_true, htrace, Text.line]
      simp
    · rintro _ htree ⟨⟩
      exact ⟨ts, hts, (if_pos htree).trans htrace⟩

theorem evaluate_trace (tracing : Tracing) (source : Text) :
    (evaluate tracing source).trace = (parse tracing source).trace := by
  unfold evaluate
  generalize parse tracing source = outcome
  obtain ⟨result, trace⟩ := outcome
  cases result <;> rfl

/-- Tracing changes no result, and an evaluation is traced as its parse is. The part of the tokens
agrees with the listing of the source, and the part of the tree comes after it. -/
theorem trace_agrees_with_listing (tracing : Tracing) (source : Text) :
    (parse tracing source).result = (parse ⟨false, false⟩ source).result ∧
    (evaluate tracing source).result = (evaluate ⟨false, false⟩ source).result ∧
    (evaluate tracing source).trace = (parse tracing source).trace ∧
    ∃ read tree, (parse tracing source).trace = read ++ tree ∧
      (tracing.tokens = false → read = []) ∧
      (tracing.tokens = true → TokenPart source (parse tracing source).result read) ∧
      TreePart tracing (parse tracing source).result tree := by
  refine ⟨?_, ?_, ?_, ?_⟩
  · rw [parse_result, parse_result]
  · rw [evaluate_result, evaluate_result]
  · exact evaluate_trace tracing source
  · refine ⟨_, _, parse_trace tracing source, ?_, ?_, treePart tracing source⟩
    · intro h
      rw [h]
      rfl
    · intro h
      rw [h]
      exact tokenPart tracing source

end Run

end ExprCalc
