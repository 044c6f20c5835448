import ExprCalc.Run
import ExprCalc.Proofs.Scanner.Cover
import ExprCalc.Proofs.Parser.Demand

namespace ExprCalc

theorem Text.joinWith_cons (sep t : Text) (ts : List Text) :
    joinWith sep (t :: ts) = t ++ ts.flatMap (sep ++ ·) := by
  induction ts generalizing t with
  | nil => exact (List.append_nil t).symm
  | cons u ts ih =>
    have hstep : joinWith sep (t :: u :: ts) = t ++ sep ++ joinWith sep (u :: ts) := rfl
    rw [hstep, ih, List.flatMap_cons, List.append_assoc, List.append_assoc]

namespace Failure

mutual

/-- The single failures that a failure is made of, in order. -/
def leaves : Failure → List Failure
  | located _ cause => leaves cause
  | during _ cause => leaves cause
  | joined parts => leavesOfAll parts
  | f => [f]

def leavesOfAll : List Failure → List Failure
  | [] => []
  | part :: parts => leaves part ++ leavesOfAll parts

end

/-- The scan errors `es` joined to a failure one after another. -/
def withScanErrors (f : Failure) (es : List ScanError) : Failure :=
  es.foldl (fun f e => join (some f) (scan e)) f

theorem leaves_withScanErrors (f : Failure) (es : List ScanError) :
    (f.withScanErrors es).leaves = f.leaves ++ es.map scan := by
  induction es generalizing f with
  | nil => exact (List.append_nil _).symm
  | cons e es ih =>
    have hjoin : (join (some f) (scan e)).leaves = f.leaves ++ [scan e] := rfl
    rw [withScanErrors, List.foldl_cons, ← withScanErrors, ih, hjoin, List.append_assoc]
    rfl

theorem messageOnto_withScanErrors (f : Failure) (es : List ScanError) (rest : Text) :
    (f.withScanErrors es).messageOnto rest =
      f.messageOnto (es.flatMap (fun e => 10 :: e.message) ++ rest) := by
  induction es generalizing f with
  | nil => rfl
  | cons e es ih =>
    have hjoin (t : Text) :
        (join (some f) (scan e)).messageOnto t = f.messageOnto (10 :: (e.message ++ t)) := rfl
    rw [withScanErrors, List.foldl_cons, ← withScanErrors, ih, hjoin, List.flatMap_cons,
      List.append_assoc]
    rfl

/-- The failure says just that the scan errors `es` were met, in this order. -/
structure Reports (f : Failure) (es : List ScanError) : Prop where
  leaves : f.leaves = es.map scan
  message : f.message = Text.joinWith [10] (es.map ScanError.message)

theorem reports_withScanErrors {f : Failure} {e : ScanError} (hleaves : f.leaves = [scan e])
    (hmessage : ∀ rest, f.messageOnto rest = e.message ++ rest) (es : List ScanError) :
    Reports (f.withScanErrors es) (e :: es) := by
  constructor
  · rw [leaves_withScanErrors, hleaves]
    rfl
  · rw [Failure.message, messageOnto_withScanErrors, hmessage, List.append_nil, List.map_cons,
      Text.joinWith_cons, List.flatMap_map]
    rfl

theorem joinAll_scan (e : ScanError) (es : List ScanError) :
    joinAll ((e :: es).map scan) = some ((join none (scan e)).withScanErrors es) := by
  rw [joinAll, List.map_cons, List.foldl_cons]
  generalize join none (scan e) = f
  induction es generalizing f with
  | nil => rfl
  | cons e es ih =>
    rw [List.map_cons, List.foldl_cons, ih]
    rfl

end Failure

theorem reports_scanFailure {source : Text} (h : source.scanErrors ≠ []) :
    ∃ f, source.scanFailure = some f ∧ f.Reports source.scanErrors := by
  obtain ⟨e, es, hes⟩ := List.exists_cons_of_ne_nil h
  rw [Text.scanFailure, hes, Failure.joinAll_scan]
  exact ⟨_, rfl, Failure.reports_withScanErrors rfl (fun _ => rfl) es⟩

theorem reports_withLaterErrors (e : ScanError) (s : Scanner) :
    (Run.withLaterErrors e s).Reports (e :: s.items.filterMap ScanItem.error?) :=
  Failure.reports_withScanErrors rfl (fun _ => rfl) _

namespace Run

open ExprCalc.Parser

/-- A scanner as a source of tokens, without a record of them. -/
def scanning : TokenSource Scanner ScanError := ⟨Scanner.next⟩

theorem recording_next_ok {r r' : Recording} {t : Token} :
    Recording.source.next r = (.ok t, r') ↔
      ∃ s, r.scanner.next = (.ok t, s) ∧ r' = ⟨s, t :: r.taken⟩ := by
  simp only [Recording.source, Recording.next]
  obtain ⟨item, s⟩ := r.scanner.next
  cases item with
  | ok u =>
    constructor
    · rintro ⟨⟩
      exact ⟨s, rfl, rfl⟩
    · rintro ⟨_, ⟨⟩, rfl⟩
      rfl
  | error e => simp

theorem recording_next_error {r r' : Recording} {e : ScanError}
    (h : Recording.source.next r = (.error e, r')) :
    r.scanner.next = (.error e, r'.scanner) := by
  simp only [Recording.source, Recording.next] at h
  generalize r.scanner.next = found at h ⊢
  obtain ⟨item, s⟩ := found
  cases item with
  | ok t => cases h
  | error e =>
    cases h
    rfl

theorem pulls_recording {s s' : Scanner} {ts : List Token} (h : Pulls scanning s ts s')
    (taken : List Token) : Pulls Recording.source ⟨s, taken⟩ ts ⟨s', ts.reverse ++ taken⟩ := by
  induction h generalizing taken with
  | nil => exact .nil
  | cons hnext _ ih =>
    rw [List.reverse_cons, List.append_assoc]
    exact .cons (recording_next_ok.mpr ⟨_, hnext, rfl⟩) (ih _)

theorem pulls_of_recording {r r' : Recording} {ts : List Token}
    (h : Pulls Recording.source r ts r') :
    Pulls scanning r.scanner ts r'.scanner ∧ r'.taken = ts.reverse ++ r.taken := by
  induction h with
  | nil => exact ⟨.nil, rfl⟩
  | cons hnext _ ih =>
    obtain ⟨s, hscanner, rfl⟩ := recording_next_ok.mp hnext
    refine ⟨.cons hscanner ih.1, ?_⟩
    rw [ih.2, List.reverse_cons, List.append_assoc]
    rfl

theorem rest_of_pulls_end {s s' : Scanner} {ts : List Token} (h : Pulls scanning s ts s')
    (hs : s.skipTrivia.rest = []) : s'.skipTrivia.rest = [] := by
  induction h with
  | nil => exact hs
  | @cons s s' s'' t ts hnext _ ih =>
    apply ih
    have hnext : s.next = (.ok t, s') := hnext
    rw [Scanner.next_of_end hs] at hnext
    cases hnext
    rw [Scanner.skipTrivia_of_rest_nil hs, hs]

/-- The tokens taken from a scanner are its first items, or else it has no errors. -/
theorem items_of_pulls {s s' : Scanner} {ts : List Token} (h : Pulls scanning s ts s') :
    s.items = ts.map .ok ++ s'.items ∨
      s.items.filterMap ScanItem.error? = [] ∧ s'.skipTrivia.rest = [] := by
  induction h with
  | nil => exact .inl rfl
  | @cons s s' s'' t ts hnext hpulls ih =>
    have hnext' : s.next = (.ok t, s') := hnext
    -- at the end the same end token is delivered again and again
    by_cases hs : s.skipTrivia.rest = []
    · refine .inr ⟨?_, rest_of_pulls_end (.cons hnext hpulls) hs⟩
      rw [Scanner.items_of_end hs, hnext']
      rfl
    · rw [Scanner.items_of_ne_end hs, hnext']
      obtain hitems | ⟨herrors, hend⟩ := ih
      · exact .inl (by rw [hitems]; rfl)
      · exact .inr ⟨herrors, hend⟩

theorem exists_pulls {s : Scanner} {ts : List Token} (h : ts.map .ok <+: s.items) :
    ∃ s', Pulls scanning s ts s' := by
  induction ts generalizing s with
  | nil => exact ⟨s, .nil⟩
  | cons t ts ih =>
    obtain ⟨tail, hitems, htail⟩ : ∃ tail, s.items = s.next.1 :: tail ∧
        tail <+: s.next.2.items := by
      by_cases hs : s.skipTrivia.rest = []
      · exact ⟨[], Scanner.items_of_end hs, List.nil_prefix⟩
      · exact ⟨_, Scanner.items_of_ne_end hs, List.prefix_rfl⟩
    obtain ⟨hitem, hts⟩ := List.cons_prefix_cons.mp (hitems ▸ h)
    obtain ⟨s', hs'⟩ := ih (hts.trans htail)
    exact ⟨s', .cons (Prod.ext hitem.symm rfl) hs'⟩

theorem errors_after_tokens (ts : List Token) (later : List ScanItem) :
    List.filterMap ScanItem.error? (ts.map .ok ++ later) = later.filterMap ScanItem.error? := by
  have htokens : List.filterMap ScanItem.error? (ts.map .ok) = [] := by
    rw [List.filterMap_map]
    exact List.filterMap_eq_nil_iff.mpr fun _ _ => rfl
  rw [List.filterMap_append, htokens, List.nil_append]

theorem exists_first_error {items : List ScanItem} (h : items.filterMap ScanItem.error? ≠ []) :
    ∃ (ts : List Token) (e : ScanError) (later : List ScanItem),
      items = ts.map .ok ++ .error e :: later := by
  induction items with
  | nil => exact absurd rfl h
  | cons item items ih =>
    cases item with
    | ok t =>
      obtain ⟨ts, e, later, hitems⟩ := ih h
      exact ⟨t :: ts, e, later, by rw [hitems]; rfl⟩
    | error e => exact ⟨[], e, items, rfl⟩

theorem ne_eof_of_scan {source : Text} {ts : List Token} {later : List ScanItem}
    (h : source.scan = ts.map .ok ++ later) (hlater : later ≠ []) : ∀ t ∈ ts, t.kind ≠ .eof := by
  obtain ⟨stretches, last, p, hitems, hcovers⟩ :=
    Scanner.items_covers _ (Scanner.aligned_ofText source)
  have hfront := congrArg List.dropLast (hitems.symm.trans h)
  rw [List.dropLast_concat, List.dropLast_append_of_ne_nil hlater] at hfront
  intro t ht
  have hmem : .ok t ∈ stretches.map Scanner.Stretch.item := by
    rw [hfront]
    exact List.mem_append_left _ (List.mem_map_of_mem ht)
  obtain ⟨s, hs, hitem⟩ := List.mem_map.mp hmem
  exact hcovers.ne_eof s hs t hitem

theorem scanErrors_of_eof {source : Text} {ts : List Token} {s : Scanner} {t : Token}
    (h : Pulls scanning (.ofText source) ts s) (ht : t ∈ ts) (heof : t.kind = .eof) :
    source.scanErrors = [] := by
  obtain hitems | ⟨herrors, -⟩ := items_of_pulls h
  · exact absurd heof (ne_eof_of_scan hitems s.items_ne_nil t ht)
  · exact herrors

theorem scanErrors_of_error {source : Text} {ts : List Token} {s s' : Scanner} {e : ScanError}
    (h : Pulls scanning (.ofText source) ts s) (hnext : s.next = (.error e, s')) :
    source.scanErrors = e :: s'.items.filterMap ScanItem.error? := by
  have hne : s.skipTrivia.rest ≠ [] := by
    intro hend
    rw [Scanner.next_of_end hend] at hnext
    cases hnext
  obtain hitems | ⟨-, hend⟩ := items_of_pulls h
  · rw [Text.scanErrors, Text.scan, hitems, errors_after_tokens, Scanner.items_of_ne_end hne, hnext]
    rfl
  · exact absurd hend hne

/-- How the parser ends on the tokens of a source. -/
def parsed (source : Text) : Except (Stop ScanError) Expr × Cursor Recording :=
  Parser.parse Recording.source (.start (.start source))

/-- The tokens that the parser takes from the scanner of a source. -/
def pulled (source : Text) : List Token :=
  (parsed source).2.rest.taken.reverse

theorem parsed_of_finish {source : Text} {result : Except SyntaxError Expr} {c : Cursor Recording}
    (h : whole Recording.source maxDepth ⟨none, .start source⟩ = finish result c) :
    parsed source = (result.mapError .syntax_, c) := by
  rw [parsed, Parser.parse, Cursor.start, h]
  cases result <;> rfl

/-- A parse finds an expression, and then the source has no scan errors; or it meets the first scan
error; or it meets a syntax error, and would meet it after the same tokens in any other source. -/
theorem parsed_cases (source : Text) :
    (∃ e, (parsed source).1 = .ok e ∧ source.scanErrors = []) ∨
    (∃ e, (parsed source).1 = .error (.source e) ∧ source.scanErrors =
      e :: (parsed source).2.rest.scanner.items.filterMap ScanItem.error?) ∨
    ∃ e, (parsed source).1 = .error (.syntax_ e) ∧
      (source.scanErrors ≠ [] →
        source.scan = (pulled source).map .ok ++ (parsed source).2.rest.scanner.items) ∧
      ∀ source' : Text, (pulled source).map .ok <+: source'.scan →
        (parsed source').1 = .error (.syntax_ e) := by
  have hdemands : Demands Recording.source (whole Recording.source maxDepth) := demands_whole
  obtain ⟨ts, r, result, held, hpulls, hdecided⟩ | ⟨ts, r, e, r', hpulls, hnext, hrun⟩ :=
    hdemands none (.start source)
  · have hrun := hdecided.run _ _ hpulls
    have hparsed := parsed_of_finish hrun
    obtain ⟨hscanner, htaken⟩ := pulls_of_recording hpulls
    cases result with
    | ok e =>
      -- the end token in hand was pulled from the scanner
      obtain ⟨t, hheld, heof⟩ := held_of_whole hrun
      have ht := hdecided.held_mem t hheld
      exact .inl ⟨e, by rw [hparsed]; rfl, scanErrors_of_eof hscanner ht heof⟩
    | error e =>
      have hpulled : pulled source = ts := by
        rw [pulled, hparsed, htaken, Recording.start, List.append_nil, List.reverse_reverse]
      refine .inr (.inr ⟨e, by rw [hparsed]; rfl, ?_, ?_⟩)
      · intro herrors
        obtain hitems | ⟨hnone, -⟩ := items_of_pulls hscanner
        · rw [hpulled, hparsed]
          exact hitems
        · exact absurd hnone herrors
      · -- the other source delivers the same tokens, and these decide the parse
        intro source' hstarts
        obtain ⟨s, hs⟩ := exists_pulls (hpulled ▸ hstarts)
        rw [parsed_of_finish (hdecided.run _ _ (pulls_recording hs []))]
        rfl
  · have hparsed : parsed source = (.error (.source e), ⟨none, r'⟩) := by
      rw [parsed, Parser.parse, Cursor.start, hrun]
    have hnext := recording_next_error hnext
    refine .inr (.inl ⟨e, by rw [hparsed], ?_⟩)
    rw [scanErrors_of_error (pulls_of_recording hpulls).1 hnext, hparsed]

theorem evaluate_result (tracing : Tracing) (source : Text) :
    (evaluate tracing source).result =
      match (parsed source).1 with
      | .ok e => e.eval.mapError fun err => .during (utf8 "eval") err.toFailure
      | .error stop => .error (failure stop (parsed source).2.rest.scanner) := by
  unfold evaluate parse
  rw [← parsed]
  obtain ⟨outcome, c⟩ := parsed source
  cases outcome <;> rfl

section Result

variable {source : Text} (tracing : Tracing)

theorem activity_of_ok {e : Expr} (h : (parsed source).1 = .ok e) {activity : Text} {f : Failure}
    (hf : (evaluate tracing source).result = .error (.during activity f)) :
    activity = utf8 "eval" := by
  rw [evaluate_result, h] at hf
  simp only at hf
  cases heval : e.eval with
  | ok v =>
    rw [heval] at hf
    cases hf
  | error err =>
    rw [heval] at hf
    cases hf
    rfl

theorem evaluate_of_scanError {e : ScanError} (h : (parsed source).1 = .error (.source e)) :
    (evaluate tracing source).result =
      .error (.during (utf8 "lex") (withLaterErrors e (parsed source).2.rest.scanner)) := by
  rw [evaluate_result, h]
  rfl

theorem evaluate_of_syntaxError {e : SyntaxError} (h : (parsed source).1 = .error (.syntax_ e)) :
    (evaluate tracing source).result = .error (.during (utf8 "parse") (.ofSyntax e)) := by
  rw [evaluate_result, h]
  rfl

end Result

theorem activity_eq {activity activity' : Text} {f f' : Failure}
    (h : (.error (.during activity f) : Except Failure Value) = .error (.during activity' f')) :
    activity = activity' := by
  cases h
  rfl

/-- A run that fails in another activity has not come to the evaluation. -/
theorem not_evaluated {activity : Text} {f : Failure} (h : activity ≠ utf8 "eval") :
    ¬ ((∃ v, (.error (.during activity f) : Except Failure Value) = .ok v) ∨
      ∃ g, (.error (.during activity f) : Except Failure Value) =
        .error (.during (utf8 "eval") g)) := by
  rintro (⟨v, hv⟩ | ⟨g, hg⟩)
  · cases hv
  · exact h (activity_eq hg)

theorem message_during_lex {f : Failure} {es : List ScanError} (h : f.Reports es) :
    (Failure.during (utf8 "lex") f).message =
      utf8 "lex: " ++ Text.joinWith [10] (es.map ScanError.message) := by
  rw [← h.message]
  rfl

/-- The failure `f` of a run that ended in the scanner tells all scan errors of the source, in their
order, and so does the failure of a scan of the whole source. -/
structure ReportsAll (source : Text) (f : Failure) : Prop where
  nonempty : source.scanErrors ≠ []
  reports : f.Reports source.scanErrors
  message : (Failure.during (utf8 "lex") f).message =
    utf8 "lex: " ++ Text.joinWith [10] (source.scanErrors.map ScanError.message)
  scanned : ∃ g, source.scanFailure = some g ∧ g.Reports source.scanErrors

/-- The tokens that were read all stand in front of the first scan error, and they decide the syntax
error `e` for every source that starts with them. -/
structure DecidedBefore (source : Text) (e : SyntaxError) : Prop where
  unread : ∃ between first later,
    source.scan = (pulled source ++ between).map .ok ++ .error first :: later ∧
      (parsed source).2.rest.scanner.items = between.map .ok ++ .error first :: later
  decided : ∀ tracing source', (pulled source).map .ok <+: Text.scan source' →
    (evaluate tracing source').result = .error (.during (utf8 "parse") (.ofSyntax e))

/-- No scan error is lost, added or moved. A run that ends with a value or during evaluation has
met none; one that ends during scanning reports them all, as a scan of the whole source does; and
any other run of a source with scan errors ends at a syntax error, with tokens in front of the first
of them that decide it for every source. -/
theorem evaluate_reports_scanErrors (tracing : Tracing) (source : Text) :
    ((∃ v, (evaluate tracing source).result = .ok v) ∨
      (∃ f, (evaluate tracing source).result = .error (.during (utf8 "eval") f)) →
        source.scanErrors = []) ∧
    (∀ f, (evaluate tracing source).result = .error (.during (utf8 "lex") f) →
      ReportsAll source f) ∧
    (source.scanErrors ≠ [] →
      (∀ f, (evaluate tracing source).result ≠ .error (.during (utf8 "lex") f)) →
      ∃ e, (evaluate tracing source).result = .error (.during (utf8 "parse") (.ofSyntax e)) ∧
        DecidedBefore source e) := by
  obtain ⟨e, hparsed, hnone⟩ | ⟨e, hparsed, herrors⟩ | ⟨e, hparsed, hscan, hsame⟩ :=
    parsed_cases source
  · refine ⟨fun _ => hnone, fun f hf => ?_, fun herrors => absurd hnone herrors⟩
    exact absurd (activity_of_ok tracing hparsed hf) (by decide)
  · have hresult := evaluate_of_scanError tracing hparsed
    have hreports := reports_withLaterErrors e (parsed source).2.rest.scanner
    rw [← herrors] at hreports
    have hne : source.scanErrors ≠ [] := by
      rw [herrors]
      exact List.cons_ne_nil _ _
    rw [hresult]
    refine ⟨?_, ?_, fun _ hlex => absurd rfl (hlex _)⟩
    · exact fun hpast => absurd hpast (not_evaluated (by decide))
    · rintro f ⟨⟩
      exact ⟨hne, hreports, message_during_lex hreports, reports_scanFailure hne⟩
  · have hresult := evaluate_of_syntaxError tracing hparsed
    rw [hresult]
    refine ⟨?_, ?_, ?_⟩
    · exact fun hpast => absurd hpast (not_evaluated (by decide))
    · intro f hf
      exact absurd (activity_eq hf) (by decide)
    · intro herrors _
      -- the first scan error is still in the scanner, behind the tokens that were read
      have hscan := hscan herrors
      rw [Text.scanErrors, hscan, errors_after_tokens] at herrors
      obtain ⟨between, first, later, hlater⟩ := exists_first_error herrors
      refine ⟨e, rfl, ⟨between, first, later, ?_, hlater⟩, ?_⟩
      · rw [hscan, hlater, List.map_append, List.append_assoc]
      · intro tracing' source' hstarts
        exact evaluate_of_syntaxError tracing' (hsame source' hstarts)

end Run

end ExprCalc
