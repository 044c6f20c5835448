import ExprCalc.Proofs.Run.ScanErrors
import ExprCalc.Proofs.Scanner.Listing

namespace ExprCalc

namespace ScanError

def errorLine (e : ScanError) : Text :=
  utf8 "Error: " ++ e.message

theorem isLine_errorLine (e : ScanError) : e.errorLine.IsLine :=
  Text.isLine_append.mpr ⟨by decide, e.isLine_message⟩

theorem message_ne_errorLine (e : ScanError) : e.message ≠ e.errorLine := by
  intro h
  rw [errorLine, List.self_eq_append_left] at h
  exact absurd h (by decide)

/-- The lines of a report of scan errors, of which the first and the last are marked. -/
def reportLines (es : List ScanError) : List Text :=
  es.mapIdx fun i e => if i = 0 ∨ i + 1 = es.length then e.errorLine else e.message

theorem reportLines_ends (first : ScanError) (middle : List ScanError) (last : ScanError) :
    reportLines (first :: (middle ++ [last])) =
      first.errorLine :: (middle.map message ++ [last.errorLine]) := by
  have hmiddle : (middle.mapIdx fun i e =>
      if i + 1 = 0 ∨ i + 1 + 1 = (first :: (middle ++ [last])).length then e.errorLine
      else e.message) = middle.map message := by
    refine List.ext_getElem (by rw [List.length_mapIdx, List.length_map]) fun i hi _ => ?_
    rw [List.length_mapIdx] at hi
    rw [List.getElem_mapIdx, List.getElem_map, if_neg]
    simp only [List.length_cons, List.length_append, List.length_nil]
    omega
  rw [reportLines, List.mapIdx_cons, List.mapIdx_concat, hmiddle, if_pos (.inl rfl), if_pos]
  simp

theorem isLine_of_mem_reportLines {es : List ScanError} : ∀ l ∈ reportLines es, l.IsLine := by
  intro l hl
  obtain ⟨i, hi, rfl⟩ := List.mem_mapIdx.mp hl
  split
  · exact isLine_errorLine _
  · exact isLine_message _

/-- With a third error there is one in the middle, which is not marked. -/
theorem reportLines_eq_errorLines_iff {es : List ScanError} :
    reportLines es = es.map errorLine ↔ es.length ≤ 2 := by
  rw [reportLines, List.mapIdx_eq_iff]
  constructor
  · intro h
    by_contra hlong
    have hone : 1 < es.length := by omega
    have hline := h 1
    rw [List.getElem?_map, List.getElem?_eq_getElem hone, Option.map_some, Option.map_some,
      if_neg (by omega)] at hline
    exact message_ne_errorLine _ (Option.some.inj hline).symm
  · intro h i
    rw [List.getElem?_map]
    refine Option.map_congr fun e he => ?_
    have hi : i < es.length := (List.getElem?_eq_some_iff.mp he).1
    rw [if_pos (by omega)]

end ScanError

open ScanError (reportLines errorLine)

namespace Text

theorem line_joinWith (mark t : Text) (ts : List Text) :
    line (mark ++ joinWith [10] (t :: ts)) = ((mark ++ t) :: ts).flatMap line := by
  have hshift : ts.flatMap ([10] ++ ·) ++ [10] = [10] ++ ts.flatMap line := by
    induction ts with
    | nil => rfl
    | cons u us ih => rw [List.flatMap_cons, List.append_assoc, ih, List.flatMap_cons, line,
        List.append_assoc, List.append_assoc]
  rw [joinWith_cons, line, List.append_assoc, List.append_assoc, hshift, List.flatMap_cons, line,
    List.append_assoc, List.append_assoc]

/-- The text shows the scan errors line by line, and marks all of them exactly if they are no more
than two. -/
structure ShowsErrors (t : Text) (es : List ScanError) : Prop where
  isLines : t.IsLines (reportLines es)
  marked_iff : t.IsLines (es.map errorLine) ↔ es.length ≤ 2

theorem showsErrors_of_eq {t : Text} {es : List ScanError}
    (h : t = (reportLines es).flatMap line) : t.ShowsErrors es := by
  have hlines : t.IsLines (reportLines es) := ⟨h, ScanError.isLine_of_mem_reportLines⟩
  refine ⟨hlines, ?_⟩
  rw [← ScanError.reportLines_eq_errorLines_iff]
  exact ⟨hlines.unique, fun heq => heq ▸ hlines⟩

end Text

namespace Failure

theorem message_scan (e : ScanError) : (scan e).message = e.message :=
  List.append_nil e.message

theorem report_join_none (e : ScanError) :
    (join none (scan e)).report = (reportLines [e]).flatMap Text.line := by
  simp [report, join, parts?, message_scan, reportLines, errorLine]

theorem report_join {f : Failure} {first : ScanError} {middle : List ScanError}
    (h : f.Reports (first :: middle)) (last : ScanError) :
    (join (some f) (scan last)).report =
      (reportLines (first :: (middle ++ [last]))).flatMap Text.line := by
  have hopen : (join (some f) (scan last)).report =
      Text.line (utf8 "Error: " ++ f.message) ++ Text.line last.errorLine := by
    simp [report, join, parts?, message_scan, errorLine]
  rw [hopen, h.message, List.map_cons, Text.line_joinWith, ScanError.reportLines_ends,
    ← List.cons_append, List.flatMap_append, List.flatMap_singleton]
  rfl

/-- The scan errors joined to a first one are shown alike, whether the first was joined to nothing
or not. -/
theorem showsErrors_withScanErrors {f : Failure} {e : ScanError} (hleaves : f.leaves = [scan e])
    (hmessage : ∀ rest, f.messageOnto rest = e.message ++ rest) {es : List ScanError}
    (hes : es ≠ []) : (f.withScanErrors es).report.ShowsErrors (e :: es) := by
  obtain ⟨middle, last, rfl⟩ := (List.eq_nil_or_concat' es).resolve_left hes
  have hconcat : f.withScanErrors (middle ++ [last]) =
      join (some (f.withScanErrors middle)) (scan last) := List.foldl_concat ..
  rw [hconcat]
  exact Text.showsErrors_of_eq (report_join (reports_withScanErrors hleaves hmessage middle) last)

theorem report_during_withScanErrors (activity : Text) (f : Failure) {es : List ScanError}
    (hes : es ≠ []) :
    (during activity (f.withScanErrors es)).report = (f.withScanErrors es).report := by
  obtain ⟨middle, last, rfl⟩ := (List.eq_nil_or_concat' es).resolve_left hes
  rw [withScanErrors, List.foldl_concat]
  rfl

end Failure

theorem showsErrors_scanFailure {source : Text} (h : source.scanErrors ≠ []) :
    ∃ f, source.scanFailure = some f ∧ f.report.ShowsErrors source.scanErrors := by
  obtain ⟨e, es, hes⟩ := List.exists_cons_of_ne_nil h
  rw [Text.scanFailure, hes, Failure.joinAll_scan]
  refine ⟨_, rfl, ?_⟩
  cases es with
  | nil => exact Text.showsErrors_of_eq (Failure.report_join_none e)
  | cons e' es =>
    exact Failure.showsErrors_withScanErrors rfl (fun _ => rfl) (List.cons_ne_nil e' es)

namespace Run

theorem exists_scanErrors_of_lex {tracing : Tracing} {source : Text} {f : Failure}
    (h : (evaluate tracing source).result = .error (.during (utf8 "lex") f)) :
    ∃ e es, source.scanErrors = e :: es ∧ f = (Failure.scan e).withScanErrors es := by
  obtain ⟨e, hparsed, -⟩ | ⟨e, hparsed, herrors⟩ | ⟨e, hparsed, -⟩ := parsed_cases source
  · exact absurd (activity_of_ok tracing hparsed h) (by decide)
  · rw [evaluate_of_scanError tracing hparsed] at h
    cases h
    exact ⟨e, _, herrors, rfl⟩
  · rw [evaluate_of_syntaxError tracing hparsed] at h
    exact absurd (activity_eq h) (by decide)

theorem showsErrors_lex {tracing : Tracing} {source : Text} {f : Failure}
    (h : (evaluate tracing source).result = .error (.during (utf8 "lex") f))
    (hmany : 2 ≤ source.scanErrors.length) :
    (Failure.during (utf8 "lex") f).report.ShowsErrors source.scanErrors := by
  obtain ⟨e, es, herrors, rfl⟩ := exists_scanErrors_of_lex h
  have hes : es ≠ [] := by
    rintro rfl
    simp [herrors] at hmany
  rw [Failure.report_during_withScanErrors _ _ hes, herrors]
  exact Failure.showsErrors_withScanErrors rfl (fun _ => rfl) hes

/-- A run that ends during scanning with more than one error, and a listing with any, show every
scan error on a line. Of more than two errors only the first and the last are marked. -/
theorem reports_mark_first_and_last (tracing : Tracing) (source : Text) :
    (∀ f, (evaluate tracing source).result = .error (.during (utf8 "lex") f) →
      2 ≤ source.scanErrors.length →
      (Failure.during (utf8 "lex") f).report.ShowsErrors source.scanErrors) ∧
    (source.scanErrors ≠ [] →
      ∃ f, source.scanFailure = some f ∧ f.report.ShowsErrors source.scanErrors) :=
  ⟨fun _ => showsErrors_lex, showsErrors_scanFailure⟩

/-- Three characters that begin no token. -/
def threeErrors : Text :=
  utf8 "@ $ #"

theorem evaluate_threeErrors (tracing : Tracing) :
    ∃ f, (evaluate tracing threeErrors).result = .error (.during (utf8 "lex") f) := by
  have hstops : (match (parsed threeErrors).1 with
      | .error (.source _) => true
      | _ => false) = true := by decide +kernel
  split at hstops
  · next e hparsed => exact ⟨_, evaluate_of_scanError tracing hparsed⟩
  · cases hstops

theorem reports_threeErrors :
    threeErrors.scanErrors.length = 3 ∧
    (∃ f, (evaluate ⟨false, false⟩ threeErrors).result = .error (.during (utf8 "lex") f) ∧
      ¬ (Failure.during (utf8 "lex") f).report.IsLines (threeErrors.scanErrors.map errorLine)) ∧
    ∃ f, threeErrors.scanFailure = some f ∧
      ¬ f.report.IsLines (threeErrors.scanErrors.map errorLine) := by
  have hthree : threeErrors.scanErrors.length = 3 := by decide +kernel
  have hnot {t : Text} (h : t.ShowsErrors threeErrors.scanErrors) :
      ¬ t.IsLines (threeErrors.scanErrors.map errorLine) := by
    rw [h.marked_iff, hthree]
    decide
  have hne : threeErrors.scanErrors ≠ [] := List.ne_nil_of_length_eq_add_one hthree
  obtain ⟨f, hf⟩ := evaluate_threeErrors ⟨false, false⟩
  obtain ⟨g, hg, hshows⟩ := showsErrors_scanFailure hne
  exact ⟨hthree, ⟨f, hf, hnot (showsErrors_lex hf (by omega))⟩, g, hg, hnot hshows⟩

end Run

end ExprCalc
