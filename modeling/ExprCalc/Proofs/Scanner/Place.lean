import Mathlib.Data.List.DropRight
import ExprCalc.Proofs.Scanner.Cover

namespace ExprCalc

namespace Text

def lastLine (t : Text) : Text :=
  t.rtakeWhile (· ≠ 10)

theorem lastLine_of_not_mem {t : Text} (h : 10 ∉ t) : t.lastLine = t := by
  rw [lastLine, List.rtakeWhile_eq_self_iff]
  intro b hb
  exact decide_eq_true fun heq => h (heq ▸ hb)

theorem lastLine_append_newline (xs : Text) {ys : Text} (h : 10 ∉ ys) :
    lastLine (xs ++ 10 :: ys) = ys := by
  have hstop : (ys.reverse ++ 10 :: xs.reverse).takeWhile (· ≠ 10) = ys.reverse := by
    apply Scanner.takeWhile_append_stop
    · intro b hb
      exact decide_eq_true fun heq => h (heq ▸ List.mem_reverse.mp hb)
    · intro b hb
      cases hb
      decide
  simp only [lastLine, List.rtakeWhile, List.reverse_append, List.reverse_cons, List.append_assoc,
    List.singleton_append, hstop, List.reverse_reverse]

theorem exists_last_newline {t : Text} (h : 10 ∈ t) :
    ∃ xs ys, t = xs ++ 10 :: ys ∧ 10 ∉ ys := by
  obtain ⟨xs, ys, hsplit, hxs⟩ := List.eq_append_cons_of_mem (List.mem_reverse.mpr h)
  refine ⟨ys.reverse, xs.reverse, ?_, fun hmem => hxs (List.mem_reverse.mp hmem)⟩
  rw [← List.reverse_reverse t, hsplit]
  simp

theorem lastLine_length_le (t : Text) : t.lastLine.length ≤ t.length := by
  have h : (t.reverse.takeWhile (· ≠ 10)).length ≤ t.reverse.length :=
    (List.takeWhile_prefix _).length_le
  simpa [lastLine, List.rtakeWhile] using h

/-- A line feed is a rune of its own, and a part of no other. -/
theorem count_newline (t : Text) : t.runes.count (.char '\n') = t.count 10 := by
  induction t using rune_induction with
  | nil => rfl
  | cons r t hrunes ih =>
    rw [hrunes, List.count_append, List.count_cons, ih, Nat.add_comm]
    congr 1
    by_cases hr : r = .char '\n'
    · subst hr
      rfl
    · have hfirst : r ∈ (r.bytes ++ t).runes := hrunes ▸ List.mem_cons_self
      have hnot : 10 ∉ r.bytes := fun hmem =>
        hr (eq_ascii_of_mem_bytes hfirst hmem (by decide))
      rw [List.count_eq_zero_of_not_mem hnot, if_neg (by simpa using hr)]

theorem length_runes_le (t : Text) : t.runes.length ≤ t.length := by
  induction t using rune_induction with
  | nil => exact Nat.le_refl 0
  | cons r t hrunes ih =>
    have hpos := List.length_pos_iff.mpr (bytes_ne_nil r)
    rw [hrunes, List.length_cons, List.length_append]
    omega

end Text

namespace Position

theorem line_afterAll (p : Position) (rs : List Rune) :
    (p.afterAll rs).line = p.line + Int64.ofNat (rs.count (.char '\n')) := by
  induction rs generalizing p with
  | nil => simp [afterAll]
  | cons r rs ih =>
    change ((p.after r).afterAll rs).line = _
    rw [ih, List.count_cons, after]
    split
    · next hr =>
      subst hr
      simp [Int64.ofNat_add, Int64.add_assoc, Int64.add_comm]
    · next hr => simp [hr]

theorem column_afterAll {rs : List Rune} (h : .char '\n' ∉ rs) (p : Position) :
    (p.afterAll rs).column = p.column + Int64.ofNat rs.length := by
  induction rs generalizing p with
  | nil => simp [afterAll]
  | cons r rs ih =>
    have hr : r ≠ .char '\n' := fun heq => h (heq ▸ List.mem_cons_self)
    change ((p.after r).afterAll rs).column = _
    rw [ih fun hmem => h (.tail r hmem), after, if_neg hr, List.length_cons, Nat.add_comm,
      Int64.ofNat_add, ← Int64.add_assoc]
    rfl

theorem line_after_text (t : Text) :
    (start.afterAll t.runes).line = Int64.ofNat (1 + t.count 10) := by
  rw [line_afterAll, Text.count_newline, Int64.ofNat_add]
  rfl

theorem column_after_line {t : Text} (h : 10 ∉ t) {p : Position} (hp : p.column = 1) :
    (p.afterAll t.runes).column = Int64.ofNat (1 + t.runes.length) := by
  have hnot : .char '\n' ∉ t.runes := by
    rw [← List.count_eq_zero, Text.count_newline]
    exact List.count_eq_zero_of_not_mem h
  rw [column_afterAll hnot, hp, Int64.ofNat_add]
  rfl

theorem column_after_text (t : Text) :
    (start.afterAll t.runes).column = Int64.ofNat (1 + t.lastLine.runes.length) := by
  by_cases h : 10 ∈ t
  · -- the line feed starts a line, whatever came before it
    obtain ⟨xs, ys, rfl, hys⟩ := Text.exists_last_newline h
    rw [Text.lastLine_append_newline xs hys, Text.runes_append_ascii (by decide), afterAll,
      List.foldl_append, List.foldl_cons]
    exact column_after_line hys rfl
  · rw [Text.lastLine_of_not_mem h]
    exact column_after_line h rfl

end Position

namespace Scanner

/-- `PlacedAt source o p`: the position `p` is that of the byte at offset `o`, which starts a rune
or is the end. Lines and columns are kept in 64 bits, and the counts of a source whose length fits
into 63 bits do not overflow them. -/
structure PlacedAt (source : Text) (o : Nat) (p : Position) : Prop where
  line : p.line = Int64.ofNat (1 + (source.take o).count 10)
  column : p.column = Int64.ofNat (1 + (Text.lastLine (source.take o)).runes.length)
  line_toInt : source.length + 1 < 2 ^ 63 → p.line.toInt = 1 + (source.take o).count 10
  column_toInt : source.length + 1 < 2 ^ 63 →
    p.column.toInt = 1 + (Text.lastLine (source.take o)).runes.length
  boundary : ∃ n, source.take o = Text.ofRunes (source.runes.take n)

theorem toInt_ofNat_of_le {n m : Nat} (hn : n ≤ m) (hm : m + 1 < 2 ^ 63) :
    (Int64.ofNat (1 + n)).toInt = 1 + n := by
  rw [Int64.toInt_ofNat_of_lt (by omega)]
  rfl

/-- After some runes of a source, the scanner stands at the place of the byte that follows. -/
theorem placedAt_taken (source : Text) (n : Nat) :
    PlacedAt source (Text.ofRunes (source.runes.take n)).length
      ((ofText source).drop n).position := by
  obtain ⟨before, hbefore⟩ : ∃ before, before = Text.ofRunes (source.runes.take n) := ⟨_, rfl⟩
  have hprefix : before <+: source := by
    have hsplit := taken_append_input (ofText source) n
    rw [input_ofText] at hsplit
    exact ⟨_, hbefore ▸ hsplit⟩
  have htake : source.take before.length = before := (List.prefix_iff_eq_take.mp hprefix).symm
  have hposition : ((ofText source).drop n).position =
      Position.start.afterAll before.runes := by
    rw [hbefore, Text.runes_ofRunes_take]
    rfl
  -- neither counter can pass the length of the source, so below the bound they do not wrap
  have hcount : before.count 10 ≤ source.length := List.count_le_length.trans hprefix.length_le
  have hcolumn : before.lastLine.runes.length ≤ source.length :=
    (Text.length_runes_le _).trans ((Text.lastLine_length_le before).trans hprefix.length_le)
  rw [← hbefore, hposition]
  constructor
  · rw [htake, Position.line_after_text]
  · rw [htake, Position.column_after_text]
  · intro hsource
    rw [htake, Position.line_after_text]
    exact toInt_ofNat_of_le hcount hsource
  · intro hsource
    rw [htake, Position.column_after_text]
    exact toInt_ofNat_of_le hcolumn hsource
  · exact ⟨n, htake.trans hbefore⟩

/-- Every item of a source, the end included, stands at the place where its bytes start. -/
theorem scan_positions_exact (source : Text) :
    ∃ stretches last p,
      source.scan = stretches.map Stretch.item ++ [.ok (.eof p)] ∧
      Covers source stretches last ∧
      ∀ before s after, stretches ++ [.finish last p] = before ++ s :: after →
        PlacedAt source (before.flatMap Stretch.bytes ++ s.gap).length
          (ScanItem.position s.item) := by
  obtain ⟨stretches, last, p, hitems, hcovers, hstarts⟩ :=
    items_located _ (aligned_ofText source)
  rw [input_ofText] at hcovers
  refine ⟨stretches, last, p, hitems, hcovers, ?_⟩
  intro before s after hsplit
  obtain ⟨n, hposition, hbytes⟩ := hstarts before s after hsplit
  rw [hposition, ← hbytes]
  exact placedAt_taken source n

end Scanner

end ExprCalc
