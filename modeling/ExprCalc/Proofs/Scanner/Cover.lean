import ExprCalc.Token.Listing
import ExprCalc.Proofs.Scanner.Munch

namespace ExprCalc

def ScanItem.position : ScanItem → Position
  | .ok t => t.position
  | .error e => e.position

namespace Scanner

/-- An item of a source, the bytes it stands for and the trivia in front of them. -/
structure Stretch where
  gap : Text
  span : Text
  item : ScanItem

def Stretch.bytes (s : Stretch) : Text :=
  s.gap ++ s.span

def Stretch.finish (last : Text) (p : Position) : Stretch :=
  ⟨last, [], .ok (.eof p)⟩

/-- `Spans item span tail`: in front of `tail`, the item stands for the bytes `span`. -/
inductive Spans : ScanItem → (span tail : Text) → Prop
  | token {t : Token} {tail : Text} (hne : t.lexeme ≠ []) (hkind : t.kind ≠ .eof) :
      Spans (.ok t) t.lexeme tail
  | openString {inside : Text} {p : Position} (hinside : 34 ∉ inside) :
      Spans (.error (.unterminatedString p)) (34 :: inside) []
  | rune {r : Rune} {tail : Text} {p : Position}
      (hrunes : (r.bytes ++ tail).runes = r :: tail.runes) :
      Spans (.error (.unrecognizedCharacter (Int32.ofNat r.shown.toNat) p)) r.bytes tail

/-- `Covers source stretches last`: the source is the stretches one after another and then the
trivia `last`. -/
inductive Covers : (source : Text) → List Stretch → (last : Text) → Prop
  | done {last : Text} (h : Trivia last []) : Covers last [] last
  | step {s : Stretch} {tail last : Text} {stretches : List Stretch}
      (htrivia : Trivia s.gap (s.span ++ tail)) (hspan : Spans s.item s.span tail)
      (h : Covers tail stretches last) : Covers (s.bytes ++ tail) (s :: stretches) last

theorem Spans.ne_nil {item : ScanItem} {span tail : Text} (h : Spans item span tail) :
    span ≠ [] := by
  cases h with
  | token hne _ => exact hne
  | openString => exact List.cons_ne_nil _ _
  | rune => exact Text.bytes_ne_nil _

/-- What a call finds is the end or stands for some bytes. -/
theorem Finds.spans {p : Position} {rest : Text} {item : ScanItem} {span tail : Text}
    (h : Finds p rest item span tail) (hne : rest ≠ []) :
    rest = span ++ tail ∧ Spans item span tail := by
  cases h with
  | eof => exact absurd rfl hne
  | token h =>
    refine ⟨rfl, .token (t := ⟨_, span, p, _⟩) ?_ ?_⟩
    · rintro rfl
      exact h.lexeme.ne_nil rfl
    · rintro rfl
      exact Lexeme.kind_ne_eof h.lexeme
  | openString hinside => exact ⟨(List.append_nil _).symm, .openString hinside⟩
  | nothing hrunes => exact ⟨rfl, .rune hrunes⟩

namespace Covers

variable {source last : Text} {stretches : List Stretch}

theorem eq_concat (h : Covers source stretches last) :
    source = stretches.flatMap Stretch.bytes ++ last := by
  induction h with
  | done => rfl
  | step _ _ _ ih => rw [List.flatMap_cons, List.append_assoc, ← ih]

theorem length_le (h : Covers source stretches last) : stretches.length ≤ source.length := by
  induction h with
  | done => exact Nat.zero_le _
  | @step s tail last stretches _ hspan _ ih =>
    have hpos := List.length_pos_iff.mpr hspan.ne_nil
    simp only [Stretch.bytes, List.length_append, List.length_cons]
    omega

theorem eq_nil (h : Covers [] stretches last) : stretches = [] := by
  cases stretches with
  | nil => rfl
  | cons s stretches =>
    have hle := h.length_le
    cases hle

theorem ne_eof (h : Covers source stretches last) :
    ∀ s ∈ stretches, ∀ t, s.item = .ok t → t.kind ≠ .eof := by
  induction h with
  | done => simp
  | @step s tail last stretches _ hspan _ ih =>
    refine List.forall_mem_cons.mpr ⟨?_, ih⟩
    intro t ht
    rw [ht] at hspan
    generalize s.span = span at hspan
    cases hspan with
    | token _ hkind => exact hkind

theorem exists_tail {before after : List Stretch} (h : Covers source (before ++ after) last) :
    ∃ tail, Covers tail after last := by
  induction before generalizing source with
  | nil => exact ⟨source, h⟩
  | cons s before ih =>
    cases h with
    | step _ _ h => exact ih h

theorem openString_last {before after : List Stretch} {s : Stretch} {p : Position}
    (h : Covers source (before ++ s :: after) last)
    (hs : s.item = .error (.unterminatedString p)) : after = [] ∧ last = [] := by
  obtain ⟨tail, htail⟩ := h.exists_tail
  cases htail with
  | @step _ tail _ _ _ hspan h =>
    have hnil : tail = [] := by
      rw [hs] at hspan
      generalize s.span = span at hspan
      cases hspan with
      | openString => rfl
    subst hnil
    obtain rfl := h.eq_nil
    exact ⟨rfl, h.eq_concat.symm⟩

end Covers

theorem skipTrivia_of_rest_nil {s : Scanner} (h : s.rest = []) : s.skipTrivia = s := by
  obtain ⟨rest, p⟩ := s
  subst h
  rfl

theorem next_of_end {s : Scanner} (h : s.skipTrivia.rest = []) :
    s.next = (.ok (.eof s.skipTrivia.position), s.skipTrivia) := by
  simp only [next, h]

theorem items_of_end {s : Scanner} (h : s.skipTrivia.rest = []) : s.items = [s.next.1] := by
  rw [items, next_of_end h]
  split
  · rfl
  · next hcons =>
    rw [h] at hcons
    cases hcons

theorem items_of_ne_end {s : Scanner} (h : s.skipTrivia.rest ≠ []) :
    s.items = s.next.1 :: s.next.2.items := by
  obtain ⟨r, rs, hrest⟩ := List.exists_cons_of_ne_nil h
  rw [items]
  split
  · next hnil => exact absurd hnil h
  · next hcons => simp only [next, hcons]

theorem items_ne_nil (s : Scanner) : s.items ≠ [] := by
  by_cases hs : s.skipTrivia.rest = []
  · rw [items_of_end hs]
    exact List.cons_ne_nil _ _
  · rw [items_of_ne_end hs]
    exact List.cons_ne_nil _ _

theorem kind_ne_eof_of_next {s s' : Scanner} {t : Token} (h : s.next = (.ok t, s'))
    (hmore : s.skipTrivia.rest ≠ []) : t.kind ≠ .eof := by
  obtain ⟨r, rs, hrest⟩ := List.exists_cons_of_ne_nil hmore
  have hholds := longest_holds r rs
  simp only [next, hrest, token] at h
  cases hmatch : longest r rs with
  | token kind more =>
    rw [hmatch] at h hholds
    cases h
    intro hkind
    change kind = .eof at hkind
    subst hkind
    exact Lexeme.kind_ne_eof hholds.lexeme
  | openString =>
    rw [hmatch] at h
    cases h
  | nothing =>
    rw [hmatch] at h
    cases h

/-- After the end token no item is left, and after any other the ones of the scanner. -/
theorem items_of_next_ok {s s' : Scanner} {t : Token} (h : s.next = (.ok t, s')) :
    s.items = .ok t :: if t.kind = .eof then [] else s'.items := by
  by_cases hs : s.skipTrivia.rest = []
  · have heof : t.kind = .eof := by
      rw [next_of_end hs] at h
      cases h
      rfl
    rw [items_of_end hs, h, if_pos heof]
  · rw [items_of_ne_end hs, h, if_neg (kind_ne_eof_of_next h hs)]

theorem items_of_next_error {s s' : Scanner} {e : ScanError} (h : s.next = (.error e, s')) :
    s.items = .error e :: s'.items := by
  have hs : s.skipTrivia.rest ≠ [] := by
    intro hend
    rw [next_of_end hend] at h
    cases h
  rw [items_of_ne_end hs, h]

theorem next_rest_length_lt {s : Scanner} (h : s.skipTrivia.rest ≠ []) :
    s.next.2.rest.length < s.rest.length := by
  obtain ⟨r, rs, hrest⟩ := List.exists_cons_of_ne_nil h
  have hle := skipTrivia_rest_length_le s
  have hle' := token_rest_length_le r rs s.skipTrivia.position
  simp only [next, hrest, List.length_cons] at hle ⊢
  omega

/-- Induction over the calls of a scanner up to the end of its input. -/
theorem call_induction {P : Scanner → Prop} (stop : ∀ s, s.skipTrivia.rest = [] → P s)
    (call : ∀ s, s.skipTrivia.rest ≠ [] → P s.next.2 → P s) (s : Scanner) : P s := by
  by_cases h : s.skipTrivia.rest = []
  · exact stop s h
  · exact call s h (call_induction stop call s.next.2)
termination_by s.rest.length
decreasing_by exact next_rest_length_lt h

theorem drop_drop (s : Scanner) (m n : Nat) : (s.drop m).drop n = s.drop (m + n) := by
  simp only [drop, List.drop_drop, Position.afterAll, List.take_add, List.foldl_append]

theorem taken_append_input (s : Scanner) (n : Nat) :
    Text.ofRunes (s.rest.take n) ++ (s.drop n).input = s.input := by
  rw [input, input, ← Text.ofRunes_append]
  exact congrArg Text.ofRunes (List.take_append_drop n s.rest)

theorem taken_eq {s : Scanner} {n : Nat} {before : Text}
    (h : s.input = before ++ (s.drop n).input) : Text.ofRunes (s.rest.take n) = before :=
  List.append_cancel_right ((taken_append_input s n).trans h)

theorem token_eq_drop (r : Rune) (rs : List Rune) (p : Position) :
    ∃ n, (token r rs p).2 = (⟨r :: rs, p⟩ : Scanner).drop n := by
  unfold token
  cases longest r rs with
  | token kind more => exact ⟨more + 1, rfl⟩
  | openString => exact ⟨rs.length + 1, by simp [drop]⟩
  | nothing => exact ⟨1, rfl⟩

/-- A call moves the scanner over some runes of its input. -/
theorem next_eq_drop (s : Scanner) : ∃ n, s.next.2 = s.drop n := by
  unfold next
  cases hrest : s.skipTrivia.rest with
  | nil => exact ⟨triviaLength .none s.rest, by simp only [hrest]; rfl⟩
  | cons r rs =>
    obtain ⟨n, hn⟩ := token_eq_drop r rs s.skipTrivia.position
    refine ⟨triviaLength .none s.rest + n, ?_⟩
    rw [← drop_drop]
    simp only [hrest, hn]
    rw [← hrest]
    rfl

theorem position_next (s : Scanner) : ScanItem.position s.next.1 = s.skipTrivia.position := by
  unfold next
  cases hrest : s.skipTrivia.rest with
  | nil => simp only [hrest]; rfl
  | cons r rs =>
    simp only [hrest, token]
    cases longest r rs <;> rfl

/-- An item starts after the bytes of the stretches before it and its own trivia. -/
def StartsAt (s : Scanner) (before : List Stretch) (x : Stretch) : Prop :=
  ∃ n, ScanItem.position x.item = (s.drop n).position ∧
    Text.ofRunes (s.rest.take n) = before.flatMap Stretch.bytes ++ x.gap

theorem startsAt_first {s : Scanner} {x : Stretch} {rest : Text} (hitem : x.item = s.next.1)
    (hsplit : s.input = x.gap ++ rest) (hrest : s.skipTrivia.rest = rest.runes) :
    StartsAt s [] x := by
  refine ⟨triviaLength .none s.rest, ?_, ?_⟩
  · rw [hitem, position_next]
    rfl
  · apply taken_eq
    rw [hsplit]
    change _ = x.gap ++ Text.ofRunes s.skipTrivia.rest
    rw [hrest, Text.ofRunes_runes]

theorem startsAt_next {s : Scanner} {y x : Stretch} {before : List Stretch}
    (hsplit : s.input = y.bytes ++ s.next.2.input) (h : StartsAt s.next.2 before x) :
    StartsAt s (y :: before) x := by
  obtain ⟨m, hm⟩ := next_eq_drop s
  obtain ⟨n, hposition, hbytes⟩ := h
  rw [hm] at hsplit hposition hbytes
  refine ⟨m + n, ?_, ?_⟩
  · rw [hposition, drop_drop]
  · rw [List.take_add, Text.ofRunes_append, taken_eq hsplit]
    change y.bytes ++ Text.ofRunes ((s.drop m).rest.take n) = _
    rw [hbytes, List.flatMap_cons, List.append_assoc]

theorem items_located (s : Scanner) (hs : Aligned s) :
    ∃ stretches last p, s.items = stretches.map Stretch.item ++ [.ok (.eof p)] ∧
      Covers s.input stretches last ∧
      ∀ before x after, stretches ++ [.finish last p] = before ++ x :: after →
        StartsAt s before x := by
  -- over the calls up to the end: each adds a gap and a span in front of what follows
  induction s using call_induction with
  | stop s h =>
    obtain ⟨⟨gap, rest, span, hskips, hrest, -⟩, -⟩ := next_finds hs
    have hnil : rest = [] := by
      rw [← Text.ofRunes_runes rest, ← hrest, h]
      rfl
    subst hnil
    refine ⟨[], gap, s.skipTrivia.position, ?_, ?_, ?_⟩
    · rw [items_of_end h, next_of_end h]
      rfl
    · rw [hskips.split, List.append_nil]
      exact .done hskips.trivia
    · intro before x after hsplit
      obtain ⟨rfl, hx⟩ := List.append_eq_singleton_iff.mp hsplit.symm |>.resolve_right (by simp)
      cases hx
      exact startsAt_first (by rw [next_of_end h]; rfl) hskips.split hrest
  | call s h ih =>
    obtain ⟨⟨gap, rest, span, hskips, hrest, hfinds⟩, haligned⟩ := next_finds hs
    obtain ⟨stretches, last, p, hitems, hcovers, hstarts⟩ := ih haligned
    have hne : rest ≠ [] := by
      rintro rfl
      exact h hrest
    obtain ⟨rfl, hspans⟩ := hfinds.spans hne
    have hsplit : s.input = (⟨gap, span, s.next.1⟩ : Stretch).bytes ++ s.next.2.input := by
      rw [hskips.split, ← List.append_assoc]
      rfl
    refine ⟨⟨gap, span, s.next.1⟩ :: stretches, last, p, ?_, ?_, ?_⟩
    · rw [items_of_ne_end h, hitems]
      rfl
    · rw [hsplit]
      exact .step hskips.trivia hspans hcovers
    · -- the first stretch starts here, the others behind its bytes
      intro before x after hbefore
      cases before with
      | nil =>
        cases hbefore
        exact startsAt_first rfl hskips.split hrest
      | cons y before =>
        obtain ⟨rfl, htail⟩ := List.cons.inj hbefore
        exact startsAt_next hsplit (hstarts before x after htail)

theorem items_covers (s : Scanner) (hs : Aligned s) :
    ∃ stretches last p, s.items = stretches.map Stretch.item ++ [.ok (.eof p)] ∧
      Covers s.input stretches last := by
  obtain ⟨stretches, last, p, hitems, hcovers, -⟩ := items_located s hs
  exact ⟨stretches, last, p, hitems, hcovers⟩

theorem after_succ (s : Scanner) (n : Nat) : s.after (n + 1) = s.next.2.after n := by
  induction n with
  | zero => rfl
  | succ n ih => rw [after, ih, after]

theorem next_after_end {s : Scanner} (h : s.skipTrivia.rest = []) (n : Nat) :
    (s.after n).next.1 = s.next.1 := by
  have hend : s.skipTrivia.next = (.ok (.eof s.skipTrivia.position), s.skipTrivia) := by
    have hsame := skipTrivia_of_rest_nil h
    have hnext := next_of_end (s := s.skipTrivia) (by rw [hsame, h])
    rwa [hsame] at hnext
  -- the first call skips the trivia that is left, and no call moves the scanner after it
  have hafter : ∀ n, s.after (n + 1) = s.skipTrivia := by
    intro n
    induction n with
    | zero => simp only [after, next_of_end h]
    | succ n ih => rw [after, ih, hend]
  cases n with
  | zero => rfl
  | succ n => rw [hafter, hend, next_of_end h]

/-- The items are what the calls return, and the last of them comes again and again. -/
theorem next_after (s : Scanner) :
    (∀ n item, s.items[n]? = some item → (s.after n).next.1 = item) ∧
    ∀ n, s.items.length ≤ n → s.items.getLast? = some (s.after n).next.1 := by
  induction s using call_induction with
  | stop s h =>
    rw [items_of_end h]
    refine ⟨?_, fun n _ => by rw [next_after_end h]; rfl⟩
    intro n item hitem
    rw [next_after_end h]
    cases n with
    | zero => exact Option.some.inj hitem
    | succ n => cases hitem
  | call s h ih =>
    rw [items_of_ne_end h]
    constructor
    · intro n item hitem
      cases n with
      | zero => exact Option.some.inj hitem
      | succ n =>
        rw [after_succ]
        exact ih.1 n item hitem
    · intro n hn
      cases n with
      | zero => cases hn
      | succ n =>
        rw [after_succ]
        have hlast := ih.2 n (Nat.le_of_succ_le_succ hn)
        rw [List.getLast?_cons, hlast]
        rfl

/-- The items of a source cover its bytes in order, with only trivia between them, and the end
token comes once and last, and then at every further call. -/
theorem scan_covers_source (source : Text) :
    ∃ stretches last p,
      source.scan = stretches.map Stretch.item ++ [.ok (.eof p)] ∧
      Covers source stretches last ∧
      source = stretches.flatMap Stretch.bytes ++ last ∧
      (∀ before s after p', stretches = before ++ s :: after →
        s.item = .error (.unterminatedString p') → after = [] ∧ last = []) ∧
      (∀ s ∈ stretches, ∀ t, s.item = .ok t → t.kind ≠ .eof) ∧
      source.scan.length ≤ source.length + 1 ∧
      (∀ n item, source.scan[n]? = some item → ((ofText source).after n).next.1 = item) ∧
      (∀ n, source.scan.length ≤ n → ((ofText source).after n).next.1 = .ok (.eof p)) := by
  obtain ⟨stretches, last, p, hitems, hcovers⟩ := items_covers _ (aligned_ofText source)
  rw [input_ofText] at hcovers
  obtain ⟨hcalls, hlater⟩ := next_after (ofText source)
  refine ⟨stretches, last, p, hitems, hcovers, hcovers.eq_concat, ?_, hcovers.ne_eof, ?_,
    hcalls, ?_⟩
  · rintro before s after p' rfl hs
    exact hcovers.openString_last hs
  · have hle := hcovers.length_le
    rw [Text.scan, hitems]
    simpa using hle
  · intro n hn
    have hlast := hlater n hn
    rw [hitems, List.getLast?_concat] at hlast
    exact (Option.some.inj hlast).symm

end Scanner

end ExprCalc
