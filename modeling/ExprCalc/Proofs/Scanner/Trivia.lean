import ExprCalc.Token.Scanner
import ExprCalc.Proofs.Text.Runes

namespace ExprCalc.Scanner

open Text (ascii)

def blanks : Text := utf8 " \r\t\n"

/-- `Trivia gap rest`: before `rest`, the bytes `gap` are white space and comments. A comment goes
on until a line feed or the end of the input. -/
inductive Trivia : (gap rest : Text) → Prop
  | nil {rest : Text} : Trivia [] rest
  | blank {b : UInt8} {gap rest : Text} (hb : b ∈ blanks) (h : Trivia gap rest) :
      Trivia (b :: gap) rest
  | comment {body gap rest : Text} (hbody : 10 ∉ body)
      (hend : gap ++ rest = [] ∨ (gap ++ rest).head? = some 10) (h : Trivia gap rest) :
      Trivia (utf8 "//" ++ body ++ gap) rest

/-- The input starts with neither white space nor a comment. -/
def Settled (rest : Text) : Prop :=
  (∀ b ∈ blanks, rest.head? ≠ some b) ∧ ¬ utf8 "//" <+: rest

theorem blanks_eq : blanks = [32, 13, 9, 10] := by
  decide

theorem toNat_lt_of_mem_blanks {b : UInt8} (hb : b ∈ blanks) : b.toNat < 0x80 := by
  have hall : blanks.all fun b => b.toNat < 0x80 := by decide
  exact of_decide_eq_true (List.all_eq_true.mp hall b hb)

theorem slashes_eq : utf8 "//" = [47, 47] := by
  decide

theorem takeWhile_append_stop {α : Type} {p : α → Bool} {xs ys : List α} (hxs : ∀ x ∈ xs, p x)
    (hys : ∀ y, ys.head? = some y → ¬ p y) : (xs ++ ys).takeWhile p = xs := by
  rw [List.takeWhile_append_of_pos hxs]
  cases ys with
  | nil => exact List.append_nil xs
  | cons y ys => rw [List.takeWhile_cons_of_neg (hys y rfl), List.append_nil]

theorem takeWhile_comment {body x : Text} (hbody : 10 ∉ body)
    (hx : x = [] ∨ x.head? = some 10) : (body ++ x).takeWhile (· ≠ 10) = body := by
  apply takeWhile_append_stop
  · intro b hb
    exact decide_eq_true fun h => hbody (h ▸ hb)
  · intro b hb
    rcases hx with rfl | hx
    · cases hb
    · rw [hx] at hb
      cases hb
      decide

theorem eq_nil_of_settled {gap rest : Text} (h : Trivia gap rest)
    (hsettled : Settled (gap ++ rest)) : gap = [] := by
  cases h with
  | nil => rfl
  | blank hb _ => exact absurd rfl (hsettled.1 _ hb)
  | comment _ _ _ =>
    refine absurd ?_ hsettled.2
    rw [List.append_assoc, List.append_assoc]
    exact List.prefix_append _ _

theorem trivia_unique {gap rest gap' rest' : Text} (h : Trivia gap rest) (hrest : Settled rest)
    (h' : Trivia gap' rest') (hrest' : Settled rest') (heq : gap ++ rest = gap' ++ rest') :
    gap = gap' := by
  induction h generalizing gap' with
  | nil =>
    rw [List.nil_append] at heq
    subst heq
    exact (eq_nil_of_settled h' hrest).symm
  | @blank b gap rest hb h ih =>
    cases h' with
    | nil =>
      rw [List.nil_append] at heq
      subst heq
      exact absurd rfl (hrest'.1 b hb)
    | blank hb' h' =>
      obtain ⟨rfl, htail⟩ := List.cons.inj heq
      rw [ih hrest h' htail]
    | comment _ _ _ =>
      rw [slashes_eq] at heq
      obtain ⟨rfl, -⟩ := List.cons.inj heq
      exact absurd hb (by decide)
  | @comment body gap rest hbody hend h ih =>
    cases h' with
    | nil =>
      rw [List.nil_append] at heq
      subst heq
      refine absurd ?_ hrest'.2
      rw [List.append_assoc, List.append_assoc]
      exact List.prefix_append _ _
    | blank hb' _ =>
      rw [slashes_eq] at heq
      obtain ⟨rfl, -⟩ := List.cons.inj heq
      exact absurd hb' (by decide)
    | @comment body' gap' _ hbody' hend' h' =>
      -- both bodies end at the first line feed
      simp only [List.append_assoc, List.append_cancel_left_eq] at heq
      have hsame : body = body' := by
        rw [← takeWhile_comment hbody hend, heq, takeWhile_comment hbody' hend']
      subst hsame
      rw [ih hrest h' (List.append_cancel_left heq)]

/-- All the trivia at the start of `t` is `gap`, and `rest` comes after it. -/
structure Skips (t gap rest : Text) : Prop where
  split : t = gap ++ rest
  trivia : Trivia gap rest
  settled : Settled rest

theorem skips_unique {t gap rest gap' rest' : Text} (h : Skips t gap rest)
    (h' : Skips t gap' rest') : gap = gap' ∧ rest = rest' := by
  have heq : gap ++ rest = gap' ++ rest' := h.split.symm.trans h'.split
  have hgap := trivia_unique h.trivia h.settled h'.trivia h'.settled heq
  subst hgap
  exact ⟨rfl, List.append_cancel_left heq⟩

/-- Inside a comment, what comes before the rest is the body of the comment and more trivia. -/
def InComment (t rest : Text) : Prop :=
  ∃ body gap, t = body ++ (gap ++ rest) ∧ 10 ∉ body ∧
    (gap ++ rest = [] ∨ (gap ++ rest).head? = some 10) ∧ Trivia gap rest

/-- The runes after the trivia of a text, or after the comment it starts in. -/
def SkipsTo : Gap → Text → Text → Prop
  | .none, t, rest => ∃ gap, t = gap ++ rest ∧ Trivia gap rest
  | .comment, t, rest => InComment t rest

theorem skipsTo_comment {r : Rune} {t rest : Text} (hrunes : (r.bytes ++ t).runes = r :: t.runes)
    (hr : r ≠ .char '\n') (h : SkipsTo .comment t rest) : SkipsTo .comment (r.bytes ++ t) rest := by
  obtain ⟨body, gap, rfl, hbody, hend, htrivia⟩ := h
  refine ⟨r.bytes ++ body, gap, (List.append_assoc _ _ _).symm, ?_, hend, htrivia⟩
  -- no byte of a longer rune is a line feed
  intro hmem
  rcases List.mem_append.mp hmem with hmem | hmem
  · have hfirst : r ∈ (r.bytes ++ (body ++ (gap ++ rest))).runes := by
      rw [hrunes]
      exact List.mem_cons_self
    exact hr (Text.eq_ascii_of_mem_bytes hfirst hmem (by decide))
  · exact hbody hmem

theorem skipsTo_blank {b : UInt8} {t rest : Text} (hb : b ∈ blanks) (h : SkipsTo .none t rest) :
    SkipsTo .none (b :: t) rest := by
  obtain ⟨gap, rfl, htrivia⟩ := h
  exact ⟨b :: gap, rfl, .blank hb htrivia⟩

theorem skipsTo_newline {t rest : Text} (h : SkipsTo .none t rest) :
    SkipsTo .comment (10 :: t) rest := by
  obtain ⟨gap, rfl, htrivia⟩ := h
  exact ⟨[], 10 :: gap, rfl, by simp, .inr rfl, .blank (by decide) htrivia⟩

/-- The second slash of a comment is read as the first byte of its body. -/
theorem skipsTo_slash {t rest : Text} (ht : t.head? = some 47) (h : SkipsTo .comment t rest) :
    SkipsTo .none (47 :: t) rest := by
  obtain ⟨body, gap, rfl, hbody, hend, htrivia⟩ := h
  cases body with
  | nil =>
    rw [List.nil_append] at ht
    rcases hend with h | h <;> rw [h] at ht <;> cases ht
  | cons b body =>
    cases ht
    refine ⟨utf8 "//" ++ body ++ gap, ?_, .comment (fun h => hbody (.tail 47 h)) hend htrivia⟩
    simp [slashes_eq]

theorem settled_of_runes {r : Rune} {t : Text} (hrunes : (r.bytes ++ t).runes = r :: t.runes)
    (hblank : ∀ b ∈ blanks, r ≠ ascii b)
    (hslash : r = ascii 47 → t.runes.head? ≠ some (ascii 47)) : Settled (r.bytes ++ t) := by
  have hfirst {b : UInt8} (hb : b.toNat < 0x80) (h : (r.bytes ++ t).head? = some b) :
      r = ascii b := by
    rw [← Text.head?_runes_eq_ascii hb, hrunes] at h
    exact Option.some.inj h
  constructor
  · intro b hb h
    exact hblank b hb (hfirst (toNat_lt_of_mem_blanks hb) h)
  · rintro ⟨u, hu⟩
    rw [slashes_eq] at hu
    have hr : r = ascii 47 := hfirst (by decide) (by rw [← hu]; rfl)
    apply hslash hr
    rw [Text.head?_runes_eq_ascii (by decide)]
    rw [hr, Text.bytes_ascii (by decide)] at hu
    cases hu
    rfl

theorem blank_char {b : UInt8} (hb : b ∈ blanks) : Char.ofNat b.toNat = ' ' ∨
    Char.ofNat b.toNat = '\r' ∨ Char.ofNat b.toNat = '\t' ∨ Char.ofNat b.toNat = '\n' := by
  rw [blanks_eq] at hb
  simp only [List.mem_cons, List.not_mem_nil, or_false] at hb
  rcases hb with rfl | rfl | rfl | rfl <;> decide

theorem exists_skipsTo (mode : Gap) (t : Text) :
    ∃ rest, SkipsTo mode t rest ∧ Settled rest ∧
      t.runes.drop (triviaLength mode t.runes) = rest.runes := by
  -- one rune at a time, with the mode general: a comment begins and ends on the way
  induction t using Text.rune_induction generalizing mode with
  | nil =>
    refine ⟨[], ?_, ⟨by simp, by simp [slashes_eq]⟩, rfl⟩
    cases mode with
    | none => exact ⟨[], rfl, .nil⟩
    | comment => exact ⟨[], [], rfl, by simp, .inl rfl, .nil⟩
  | cons r t hrunes ih =>
    have skipped {rest : Text} {n : Nat} (h : t.runes.drop n = rest.runes) :
        (r :: t.runes).drop (1 + n) = rest.runes := by
      rw [Nat.add_comm, List.drop_succ_cons, h]
    rw [hrunes]
    cases mode with
    | comment =>
      simp only [triviaLength]
      split
      · next hr =>
        obtain ⟨rest, h, hsettled, hdrop⟩ := ih .none
        subst hr
        exact ⟨rest, skipsTo_newline h, hsettled, skipped hdrop⟩
      · next hr =>
        obtain ⟨rest, h, hsettled, hdrop⟩ := ih .comment
        exact ⟨rest, skipsTo_comment hrunes hr h, hsettled, skipped hdrop⟩
    | none =>
      cases r with
      | stray b =>
        refine ⟨_, ⟨[], rfl, .nil⟩, settled_of_runes hrunes ?_ ?_, hrunes.symm⟩
        · exact fun b _ h => by cases h
        · exact fun h => by cases h
      | char c =>
        simp only [triviaLength]
        split
        · next hc =>
          obtain ⟨rest, h, hsettled, hdrop⟩ := ih .none
          refine ⟨rest, ?_, hsettled, skipped hdrop⟩
          rcases hc with rfl | rfl | rfl | rfl <;> exact skipsTo_blank (by decide) h
        split
        · next hc =>
          obtain ⟨rest, h, hsettled, hdrop⟩ := ih .comment
          obtain ⟨rfl, hnext⟩ := hc
          have hhead := (Text.head?_runes_eq_ascii (b := 47) (by decide) t).mp hnext
          exact ⟨rest, skipsTo_slash hhead h, hsettled, skipped hdrop⟩
        · next hblank hslash =>
          -- neither blank nor the start of a comment: the gap ends here
          refine ⟨_, ⟨[], rfl, .nil⟩, settled_of_runes hrunes ?_ ?_, hrunes.symm⟩
          · intro b hb h
            cases h
            exact hblank (blank_char hb)
          · intro h hnext
            exact hslash ⟨by cases h; decide, hnext⟩

theorem exists_skips (t : Text) : ∃ gap rest, Skips t gap rest ∧
    t.runes.drop (triviaLength .none t.runes) = rest.runes := by
  obtain ⟨rest, ⟨gap, hsplit, htrivia⟩, hsettled, hdrop⟩ := exists_skipsTo .none t
  exact ⟨gap, rest, ⟨hsplit, htrivia, hsettled⟩, hdrop⟩

end ExprCalc.Scanner
