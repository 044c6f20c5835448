import ExprCalc.Text.Basic

namespace ExprCalc.Text

structure LinePiece where
  text : Text
  /-- There is more of the line. -/
  goesOn : Bool

/-- How many bytes are read at once, the end of the line included. -/
def lineReach : Nat := 4096

def splitLine : (reach : Nat) → Text → Text × Text
  | 0, t => ([], t)
  | _ + 1, [] => ([], [])
  | reach + 1, b :: bs =>
    if b = 10 then ([], b :: bs)
    else (b :: (splitLine reach bs).1, (splitLine reach bs).2)

theorem splitLine_append (reach : Nat) (t : Text) :
    (splitLine reach t).1 ++ (splitLine reach t).2 = t := by
  induction reach generalizing t with
  | zero => rfl
  | succ reach ih =>
    cases t with
    | nil => rfl
    | cons b bs =>
      simp only [splitLine]
      split
      · rfl
      · simpa using ih bs

def withoutReturn (line : Text) : Text :=
  if line.getLast? = some 13 then line.dropLast else line

/-- The first piece of a text, and what follows it. A carriage return at the end of a piece is left
for the next one, because it may belong to the end of the line. -/
def firstPiece (t : Text) : LinePiece × Text :=
  let line := (splitLine lineReach t).1
  let rest := (splitLine lineReach t).2
  if lineReach ≤ line.length then
    if line.getLast? = some 13 then (⟨line.dropLast, true⟩, 13 :: rest) else (⟨line, true⟩, rest)
  else match rest with
    | [] => (⟨line, false⟩, [])
    | _ :: rest => (⟨withoutReturn line, false⟩, rest)

theorem length_firstPiece_lt (t : Text) (h : t ≠ []) : (firstPiece t).2.length < t.length := by
  have whole := congrArg List.length (splitLine_append lineReach t)
  have nonempty := List.length_pos_iff.2 h
  rw [List.length_append] at whole
  unfold firstPiece
  generalize splitLine lineReach t = cut at *
  obtain ⟨line, rest⟩ := cut
  by_cases long : lineReach ≤ line.length
  · have several : 1 < line.length := Nat.lt_of_lt_of_le (by decide) long
    by_cases returned : line.getLast? = some 13
    · simp only [long, returned, if_true, List.length_cons] at whole ⊢
      omega
    · simp only [long, returned, if_true, if_false] at whole ⊢
      omega
  · cases rest with
    | nil => simpa [long] using nonempty
    | cons b rest =>
      simp only [long, if_false, List.length_cons] at whole ⊢
      omega

def pieces (t : Text) : List LinePiece :=
  if _ : t = [] then [] else (firstPiece t).1 :: pieces (firstPiece t).2
termination_by t.length
decreasing_by exact length_firstPiece_lt t ‹_›

def lines (t : Text) : List Text :=
  t.pieces.map LinePiece.text

end ExprCalc.Text
