import ExprCalc.Text.Basic

namespace ExprCalc.Path

def slash : UInt8 := 47

def here : Text := utf8 "."

def up : Text := utf8 ".."

/-- The parts of a path between slashes; some may be empty. -/
def components : Text → List Text
  | [] => [[]]
  | b :: bs =>
    if b = slash then [] :: components bs
    else match components bs with
      | [] => [[b]]
      | part :: parts => (b :: part) :: parts

def isAbsolute (path : Text) : Bool :=
  path.head? == some slash

/-- Takes one component onto a clean path, kept with its last component first. Going up cancels a
component, if there is one to cancel. -/
def cleanStep (absolute : Bool) (clean : List Text) (part : Text) : List Text :=
  if part.isEmpty ∨ part = here then clean
  else if part = up then
    match clean with
    | [] => if absolute then [] else [up]
    | last :: before => if last = up then up :: clean else before
  else part :: clean

/-- The shortest path that means the same, as long as every component of it is a directory. -/
def clean (path : Text) : Text :=
  let absolute := isAbsolute path
  let parts := ((components path).foldl (cleanStep absolute) []).reverse
  let joined := Text.joinWith [slash] parts
  if absolute then slash :: joined else if joined.isEmpty then here else joined

def join (directory name : Text) : Text :=
  if directory.isEmpty then clean name else clean (directory ++ slash :: name)

/-- The path up to its last slash, that included. -/
def upToSlash (path : Text) : Text :=
  (path.reverse.dropWhile (· != slash)).reverse

def directory (path : Text) : Text :=
  clean (upToSlash path)

/-- The path of the parent, with the slash after it; empty if the path has one component only. -/
def parent (path : Text) : Text :=
  upToSlash (path.reverse.dropWhile (· == slash)).reverse

theorem length_parent_lt (path : Text) (h : parent path ≠ []) :
    (parent path).length < path.length := by
  have bound := (List.dropWhile_suffix (l := path.reverse) (· == slash)).length_le
  simp only [parent, upToSlash, List.reverse_reverse, List.length_reverse] at *
  cases stripped : path.reverse.dropWhile (· == slash) with
  | nil => simp [stripped] at h
  | cons b rest =>
    have last : (b == slash) = false := by
      have := List.head?_dropWhile_not (· == slash) path.reverse
      simpa [stripped] using this
    have shorter := (List.dropWhile_suffix (l := rest) (· != slash)).length_le
    have step : (b :: rest).dropWhile (· != slash) = rest.dropWhile (· != slash) := by
      simp [bne, last]
    rw [stripped] at bound
    rw [step]
    simp only [List.length_cons] at bound
    omega

end ExprCalc.Path
