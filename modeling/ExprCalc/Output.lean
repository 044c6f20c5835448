import ExprCalc.Run

namespace ExprCalc

@[ext]
structure Output where
  out : Text
  err : Text
deriving DecidableEq

namespace Output

def empty : Output := ⟨[], []⟩

def append (a b : Output) : Output :=
  ⟨a.out ++ b.out, a.err ++ b.err⟩

instance : Append Output := ⟨append⟩

def concat (os : List Output) : Output :=
  ⟨os.flatMap out, os.flatMap err⟩

@[simp]
theorem append_out (a b : Output) : (a ++ b).out = a.out ++ b.out := rfl

@[simp]
theorem append_err (a b : Output) : (a ++ b).err = a.err ++ b.err := rfl

@[simp]
theorem append_empty (a : Output) : a ++ empty = a := by
  ext1 <;> simp [empty]

theorem append_assoc (a b c : Output) : a ++ b ++ c = a ++ (b ++ c) := by
  ext1 <;> simp

@[simp]
theorem concat_nil : concat [] = empty := rfl

@[simp]
theorem concat_cons (o : Output) (os : List Output) : concat (o :: os) = o ++ concat os := by
  ext1 <;> simp [concat]

theorem concat_append (os os' : List Output) : concat (os ++ os') = concat os ++ concat os' := by
  ext1 <;> simp [concat]

def ofFailure (f : Failure) : Output :=
  ⟨[], f.report⟩

end Output

/-- Evaluates a source: the value goes to standard output, the trace to standard error. -/
def Run.evaluateTo (tracing : Tracing) (source : Text) : Output × Option Failure :=
  let o := Run.evaluate tracing source
  match o.result with
  | .ok v => (⟨Text.line v.text, o.trace⟩, none)
  | .error f => (⟨[], o.trace⟩, some f)

end ExprCalc
