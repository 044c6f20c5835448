import ExprCalc.Text.CharClass
import ExprCalc.Settings
import ExprCalc.Session.History

namespace ExprCalc

structure Session where
  settings : Settings
  history : History
  /-- The outputs so far, the latest first. -/
  written : List Output

namespace Session

def start (settings : Settings) (history : History) : Session :=
  ⟨settings, history, []⟩

def output (s : Session) : Output :=
  .concat s.written.reverse

def write (s : Session) (o : Output) : Session :=
  { s with written := o :: s.written }

def remember (s : Session) (line : Text) : Session :=
  { s with history := s.history.remember line }

/-- A prompt with control characters cannot be shown. -/
def canAsk (s : Session) : Bool :=
  s.settings.prompt.runes.all fun
    | .char c => !Text.isControl c
    | .stray _ => true

def ask (s : Session) (shown : Bool) : Session :=
  if shown then s.write ⟨s.settings.prompt, []⟩ else s

/-- Answers a line. A blank one has no answer and is not remembered. -/
def answer (s : Session) (line : Text) : Session :=
  if line.isBlank then s
  else
    let s := s.remember line
    match Run.evaluateTo s.settings.tracing line with
    | (o, none) => s.write o
    | (o, some f) => (s.write o).write (.ofFailure f)

def run (s : Session) (shown : Bool) (lines : List Text) : Session :=
  (lines.foldl (fun s line => (s.ask shown).answer line) s).ask shown

@[simp]
theorem output_write (s : Session) (o : Output) : (s.write o).output = s.output ++ o := by
  ext1 <;> simp [output, write, Output.concat]

@[simp]
theorem settings_answer (s : Session) (line : Text) : (s.answer line).settings = s.settings := by
  simp only [answer]
  split
  · rfl
  · split <;> rfl

end Session

end ExprCalc
