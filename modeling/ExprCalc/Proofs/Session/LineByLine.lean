import ExprCalc.Command.Execute
import ExprCalc.Proofs.Text.SingleLine

namespace ExprCalc

namespace Output

/-- What a run of a source writes: its value, or the report of its failure after the trace. -/
def ofSource (tracing : Tracing) (source : Text) : Output :=
  match Run.evaluate tracing source with
  | ⟨.ok v, trace⟩ => ⟨Text.line v.text, trace⟩
  | ⟨.error f, trace⟩ => ⟨[], trace ++ f.report⟩

def ofLine (tracing : Tracing) (line : Text) : Output :=
  if line.isBlank then empty else ofSource tracing line

theorem ofSource_eq (tracing : Tracing) (source : Text) :
    ofSource tracing source =
      match Run.evaluateTo tracing source with
      | (o, none) => o
      | (o, some f) => o ++ ofFailure f := by
  unfold ofSource Run.evaluateTo
  obtain ⟨result, trace⟩ := Run.evaluate tracing source
  cases result <;> rfl

end Output

namespace Text

theorem splitLine_line {line : Text} (h : line.IsLine) {reach : Nat} (hreach : line.length ≤ reach)
    (rest : Text) : splitLine reach (line ++ 10 :: rest) = (line, 10 :: rest) := by
  induction line generalizing reach with
  | nil => cases reach <;> rfl
  | cons b line ih =>
    have hb : b ≠ 10 := fun hb => h (hb ▸ List.mem_cons_self)
    have hline : IsLine line := fun hmem => h (.tail b hmem)
    cases reach with
    | zero => cases hreach
    | succ reach =>
      rw [List.cons_append, splitLine, if_neg hb, ih hline (Nat.le_of_succ_le_succ hreach)]

/-- A line that can be read in one piece. It does not end in a carriage return, which would be taken
for a part of the end of the line. -/
structure Fits (line : Text) : Prop where
  single : line.IsLine
  short : line.length < lineReach
  noReturn : line.getLast? ≠ some 13

theorem firstPiece_line {line : Text} (h : line.Fits) (rest : Text) :
    firstPiece (line.line ++ rest) = (⟨line, false⟩, rest) := by
  have hsplit : splitLine lineReach (line.line ++ rest) = (line, 10 :: rest) := by
    rw [Text.line, List.append_assoc]
    exact splitLine_line h.single (Nat.le_of_lt h.short) rest
  simp only [firstPiece, hsplit]
  rw [if_neg (Nat.not_le_of_lt h.short), withoutReturn, if_neg h.noReturn]

/-- Lines that fit are read as they were written. -/
theorem lines_flatMap_line {ls : List Text} (h : ∀ line ∈ ls, line.Fits) :
    Text.lines (ls.flatMap Text.line) = ls := by
  induction ls with
  | nil => rw [List.flatMap_nil, lines, pieces, dif_pos rfl, List.map_nil]
  | cons line ls ih =>
    obtain ⟨hline, hls⟩ := List.forall_mem_cons.mp h
    have hne : line.line ++ ls.flatMap Text.line ≠ [] := by
      simp [Text.line]
    rw [List.flatMap_cons, lines, pieces, dif_neg hne, firstPiece_line hline, List.map_cons]
    exact congrArg (line :: ·) (ih hls)

end Text

namespace Session

theorem output_answer (s : Session) (line : Text) :
    (s.answer line).output = s.output ++ .ofLine s.settings.tracing line := by
  unfold answer Output.ofLine
  split
  · exact (Output.append_empty s.output).symm
  · rw [Output.ofSource_eq]
    change Session.output (match Run.evaluateTo s.settings.tracing line with
      | (o, none) => (s.remember line).write o
      | (o, some f) => ((s.remember line).write o).write (.ofFailure f)) = _
    obtain ⟨o, _ | f⟩ := Run.evaluateTo s.settings.tracing line
    · exact output_write (s.remember line) o
    · rw [output_write, output_write, Output.append_assoc]
      rfl

/-- The output of all lines is made up of what each of them adds. -/
theorem output_foldl {settings : Settings} {f : Session → Text → Session} {written : Text → Output}
    (hstep : ∀ s line, s.settings = settings →
      (f s line).settings = settings ∧ (f s line).output = s.output ++ written line)
    (lines : List Text) {s : Session} (hs : s.settings = settings) :
    (lines.foldl f s).settings = settings ∧
      (lines.foldl f s).output = s.output ++ .concat (lines.map written) := by
  induction lines generalizing s with
  | nil => exact ⟨hs, (Output.append_empty s.output).symm⟩
  | cons line lines ih =>
    obtain ⟨hsettings, houtput⟩ := hstep s line hs
    obtain ⟨hsettings', houtput'⟩ := ih hsettings
    refine ⟨hsettings', ?_⟩
    rw [List.foldl_cons, houtput', houtput, List.map_cons, Output.concat_cons, Output.append_assoc]

theorem output_run_silent (lines : List Text) (s : Session) :
    (s.run false lines).settings = s.settings ∧
      (s.run false lines).output =
        s.output ++ .concat (lines.map (.ofLine s.settings.tracing)) := by
  change (lines.foldl answer s).settings = _ ∧ (lines.foldl answer s).output = _
  refine output_foldl ?_ lines rfl
  intro s' line hs
  exact ⟨(settings_answer s' line).trans hs, hs ▸ output_answer s' line⟩

/-- What is written for a line, with the prompt that asks for it. -/
def exchange (settings : Settings) (line : Text) : Output :=
  ⟨settings.prompt, []⟩ ++ .ofLine settings.tracing line

theorem output_run_prompting (lines : List Text) (s : Session) :
    (s.run true lines).settings = s.settings ∧
      (s.run true lines).output =
        s.output ++ .concat (lines.map (exchange s.settings)) ++ ⟨s.settings.prompt, []⟩ := by
  have hstep (s' : Session) (line : Text) (hs : s'.settings = s.settings) :
      ((s'.ask true).answer line).settings = s.settings ∧
        ((s'.ask true).answer line).output = s'.output ++ exchange s.settings line := by
    refine ⟨(settings_answer (s'.ask true) line).trans hs, ?_⟩
    rw [output_answer, ask, if_pos rfl, output_write, Output.append_assoc, ← hs]
    rfl
  obtain ⟨hsettings, houtput⟩ := output_foldl hstep lines rfl
  refine ⟨hsettings, ?_⟩
  rw [run, ask, if_pos rfl, output_write, houtput, hsettings]

end Session

namespace Command

/-- Closed on this disk, the session succeeds. It has written the given outputs, and on standard
error also what there was to say about the history. -/
structure Writes (s : Settings) (disk : Disk) (session : Session) (outputs : List Output) : Prop where
  succeeds : (closeSession session disk).problem = none
  out : (closeSession session disk).output.out = outputs.flatMap Output.out
  err : (closeSession session disk).output.err =
    (loadHistory disk s.historyFile).2 ++ outputs.flatMap Output.err ++
      (saveHistory disk s.historyFile session.history).2

theorem writes_of_output {s : Settings} {disk : Disk} {session : Session} {outputs : List Output}
    (hsettings : session.settings = s)
    (houtput : session.output = (openSession s disk).output ++ .concat outputs) :
    Writes s disk session outputs := by
  have hopen : (openSession s disk).output = ⟨[], (loadHistory disk s.historyFile).2⟩ :=
    Session.output_write _ _
  have hclose : (closeSession session disk).output =
      session.output ++ ⟨[], (saveHistory disk s.historyFile session.history).2⟩ := by
    rw [← hsettings]
    exact Session.output_write _ _
  refine ⟨rfl, ?_, ?_⟩
  · simp [hclose, houtput, hopen, Output.concat]
  · simp [hclose, houtput, hopen, Output.concat]

theorem writes_run_silent (s : Settings) (disk : Disk) (lines : List Text) :
    Writes s disk ((openSession s disk).run false lines) (lines.map (.ofLine s.tracing)) := by
  obtain ⟨hsettings, houtput⟩ := Session.output_run_silent lines (openSession s disk)
  exact writes_of_output hsettings houtput

theorem writes_run_prompting (s : Settings) (disk : Disk) (lines : List Text) :
    Writes s disk ((openSession s disk).run true lines)
      (lines.map (Session.exchange s) ++ [⟨s.prompt, []⟩]) := by
  obtain ⟨hsettings, houtput⟩ := Session.output_run_prompting lines (openSession s disk)
  refine writes_of_output hsettings ?_
  rw [houtput, Output.concat_append, Output.append_assoc, Output.concat_cons, Output.concat_nil,
    Output.append_empty]
  rfl

section Execute

variable {env : Environment} {arguments : List Text} {o : Options} {disk : Disk} {s : Settings}

theorem execute_session (hcommand : invocation arguments = .ok (.interactive o))
    (hsettings : o.settings env disk = .ok s) (hinput : o.input.isEmpty = true)
    (hask : (openSession s disk).canAsk = true) (stdin : Text) :
    execute env arguments stdin disk =
      closeSession ((openSession s disk).run env.showsPrompt stdin.lines) disk := by
  have hplan : plan env arguments disk = .converse (openSession s disk) := by
    simp only [plan, hcommand, hsettings, hinput, hask, if_true]
  rw [execute, hplan]

theorem execute_file (hcommand : invocation arguments = .ok (.interactive o))
    (hsettings : o.settings env disk = .ok s) (hinput : o.input.isEmpty = false) {content : Text}
    (hread : disk.read o.input = .ok content) (stdin : Text) :
    (execute env arguments stdin disk).output.out = (Output.ofSource s.tracing content).out ∧
      (execute env arguments stdin disk).stderr = (Output.ofSource s.tracing content).err := by
  have hplan : plan env arguments disk = .finish ⟨(Run.evaluateTo s.tracing content).1, disk,
      (Run.evaluateTo s.tracing content).2.map .failure⟩ := by
    simp only [plan, hcommand, hsettings, hinput, hread, Bool.false_eq_true, if_false]
  rw [execute, hplan, Output.ofSource_eq]
  obtain ⟨written, _ | f⟩ := Run.evaluateTo s.tracing content
  · exact ⟨rfl, List.append_nil _⟩
  · exact ⟨(List.append_nil _).symm, rfl⟩

end Execute

/-- A session is answered line by line, and nothing is carried from one line to another. With every
configuration it succeeds, whatever its lines are, and writes for each of them what a run of the
line alone writes, with the prompt before each where the reader shows it. A command line without an
input file leads to such a session on the lines of its input. With one, it writes what a run of the
content of the file writes. -/
theorem session_answers_each_line_alone (env : Environment) (s : Settings) (disk : Disk) :
    (∀ lines : List Text, Writes s disk ((openSession s disk).run false lines)
      (lines.map (.ofLine s.tracing))) ∧
    (∀ lines : List Text, Writes s disk ((openSession s disk).run true lines)
      (lines.map (Session.exchange s) ++ [⟨s.prompt, []⟩])) ∧
    ∀ arguments o, invocation arguments = .ok (.interactive o) → o.settings env disk = .ok s →
      (o.input.isEmpty = true → (openSession s disk).canAsk = true →
        ∀ lines : List Text, (∀ line ∈ lines, line.Fits) →
          execute env arguments (lines.flatMap Text.line) disk =
            closeSession ((openSession s disk).run env.showsPrompt lines) disk) ∧
      (o.input.isEmpty = false → ∀ content, disk.read o.input = .ok content → ∀ stdin,
        (execute env arguments stdin disk).output.out = (Output.ofSource s.tracing content).out ∧
        (execute env arguments stdin disk).stderr = (Output.ofSource s.tracing content).err) := by
  refine ⟨writes_run_silent s disk, writes_run_prompting s disk, ?_⟩
  intro arguments o hcommand hsettings
  constructor
  · intro hinput hask lines hlines
    rw [execute_session hcommand hsettings hinput hask, Text.lines_flatMap_line hlines]
  · intro hinput content hread stdin
    exact execute_file hcommand hsettings hinput hread stdin

def quietEnvironment : Environment :=
  ⟨utf8 "data", utf8 "config", false, fun _ => [], fun _ => (.empty, none)⟩

def sumDisk : Disk :=
  (Disk.empty [utf8 "work"]).add (utf8 "sum.lox") (some (utf8 "1 + 2"))

/-- A line with a value, a blank one, two that fail, and one that comes after them. -/
def mixedLines : List Text :=
  [utf8 "1 + 2", utf8 "\t ", utf8 "1 + true", utf8 "@", utf8 "\"a\" < \"b\""]

def mixedAnswers : List Output :=
  [⟨utf8 "3\n", []⟩, .empty,
   ⟨[], utf8 "Error: eval: at 1:3: `+`, operands of `+` must be Number, got Number and Boolean\n"⟩,
   ⟨[], utf8 "Error: lex: at 1:1: unrecognized character '@'\n"⟩, ⟨utf8 "true\n", []⟩]

theorem session_mixedLines :
    let s := Settings.default quietEnvironment
    let session := (openSession s sumDisk).run false mixedLines
    (∀ line ∈ mixedLines, line.Fits) ∧ Writes s sumDisk session mixedAnswers ∧
    execute quietEnvironment [] (mixedLines.flatMap Text.line) sumDisk =
      closeSession session sumDisk ∧
    (execute quietEnvironment [utf8 "-i", utf8 "sum.lox"] [] sumDisk).output.out = utf8 "3\n" ∧
    (execute quietEnvironment [utf8 "-i", utf8 "sum.lox"] [] sumDisk).stderr = [] := by
  intro s session
  have hfits : ∀ line ∈ mixedLines, line.Fits := by
    have hall : ∀ line ∈ mixedLines,
        line.IsLine ∧ line.length < Text.lineReach ∧ line.getLast? ≠ some 13 := by
      decide +kernel
    intro line hline
    obtain ⟨hsingle, hshort, hreturn⟩ := hall line hline
    exact ⟨hsingle, hshort, hreturn⟩
  have hanswers : mixedLines.map (.ofLine s.tracing) = mixedAnswers := by decide +kernel
  have hsum : Output.ofSource s.tracing (utf8 "1 + 2") = ⟨utf8 "3\n", []⟩ := by decide +kernel
  obtain ⟨hsilent, -, hcommands⟩ := session_answers_each_line_alone quietEnvironment s sumDisk
  obtain ⟨hsession, -⟩ := hcommands [] .none rfl rfl
  have hcommand : invocation [utf8 "-i", utf8 "sum.lox"] =
      .ok (.interactive ⟨utf8 "sum.lox", none, none, none, none, false⟩) := by
    rw [invocation]
    unfold readArguments
    rfl
  obtain ⟨-, hfile⟩ := hcommands _ _ hcommand rfl
  obtain ⟨hout, herr⟩ := hfile rfl (utf8 "1 + 2") rfl []
  refine ⟨hfits, hanswers ▸ hsilent mixedLines, hsession rfl (by decide +kernel) mixedLines hfits,
    ?_, ?_⟩
  · rw [hout, hsum]
  · rw [herr, hsum]

end Command

end ExprCalc
