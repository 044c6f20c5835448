import ExprCalc.Command.Invocation
import ExprCalc.Session.Basic
import ExprCalc.Token.Listing

namespace ExprCalc.Command

inductive Problem where
  | usage (e : UsageError)
  | noSource
  | invalidPrompt
  | failure (f : Failure)

def Problem.report : Problem → Text
  | usage e => (Failure.plain e.message).report
  | noSource => (Failure.plain (utf8 "no source: pass an expression or --input")).report
  | invalidPrompt => (Failure.plain (utf8 "invalid prompt")).report
  | failure f => f.report

structure Outcome where
  output : Output
  disk : Disk
  problem : Option Problem

namespace Outcome

def succeeds (o : Outcome) : Bool :=
  o.problem.isNone

/-- Everything on standard error, with the report of a failure at the end. -/
def stderr (o : Outcome) : Text :=
  o.output.err ++ ((o.problem.map Problem.report).getD [])

end Outcome

/-- The settings: the defaults, changed by the settings file if there is one. -/
def loadSettings (env : Environment) (disk : Disk) (path : Text) : Except Failure Settings :=
  match disk.read path with
  | .error e =>
    if e.fault = .notFound then .ok (.default env)
    else .error (.during (utf8 "config") (.file e))
  | .ok document =>
    match (Settings.default env).overlay env.malformed document with
    | (s, none) => .ok s
    | (_, some f) => .error (.during (utf8 "config " ++ path) f)

def Options.apply (o : Options) (s : Settings) : Settings :=
  { s with
    prompt := o.prompt.getD s.prompt
    tracing := ⟨o.tokens.getD s.tracing.tokens, o.ast.getD s.tracing.tree⟩ }

def Options.settings (o : Options) (env : Environment) (disk : Disk) : Except Problem Settings :=
  match loadSettings env disk (o.config.getD (Settings.defaultPath env)) with
  | .ok s => .ok (o.apply s)
  | .error f => .error (.failure f)

/-- The source a command works on: its argument, or else the input file. -/
def readSource (disk : Disk) (o : Options) (arguments : List Text) : Except Problem Text :=
  match arguments with
  | [source] => .ok source
  | _ =>
    if o.input.isEmpty then .error .noSource
    else (disk.read o.input).mapError fun e => .failure (.file e)

/-- The history in a file, and what there is to say about reading it. A file that cannot be opened
is an empty history. -/
def loadHistory (disk : Disk) (path : Text) : History × Text :=
  if path.isEmpty then ([], [])
  else match disk.read path with
    | .ok content =>
      match History.ofText content with
      | (h, none) => (h, [])
      | (h, some fault) => (h, Text.line fault.message)
    | .error e => ([], if e.fault = .isDirectory then Text.line e.message else [])

/-- Writes the history to a file and makes the directories for it, or says why that failed. -/
def saveHistory (disk : Disk) (path : Text) (h : History) : Disk × Text :=
  if path.isEmpty then (disk, [])
  else match disk.makeDirectories (Path.directory path) with
    | .error e => (disk, Text.line e.message)
    | .ok disk =>
      match disk.create path h.text with
      | .ok disk => (disk, [])
      | .error e => (disk, Text.line e.message)

def openSession (s : Settings) (disk : Disk) : Session :=
  let (h, note) := loadHistory disk s.historyFile
  (Session.start s h).write ⟨[], note⟩

def closeSession (session : Session) (disk : Disk) : Outcome :=
  let (disk, note) := saveHistory disk session.settings.historyFile session.history
  ⟨(session.write ⟨[], note⟩).output, disk, none⟩

def onSource (command : Command) (s : Settings) (source : Text) : Output × Option Failure :=
  match command with
  | tokens => (⟨source.listing, []⟩, source.scanFailure)
  | ast =>
    match (Run.parse ⟨false, false⟩ source).result with
    | .ok e => (⟨Text.line e.text, []⟩, none)
    | .error f => (.empty, some f)
  | _ => Run.evaluateTo s.tracing source

inductive Plan where
  | finish (outcome : Outcome)
  | converse (session : Session)

/-- Carries out a command line up to the point where it asks for input. Only evaluation needs the
settings, and reads them first. -/
def plan (env : Environment) (arguments : List Text) (disk : Disk) : Plan :=
  let failed (p : Problem) : Plan := .finish ⟨.empty, disk, some p⟩
  let finished (r : Output × Option Failure) : Plan := .finish ⟨r.1, disk, r.2.map .failure⟩
  match invocation arguments with
  | .error e => failed (.usage e)
  | .ok (.showHelp about) => .finish ⟨⟨about.helpText env, []⟩, disk, none⟩
  | .ok (.complete call) =>
    let (output, problem) := env.complete call
    finished (output, problem.map .plain)
  | .ok (.interactive o) =>
    match o.settings env disk with
    | .error p => failed p
    | .ok s =>
      if o.input.isEmpty then
        let session := openSession s disk
        -- a prompt that cannot be shown ends the session at once, but its history is saved
        if session.canAsk then .converse session
        else .finish { closeSession session disk with problem := some .invalidPrompt }
      else match disk.read o.input with
        | .ok source => finished (Run.evaluateTo s.tracing source)
        | .error e => failed (.failure (.file e))
  | .ok (.onSource command o rest) =>
    -- the other commands take no settings, so a bad settings file is no fault for them
    match if command = eval then o.settings env disk else .ok (.default env) with
    | .error p => failed p
    | .ok s =>
      match readSource disk o rest with
      | .error p => failed p
      | .ok source => finished (onSource command s source)

def execute (env : Environment) (arguments : List Text) (stdin : Text) (disk : Disk) : Outcome :=
  match plan env arguments disk with
  | .finish outcome => outcome
  | .converse session => closeSession (session.run env.showsPrompt stdin.lines) disk

end ExprCalc.Command
