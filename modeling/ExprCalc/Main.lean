import ExprCalc.Command.Execute

namespace ExprCalc.Program

def fileName (names : List Text) : Text :=
  Path.slash :: Text.joinWith [Path.slash] names

/-- Copies a file, or the fact that there is a directory, to the disk. -/
def fetchEntry (disk : Disk) (name : Text) : IO Disk := do
  try
    return disk.add name (some (← IO.FS.readBinFile name.shown).toList)
  catch _ =>
    let file := (← IO.currentDir) / name.shown
    return if ← file.isDir then disk.add name none else disk

def fetch (disk : Disk) (path : Text) : IO Disk := do
  let names := disk.namesOf path
  let mut disk := disk
  for count in [1 : names.length + 1] do
    disk ← fetchEntry disk (fileName (names.take count))
  return disk

def fetchFor (env : Environment) (arguments : List Text) (disk : Disk) : IO Disk := do
  let fetchAll (o : Command.Options) : IO Disk := do
    let disk ← fetch disk (o.config.getD (Settings.defaultPath env))
    let disk ← fetch disk o.input
    match o.settings env disk with
    | .ok settings => fetch disk settings.historyFile
    | .error _ => return disk
  match Command.invocation arguments with
  | .ok (.interactive o) => fetchAll o
  | .ok (.onSource _ o _) => fetchAll o
  | _ => return disk

def store (before after : Disk) : IO Unit := do
  for (path, content) in FileTree.written before.root after.root do
    let name : Text := Path.slash :: path
    IO.FS.createDirAll (Path.directory name).shown
    IO.FS.writeBinFile name.shown (ByteArray.mk content.toArray)

def emit (out err : Text) : IO Unit := do
  let stdout ← IO.getStdout
  let stderr ← IO.getStderr
  stdout.write (ByteArray.mk out.toArray)
  stdout.flush
  stderr.write (ByteArray.mk err.toArray)
  stderr.flush

def readLine (input : IO.FS.Stream) : IO Text := do
  let mut bytes : Array UInt8 := #[]
  repeat
    let next ← input.read 1
    bytes := bytes ++ next.toList
    if next.isEmpty || next.toList == [10] then break
  return bytes.toList

/-- Holds a session on standard input. Output is written as soon as it is there. -/
def converse (shown : Bool) (session : Session) : IO Session := do
  let input ← IO.getStdin
  let mut session := session
  repeat
    session := session.ask shown
    emit session.output.out session.output.err
    session := { session with written := [] }
    match (← readLine input).lines with
    | [] => break
    | line :: more =>
      session := more.foldl (fun s piece => (s.ask shown).answer piece) (session.answer line)
  return session

def userDirectory (named : String) (below : List String) : IO Text := do
  let home := utf8 ((← IO.getEnv "HOME").getD "")
  let usual := below.foldl (fun path name => Path.join path (utf8 name)) home
  let path := utf8 ((← IO.getEnv named).getD "")
  return if Path.isAbsolute path then path else usual

/-- Terminals on which the prompt is shown also if the input comes from elsewhere. -/
def plainTerminals : List String :=
  ["", "dumb", "cons25"]

/-- The environment of this process. It completes no command lines. -/
def environment : IO Environment := do
  let terminal := ((← IO.getEnv "TERM").getD "").toLower
  return {
    dataHome := ← userDirectory "XDG_DATA_HOME" [".local", "share"]
    configHome := ← userDirectory "XDG_CONFIG_HOME" [".config"]
    showsPrompt := (← (← IO.getStdin).isTty) || plainTerminals.contains terminal
    malformed := fun _ => utf8 "yaml: malformed document"
    complete := fun _ => (.empty, some (utf8 "no completion")) }

end ExprCalc.Program

open ExprCalc in
def main (args : List String) : IO UInt32 := do
  let arguments := args.map utf8
  let directory := Path.components (utf8 (← IO.currentDir).toString)
  let env ← Program.environment
  let disk ← Program.fetchFor env arguments (.empty (directory.filter (!·.isEmpty)))
  let outcome ← match Command.plan env arguments disk with
    | .finish outcome => pure outcome
    | .converse session => do
      let session ← Program.converse env.showsPrompt session
      pure (Command.closeSession session disk)
  Program.store disk outcome.disk
  Program.emit outcome.output.out outcome.stderr
  return if outcome.succeeds then 0 else 1
