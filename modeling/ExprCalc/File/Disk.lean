import ExprCalc.File.Tree

namespace ExprCalc

inductive FileFault where
  | notFound
  | notDirectory
  | isDirectory
  | alreadyExists
deriving DecidableEq

structure FileError where
  operation : String
  path : Text
  fault : FileFault

def FileFault.text : FileFault → String
  | notFound => "no such file or directory"
  | notDirectory => "not a directory"
  | isDirectory => "is a directory"
  | alreadyExists => "file exists"

def FileError.message (e : FileError) : Text :=
  utf8 e.operation ++ utf8 " " ++ e.path ++ utf8 ": " ++ utf8 e.fault.text

/-- All files, and the names on the way to the directory where relative paths start. -/
structure Disk where
  root : FileTree
  workingDirectory : List Text

namespace Disk

def empty (workingDirectory : List Text) : Disk :=
  ⟨.put .empty .empty workingDirectory, workingDirectory⟩

/-- The names on the way from the root to a path, where going up cancels the name before. -/
def namesOf (d : Disk) (path : Text) : List Text :=
  let start := if Path.isAbsolute path then [] else d.workingDirectory
  ((Path.components path).foldl (Path.cleanStep true) start.reverse).reverse

/-- Adds a file by its path, or a directory if there is no content. -/
def add (d : Disk) (path : Text) (content : Option Text) : Disk :=
  let names := d.namesOf path
  match content with
  | some content => { d with root := .put (.file content) d.root names }
  | none =>
    if (d.root.at? names).isSome then d else { d with root := .put .empty d.root names }

/-- Goes from what `names` lead to, which must be a directory, by one component of a path. -/
def walkStep (d : Disk) (names : List Text) (part : Text) : Except FileFault (List Text) :=
  match d.root.at? names with
  | none => .error .notFound
  | some (.file _) => .error .notDirectory
  | some (.directory _) =>
    if part.isEmpty ∨ part = Path.here then .ok names
    else if part = Path.up then .ok names.dropLast
    else .ok (names ++ [part])

def walk (d : Disk) (path : Text) (parts : List Text) : Except FileFault (List Text) :=
  parts.foldlM d.walkStep (if Path.isAbsolute path then [] else d.workingDirectory)

def find (d : Disk) (path : Text) : Except FileFault FileTree :=
  if path.isEmpty then .error .notFound
  else match d.walk path (Path.components path) with
    | .error fault => .error fault
    | .ok names =>
      match d.root.at? names with
      | some found => .ok found
      | none => .error .notFound

def read (d : Disk) (path : Text) : Except FileError Text :=
  match d.find path with
  | .error fault => .error ⟨"open", path, fault⟩
  | .ok (.directory _) => .error ⟨"read", path, .isDirectory⟩
  | .ok (.file content) => .ok content

/-- The names that lead to an entry to be made, of which only the last may be new; none if the path
ends in a component that stands for a directory. -/
def newEntry (d : Disk) (path : Text) : Except FileFault (Option (List Text)) := do
  let parts := Path.components path
  let last := parts.getLastD []
  let names ← d.walk path parts.dropLast
  let names ← d.walkStep names Path.here
  return if last.isEmpty ∨ last = Path.here ∨ last = Path.up then none else some (names ++ [last])

def makeDirectory (d : Disk) (path : Text) : Except FileError Disk :=
  match d.newEntry (path.reverse.dropWhile (· == Path.slash)).reverse with
  | .error fault => .error ⟨"mkdir", path, fault⟩
  | .ok none => .error ⟨"mkdir", path, .alreadyExists⟩
  | .ok (some names) =>
    if (d.root.at? names).isSome then .error ⟨"mkdir", path, .alreadyExists⟩
    else .ok { d with root := .put .empty d.root names }

def makeDirectories (d : Disk) (path : Text) : Except FileError Disk :=
  match d.find path with
  | .ok (.directory _) => .ok d
  | .ok (.file _) => .error ⟨"mkdir", path, .notDirectory⟩
  | .error _ => do
    let d ← if Path.parent path = [] then .ok d else d.makeDirectories (Path.parent path)
    match d.makeDirectory path with
    | .ok d => .ok d
    | .error e =>
      match d.find path with
      | .ok (.directory _) => .ok d
      | _ => .error e
termination_by path.length
decreasing_by exact Path.length_parent_lt path ‹_›

def create (d : Disk) (path content : Text) : Except FileError Disk :=
  match d.newEntry path with
  | .error fault => .error ⟨"open", path, fault⟩
  | .ok none => .error ⟨"open", path, .isDirectory⟩
  | .ok (some names) =>
    match d.root.at? names with
    | some (.directory _) => .error ⟨"open", path, .isDirectory⟩
    | _ => .ok { d with root := .put (.file content) d.root names }

/-- The files of `after` in the working directory that are not the same in `before`, with their
paths from there. -/
def written (before after : Disk) : List (Text × Text) :=
  let here (d : Disk) := (d.root.at? d.workingDirectory).getD .empty
  FileTree.written (here before) (here after)

end Disk

end ExprCalc
