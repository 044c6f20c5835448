import ExprCalc.File.Disk

namespace ExprCalc

namespace FileTree

def sourceEnding : Text := utf8 ".lox"

def insertByName (entry : Text × FileTree) : List (Text × FileTree) → List (Text × FileTree)
  | [] => [entry]
  | other :: rest =>
    if entry.1 < other.1 then entry :: other :: rest else other :: insertByName entry rest

mutual

def sorted : FileTree → FileTree
  | file content => file content
  | directory entries => directory (sortedEntries entries)

def sortedEntries : List (Text × FileTree) → List (Text × FileTree)
  | [] => []
  | (name, tree) :: rest => insertByName (name, sorted tree) (sortedEntries rest)

end

mutual

/-- The source files below `path`, which names `tree`. -/
def sourcesBelow : FileTree → (path : Text) → List Text
  | file _, path => if sourceEnding.isSuffixOf path then [path] else []
  | directory entries, path => sourcesAmong path entries

def sourcesAmong (path : Text) : List (Text × FileTree) → List Text
  | [] => []
  | (name, tree) :: rest => sourcesBelow tree (Path.join path name) ++ sourcesAmong path rest

end

end FileTree

def Disk.sourceFiles (d : Disk) (root : Text) : Except FileError (List Text) :=
  match d.find root with
  | .ok found => .ok (found.sorted.sourcesBelow root)
  | .error fault => .error ⟨"lstat", root, fault⟩

end ExprCalc
