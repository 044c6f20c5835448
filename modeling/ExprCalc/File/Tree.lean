import ExprCalc.File.Path

namespace ExprCalc

inductive FileTree where
  | file (content : Text)
  | directory (entries : List (Text × FileTree))

namespace FileTree

def empty : FileTree :=
  directory []

def isDirectory : FileTree → Bool
  | directory _ => true
  | file _ => false

def at? : FileTree → List Text → Option FileTree
  | tree, [] => some tree
  | file _, _ :: _ => none
  | directory entries, name :: names =>
    match entries.lookup name with
    | some tree => tree.at? names
    | none => none

/-- Puts `new` at the end of a list of names; directories on the way are made. -/
def put (new : FileTree) : FileTree → List Text → FileTree
  | _, [] => new
  | tree, name :: names =>
    let entries := match tree with
      | directory entries => entries
      | file _ => []
    let below := (entries.lookup name).getD empty
    let rest := entries.filter (·.1 != name)
    directory (rest ++ [(name, put new below names)])

mutual

def filesBelow (way : List Text) : FileTree → List (List Text × Text)
  | file content => [(way, content)]
  | directory entries => filesAmong way entries

def filesAmong (way : List Text) : List (Text × FileTree) → List (List Text × Text)
  | [] => []
  | (name, tree) :: rest => filesBelow (way ++ [name]) tree ++ filesAmong way rest

end

def files (tree : FileTree) : List (Text × Text) :=
  (tree.filesBelow []).map fun (way, content) => (Text.joinWith [Path.slash] way, content)

/-- The files of `after` that `before` has not, or has with another content. -/
def written (before after : FileTree) : List (Text × Text) :=
  let old := before.files
  after.files.filter fun (path, content) => old.lookup path != some content

end FileTree

end ExprCalc
