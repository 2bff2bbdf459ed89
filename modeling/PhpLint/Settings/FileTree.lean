import PhpLint.Settings.Load

/-! Regular files below a top directory, and the chain of directories that a search goes through. -/

namespace PhpLint.Settings

structure FileTree where
  top : String
  files : List (List String × ByteArray)

def pathNames (path : String) : List String :=
  ((path.toList.splitOn '/').map String.ofList).filter fun name => name ≠ "" && name ≠ "."

def follow : Option (List String) → List String → Option (List String)
  | none, _ => none
  | some place, [] => some place
  | some place, name :: rest =>
    if name = ".." then
      follow (if place = [] then none else some place.dropLast) rest
    else follow (some (place ++ [name])) rest

/-- Where a path leads to from the top, unless out of it. A path that starts at the root of all
files leads out. -/
def locate (path : String) : Option (List String) :=
  if path.toList.head? = some '/' then none else follow (some []) (pathNames path)

namespace FileTree

/-- The tree that holds files under given paths. Of two files in one place the later one stays, and
what lies above the top is not in the tree. -/
def ofPaths (top : String) (files : List (String × ByteArray)) : FileTree :=
  ⟨top, files.reverse.filterMap fun (path, content) => (locate path).map (·, content)⟩

def directory (tree : FileTree) (place : List String) : Directory where
  path := String.join (tree.top :: place.map ("/" ++ ·))
  settings := tree.files.lookup (place ++ [fileName])

def chain (tree : FileTree) (place : List String) : List Directory :=
  ((List.range (place.length + 1)).map fun count => tree.directory (place.take count)).reverse

/-- Loads the configuration for a place that is reached from the top by a path. Outside the tree
there are no settings. -/
def load (reader : Reader) (tree : FileTree) (path : String) (overrides : Table) : Loaded :=
  if path.toList.contains (Char.ofNat 0) then ⟨[], .error .nullInPath⟩
  else
    match locate path with
    | none => Settings.load reader [] overrides
    | some place => Settings.load reader (tree.chain place) overrides

end FileTree

end PhpLint.Settings
