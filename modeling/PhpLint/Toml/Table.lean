import PhpLint.Settings.Value

/-! Tables under construction. -/

namespace PhpLint.Toml

open Settings (Value Table)

def replaceEntry (key : String) (value : Value) (table : Table) : Table :=
  table.map fun (other, old) => (other, if other = key then value else old)

/-- Changes the table that a path leads to. Tables that are missing on the way are made. With
`throughLists` a list stands for its last item. -/
def changeAt (throughLists : Bool) (change : Table → Option Table) :
    List String → Table → Option Table
  | [], table => change table
  | key :: path, table =>
    match table.lookup key with
    | none => (changeAt throughLists change path []).map fun inner => table ++ [(key, .table inner)]
    | some (.table inner) =>
      (changeAt throughLists change path inner).map fun inner =>
        replaceEntry key (.table inner) table
    | some (.list items) =>
      match throughLists, items.getLast? with
      | true, some (.table inner) =>
        (changeAt throughLists change path inner).map fun inner =>
          replaceEntry key (.list (items.dropLast ++ [.table inner])) table
      | _, _ => none
    | some _ => none

def addEntry (key : String) (value : Value) (table : Table) : Option Table :=
  if (table.lookup key).isSome then none else some (table ++ [(key, value)])

def appendTable (key : String) (table : Table) : Option Table :=
  match table.lookup key with
  | none => some (table ++ [(key, .list [.table []])])
  | some (.list items) => some (replaceEntry key (.list (items ++ [.table []])) table)
  | some _ => none

def splitPath : List String → List String × String
  | [] => ([], "")
  | [key] => ([], key)
  | key :: path => let (parents, last) := splitPath path; (key :: parents, last)

end PhpLint.Toml
