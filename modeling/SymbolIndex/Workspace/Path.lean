/-!
# `SymbolIndex.Workspace.Path` — paths as texts

A path is a list of names with slashes between them, absolute if it starts with a slash. Empty names
mean nothing, and neither does a single dot, except at the very start of a path.

## Contents
- `split`, `names`: the names of a path.
- `join`: a path below another one.
- `parent?`: the folder that a path lies in.
- `trimmed`: a path without the parts at its ends that mean nothing.
-/

namespace SymbolIndex.Workspace.Path

/-- The parts of a text between slashes. -/
def split : List Char → List (List Char)
  | [] => [[]]
  | c :: cs =>
    if c = '/' then [] :: split cs
    else match split cs with
      | [] => [[c]]
      | name :: rest => (c :: name) :: rest

def isAbsolute (path : String) : Bool :=
  path.toList.head? = some '/'

/-- Whether a part of a path between slashes leads anywhere. -/
def isName (part : List Char) : Bool :=
  !part.isEmpty && part != ['.']

/-- The names of a path. -/
def names (path : String) : List String :=
  let parts := split path.toList
  let leading := if parts.head? = some ['.'] then ["."] else []
  leading ++ (parts.filter isName).map String.ofList

/-- A path with a relative path below it. -/
def join (base path : String) : String :=
  if base = "" ∨ isAbsolute path then path
  else if base.toList.getLast? = some '/' then base ++ path
  else base ++ "/" ++ path

/-- The folder that a path lies in, if the path names anything. -/
def parent? (path : String) : Option String :=
  let ns := names path
  if ns = [] then none
  else some ((if isAbsolute path then "/" else "") ++ "/".intercalate ns.dropLast)

/-- Whether a path can only lead to a folder: it ends in a slash, or in a slash and a dot. -/
def endsInSlash (path : String) : Bool :=
  let parts := split path.toList
  decide (1 < parts.length) && (parts.getLast?.any fun name => name.isEmpty || name = ['.'])

/-- A relative path without empty parts and dots at its start and at its end. -/
def trimmed (path : String) : String :=
  let parts := (split path.toList).dropWhile fun part => !isName part
  let parts := (parts.reverse.dropWhile fun part => !isName part).reverse
  String.ofList (['/'].intercalate parts)

end SymbolIndex.Workspace.Path
