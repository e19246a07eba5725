import SymbolIndex.Dictionary

/-!
# `SymbolIndex.Workspace.Tree` — files and folders as a tree

A tree is a file, a folder of named trees, or a device. A list of names leads from a folder down to an
entry, one name for each folder on the way.

## Contents
- `Tree`, `Tree.find?`: what a list of names leads to.
- `Tree.put`: a tree with an entry in it.
- `Tree.erase`: a tree without an entry.
- `Tree.system`: the folders and devices that every system has.
-/

namespace SymbolIndex.Workspace

inductive Tree where
  | file (bytes : List UInt8)
  | folder (children : List (String × Tree))
  /-- An entry that is neither a file nor a folder. Nothing can be read from it. -/
  | device
  deriving Inhabited

namespace Tree

/-- What a list of names leads to. -/
def find? : Tree → List String → Option Tree
  | t, [] => some t
  | folder children, name :: names =>
    match Pairs.find? name children with
    | some child => find? child names
    | none => none
  | _, _ :: _ => none

/-- The tree with an entry at the end of a list of names. Folders on the way are made if they are
missing; what lies below a file stays out. -/
def put (new : Tree) : List String → Tree → Tree
  | [], _ => new
  | name :: names, folder children =>
    folder (Pairs.put name (put new names ((Pairs.find? name children).getD (folder []))) children)
  | _ :: _, t => t

/-- The tree without the entry at the end of a list of names. -/
def erase : List String → Tree → Tree
  | [], t => t
  | [name], folder children => folder (children.filter fun child => child.1 ≠ name)
  | name :: names, folder children =>
    match Pairs.find? name children with
    | some child => folder (Pairs.put name (erase names child) children)
    | none => folder children
  | _ :: _, t => t

/-- The folders and devices that every system has. -/
def system : Tree :=
  let devices := ["full", "null", "random", "stderr", "stdin", "stdout", "tty", "urandom", "zero"]
  let folders := ["bin", "etc", "home", "lib", "mnt", "opt", "proc", "root", "run", "sbin", "srv", "sys",
    "tmp", "usr", "var"]
  folder (("dev", folder (devices.map fun name => (name, device))) ::
    folders.map fun name => (name, folder []))

end Tree

end SymbolIndex.Workspace
