import SymbolIndex.Workspace.Basic
import SymbolIndex.Workspace.Path
import SymbolIndex.Workspace.Tree

/-!
# `SymbolIndex.Workspace.Directory` — a directory as a value

A directory is a tree of files with a folder in it in which relative paths start. A trail is the list
of names that lead from the top of the tree to an entry. A path has a trail if everything on its way
is a folder; what the trail ends at may be missing.

## Contents
- `Workspace.Trail`, `Directory`.
- `Directory.walk`, `Directory.trail`: the trail of a path.
- `Directory.kind`, `read`, `write`, `remove`, `createFolders`: the operations of a workspace.
-/

namespace SymbolIndex

/-- The names that lead to an entry, the last one first. -/
abbrev Workspace.Trail := List String

structure Directory where
  tree : Workspace.Tree := Workspace.Tree.system
  /-- Where relative paths start. -/
  current : Workspace.Trail := []
  deriving Inhabited

namespace Directory

open Workspace (Fault Trail Tree)
open Workspace.Path (names isAbsolute endsInSlash)

/-- What a trail ends at. -/
def find? (d : Directory) (trail : Trail) : Option Tree :=
  d.tree.find? trail.reverse

def put (d : Directory) (trail : Trail) (entry : Tree) : Directory :=
  { d with tree := Tree.put entry trail.reverse d.tree }

/-- A directory whose relative paths start in an empty folder. -/
def startingIn (folder : List String) : Directory :=
  ({ current := folder.reverse } : Directory).put folder.reverse (.folder [])

/-- The most bytes that a name may have. -/
def maxNameSize : Nat := 255

/-- The number of bytes that a path has to stay below. -/
def pathSizeLimit : Nat := 4096

/-- A trail with one more name. Two dots lead back; at the top they lead nowhere. -/
def step (trail : Trail) (name : String) : Trail :=
  if name = "." then trail
  else if name = ".." then trail.tail
  else name :: trail

/-- Follows names from the end of a trail. All but the last have to lead to folders. -/
def walk (d : Directory) : Trail → List String → Except Fault Trail
  | trail, [] => .ok trail
  | trail, name :: names =>
    match d.find? trail with
    | none => .error .notFound
    | some (.folder _) =>
      if maxNameSize < name.utf8ByteSize then .error .nameTooLong else walk d (step trail name) names
    | some _ => .error .notFolder

/-- Where the names of a path start. -/
def origin (d : Directory) (path : String) : Trail :=
  if isAbsolute path then [] else d.current

/-- Refuses a text that no system takes for a path. -/
def accept (path : String) : Except Fault Unit :=
  if path.toList.contains '\x00' then .error .nullInName
  else if pathSizeLimit ≤ path.utf8ByteSize then .error .nameTooLong
  else .ok ()

/-- The trail of a path. -/
def trail (d : Directory) (path : String) : Except Fault Trail := do
  accept path
  if path = "" then .error .notFound
  else do
    let trail ← d.walk (d.origin path) (names path)
    match d.find? trail with
    | none => .ok trail
    | some (.folder _) => .ok trail
    | some _ => if endsInSlash path then .error .notFolder else .ok trail

/-- What a path leads to. -/
def lookup (d : Directory) (path : String) : Except Fault Tree := do
  let trail ← d.trail path
  match d.find? trail with
  | some entry => .ok entry
  | none => .error .notFound

def kind (d : Directory) (path : String) : Except Fault EntryKind := do
  match ← d.lookup path with
  | .file _ => .ok .file
  | .folder _ => .ok .folder
  | .device => .ok .other

def read (d : Directory) (path : String) : Except Fault (List UInt8) := do
  match ← d.lookup path with
  | .file bytes => .ok bytes
  | .folder _ => .error .isFolder
  | .device => .ok []

def write (d : Directory) (path : String) (bytes : List UInt8) : Except Fault Directory := do
  let trail ← d.trail path
  match d.find? trail with
  | some (.folder _) => .error .isFolder
  | some (.file _) => .ok (d.put trail (.file bytes))
  | some .device => .ok d
  | none => if endsInSlash path then .error .isFolder else .ok (d.put trail (.file bytes))

/-- Removes a file. -/
def remove (d : Directory) (path : String) : Except Fault Directory := do
  let trail ← d.trail path
  match d.find? trail with
  | some (.folder _) => .error .isFolder
  | some _ => .ok { d with tree := d.tree.erase trail.reverse }
  | none => .error .notFound

/-- Makes folders along a list of names. Those that were made before a name is refused stay. -/
def createFrom (d : Directory) : Trail → List String → Except Fault Unit × Directory
  | _, [] => (.ok (), d)
  | trail, name :: names =>
    if maxNameSize < name.utf8ByteSize then (.error .nameTooLong, d)
    else
      let next := step trail name
      match d.find? next with
      | some (.folder _) => createFrom d next names
      | some _ => (.error .notFolder, d)
      | none => createFrom (d.put next (.folder [])) next names

def createFolders (d : Directory) (path : String) : Except Fault Unit × Directory :=
  match accept path with
  | .error fault => (.error fault, d)
  | .ok () => d.createFrom (d.origin path) (names path)

/-- The path of the folder in which relative paths start. -/
def here (d : Directory) : String :=
  "/" ++ "/".intercalate d.current.reverse

end Directory

/-- A change of the directory; a refused one leaves it as it is. -/
def Directory.change (f : Directory → Except Workspace.Fault Directory) :
    StateM Directory (Except Workspace.Fault Unit) := fun d =>
  match f d with
  | .ok d' => (.ok (), d')
  | .error fault => (.error fault, d)

/-- In a directory that is a value, no time passes. -/
instance : Workspace (StateM Directory) where
  kind path := fun d => (d.kind path, d)
  read path := fun d => (d.read path, d)
  write path bytes := Directory.change fun d => d.write path bytes
  remove path := Directory.change fun d => d.remove path
  createFolders path := fun d => d.createFolders path
  here := fun d => (.ok d.here, d)
  now := fun d => (0, d)

end SymbolIndex
