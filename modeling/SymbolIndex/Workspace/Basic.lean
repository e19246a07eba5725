import SymbolIndex.Workspace.Fault

/-!
# `SymbolIndex.Workspace.Basic` — what a command needs of its surroundings

A workspace gives access to files and folders by path, and to the time. Commands are written for any
workspace: a directory that is a plain value is one, the directory in which a process runs is
another.
-/

namespace SymbolIndex

/-- What a path leads to. -/
inductive EntryKind where
  | file
  | folder
  /-- Neither a regular file nor a folder. -/
  | other
  deriving DecidableEq, Repr, Inhabited

class Workspace (m : Type → Type) where
  kind : (path : String) → m (Except Workspace.Fault EntryKind)
  read : (path : String) → m (Except Workspace.Fault (List UInt8))
  /-- Replaces what a file holds, or makes the file. -/
  write : (path : String) → List UInt8 → m (Except Workspace.Fault Unit)
  /-- Removes a file. -/
  remove : (path : String) → m (Except Workspace.Fault Unit)
  /-- Makes a folder and all folders on the way to it. -/
  createFolders : (path : String) → m (Except Workspace.Fault Unit)
  /-- The absolute path of the folder in which relative paths start. -/
  here : m (Except Workspace.Fault String)
  /-- Milliseconds since some moment. -/
  now : m Nat

namespace Workspace

variable {m : Type → Type} [Monad m] [Workspace m]

/-- Whether a path leads to anything. -/
def leadsSomewhere (path : String) : m Bool := do
  match ← kind path with
  | .ok _ => return true
  | .error _ => return false

/-- What a file holds as text. -/
def readText (path : String) : m (Except Fault String) := do
  match ← read path with
  | .error fault => return .error fault
  | .ok bytes =>
    match String.fromUTF8? ⟨bytes.toArray⟩ with
    | some text => return .ok text
    | none => return .error .notUtf8

def writeText (path text : String) : m (Except Fault Unit) :=
  write path text.toUTF8.toList

end Workspace

end SymbolIndex
