import SymbolIndex.Store.Address
import SymbolIndex.Store.Saved
import SymbolIndex.Workspace.Basic

/-!
# `SymbolIndex.Store.File` — stores in files

Opening a store makes its file if there is none. While a file is changed a journal lies beside it, and
a store cannot be changed where no journal can be made. A journal that is found on opening is left over
from a change that never came about, and so is a log beside the file.

## Contents
- `Opened`: a store and the file that it is kept in.
- `openAt`: the store of a name; `save`: what became of it.
-/

namespace SymbolIndex.Store

variable {m : Type → Type} [Monad m] [Workspace m]

/-- A store and the file that it is kept in, unless it is kept in none. -/
structure Opened where
  store : Store
  file : Option String

/-- A file operation as a step of opening or saving a store; all its faults are one error. -/
def attempt {α : Type} (step : m (Except Workspace.Fault α)) : ExceptT Error m α :=
  ExceptT.mk (return (← step).mapError fun _ => .storage)

/-- The path of the journal of a file. -/
def journal (file : String) : String := file ++ "-journal"

/-- The path of the log of a file. -/
def log (file : String) : String := file ++ "-wal"

/-- Replaces what the file of a store holds, under the protection of a journal. -/
def replace (file : String) (s : Store) : ExceptT Error m Unit := do
  attempt (Workspace.write (journal file) [])
  attempt (Workspace.write file s.encode)
  attempt (Workspace.remove (journal file))

/-- Whether the bytes of a file count as none. -/
def isBlank (bytes : List UInt8) : Bool :=
  bytes.length ≤ 1

/-- What a file holds. A missing one is made if that is allowed. -/
def contents (file : String) (access : Access) : ExceptT Error m (List UInt8) := do
  match ← (Workspace.kind file : m _) with
  | .ok .file => attempt (Workspace.read file)
  | .error .notFound =>
    if access = .create then
      attempt (Workspace.write file [])
      return []
    else throw .storage
  | _ => throw .storage

/-- Removes what is left over at a path beside a file. An empty file is no left-over, and neither is one
that `isIdle` says may stay. -/
def removeLeftover (path : String) (isReadOnly : Bool) (isIdle : UInt8 → Bool) :
    ExceptT Error m Unit := do
  match ← (Workspace.kind path : m _) with
  | .ok .file =>
    match ← attempt (Workspace.read path) with
    | [] => return
    | first :: _ =>
      if isIdle first then return
      else if isReadOnly then throw .storage
      else attempt (Workspace.remove path)
  | .ok _ => throw .storage
  | .error _ => return

/-- The store in a file. A blank file is an empty store, and becomes the file of one. Whatever else is
no saved store is refused. -/
def openFile (file : String) (a : Address) : ExceptT Error m Opened := do
  let bytes ← contents file a.access
  let isReadOnly := a.access = .readOnly || a.isFixed
  removeLeftover (journal file) isReadOnly fun first => !isBlank bytes && first == 0
  removeLeftover (log file) isReadOnly fun _ => false
  match decode? bytes with
  | none => throw .storage
  | some s =>
    if isBlank bytes then
      if isReadOnly then throw .storage else replace file s
    return ⟨{ s with isReadOnly }, some file⟩

/-- The store of an address. -/
def openAddress (a : Address) : ExceptT Error m Opened := do
  if a.isPrivate then
    if a.access = .readOnly then throw .storage else return ⟨empty, none⟩
  else
    if let some pattern := a.pattern? then
      let _ ← attempt (Workspace.kind pattern)
    let here ← attempt Workspace.here
    match a.filePath? here with
    | none => throw .storage
    | some file => openFile file a

/-- Opens the store of a name. -/
def openAt (name : String) : m (Except Error Opened) :=
  match Address.ofName? name with
  | none => return .error .storage
  | some a => (openAddress a).run

/-- Saves what became of an open store; a store that did not change is not written. -/
def save (o : Opened) (s : Store) : m (Except Error Unit) :=
  match o.file with
  | none => return .ok ()
  | some file => if s = o.store then return .ok () else (replace file s).run

end SymbolIndex.Store
