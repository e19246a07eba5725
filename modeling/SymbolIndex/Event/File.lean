import SymbolIndex.Event.Stream
import SymbolIndex.Workspace.Basic

/-!
# `SymbolIndex.Event.File` — event streams in files

A stream can only be a regular file. Everything that keeps it from being opened is fatal.
-/

namespace SymbolIndex.EventReader

variable {m : Type → Type} [Monad m] [Workspace m]

/-- The reader of the stream in a file. -/
def ofFile (path : String) : m (Except Error EventReader) := do
  match ← Workspace.kind path with
  | .error fault => return .error (.fatal (.streamUnreadable path fault))
  | .ok .file =>
    match ← Workspace.read path with
    | .error fault => return .error (.fatal (.streamUnreadable path fault))
    | .ok bytes => return .ok (ofBytes bytes)
  | .ok _ => return .error (.fatal (.streamNotRegular path))

end SymbolIndex.EventReader
