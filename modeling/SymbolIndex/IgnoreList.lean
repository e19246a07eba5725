import SymbolIndex.Text.Blank
import SymbolIndex.Text.Lines
import SymbolIndex.Workspace.Basic
import SymbolIndex.Workspace.Path

/-!
# `SymbolIndex.IgnoreList` — paths that version control leaves out

An ignore list is a text with an entry on each line; blanks around an entry do not matter.
-/

namespace SymbolIndex.IgnoreList

/-- Whether an entry stands on a line of its own. -/
def contains (entry : String) (list : String) : Bool :=
  (Text.splitLines list.toList).any fun line => Text.trim line = entry.toList

/-- An ignore list with an entry, which is added as the last line unless it is there. -/
def add (entry : String) (list : String) : String :=
  if contains entry list then list
  else
    let list := if list = "" ∨ list.toList.getLast? = some '\n' then list else list ++ "\n"
    list ++ entry ++ "\n"

def fileName : String := ".gitignore"

/-- The folder in which stores are kept. -/
def storeEntry : String := ".xref/"

variable {m : Type → Type} [Monad m] [Workspace m]

/-- Adds the folder of stores to the ignore list of a folder. -/
def ensure (folder : String) : m (Except Workspace.Fault Unit) := do
  let path := Workspace.Path.join folder fileName
  let list ← if ← Workspace.leadsSomewhere path then Workspace.readText path else pure (.ok "")
  match list with
  | .error fault => return .error fault
  | .ok list =>
    if contains storeEntry list then return .ok ()
    else Workspace.writeText path (add storeEntry list)

end SymbolIndex.IgnoreList
