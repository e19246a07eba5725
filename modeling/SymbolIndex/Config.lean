import SymbolIndex.Toml.Document
import SymbolIndex.Toml.Quoted
import SymbolIndex.Workspace.Basic
import SymbolIndex.Workspace.Path

/-!
# `SymbolIndex.Config` — settings and where they are kept

Settings are kept as a TOML document. Keys that mean nothing here are passed over; a key of the wrong
kind makes the whole document unusable.

## Contents
- `Config`, `Config.ofText?`, `Config.toText`.
- `Config.load`, `Config.save`: settings in a file.
- `defaultDatabase`, `ensureFolder`: where the store is.
-/

namespace SymbolIndex

structure Config where
  database : Option String := none
  /-- Whether documentation of functions and classes is left out. -/
  skipDocumentation : Bool := false
  deriving DecidableEq, Repr, Inhabited

/-- Why settings cannot be loaded or saved. -/
inductive ConfigFault where
  | access (fault : Workspace.Fault)
  /-- The document is no TOML, or a key is of the wrong kind. -/
  | document
  /-- There are settings already. -/
  | alreadyThere (path : String)
  deriving DecidableEq, Repr, Inhabited

def ConfigFault.message : ConfigFault → String
  | access fault => fault.message
  | document => "TOML parse error"
  | alreadyThere path => "config already exists at " ++ path ++ " (use --force to overwrite)"

namespace Config

def databaseKey : String := "database"

def skipDocumentationKey : String := "skip_doccomment"

/-- The settings in the top-level table of a document. -/
def ofEntries? (entries : Toml.Entries) : Option Config := do
  let database ← match Pairs.find? databaseKey entries with
    | none => some none
    | some (.text s) => some (some s)
    | some _ => none
  let skipDocumentation ← match Pairs.find? skipDocumentationKey entries with
    | none => some false
    | some (.flag b) => some b
    | some _ => none
  some { database, skipDocumentation }

def ofText? (text : String) : Option Config := do
  ofEntries? (← Toml.ofText? text)

/-- One `key = value` line. -/
def line (key value : String) : String :=
  key ++ " = " ++ value ++ "\n"

/-- Settings as a document; a database that is not set has no line. -/
def toText (c : Config) : String :=
  (c.database.elim "" fun path => line databaseKey (Toml.quote path)) ++
    line skipDocumentationKey (if c.skipDocumentation then "true" else "false")

def fileName : String := "xref.toml"

variable {m : Type → Type} [Monad m] [Workspace m]

/-- The settings in a file, if there is one. -/
def load (path : String) : m (Except ConfigFault (Option Config)) := do
  if ← Workspace.leadsSomewhere path then
    match ← Workspace.readText path with
    | .error fault => return .error (.access fault)
    | .ok text =>
      match ofText? text with
      | some c => return .ok (some c)
      | none => return .error .document
  else return .ok none

/-- Saves settings to a file. One that is there already is replaced only by force. -/
def save (path : String) (c : Config) (force : Bool) : m (Except ConfigFault Unit) := do
  if !force && (← Workspace.leadsSomewhere path) then return .error (.alreadyThere path)
  else return (← Workspace.writeText path c.toText).mapError .access

/-- The path of the store below a folder, unless another one is asked for. -/
def defaultDatabase (folder : String) : String :=
  Workspace.Path.join (Workspace.Path.join folder ".xref") "xref.db"

/-- Makes the folder that a path lies in, unless something is in its place. -/
def ensureFolder (path : String) : m (Except Workspace.Fault Unit) := do
  match Workspace.Path.parent? path with
  | none => return .ok ()
  | some folder =>
    if folder = "" then return .ok ()
    else if ← Workspace.leadsSomewhere folder then return .ok ()
    else Workspace.createFolders folder

end Config

end SymbolIndex
