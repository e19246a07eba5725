import SymbolIndex.Dictionary
import SymbolIndex.Error
import SymbolIndex.Identity

/-!
# `SymbolIndex.Source` — the files of a source tree

A file is identified by the hash of its path. It becomes known either because it is announced or
because a location points into it; only announced files can import or be imported.

## Contents
- `ParseStatus`, `File`, `BuildAction`.
- `SourceTable`: known files by path, with the identifiers of those already announced.
-/

namespace SymbolIndex

/-- How far parsing got with a file. -/
inductive ParseStatus where
  | none
  | partiallyParsed
  | fullyParsed
  deriving DecidableEq, Repr, Inhabited

instance : Vocabulary ParseStatus where
  noun := "parse status"
  all := [.none, .partiallyParsed, .fullyParsed]
  word
    | .none => "none"
    | .partiallyParsed => "partially_parsed"
    | .fullyParsed => "fully_parsed"
  mem_all a := by cases a <;> decide
  word_injective a b := by cases a <;> cases b <;> decide

/-- The status that a number in a record stands for. -/
def ParseStatus.ofCode? (code : Int) : Option ParseStatus :=
  if code = 0 then some .none
  else if code = 1 then some .partiallyParsed
  else if code = 2 then some .fullyParsed
  else Option.none

structure File where
  id : FileId
  path : String
  status : ParseStatus
  deriving DecidableEq, Inhabited

/-- An unparsed file with the identifier that its path determines. -/
def File.make (path : String) : File :=
  ⟨fileId path, path, .none⟩

/-- The build step that produced a file's parse. -/
structure BuildAction where
  command : String := ""
  deriving DecidableEq, Inhabited

/-- The known files. -/
structure SourceTable where
  files : Dictionary String File := .empty
  /-- The files that have been announced, without repetition. -/
  announced : List FileId := []
  deriving Inhabited

namespace SourceTable

def empty : SourceTable := {}

/-- The file known under a path. -/
def find? (t : SourceTable) (path : String) : Option File :=
  t.files.find? path

def isAnnounced (t : SourceTable) (id : FileId) : Bool :=
  t.announced.contains id

/-- The file known under a path, if it has been announced. -/
def findAnnounced? (t : SourceTable) (path : String) : Option File :=
  (t.find? path).filter fun f => t.isAnnounced f.id

/-- The file known under a path, or a new unparsed one. -/
def get (t : SourceTable) (path : String) : File :=
  (t.find? path).getD (File.make path)

/-- Makes the path known; a known file stays as it is. -/
def register (t : SourceTable) (path : String) : SourceTable :=
  { t with files := t.files.put path (t.get path) }

/-- Sets the status of a file, making its path known. -/
def setStatus (t : SourceTable) (path : String) (status : ParseStatus) : SourceTable :=
  { t with files := t.files.put path { t.get path with status } }

/-- Counts an identifier as announced. -/
def announce (t : SourceTable) (id : FileId) : SourceTable :=
  if t.isAnnounced id then t else { t with announced := id :: t.announced }

/-- Files known only because a location points into them, by increasing path. -/
def unannounced (t : SourceTable) : List File :=
  (t.files.values.filter fun f => !t.isAnnounced f.id).mergeSort fun a b => decide (a.path ≤ b.path)

def size (t : SourceTable) : Nat :=
  t.files.size

def isEmpty (t : SourceTable) : Bool :=
  t.size == 0

end SourceTable

end SymbolIndex
