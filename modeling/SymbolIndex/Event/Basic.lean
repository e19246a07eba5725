import SymbolIndex.Identity

/-!
# `SymbolIndex.Event.Basic` — the records that a parser reports

A parser reports files, declarations, completed classes and imports. Whatever a record may lack is
optional here: a record that lacks something is still an event, and it is the session that decides
whether to skip it.

## Contents
- `Extent`, `Place`: a position as reported, in part or in full; `Place.locate?`, the full ones.
- One structure for each kind of record, and `Event` over them.
-/

namespace SymbolIndex

/-- A range of which either end may be missing. -/
structure Extent where
  start : Option Position := none
  stop : Option Position := none
  deriving DecidableEq, Inhabited

/-- A file and an extent, each of which may be missing. -/
structure Place where
  file : Option String := none
  extent : Option Extent := none
  deriving DecidableEq, Inhabited

/-- The path and location of a complete place: a non-empty path and both ends. -/
def Place.locate? (place : Option Place) : Option (String × Location) := do
  let place ← place
  let path ← place.file
  let extent ← place.extent
  let start ← extent.start
  let stop ← extent.stop
  if path = "" then none else some (path, ⟨fileId path, ⟨start, stop⟩⟩)

/-- One use of a symbol. -/
structure UsageReport where
  place : Option Place := none
  deriving DecidableEq, Inhabited

structure FileReport where
  path : Option String := none
  /-- Zero for unparsed, one for partly and two for fully parsed. -/
  status : Option Int := none
  deriving DecidableEq, Inhabited

structure VariableReport where
  name : Option String := none
  qualifiedName : Option String := none
  place : Option Place := none
  visibility : Option String := none
  /-- Qualified names of declared or inferred types. -/
  types : Option (List String) := none
  usages : Option (List UsageReport) := none
  deriving DecidableEq, Inhabited

structure FunctionReport where
  name : Option String := none
  qualifiedName : Option String := none
  place : Option Place := none
  visibility : Option String := none
  types : Option (List String) := none
  usages : Option (List UsageReport) := none
  documentation : Option String := none
  /-- Qualified names of parameter variables, in order. -/
  parameters : List String := []
  /-- Qualified names of local variables, in order. -/
  locals : List String := []
  deriving DecidableEq, Inhabited

/-- A class as first seen, with its name and place only. -/
structure ClassReport where
  name : Option String := none
  qualifiedName : Option String := none
  place : Option Place := none
  visibility : Option String := none
  deriving DecidableEq, Inhabited

/-- A member of a class, with the usages that are known of it. -/
structure MemberReport where
  qualifiedName : String := ""
  usages : List UsageReport := []
  deriving DecidableEq, Inhabited

structure MemberReports where
  methods : List MemberReport := []
  staticMethods : List MemberReport := []
  attributes : List MemberReport := []
  staticAttributes : List MemberReport := []
  classes : List MemberReport := []
  deriving DecidableEq, Inhabited

/-- A class completed with its bases, members and usages. -/
structure CompletionReport where
  qualifiedName : Option String := none
  documentation : Option String := none
  /-- Qualified names of base classes. -/
  bases : Option (List String) := none
  members : Option MemberReports := none
  usages : Option (List UsageReport) := none
  deriving DecidableEq, Inhabited

/-- An imported module. -/
structure ModuleImport where
  path : Option String := none
  place : Option Place := none
  deriving DecidableEq, Inhabited

/-- A symbol imported from a module. -/
structure SymbolImport where
  path : Option String := none
  symbol : Option String := none
  place : Option Place := none
  deriving DecidableEq, Inhabited

structure ImportReport where
  /-- The path of the importing file. -/
  importer : Option String := none
  modules : Option (List ModuleImport) := none
  symbols : Option (List SymbolImport) := none
  deriving DecidableEq, Inhabited

inductive Event where
  | file (report : FileReport)
  | variable (report : VariableReport)
  | function (report : FunctionReport)
  | classPreprocessed (report : ClassReport)
  | classResolved (report : CompletionReport)
  | import (report : ImportReport)
  deriving DecidableEq, Inhabited

/-- The kinds of event, which tag them in a text. -/
inductive EventKind where
  | file
  | variable
  | function
  | classPreprocessed
  | classResolved
  | import
  deriving DecidableEq, Repr, Inhabited

instance : Vocabulary EventKind where
  noun := "event kind"
  all := [.file, .variable, .function, .classPreprocessed, .classResolved, .import]
  word
    | .file => "file"
    | .variable => "variable"
    | .function => "function"
    | .classPreprocessed => "class_preprocessed"
    | .classResolved => "class_resolved"
    | .import => "import"
  mem_all a := by cases a <;> decide
  word_injective a b := by cases a <;> cases b <;> decide

def Event.kind : Event → EventKind
  | .file _ => .file
  | .variable _ => .variable
  | .function _ => .function
  | .classPreprocessed _ => .classPreprocessed
  | .classResolved _ => .classResolved
  | .import _ => .import

end SymbolIndex
