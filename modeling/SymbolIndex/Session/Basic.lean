import SymbolIndex.Event.Basic
import SymbolIndex.Ledger
import SymbolIndex.Session.Log
import SymbolIndex.Store.Recorder
import SymbolIndex.SymbolTable

/-!
# `SymbolIndex.Session.Basic` — the state of an indexing session

A session takes events one at a time. It resolves names in its symbol table, buffers what it makes
of the events, and writes the buffers in one batch at its end.

## Contents
- `Options`, `IngestStats`, `Session`.
- `Session.begin`; `tally` and `tell`: what is counted and what is logged.
-/

namespace SymbolIndex

structure Options where
  /-- Whether documentation of functions and classes is left out. -/
  skipDocumentation : Bool := false
  deriving DecidableEq, Repr, Inhabited

/-- What a session has counted. -/
structure IngestStats where
  files : Nat := 0
  vars : Nat := 0
  functions : Nat := 0
  classesPreprocessed : Nat := 0
  classesResolved : Nat := 0
  imports : Nat := 0
  /-- Records that were dropped whole. -/
  skippedRecords : Nat := 0
  /-- Lines of a stream that hold no event. -/
  malformedEvents : Nat := 0
  /-- Edges that were dropped because a name did not resolve. -/
  unresolvedReferences : Nat := 0
  /-- Usages that the ledger already had. -/
  duplicateUsages : Nat := 0
  deriving DecidableEq, Repr, Inhabited

namespace IngestStats

/-- The number of events, accepted or not. -/
def events (s : IngestStats) : Nat :=
  s.files + s.vars + s.functions + s.classesPreprocessed + s.classesResolved + s.imports

/-- Counts one event of a kind. -/
def countEvent (s : IngestStats) : EventKind → IngestStats
  | .file => { s with files := s.files + 1 }
  | .variable => { s with vars := s.vars + 1 }
  | .function => { s with functions := s.functions + 1 }
  | .classPreprocessed => { s with classesPreprocessed := s.classesPreprocessed + 1 }
  | .classResolved => { s with classesResolved := s.classesResolved + 1 }
  | .import => { s with imports := s.imports + 1 }

def countSkipped (s : IngestStats) : IngestStats :=
  { s with skippedRecords := s.skippedRecords + 1 }

def countMalformed (s : IngestStats) : IngestStats :=
  { s with malformedEvents := s.malformedEvents + 1 }

def countUnresolved (s : IngestStats) (n : Nat) : IngestStats :=
  { s with unresolvedReferences := s.unresolvedReferences + n }

def countDuplicate (s : IngestStats) : IngestStats :=
  { s with duplicateUsages := s.duplicateUsages + 1 }

/-- Every count with its label. -/
def rows (s : IngestStats) : List (String × Nat) :=
  [("Files", s.files), ("Variables", s.vars), ("Functions", s.functions),
    ("Classes (preprocessed)", s.classesPreprocessed), ("Classes (resolved)", s.classesResolved),
    ("Imports", s.imports), ("Skipped records", s.skippedRecords),
    ("Malformed events", s.malformedEvents), ("Unresolved references", s.unresolvedReferences),
    ("Duplicate usages", s.duplicateUsages)]

end IngestStats

structure Session (σ : Type) where
  options : Options
  store : σ
  sources : SourceTable := {}
  symbols : SymbolTable := {}
  ledger : Ledger := .empty
  graph : Graph := {}
  stats : IngestStats := {}
  /-- Every line told so far, oldest first. -/
  log : List LogLine := []

namespace Session

variable {σ : Type}

def boolWord (b : Bool) : String :=
  if b then "true" else "false"

/-- A session over a store, with nothing ingested. -/
def begin (store : σ) (options : Options) : Session σ where
  options
  store
  log := [{
    level := .info
    text := "Starting indexing session (skip_doccomment=" ++ boolWord options.skipDocumentation ++ ")" }]

def tally (s : Session σ) (f : IngestStats → IngestStats) : Session σ :=
  { s with stats := f s.stats }

def tell (s : Session σ) (level : Level) (text : String) : Session σ :=
  { s with log := s.log ++ [{ level, text }] }

def tellAll (s : Session σ) (level : Level) (texts : List String) : Session σ :=
  { s with log := s.log ++ texts.map fun text => { level, text } }

end Session

end SymbolIndex
