import SymbolIndex.Event.Stream
import SymbolIndex.Session.Resolve

/-!
# `SymbolIndex.Session.Ingest` — what a session makes of an event

Each kind of event has a handler. It checks the event first and changes the session only when nothing
can be refused any more, so a refused event is counted and a bad record never ends a session.

## Contents
- `require`: fields that have to be there.
- `acceptFile`, `acceptVariable`, … : one handler for each kind of event, with what it does once the
  event is accepted beside it; `accept` over them.
- `ingest`, and `ingestAll` for the items of a stream.
-/

namespace SymbolIndex.Session

variable {σ : Type}

/-- A field that has to be there. -/
def require {α : Type} (field : String) : Option α → Except Error α
  | some a => .ok a
  | none => .error (.missingField field)

/-- A text field that has to be there and not be empty. -/
def requireText (field : String) (value : Option String) : Except Error String :=
  require field (nonEmpty value)

/-- The status for a code; an unknown code counts as unparsed. -/
def statusOfCode (code : Int) : ParseStatus :=
  (ParseStatus.ofCode? code).getD .none

/-- Tells of a code that stands for no status. -/
def warnOfCode (path : String) (code : Int) (s : Session σ) : Session σ :=
  if (ParseStatus.ofCode? code).isNone then
    s.tell .warn ("Unknown parse status " ++ toString code ++ " for " ++ path)
  else s

/-- Counts a committed file as announced. -/
def announce (s : Session σ) (store : σ) (file : File) : Session σ :=
  let sources := (s.sources.setStatus file.path file.status).announce file.id
  { s with store, sources }.tell .debug
    ("Committed file " ++ file.path ++ " (" ++ Vocabulary.word file.status ++ ")")

/-- Commits a file to the store. -/
def acceptFile [Recorder σ] (r : FileReport) : Handler σ Unit := do
  let path ← .check (requireText "path" r.path)
  let code ← .check (require "parse_status" r.status)
  modify (warnOfCode path code)
  let file : File := { File.make path with status := statusOfCode code }
  let store ← .peek store
  let store ← .check (Recorder.persistFile store file {})
  modify fun s => s.announce store file

/-- What follows once a variable is declared: its types, its usages, the variable itself. -/
def addVariable (s : Session σ) (d : Declaration) (types : List String)
    (usages : List UsageReport) : Session σ :=
  let s := s.bindTypes d.entity.id types
  let s := s.recordUsages d.entity.handle d.qualifiedName usages
  { s with graph := { s.graph with vars := s.graph.vars ++ [⟨d.entity⟩] } }

def acceptVariable (r : VariableReport) : Handler σ Unit := do
  let name ← .check (requireText "name" r.name)
  let qualifiedName ← .check (requireText "qualified_name" r.qualifiedName)
  let types ← .check (require "type" r.types)
  let usages ← .check (require "usages" r.usages)
  let (path, location) ← .check (require "file_position" (Place.locate? r.place))
  let d : Declaration := ⟨.variable, name, qualifiedName, r.visibility, path, location⟩
  declare d
  modify fun s => s.addVariable d types usages

/-- What follows once a function is declared: its parameters and locals, its types, its
documentation, its usages, the function itself. -/
def addFunction (s : Session σ) (d : Declaration) (parameters locals types : List String)
    (usages : List UsageReport) (documentation : String) : Session σ :=
  let function : Function := ⟨d.entity, s.variablesAmong parameters, s.variablesAmong locals⟩
  let s := s.checkVariables "parameter" parameters
  let s := s.checkVariables "local variable" locals
  let s := s.bindTypes d.entity.id types
  let s := s.document d.entity.id .function documentation
  let s := s.recordUsages d.entity.handle d.qualifiedName usages
  { s with graph := { s.graph with functions := s.graph.functions ++ [function] } }

def acceptFunction (r : FunctionReport) : Handler σ Unit := do
  let name ← .check (requireText "name" r.name)
  let qualifiedName ← .check (requireText "qualified_name" r.qualifiedName)
  let types ← .check (require "type" r.types)
  let usages ← .check (require "usages" r.usages)
  let documentation ← .check (require "documentation" r.documentation)
  let (path, location) ← .check (require "file_position" (Place.locate? r.place))
  let d : Declaration := ⟨.function, name, qualifiedName, r.visibility, path, location⟩
  declare d
  modify fun s => s.addFunction d r.parameters r.locals types usages documentation

def addClass (s : Session σ) (d : Declaration) : Session σ :=
  { s with graph := { s.graph with classes := s.graph.classes ++ [⟨d.entity⟩] } }

def acceptClass (r : ClassReport) : Handler σ Unit := do
  let name ← .check (requireText "name" r.name)
  let qualifiedName ← .check (requireText "qualified_name" r.qualifiedName)
  let (path, location) ← .check (require "file_position" (Place.locate? r.place))
  let d : Declaration := ⟨.classType, name, qualifiedName, r.visibility, path, location⟩
  declare d
  modify fun s => s.addClass d

/-- The members of a class, group by group: methods, static methods, attributes, static attributes,
classes. -/
def memberGroups (m : MemberReports) : List (MemberKind × Bool × List MemberReport) :=
  [(.method, false, m.methods), (.method, true, m.staticMethods), (.attribute, false, m.attributes),
    (.attribute, true, m.staticAttributes), (.classType, false, m.classes)]

def attachGroup (owner : Handle) (name : String) (s : Session σ)
    (group : MemberKind × Bool × List MemberReport) : Session σ :=
  s.attachMembers owner name group.1 group.2.1 group.2.2

/-- Completes a class: its documentation, its own usages, its bases, then its members. -/
def complete (s : Session σ) (owner : Handle) (name documentation : String) (bases : List String)
    (members : MemberReports) (usages : List UsageReport) : Session σ :=
  let s := s.document owner.id .classType documentation
  let s := s.recordUsages owner name usages
  let s := s.addBases owner.id bases
  (memberGroups members).foldl (attachGroup owner name) s

/-- Completes a class that has been declared and not been completed yet. -/
def acceptCompletion (r : CompletionReport) : Handler σ Unit := do
  let name ← .check (requireText "qualified_name" r.qualifiedName)
  let documentation ← .check (require "documentation" r.documentation)
  let bases ← .check (require "base_classes" r.bases)
  let members ← .check (require "members" r.members)
  let usages ← .check (require "usages" r.usages)
  let known ← .peek symbols
  let (owner, symbols) ← .check (known.resolveClass name)
  modify fun s => { s with symbols }
  modify fun s => s.complete owner name documentation bases members usages

/-- The file announced under a path. -/
def requireAnnounced (sources : SourceTable) (path : String) : Except Error File :=
  match sources.findAnnounced? path with
  | some file => .ok file
  | none => .error (.unresolvedReference path)

/-- Records the imports of an announced file: its modules, then the symbols. -/
def acceptImport (r : ImportReport) : Handler σ Unit := do
  let path ← .check (requireText "importer" r.importer)
  let modules ← .check (require "imported_modules" r.modules)
  let symbols ← .check (require "imported_symbols" r.symbols)
  let sources ← .peek sources
  let importer ← .check (requireAnnounced sources path)
  modify fun s => (modules.map ModuleImport.entry ++ symbols.map SymbolImport.entry).foldl
    (addImport importer.id) s

/-- Takes in an event, or refuses it. -/
def accept [Recorder σ] : Event → Handler σ Unit
  | .file r => acceptFile r
  | .variable r => acceptVariable r
  | .function r => acceptFunction r
  | .classPreprocessed r => acceptClass r
  | .classResolved r => acceptCompletion r
  | .import r => acceptImport r

/-- Counts an event and takes it in, or counts it as skipped. -/
def ingest [Recorder σ] (s : Session σ) (e : Event) : Session σ :=
  match accept e (s.tally fun t => t.countEvent e.kind) with
  | .ok _ s => s
  | .error err s =>
    (s.tally IngestStats.countSkipped).tell .warn
      ("Skipping " ++ Vocabulary.word e.kind ++ " record: " ++ err.message)

/-- Takes in one item of a stream; a line without an event is counted. -/
def ingestItem [Recorder σ] (s : Session σ) (item : StreamItem) : Session σ :=
  match item.content with
  | .ok e => s.ingest e
  | .error err =>
    (s.tally IngestStats.countMalformed).tell .warn
      ("Skipping event on line " ++ Nat.repr item.line ++ ": " ++ err.message)

def ingestAll [Recorder σ] (s : Session σ) (items : List StreamItem) : Session σ :=
  items.foldl ingestItem s

end SymbolIndex.Session
