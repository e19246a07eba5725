import SymbolIndex.Session.Handler

/-!
# `SymbolIndex.Session.Resolve` — names become edges

The steps that the event handlers share. Each takes names or places as reported, looks them up in
the symbol table as it stands, and buffers what was found; what was not found is counted.

## Contents
- `declare`: a new entity with its declaration node.
- `recordUsages`: usages go to the ledger.
- `bindTypes`, `variablesAmong`, `addBases`, `attachMember`: names to identifiers.
- `document`, `addImport`.
-/

namespace SymbolIndex.Session

variable {σ : Type}

/-- Counts names that did not resolve. -/
def missing (s : Session σ) (what : String) (names : List String) : Session σ :=
  (s.tally fun t => t.countUnresolved names.length).tellAll .debug
    (names.map fun name => "Dropping unresolved " ++ what ++ " reference: " ++ name)

/-- What a declaration says of its entity. -/
structure Declaration where
  kind : EntityKind
  name : String
  qualifiedName : String
  visibility : Option String
  path : String
  location : Location

/-- The declaration node. -/
def Declaration.node (d : Declaration) : Node :=
  Node.declaration d.qualifiedName d.kind.symbolType d.location

def Declaration.entity (d : Declaration) : Entity :=
  Entity.make d.kind d.name d.qualifiedName (d.visibility.getD "") d.node.id

/-- Enters a declared entity everywhere: symbol table, file table, graph and ledger. -/
def enter (s : Session σ) (d : Declaration) (symbols : SymbolTable) : Session σ :=
  { s with
    symbols
    sources := s.sources.register d.path
    graph := (s.graph.addNode d.node).1
    ledger := s.ledger.register d.entity.id }

/-- Declares an entity. Its file becomes known only if its name was free. -/
def declare (d : Declaration) : Handler σ Unit := do
  let known ← .peek symbols
  let symbols ← .check (known.register d.entity)
  modify fun s => s.enter d symbols

/-- Records one usage of an entity. A usage without a complete place is dropped, one at a known
location is counted. -/
def recordUsage (owner : Handle) (name : String) (s : Session σ) (usage : UsageReport) :
    Session σ :=
  match Place.locate? usage.place with
  | none => s.tell .debug ("Dropping usage of " ++ name ++ " without a location")
  | some (path, location) =>
    let s := { s with sources := s.sources.register path }
    match s.ledger.insert owner.id (Node.usage name owner.kind.symbolType location) with
    | (ledger, true) => { s with ledger }
    | (ledger, false) =>
      ({ s with ledger }.tally IngestStats.countDuplicate).tell .debug
        ("Usage of " ++ name ++ " at " ++ location.toText ++ " already recorded")

def recordUsages (s : Session σ) (owner : Handle) (name : String) (usages : List UsageReport) :
    Session σ :=
  usages.foldl (recordUsage owner name) s

/-- The identifiers of the names that `find` resolves, each once. -/
def resolvedOnce (find : String → Option Handle) (names : List String) : List EntityId :=
  ((names.filterMap find).map Handle.id).eraseDups

/-- The names that `find` does not resolve. -/
def unresolved (find : String → Option Handle) (names : List String) : List String :=
  names.filter fun name => (find name).isNone

/-- Connects a symbol with its types. -/
def bindTypes (s : Session σ) (symbol : EntityId) (names : List String) : Session σ :=
  let edges := (resolvedOnce s.symbols.lookup names).map fun type => TypeAssociation.mk symbol type
  { s with graph := { s.graph with types := s.graph.types ++ edges } }.missing "type"
    (unresolved s.symbols.lookup names)

/-- The variables among some names, in order and with repetitions. -/
def variablesAmong (s : Session σ) (names : List String) : List EntityId :=
  (names.filterMap s.symbols.lookupVariable).map Handle.id

/-- Counts the names that are no variables. -/
def checkVariables (s : Session σ) (role : String) (names : List String) : Session σ :=
  s.missing role (unresolved s.symbols.lookupVariable names)

/-- Keeps a documentation text unless documentation is left out. -/
def document (s : Session σ) (documented : EntityId) (kind : DocumentationKind) (text : String) :
    Session σ :=
  if s.options.skipDocumentation then s
  else { s with graph := { s.graph with
    documentation := s.graph.documentation ++ [{ text, documented, kind }] } }

/-- Connects a class with its bases. -/
def addBases (s : Session σ) (derived : EntityId) (names : List String) : Session σ :=
  let edges := (resolvedOnce s.symbols.lookupClass names).map fun base => Inheritance.mk derived base
  { s with graph := { s.graph with inheritance := s.graph.inheritance ++ edges } }.missing
    "base class" (unresolved s.symbols.lookupClass names)

/-- The kind of entity that a member of a kind is. -/
def memberEntity : MemberKind → EntityKind
  | .method => .function
  | .attribute => .variable
  | .classType => .classType

/-- Connects a class with one of its members and records the member's usages. An attribute without
a name was brought in by an import and is passed over. -/
def attachMember (owner : Handle) (ownerName : String) (kind : MemberKind) (isStatic : Bool)
    (s : Session σ) (report : MemberReport) : Session σ :=
  if kind = .attribute ∧ report.qualifiedName = "" then
    s.tell .debug ("Skipping attribute of " ++ ownerName ++ " introduced by an import")
  else
    match s.symbols.lookupKind (memberEntity kind) report.qualifiedName with
    | none => s.missing (Vocabulary.word kind) [report.qualifiedName]
    | some member =>
      let edge : ClassMember := ⟨owner.id, member.id, member.node, kind, isStatic⟩
      { s with graph := { s.graph with members := s.graph.members ++ [edge] } }.recordUsages member
        report.qualifiedName report.usages

def attachMembers (s : Session σ) (owner : Handle) (ownerName : String) (kind : MemberKind)
    (isStatic : Bool) (reports : List MemberReport) : Session σ :=
  reports.foldl (attachMember owner ownerName kind isStatic) s

/-- One module, or one symbol of a module, that a file imports. -/
structure ImportEntry where
  path : Option String
  symbol : Option String
  place : Option Place

def ModuleImport.entry (m : ModuleImport) : ImportEntry :=
  ⟨m.path, none, m.place⟩

def SymbolImport.entry (s : SymbolImport) : ImportEntry :=
  ⟨s.path, s.symbol, s.place⟩

/-- A text that is there and not empty. -/
def nonEmpty (text : Option String) : Option String :=
  text.filter fun t => t ≠ ""

/-- Takes in an import with its node, which absorbs the import if it is already there. -/
def takeImport (s : Session σ) (importer imported : FileId) (path : String) (symbol : Option EntityId)
    (file : String) (node : Node) : Session σ :=
  match s.graph.addNode node with
  | (_, false) =>
    s.tell .debug ("Import of " ++ path ++ " at " ++ node.location.toText ++ " already recorded")
  | (graph, true) =>
    { s with
      sources := s.sources.register file
      graph := { graph with imports := graph.imports ++ [⟨node.id, importer, imported, symbol⟩] } }

/-- Records an import whose module file and location are known. The node is named for the symbol,
or for the module if there is none. -/
def addLocatedImport (s : Session σ) (importer imported : FileId) (path : String)
    (symbol : Option String) (file : String) (location : Location) : Session σ :=
  let handle := symbol.bind s.symbols.lookup
  let s := match symbol, handle with
    | some name, none => s.missing "imported symbol" [name]
    | _, _ => s
  s.takeImport importer imported path (handle.map Handle.id) file
    (Node.declaration (symbol.getD path) .module location)

/-- Records one import. The module has to be an announced file and the place complete. -/
def addImport (importer : FileId) (s : Session σ) (entry : ImportEntry) : Session σ :=
  match nonEmpty entry.path with
  | none => s.tell .debug "Skipping import entry without a module path"
  | some path =>
    match s.sources.findAnnounced? path with
    | none => s.missing "module" [path]
    | some imported =>
      match Place.locate? entry.place with
      | none => s.tell .debug ("Skipping import of " ++ path ++ " without a location")
      | some (file, location) =>
        s.addLocatedImport importer imported.id path (nonEmpty entry.symbol) file location

end SymbolIndex.Session
