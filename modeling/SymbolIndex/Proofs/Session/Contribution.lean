import SymbolIndex.Proofs.Session.Unique

/-!
# `Proofs.Session.Contribution` — what an event adds, as data

A declaration or a completion that is taken in registers a name, moves the state of a class, makes paths
known, offers usages and appends to the buffers; one that is refused is counted. All of this is data that
can be read off the session before (`Contribution`): the session after is the one before with the data
added (`Contributes.takes`).

What the data is depends on little: what the names in the record lead to, the state of the class that is
completed, and whether the node of a declaration is there (`SameView`). Sessions in which all of that is
the same get the same contribution from an event (`Contributes.congr`).

## Contents
- `ownName?`, `references`, `mentions`: the names in a record.
- `Misses`: how many names do not resolve, with one lemma for each step.
- `Contribution`, `Contributes`, `Takes`; `Contributes.takes`, `Contributes.exists`.
- `SameView`; `Contributes.congr`.
-/

namespace SymbolIndex

/-- Whether the events of a kind are about one entity, which they declare or complete. -/
def EventKind.isOfEntity : EventKind → Bool
  | .file | .import => false
  | _ => true

/-- What declares an entity is about one. -/
theorem EventKind.isOfEntity_of_declares {kind : EventKind} (declares : kind.declares = true) :
    kind.isOfEntity = true := by
  cases kind <;> first | rfl | cases declares

namespace Session

variable {σ : Type} {s s' s'' : Session σ} {e : Event}

/-! ## The names in a record -/

/-- The qualified name of what a record is about. -/
def ownName? : Event → Option String
  | .variable r => r.qualifiedName
  | .function r => r.qualifiedName
  | .classPreprocessed r => r.qualifiedName
  | .classResolved r => r.qualifiedName
  | _ => none

/-- The other names in a record: types, parameters, locals, bases and members. -/
def references : Event → List String
  | .variable r => r.types.getD []
  | .function r => r.types.getD [] ++ r.parameters ++ r.locals
  | .classResolved r => r.bases.getD [] ++ (memberGroups (r.members.getD {})).flatMap fun group =>
      group.2.2.map MemberReport.qualifiedName
  | _ => []

/-- Every name in a record. -/
def mentions (e : Event) : List String :=
  (ownName? e).toList ++ references e

/-- A record mentions what it is about. -/
theorem mem_mentions_of_ownName? {name : String} (h : ownName? e = some name) : name ∈ mentions e := by
  unfold mentions
  rw [h]
  exact List.mem_append_left _ (List.mem_singleton.mpr rfl)

/-- A record that declares something is about the entity that it declares. -/
theorem ownName?_declared {d : Declared} (hd : declared? e = some d) :
    ownName? e = some d.declaration.qualifiedName := by
  cases e with
  | «variable» r =>
    simp only [declared?, Option.bind_eq_bind, Option.bind_eq_some_iff, Option.some.injEq] at hd
    obtain ⟨_, _, _, hqualified, _, _, _, _, _, _, rfl⟩ := hd
    exact nonEmpty_eq_some hqualified
  | function r =>
    simp only [declared?, Option.bind_eq_bind, Option.bind_eq_some_iff, Option.some.injEq] at hd
    obtain ⟨_, _, _, hqualified, _, _, _, _, _, _, _, _, rfl⟩ := hd
    exact nonEmpty_eq_some hqualified
  | classPreprocessed r =>
    simp only [declared?, Option.bind_eq_bind, Option.bind_eq_some_iff, Option.some.injEq] at hd
    obtain ⟨_, _, _, hqualified, _, _, rfl⟩ := hd
    exact nonEmpty_eq_some hqualified
  | file r => cases hd
  | classResolved r => cases hd
  | «import» r => cases hd

/-- What a declaration refers to are its types, parameters and locals. -/
theorem references_declared {d : Declared} (hd : declared? e = some d) :
    references e = d.types ++ d.parameters ++ d.locals := by
  cases e with
  | «variable» r =>
    simp only [declared?, Option.bind_eq_bind, Option.bind_eq_some_iff, Option.some.injEq] at hd
    obtain ⟨_, _, _, _, _, htypes, _, _, _, _, rfl⟩ := hd
    simp only [references, htypes, Option.getD_some, List.append_nil]
  | function r =>
    simp only [declared?, Option.bind_eq_bind, Option.bind_eq_some_iff, Option.some.injEq] at hd
    obtain ⟨_, _, _, _, _, htypes, _, _, _, _, _, _, rfl⟩ := hd
    simp only [references, htypes, Option.getD_some]
  | classPreprocessed r =>
    simp only [declared?, Option.bind_eq_bind, Option.bind_eq_some_iff, Option.some.injEq] at hd
    obtain ⟨_, _, _, _, _, _, rfl⟩ := hd
    rfl
  | file r => cases hd
  | classResolved r => cases hd
  | «import» r => cases hd

/-- A completion is about its class, and refers to its bases and, group by group, to its members. -/
theorem names_completed {r : CompletionReport} {c : Completed} (hc : completed? r = some c) :
    ownName? (.classResolved r) = some c.name ∧
      references (.classResolved r) = c.bases ++ (memberGroups c.members).flatMap fun group =>
        group.2.2.map MemberReport.qualifiedName := by
  simp only [completed?, Option.bind_eq_bind, Option.bind_eq_some_iff, Option.some.injEq] at hc
  obtain ⟨name, hname, _, _, bases, hbases, members, hmembers, _, _, rfl⟩ := hc
  refine ⟨nonEmpty_eq_some hname, ?_⟩
  simp only [references, hbases, hmembers, Option.getD_some]

/-! ## Names that do not resolve -/

/-- Work that counts `n` names as unresolved, and nothing else but duplicates. -/
def Misses (s s' : Session σ) (n : Nat) : Prop :=
  ∃ duplicates, s'.stats = s.stats + { unresolvedReferences := n, duplicateUsages := duplicates }

namespace Misses

theorem refl (s : Session σ) : Misses s s 0 := ⟨0, rfl⟩

/-- Work done in two parts misses what the parts miss together. -/
theorem trans {m n : Nat} (h : Misses s s' m) (h' : Misses s' s'' n) : Misses s s'' (m + n) := by
  obtain ⟨first, counted⟩ := h
  obtain ⟨second, counted'⟩ := h'
  refine ⟨first + second, ?_⟩
  rw [counted', counted, IngestStats.add_assoc]
  rfl

theorem trans_zero {n : Nat} (h : Misses s s' n) (h' : Misses s' s'' 0) : Misses s s'' n := h.trans h'

/-- A usage names nothing: it may be a duplicate, but it never leaves a name unresolved. -/
theorem recordUsage (s : Session σ) (owner : Handle) (name : String) (usage : UsageReport) :
    Misses s (recordUsage owner name s usage) 0 := by
  unfold Session.recordUsage
  cases Place.locate? usage.place with
  | none => exact ⟨0, rfl⟩
  | some place =>
    dsimp only
    generalize s.ledger.insert owner.id _ = offered
    rcases offered with ⟨ledger, _ | _⟩
    · exact ⟨1, rfl⟩
    · exact ⟨0, rfl⟩

theorem recordUsages (s : Session σ) (owner : Handle) (name : String) (usages : List UsageReport) :
    Misses s (s.recordUsages owner name usages) 0 := by
  induction usages generalizing s with
  | nil => exact .refl s
  | cons usage usages ih => exact (recordUsage s owner name usage).trans (ih _)

/-- Documentation refers to no name. -/
theorem document (s : Session σ) (id : EntityId) (kind : DocumentationKind) (text : String) :
    Misses s (s.document id kind text) 0 := by
  unfold Session.document
  split <;> exact ⟨0, rfl⟩

/-- Of the names of parameters or locals those are missed that are no variables. -/
theorem checkVariables (s : Session σ) (role : String) (names : List String) :
    Misses s (s.checkVariables role names) (unresolved s.symbols.lookupVariable names).length := ⟨0, rfl⟩

/-- Of the names of types those are missed that are no entities. -/
theorem bindTypes (s : Session σ) (symbol : EntityId) (names : List String) :
    Misses s (s.bindTypes symbol names) (unresolved s.symbols.lookup names).length := ⟨0, rfl⟩

/-- Of the names of bases those are missed that are no classes. -/
theorem addBases (s : Session σ) (derived : EntityId) (names : List String) :
    Misses s (s.addBases derived names) (unresolved s.symbols.lookupClass names).length := ⟨0, rfl⟩

end Misses

/-- The members that do not resolve. An attribute without a name is passed over. -/
def missedMembers (t : SymbolTable) (kind : MemberKind) (reports : List MemberReport) : List MemberReport :=
  reports.filter fun r => !(decide (kind = .attribute ∧ r.qualifiedName = "")) &&
    (t.lookupKind (memberEntity kind) r.qualifiedName).isNone

/-- A member is missed unless its name leads to an entity of its kind, or it is one of the attributes that
are passed over. -/
theorem misses_attachMember (s : Session σ) (owner : Handle) (name : String) (kind : MemberKind)
    (isStatic : Bool) (r : MemberReport) : Misses s (attachMember owner name kind isStatic s r)
      (missedMembers s.symbols kind [r]).length := by
  unfold attachMember missedMembers
  rw [List.filter_singleton]
  by_cases skipped : kind = .attribute ∧ r.qualifiedName = ""
  · rw [if_pos skipped, decide_eq_true skipped]
    exact ⟨0, rfl⟩
  · rw [if_neg skipped, decide_eq_false skipped]
    cases s.symbols.lookupKind (memberEntity kind) r.qualifiedName with
    | none => exact ⟨0, rfl⟩
    | some member =>
      have edge : Misses s { s with graph := { s.graph with
          members := s.graph.members ++ [⟨owner.id, member.id, member.node, kind, isStatic⟩] } } 0 := ⟨0, rfl⟩
      exact edge.trans (.recordUsages _ member r.qualifiedName r.usages)

/-- Of the members of one group those are missed that lead nowhere. Attaching the ones before changes
nothing about the others, since no member is registered by being attached. -/
theorem misses_attachMembers (s : Session σ) (owner : Handle) (name : String) (kind : MemberKind)
    (isStatic : Bool) (reports : List MemberReport) :
    Misses s (s.attachMembers owner name kind isStatic reports) (missedMembers s.symbols kind reports).length := by
  induction reports generalizing s with
  | nil => exact .refl s
  | cons r reports ih =>
    have first := misses_attachMember s owner name kind isStatic r
    have rest := ih (attachMember owner name kind isStatic s r)
    rw [(effect_attachMember s owner name kind isStatic r).symbols] at rest
    have split : missedMembers s.symbols kind ([r] ++ reports) =
        missedMembers s.symbols kind [r] ++ missedMembers s.symbols kind reports :=
      List.filter_append [r] reports
    rw [List.singleton_append] at split
    rw [split, List.length_append]
    exact first.trans rest

/-- The members of several groups that do not resolve. -/
def missedGroups (t : SymbolTable) (groups : List (MemberKind × Bool × List MemberReport)) :
    List MemberReport :=
  groups.flatMap fun group => missedMembers t group.1 group.2.2

/-- The five groups of members miss what they miss one by one. -/
theorem misses_attachGroups (s : Session σ) (owner : Handle) (name : String)
    (groups : List (MemberKind × Bool × List MemberReport)) :
    Misses s (groups.foldl (attachGroup owner name) s) (missedGroups s.symbols groups).length := by
  induction groups generalizing s with
  | nil => exact .refl s
  | cons group groups ih =>
    have first := misses_attachMembers s owner name group.1 group.2.1 group.2.2
    have rest := ih (attachGroup owner name s group)
    have symbols : (attachGroup owner name s group).symbols = s.symbols :=
      (effect_attachMembers s owner name group.1 group.2.1 group.2.2).symbols
    rw [symbols] at rest
    have split : missedGroups s.symbols (group :: groups) =
        missedMembers s.symbols group.1 group.2.2 ++ missedGroups s.symbols groups := List.flatMap_cons
    rw [split, List.length_append]
    exact first.trans rest

/-- How many names of a declaration do not resolve. -/
def Declared.missed (d : Declared) (t : SymbolTable) : Nat :=
  (unresolved t.lookupVariable d.parameters).length + (unresolved t.lookupVariable d.locals).length +
    (unresolved t.lookup d.types).length

/-- How many names of a completion do not resolve. -/
def Completed.missed (c : Completed) (t : SymbolTable) : Nat :=
  (unresolved t.lookupClass c.bases).length + (missedGroups t (memberGroups c.members)).length

/-- A function misses names of parameters, of locals and of types. -/
theorem misses_addFunction (s : Session σ) (d : Declaration) (parameters locals types : List String)
    (usages : List UsageReport) (documentation : String) :
    Misses s (s.addFunction d parameters locals types usages documentation)
      ((unresolved s.symbols.lookupVariable parameters).length +
        (unresolved s.symbols.lookupVariable locals).length + (unresolved s.symbols.lookup types).length) := by
  have checked := (Misses.checkVariables s "parameter" parameters).trans
    (.checkVariables _ "local variable" locals)
  have bound := checked.trans (.bindTypes _ d.entity.id types)
  have kept := bound.trans_zero (.document _ d.entity.id .function documentation)
  exact kept.trans_zero (.recordUsages _ d.entity.handle d.qualifiedName usages)

/-- What a declaration misses are the names of its record that the table of the session does not lead to an
entity of the right kind. -/
theorem misses_addDeclared (s : Session σ) {d : Declared} (hd : declared? e = some d) :
    Misses s (s.addDeclared d (ownUsages e)) (d.missed s.symbols) := by
  unfold addDeclared
  cases e with
  | «variable» r =>
    simp only [declared?, Option.bind_eq_bind, Option.bind_eq_some_iff, Option.some.injEq] at hd
    obtain ⟨_, _, _, _, types, _, _, _, _, _, rfl⟩ := hd
    exact ((Misses.refl s).trans (.bindTypes s _ types)).trans_zero (.recordUsages _ _ _ _)
  | function r =>
    simp only [declared?, Option.bind_eq_bind, Option.bind_eq_some_iff, Option.some.injEq] at hd
    obtain ⟨_, _, _, _, _, _, _, _, _, _, _, _, rfl⟩ := hd
    exact misses_addFunction s _ _ _ _ _ _
  | classPreprocessed r =>
    simp only [declared?, Option.bind_eq_bind, Option.bind_eq_some_iff, Option.some.injEq] at hd
    obtain ⟨_, _, _, _, _, _, rfl⟩ := hd
    exact ⟨0, rfl⟩
  | file r => cases hd
  | classResolved r => cases hd
  | «import» r => cases hd

/-- What a completion misses: bases that are no classes, and members that lead nowhere. -/
theorem misses_complete (s : Session σ) (owner : Handle) (c : Completed) :
    Misses s (s.complete owner c.name c.documentation c.bases c.members c.usages)
      (c.missed s.symbols) := by
  have documented := effect_document s owner.id .classType c.documentation
  have recorded := documented.trans (effect_recordUsages _ owner c.name c.usages)
  have kept := (Misses.document s owner.id .classType c.documentation).trans_zero
    (.recordUsages _ owner c.name c.usages)
  have based := kept.trans (.addBases _ owner.id c.bases)
  have attached := misses_attachGroups
    (((s.document owner.id .classType c.documentation).recordUsages owner c.name c.usages).addBases
      owner.id c.bases) owner c.name (memberGroups c.members)
  -- the table that bases and members are looked up in is that of the beginning
  rw [(effect_addBases _ owner.id c.bases).symbols, recorded.symbols] at attached
  rw [recorded.symbols, Nat.zero_add] at based
  exact based.trans attached

/-- An import that is placed misses nothing more, whether it is buffered or absorbed. -/
theorem misses_takeImport (s : Session σ) (importer imported : FileId) (path : String)
    (symbol : Option EntityId) (file : String) (node : Node) :
    Misses s (s.takeImport importer imported path symbol file node) 0 := by
  unfold takeImport
  cases s.graph.addNode node with
  | mk graph isNew => cases isNew <;> exact ⟨0, rfl⟩

/-- Whether an import names a symbol that is no entity. -/
def missesSymbol (t : SymbolTable) (symbol : Option String) : Bool :=
  symbol.any fun name => (t.lookup name).isNone

/-- An import that is placed misses its symbol, if that is no entity. It is buffered all the same. -/
theorem misses_addLocatedImport (s : Session σ) (importer imported : FileId) (path : String)
    (symbol : Option String) (file : String) (location : Location) :
    Misses s (s.addLocatedImport importer imported path symbol file location)
      (missesSymbol s.symbols symbol).toNat := by
  unfold addLocatedImport missesSymbol
  cases symbol with
  | none => exact misses_takeImport s _ _ _ _ _ _
  | some name =>
    simp only [Option.bind_some, Option.any_some]
    cases s.symbols.lookup name with
    | none =>
      have missed : Misses s (s.missing "imported symbol" [name]) 1 := ⟨0, rfl⟩
      exact missed.trans_zero (misses_takeImport _ _ _ _ _ _ _)
    | some handle => exact misses_takeImport s _ _ _ _ _ _

/-- Whether an import names a module that is no announced file. -/
def missesModule (files : SourceTable) (path : Option String) : Bool :=
  path.any fun path => (files.findAnnounced? path).isNone

/-- Whether an import can be placed: its module is an announced file and its place is complete. -/
def ImportEntry.isPlaced (entry : ImportEntry) (files : SourceTable) : Bool :=
  (nonEmpty entry.path).any (fun path => (files.findAnnounced? path).isSome) &&
    (Place.locate? entry.place).isSome

/-- Whether a name in an import does not resolve: that of the module, or that of the symbol where the import
can be placed. -/
def missesImport (s : Session σ) (entry : ImportEntry) : Bool :=
  missesModule s.sources (nonEmpty entry.path) ||
    (entry.isPlaced s.sources && missesSymbol s.symbols (nonEmpty entry.symbol))

/-- An import misses one name at most: without an announced module its symbol is not looked up. -/
theorem misses_addImport (s : Session σ) (importer : FileId) (entry : ImportEntry) :
    Misses s (addImport importer s entry) (missesImport s entry).toNat := by
  unfold addImport missesImport missesModule ImportEntry.isPlaced
  cases nonEmpty entry.path with
  | none => exact ⟨0, rfl⟩
  | some path =>
    simp only [Option.any_some]
    cases s.sources.findAnnounced? path with
    | none => exact ⟨0, rfl⟩
    | some imported =>
      dsimp only
      cases Place.locate? entry.place with
      | none => exact ⟨0, rfl⟩
      | some place => exact misses_addLocatedImport _ _ _ _ _ _ _

/-- How many names in the imports of a file do not resolve, each as the session stands at its turn. -/
def missedImports (importer : FileId) (s : Session σ) : List ImportEntry → Nat
  | [] => 0
  | entry :: entries => (missesImport s entry).toNat + missedImports importer (addImport importer s entry) entries

/-- The imports of a record miss what each of them misses at its turn. -/
theorem misses_addImports (s : Session σ) (importer : FileId) (entries : List ImportEntry) :
    Misses s (entries.foldl (addImport importer) s) (missedImports importer s entries) := by
  induction entries generalizing s with
  | nil => exact .refl s
  | cons entry entries ih => exact (misses_addImport s importer entry).trans (ih _)

/-! ## Contributions -/

/-- What an event adds to a session. -/
structure Contribution where
  /-- Names that are registered. -/
  entries : List (String × Handle) := []
  /-- Classes whose state moves. -/
  states : List (EntityId × ClassState) := []
  /-- Paths that become known. -/
  paths : List String := []
  /-- Entities for which the ledger opens an entry. -/
  owners : List EntityId := []
  sightings : List Sighting := []
  /-- What is appended to the buffers. -/
  added : Graph := {}
  /-- How many names do not resolve. -/
  missed : Nat := 0
  /-- Whether the record is dropped, as a count. -/
  skipped : Nat := 0

namespace Contribution

/-- What is counted with an event of a kind, where some of its usages repeat. -/
def counts (c : Contribution) (kind : EventKind) (duplicates : Nat) : IngestStats :=
  { ({} : IngestStats).countEvent kind with
    unresolvedReferences := c.missed
    skippedRecords := c.skipped
    duplicateUsages := duplicates }

/-- A refused event is counted. -/
def refused : Contribution where
  skipped := 1

/-- What a declaration adds, its entity being registered in the table `t`. -/
def ofDeclared (s : Session σ) (e : Event) (d : Declared) (t : SymbolTable) : Contribution where
  entries := [(d.declaration.qualifiedName, d.declaration.entity.handle)]
  states := if d.declaration.kind = .classType then [(d.declaration.entity.id, .preprocessed)] else []
  paths := d.declaration.path :: (reported t e).map Sighting.path
  owners := [d.declaration.entity.id]
  sightings := reported t e
  added := { nodes := declaredNodes s d.declaration } ++ d.buffered s.options t
  missed := d.missed t

/-- What a completion adds, its class being resolved in the table `t`. -/
def ofCompleted (s : Session σ) (r : CompletionReport) (c : Completed) (owner : Handle)
    (t : SymbolTable) : Contribution where
  states := [(owner.id, .resolved)]
  paths := (reported t (.classResolved r)).map Sighting.path
  sightings := reported t (.classResolved r)
  added := c.buffered s.options t owner.id
  missed := c.missed t

end Contribution

/-- What an event about an entity adds to a session. -/
inductive Contributes [Recorder σ] (s : Session σ) : Event → Contribution → Prop
  | declared {e : Event} {d : Declared} {t : SymbolTable} (hd : declared? e = some d)
      (ok : s.symbols.register d.declaration.entity = .ok t) :
      Contributes s e (.ofDeclared s e d t)
  | completed {r : CompletionReport} {c : Completed} {owner : Handle} {t : SymbolTable}
      (hc : completed? r = some c) (ok : s.symbols.resolveClass c.name = .ok (owner, t)) :
      Contributes s (.classResolved r) (.ofCompleted s r c owner t)
  | refused {e : Event} (ofEntity : e.kind.isOfEntity = true) (refused : s.refuses e = true) :
      Contributes s e .refused

/-- `s'` is `s` with a contribution added and an event of the kind counted. Each usage was kept or counted
as a duplicate. -/
structure Takes (s s' : Session σ) (kind : EventKind) (c : Contribution) : Prop where
  options : s'.options = s.options
  store : s'.store = s.store
  entries : s'.symbols.entries = s.symbols.entries.putAll c.entries
  states : s'.symbols.states = s.symbols.states.putAll c.states
  sources : s'.sources = s.sources.registerAll c.paths
  ledger : s'.ledger = (s.ledger.openAll c.owners).offer c.sightings
  graph : s'.graph = s.graph ++ c.added
  stats : ∃ duplicates, s'.stats = s.stats + c.counts kind duplicates ∧
    s'.ledger.total + duplicates = s.ledger.total + c.sightings.length

section Taking

variable {kind : EventKind}

/-- What is counted of an event that is taken in, whose work misses some names. -/
theorem stats_of_misses (c : Contribution) {before : IngestStats} {paths : List String}
    {xs : List Sighting} {g : Graph} (stats : s.stats = before.countEvent kind) (none : c.skipped = 0)
    (done : Effect s s' paths xs g) (missed : Misses s s' c.missed) :
    ∃ duplicates, s'.stats = before + c.counts kind duplicates ∧
      s'.ledger.total + duplicates = s.ledger.total + xs.length := by
  obtain ⟨duplicates, counted⟩ := missed
  refine ⟨duplicates, ?_, ?_⟩
  · rw [counted, stats]
    unfold Contribution.counts
    rw [none]
    cases kind <;> rfl
  · have settled := done.settled
    have repeats : s'.stats.duplicateUsages = s.stats.duplicateUsages + duplicates :=
      congrArg IngestStats.duplicateUsages counted
    omega

variable [Recorder σ] {c : Contribution}

/-- A declaration that is registered adds what was read off its record. -/
theorem takes_declared {d : Declared} {t : SymbolTable} (hd : declared? e = some d)
    (ok : s.symbols.register d.declaration.entity = .ok t) :
    Takes s (s.ingest e) e.kind (.ofDeclared s e d t) := by
  have accepted : accept e (s.counted e) = .ok ()
      (((s.counted e).enter d.declaration t).addDeclared d (ownUsages e)) :=
    (accept_declaring_eq_ok (declares_of_declared? hd)).mpr ⟨d, t, hd, ok, rfl⟩
  have done : Effect ((s.counted e).enter d.declaration t) (s.ingest e)
      ((reported t e).map Sighting.path) (reported t e) (d.buffered s.options t) := by
    rw [(ingest_of_accept accepted).1, reported_declared hd ok]
    exact effect_addDeclared _ hd
  have missed : Misses ((s.counted e).enter d.declaration t) (s.ingest e) (d.missed t) := by
    rw [(ingest_of_accept accepted).1]
    exact misses_addDeclared _ hd
  obtain ⟨_, _, registered⟩ := SymbolTable.register_eq_ok.mp ok
  constructor
  case options => exact done.options
  case store => exact done.store
  case entries =>
    rw [done.symbols, show ((s.counted e).enter d.declaration t).symbols = t from rfl, registered]
    rfl
  case states =>
    rw [done.symbols, show ((s.counted e).enter d.declaration t).symbols = t from rfl, registered]
    show (if d.declaration.kind = .classType then _ else _) = _
    unfold Contribution.ofDeclared
    split <;> rfl
  case sources => exact done.sources
  case ledger => exact done.ledger
  case graph =>
    have graph : (s.ingest e).graph = (s.counted e).graph ++ _ := graph_declared done
    exact graph
  case stats =>
    obtain ⟨duplicates, stats, settled⟩ :=
      stats_of_misses (.ofDeclared s e d t) rfl rfl done missed
    rw [show ((s.counted e).enter d.declaration t).ledger = s.ledger.register d.declaration.entity.id
      from rfl, Ledger.total_register] at settled
    exact ⟨duplicates, stats, settled⟩

/-- A completion of a class that is waiting for it adds what was read off its record. -/
theorem takes_completed {r : CompletionReport} {c : Completed} {owner : Handle} {t : SymbolTable}
    (hc : completed? r = some c) (ok : s.symbols.resolveClass c.name = .ok (owner, t)) :
    Takes s (s.ingest (.classResolved r)) .classResolved (.ofCompleted s r c owner t) := by
  have accepted : accept (.classResolved r) (s.counted (.classResolved r)) = .ok ()
      (complete { s.counted (.classResolved r) with symbols := t } owner c.name c.documentation c.bases
        c.members c.usages) := acceptCompletion_eq_ok.mpr ⟨c, owner, t, hc, ok, rfl⟩
  have done : Effect { s.counted (.classResolved r) with symbols := t } (s.ingest (.classResolved r))
      ((reported t (.classResolved r)).map Sighting.path) (reported t (.classResolved r))
      (c.buffered s.options t owner.id) := by
    rw [(ingest_of_accept accepted).1,
      reported_classResolved hc (SymbolTable.lookupClass_of_resolveClass ok)]
    exact effect_complete _ owner c
  have missed : Misses { s.counted (.classResolved r) with symbols := t } (s.ingest (.classResolved r))
      (c.missed t) := by
    rw [(ingest_of_accept accepted).1]
    exact misses_complete _ owner c
  obtain ⟨_, _, resolved⟩ := SymbolTable.resolveClass_eq_ok.mp ok
  constructor
  case options => exact done.options
  case store => exact done.store
  case entries =>
    rw [done.symbols]
    exact SymbolTable.entries_of_resolveClass ok
  case states =>
    rw [done.symbols, resolved]
    rfl
  case sources => exact done.sources
  case ledger => exact done.ledger
  case graph => exact done.graph
  case stats =>
    have counted : ({ s.counted (.classResolved r) with symbols := t } : Session σ).stats =
        s.stats.countEvent .classResolved := rfl
    obtain ⟨duplicates, stats, settled⟩ :=
      stats_of_misses (.ofCompleted s r c owner t) counted rfl done missed
    exact ⟨duplicates, stats, settled⟩

/-- Of a refused event about an entity nothing is taken but two counts. -/
theorem takes_refused (refused : s.refuses e = true) : Takes s (s.ingest e) e.kind .refused := by
  obtain ⟨told, ingested⟩ := ingest_refused refused
  rw [ingested]
  constructor
  case graph => exact (Graph.append_empty s.graph).symm
  case stats =>
    refine ⟨0, ?_, rfl⟩
    cases e.kind <;> rfl
  all_goals rfl

/-- **An event about an entity adds its contribution** and nothing else. -/
theorem Contributes.takes (h : Contributes s e c) : Takes s (s.ingest e) e.kind c := by
  cases h with
  | declared hd ok => exact takes_declared hd ok
  | completed hc ok => exact takes_completed hc ok
  | refused _ refused => exact takes_refused refused

/-- Every event about an entity has a contribution, be it that of a refused one. -/
theorem Contributes.exists (s : Session σ) (ofEntity : e.kind.isOfEntity = true) :
    ∃ c, Contributes s e c := by
  cases refused : s.refuses e with
  | true => exact ⟨_, .refused ofEntity refused⟩
  | false =>
    obtain ⟨s', ok⟩ := refuses_eq_false_iff.mp refused
    cases accepted_of_accept ok with
    | declared hd ok => exact ⟨_, .declared hd ok⟩
    | completed hc ok => exact ⟨_, .completed hc ok⟩
    | committed => cases ofEntity
    | imported => cases ofEntity

end Taking

/-! ## What a contribution depends on -/

/-- Two tables lead some names to the same. -/
def SameNames (names : List String) (t u : SymbolTable) : Prop :=
  ∀ name ∈ names, u.lookup name = t.lookup name

namespace SameNames

variable {names : List String} {t u : SymbolTable}

theorem symm (h : SameNames names t u) : SameNames names u t :=
  fun name hname => (h name hname).symm

/-- Tables that agree about some names agree about fewer. -/
theorem mono {more : List String} (h : SameNames more t u) (sub : ∀ name ∈ names, name ∈ more) :
    SameNames names t u :=
  fun name hname => h name (sub name hname)

/-- A name that leads to the same in both tables is of the same kind in both. -/
theorem lookupKind (h : SameNames names t u) {name : String} (hname : name ∈ names) (kind : EntityKind) :
    u.lookupKind kind name = t.lookupKind kind name := by
  unfold SymbolTable.lookupKind
  rw [h name hname]

/-- Names that lead to the same give the same identifiers, each once. -/
theorem resolvedOnce {f g : String → Option Handle} (h : ∀ name ∈ names, f name = g name) :
    resolvedOnce f names = resolvedOnce g names := by
  unfold Session.resolvedOnce
  rw [List.filterMap_congr h]

/-- Names that lead to the same leave the same ones unresolved. -/
theorem unresolved {f g : String → Option Handle} (h : ∀ name ∈ names, f name = g name) :
    Session.unresolved f names = Session.unresolved g names :=
  List.filter_congr fun name hname => by rw [h name hname]

theorem typeEdges (h : SameNames names t u) (id : EntityId) : typeEdges u id names = typeEdges t id names :=
  congrArg (List.map _) (resolvedOnce h)

theorem baseEdges (h : SameNames names t u) (id : EntityId) : baseEdges u id names = baseEdges t id names :=
  congrArg (List.map _) (resolvedOnce fun _ hname => h.lookupKind hname .classType)

theorem unresolvedVariables (h : SameNames names t u) :
    Session.unresolved u.lookupVariable names = Session.unresolved t.lookupVariable names :=
  unresolved fun _ hname => h.lookupKind hname .variable

theorem unresolvedClasses (h : SameNames names t u) :
    Session.unresolved u.lookupClass names = Session.unresolved t.lookupClass names :=
  unresolved fun _ hname => h.lookupKind hname .classType

theorem variableIds (h : SameNames names t u) : variableIds u names = variableIds t names :=
  congrArg (List.map _) (List.filterMap_congr fun _ hname => h.lookupKind hname .variable)

/-- What a declaration buffers and misses is found under its references. -/
theorem declared {d : Declared} (h : SameNames (d.types ++ d.parameters ++ d.locals) t u)
    (options : Options) : d.buffered options u = d.buffered options t ∧ d.missed u = d.missed t := by
  have types : SameNames d.types t u := h.mono fun name hname => by simp [hname]
  have parameters : SameNames d.parameters t u := h.mono fun name hname => by simp [hname]
  have locals : SameNames d.locals t u := h.mono fun name hname => by simp [hname]
  constructor
  · unfold Declared.buffered
    dsimp only
    rw [types.typeEdges d.declaration.entity.id, parameters.variableIds, locals.variableIds]
  · unfold Declared.missed
    rw [unresolved types, parameters.unresolvedVariables, locals.unresolvedVariables]

/-- The edges, usages and misses of members depend on nothing but where the names of the members lead. -/
theorem groups {groups : List (MemberKind × Bool × List MemberReport)}
    (h : SameNames (groups.flatMap fun group => group.2.2.map MemberReport.qualifiedName) t u)
    (owner : EntityId) : groupEdges u owner groups = groupEdges t owner groups ∧
      groupSightings u groups = groupSightings t groups ∧ missedGroups u groups = missedGroups t groups := by
  have found : ∀ group ∈ groups, ∀ m ∈ group.2.2, ∀ kind,
      u.lookupKind kind m.qualifiedName = t.lookupKind kind m.qualifiedName := by
    intro group hgroup m hm kind
    exact h.lookupKind (List.mem_flatMap.mpr ⟨group, hgroup, List.mem_map.mpr ⟨m, hm, rfl⟩⟩) kind
  refine ⟨?_, ?_, ?_⟩
  · refine List.flatMap_congr fun group hgroup => List.filterMap_congr fun m hm => ?_
    rw [found group hgroup m hm]
  · refine List.flatMap_congr fun group hgroup => List.flatMap_congr fun m hm => ?_
    unfold sightingsOf
    rw [found group hgroup m hm]
  · refine List.flatMap_congr fun group hgroup => List.filter_congr fun m hm => ?_
    rw [found group hgroup m hm]

end SameNames

/-- In two sessions an event about an entity meets the same: its names lead to the same, the class that it
completes is in the same state, and the node that it declares is there in both or in neither. -/
structure SameView (e : Event) (s s' : Session σ) : Prop where
  options : s'.options = s.options
  names : SameNames (mentions e) s.symbols s'.symbols
  state : ∀ name h, e.kind = .classResolved → ownName? e = some name → s.symbols.lookupClass name = some h →
    s'.symbols.states.find? h.id = s.symbols.states.find? h.id
  node : ∀ d, declared? e = some d →
    s'.graph.hasNode d.declaration.node.id = s.graph.hasNode d.declaration.node.id

namespace SameView

theorem symm (same : SameView e s s') : SameView e s' s where
  options := same.options.symm
  names := same.names.symm
  state name h completes own found := by
    rw [same.state name h completes own]
    rw [← found]
    exact (same.names.lookupKind (mem_mentions_of_ownName? own) .classType).symm
  node d hd := (same.node d hd).symm

/-- An entity that one of the two tables registers is registered by the other, and afterwards the names of
its record still lead to the same in both. -/
theorem register {d : Declared} {t : SymbolTable} (same : SameView e s s') (hd : declared? e = some d)
    (ok : s.symbols.register d.declaration.entity = .ok t) :
    ∃ t', s'.symbols.register d.declaration.entity = .ok t' ∧ SameNames (mentions e) t t' := by
  obtain ⟨nonempty, free, _⟩ := SymbolTable.register_eq_ok.mp ok
  have own : d.declaration.qualifiedName ∈ mentions e := mem_mentions_of_ownName? (ownName?_declared hd)
  have ok' := SymbolTable.register_eq_ok.mpr ⟨nonempty, (same.names _ own).trans free, rfl⟩
  refine ⟨_, ok', fun name hname => ?_⟩
  rw [SymbolTable.lookup_of_register ok, SymbolTable.lookup_of_register ok', same.names name hname]

/-- A class that one of the two tables resolves is resolved by the other, as the same class. -/
theorem resolve {r : CompletionReport} {c : Completed} {owner : Handle} {t : SymbolTable}
    (same : SameView (.classResolved r) s s') (hc : completed? r = some c)
    (ok : s.symbols.resolveClass c.name = .ok (owner, t)) :
    ∃ t', s'.symbols.resolveClass c.name = .ok (owner, t') ∧
      SameNames (mentions (.classResolved r)) t t' := by
  obtain ⟨found, preprocessed, _⟩ := SymbolTable.resolveClass_eq_ok.mp ok
  have own := (names_completed hc).1
  have ok' := SymbolTable.resolveClass_eq_ok.mpr
    ⟨(same.names.lookupKind (mem_mentions_of_ownName? own) .classType).trans found,
      (same.state _ _ rfl own found).trans preprocessed, rfl⟩
  refine ⟨_, ok', fun name hname => ?_⟩
  rw [SymbolTable.lookup_congr (SymbolTable.entries_of_resolveClass ok),
    SymbolTable.lookup_congr (SymbolTable.entries_of_resolveClass ok'), same.names name hname]

variable [Recorder σ]

/-- What is taken in by one of the two sessions is taken in by the other. -/
theorem taken (same : SameView e s s') (ofEntity : e.kind.isOfEntity = true)
    (taken : s.refuses e = false) : s'.refuses e = false := by
  obtain ⟨_, ok⟩ := refuses_eq_false_iff.mp taken
  cases accepted_of_accept ok with
  | declared hd ok =>
    obtain ⟨t, ok', _⟩ := same.register hd ok
    exact refuses_eq_false_iff.mpr
      ⟨_, (accept_declaring_eq_ok (declares_of_declared? hd)).mpr ⟨_, t, hd, ok', rfl⟩⟩
  | completed hc ok =>
    obtain ⟨t, ok', _⟩ := same.resolve hc ok
    exact refuses_eq_false_iff.mpr ⟨_, acceptCompletion_eq_ok.mpr ⟨_, _, t, hc, ok', rfl⟩⟩
  | committed => cases ofEntity
  | imported => cases ofEntity

end SameView

variable [Recorder σ] {c : Contribution}

/-- **Sessions that look the same to an event get the same from it.** -/
theorem Contributes.congr (h : Contributes s e c) (same : SameView e s s') : Contributes s' e c := by
  cases h with
  | @declared _ d t hd ok =>
    obtain ⟨t', ok', names⟩ := same.register hd ok
    have references : SameNames (d.types ++ d.parameters ++ d.locals) t t' :=
      names.mono fun name hname => List.mem_append_right _ (references_declared hd ▸ hname)
    obtain ⟨buffered, missed⟩ := references.declared s.options
    have reports : reported t' e = reported t e := by
      rw [reported_declared hd ok, reported_declared hd ok']
    have nodes : declaredNodes s' d.declaration = declaredNodes s d.declaration := by
      unfold declaredNodes
      rw [same.node d hd]
    have equal : Contribution.ofDeclared s' e d t' = .ofDeclared s e d t := by
      unfold Contribution.ofDeclared
      rw [reports, nodes, same.options, buffered, missed]
    exact equal ▸ .declared hd ok'
  | @completed r c owner t hc ok =>
    obtain ⟨t', ok', names⟩ := same.resolve hc ok
    have references : SameNames (references (.classResolved r)) t t' :=
      names.mono fun name hname => List.mem_append_right _ hname
    rw [(names_completed hc).2] at references
    have bases : SameNames c.bases t t' := references.mono fun name hname => List.mem_append_left _ hname
    obtain ⟨edges, sightings, missed⟩ :=
      (references.mono fun name hname => List.mem_append_right _ hname).groups owner.id
    have reports : reported t' (.classResolved r) = reported t (.classResolved r) := by
      rw [reported_classResolved hc (SymbolTable.lookupClass_of_resolveClass ok),
        reported_classResolved hc (SymbolTable.lookupClass_of_resolveClass ok'), sightings]
    have equal : Contribution.ofCompleted s' r c owner t' = .ofCompleted s r c owner t := by
      unfold Contribution.ofCompleted Completed.buffered Completed.missed
      rw [reports, same.options, edges, bases.baseEdges, missed, bases.unresolvedClasses]
    exact equal ▸ .completed hc ok'
  | refused ofEntity refused =>
    refine .refused ofEntity (Bool.of_not_eq_false fun taken => ?_)
    cases refused.symm.trans (same.symm.taken ofEntity taken)

end Session

end SymbolIndex
