import SymbolIndex.Proofs.Graph
import SymbolIndex.Proofs.Session.Edges
import SymbolIndex.Proofs.Source

/-!
# `Proofs.Session.Effect` — what the building blocks of the handlers do

No building block takes anything away: it makes some paths known, offers some usages to the ledger and
appends to the buffers. `Effect` is that account of a piece of work, and it composes, so the effect of
a handler is put together from the effects of its steps. Which names resolve is read off the symbol
table, which none of the steps here changes.

## Contents
- `Effect`, with `Effect.refl` and `Effect.trans`.
- One effect for each step: `effect_recordUsages`, `effect_bindTypes`, … .
- `addImport_cases`: an import is taken in or leaves everything as it is; `imports_induction`.
-/

namespace SymbolIndex

namespace Session

variable {σ : Type} {s s' s'' : Session σ}

/-- `s'` is `s` after some work: paths became known, usages went to the ledger, a graph was appended to
the buffers. Each usage was kept or counted as a duplicate. -/
structure Effect (s s' : Session σ) (paths : List String) (xs : List Sighting) (g : Graph) : Prop where
  options : s'.options = s.options
  store : s'.store = s.store
  symbols : s'.symbols = s.symbols
  sources : s'.sources = s.sources.registerAll paths
  ledger : s'.ledger = s.ledger.offer xs
  graph : s'.graph = s.graph ++ g
  settled : s'.ledger.total + s'.stats.duplicateUsages =
    s.ledger.total + s.stats.duplicateUsages + xs.length

namespace Effect

/-- Work in two parts makes known, reports and buffers what the parts do, in that order. -/
theorem trans {paths paths' : List String} {xs xs' : List Sighting} {g g' : Graph}
    (h : Effect s s' paths xs g) (h' : Effect s' s'' paths' xs' g') :
    Effect s s'' (paths ++ paths') (xs ++ xs') (g ++ g') where
  options := h'.options.trans h.options
  store := h'.store.trans h.store
  symbols := h'.symbols.trans h.symbols
  sources := by rw [h'.sources, h.sources, SourceTable.registerAll_append]
  ledger := by rw [h'.ledger, h.ledger, Ledger.offer_append]
  graph := by rw [h'.graph, h.graph, Graph.append_assoc]
  settled := by
    have first := h.settled
    have second := h'.settled
    rw [List.length_append]
    omega

/-- Nothing but counts and log changes. -/
theorem quiet (s : Session σ) (stats : IngestStats) (log : List LogLine)
    (h : stats.duplicateUsages = s.stats.duplicateUsages) :
    Effect s { s with stats, log } [] [] {} where
  options := rfl
  store := rfl
  symbols := rfl
  sources := rfl
  ledger := rfl
  graph := (Graph.append_empty s.graph).symm
  settled := by rw [h]; rfl

theorem refl (s : Session σ) : Effect s s [] [] {} :=
  quiet s s.stats s.log rfl

/-- Quiet work adds nothing to what was done before. -/
theorem trans_quiet {paths : List String} {xs : List Sighting} {g : Graph}
    (h : Effect s s' paths xs g) (h' : Effect s' s'' [] [] {}) : Effect s s'' paths xs g := by
  have both := h.trans h'
  rwa [List.append_nil, List.append_nil, Graph.append_empty] at both

/-- Appending to the buffers has that effect and no other. -/
theorem onGraph (s : Session σ) {g graph : Graph} (h : graph = s.graph ++ g) :
    Effect s { s with graph } [] [] g where
  options := rfl
  store := rfl
  symbols := rfl
  sources := rfl
  ledger := rfl
  graph := h
  settled := rfl

end Effect

theorem effect_tell (s : Session σ) (level : Level) (text : String) :
    Effect s (s.tell level text) [] [] {} :=
  .quiet s _ _ rfl

theorem effect_missing (s : Session σ) (what : String) (names : List String) :
    Effect s (s.missing what names) [] [] {} :=
  .quiet s _ _ rfl

/-! ## Usages -/

/-- A usage with a complete place makes its file known and goes to the ledger; any other does nothing. -/
theorem effect_recordUsage (s : Session σ) (owner : Handle) (name : String) (usage : UsageReport) :
    Effect s (recordUsage owner name s usage) ((sightings owner name [usage]).map Sighting.path)
      (sightings owner name [usage]) {} := by
  unfold recordUsage sightings
  rw [List.filterMap_cons, List.filterMap_nil]
  cases Place.locate? usage.place with
  | none => exact effect_tell s _ _
  | some place =>
    obtain ⟨path, location⟩ := place
    have added := s.ledger.insert_snd owner.id (Node.usage name owner.kind.symbolType location)
    have grown := s.ledger.total_insert owner.id (Node.usage name owner.kind.symbolType location)
    simp only [Option.map_some, List.map_cons, List.map_nil]
    -- the flag of the ledger decides between keeping the usage and counting it
    cases offered : s.ledger.insert owner.id (Node.usage name owner.kind.symbolType location) with
    | mk ledger isNew =>
      have kept : s.ledger.offer [⟨owner, name, path, location⟩] = ledger :=
        congrArg Prod.fst offered
      rw [offered] at added grown
      dsimp only at added grown
      cases isNew with
      | true =>
        have free : s.ledger.records owner.id (Node.usage name owner.kind.symbolType location).location
            = false := by simpa using added.symm
        rw [if_neg (by rw [free]; decide)] at grown
        refine ⟨rfl, rfl, rfl, rfl, kept.symm, (Graph.append_empty s.graph).symm, ?_⟩
        show ledger.total + s.stats.duplicateUsages = _ + 1
        omega
      | false =>
        have known : s.ledger.records owner.id (Node.usage name owner.kind.symbolType location).location
            = true := by simpa using added.symm
        rw [if_pos known] at grown
        refine ⟨rfl, rfl, rfl, rfl, kept.symm, (Graph.append_empty s.graph).symm, ?_⟩
        show ledger.total + (s.stats.duplicateUsages + 1) = _ + 1
        omega

theorem effect_recordUsages (s : Session σ) (owner : Handle) (name : String)
    (usages : List UsageReport) :
    Effect s (s.recordUsages owner name usages) ((sightings owner name usages).map Sighting.path)
      (sightings owner name usages) {} := by
  induction usages generalizing s with
  | nil => exact .refl s
  | cons usage usages ih =>
    have split : sightings owner name (usage :: usages) =
        sightings owner name [usage] ++ sightings owner name usages :=
      List.filterMap_append (l := [usage])
    rw [split, List.map_append]
    exact (effect_recordUsage s owner name usage).trans (ih _)

/-! ## Relations -/

/-- Types are looked up and bound, each once. -/
theorem effect_bindTypes (s : Session σ) (symbol : EntityId) (names : List String) :
    Effect s (s.bindTypes symbol names) [] [] { types := typeEdges s.symbols symbol names } := by
  refine Effect.trans_quiet (Effect.onGraph s ?_) (effect_missing _ _ _)
  simp only [Graph.append_def, Graph.append, List.append_nil]
  rfl

/-- Documentation is buffered unless the session leaves it out. -/
theorem effect_document (s : Session σ) (id : EntityId) (kind : DocumentationKind) (text : String) :
    Effect s (s.document id kind text) [] []
      { documentation := documented s.options id kind text } := by
  unfold document documented
  split
  · exact .refl s
  · refine Effect.onGraph s ?_
    simp only [Graph.append_def, Graph.append, List.append_nil]

/-- Bases are looked up among classes, each once. -/
theorem effect_addBases (s : Session σ) (derived : EntityId) (names : List String) :
    Effect s (s.addBases derived names) [] []
      { inheritance := baseEdges s.symbols derived names } := by
  refine Effect.trans_quiet (Effect.onGraph s ?_) (effect_missing _ _ _)
  simp only [Graph.append_def, Graph.append, List.append_nil]
  rfl

/-! ## Members -/

/-- A member brings its edge and its usages, or nothing if its name leads nowhere. -/
theorem effect_attachMember (s : Session σ) (owner : Handle) (name : String) (kind : MemberKind)
    (isStatic : Bool) (r : MemberReport) :
    Effect s (attachMember owner name kind isStatic s r)
      ((memberSightings s.symbols kind [r]).map Sighting.path) (memberSightings s.symbols kind [r])
      { members := memberEdges s.symbols owner.id kind isStatic [r] } := by
  unfold attachMember memberSightings memberEdges
  rw [List.flatMap_singleton, List.filterMap_cons, List.filterMap_nil]
  unfold sightingsOf
  split
  · rename_i skipped
    rw [skipped.2, lookupKind_empty]
    exact effect_tell s _ _
  · cases s.symbols.lookupKind (memberEntity kind) r.qualifiedName with
    | none => exact effect_missing s _ _
    | some member =>
      have edge : Effect s
          { s with graph := { s.graph with
            members := s.graph.members ++ [⟨owner.id, member.id, member.node, kind, isStatic⟩] } }
          [] [] { members := [⟨owner.id, member.id, member.node, kind, isStatic⟩] } := by
        refine Effect.onGraph s ?_
        simp only [Graph.append_def, Graph.append, List.append_nil]
      exact edge.trans (effect_recordUsages _ member r.qualifiedName r.usages)

theorem effect_attachMembers (s : Session σ) (owner : Handle) (name : String) (kind : MemberKind)
    (isStatic : Bool) (reports : List MemberReport) :
    Effect s (s.attachMembers owner name kind isStatic reports)
      ((memberSightings s.symbols kind reports).map Sighting.path)
      (memberSightings s.symbols kind reports)
      { members := memberEdges s.symbols owner.id kind isStatic reports } := by
  induction reports generalizing s with
  | nil => exact .refl s
  | cons r reports ih =>
    have first := effect_attachMember s owner name kind isStatic r
    have rest := ih (attachMember owner name kind isStatic s r)
    rw [first.symbols] at rest
    have edges : memberEdges s.symbols owner.id kind isStatic (r :: reports) =
        memberEdges s.symbols owner.id kind isStatic [r] ++
          memberEdges s.symbols owner.id kind isStatic reports :=
      List.filterMap_append (l := [r])
    have seen : memberSightings s.symbols kind (r :: reports) =
        memberSightings s.symbols kind [r] ++ memberSightings s.symbols kind reports :=
      (List.flatMap_append : ([r] ++ reports).flatMap _ = _)
    rw [edges, seen, List.map_append]
    exact first.trans rest

/-- The groups of a class bring edges and usages in the order of the groups. -/
theorem effect_attachGroups (s : Session σ) (owner : Handle) (name : String)
    (groups : List (MemberKind × Bool × List MemberReport)) :
    Effect s (groups.foldl (attachGroup owner name) s)
      ((groupSightings s.symbols groups).map Sighting.path) (groupSightings s.symbols groups)
      { members := groupEdges s.symbols owner.id groups } := by
  induction groups generalizing s with
  | nil => exact .refl s
  | cons group groups ih =>
    have first := effect_attachMembers s owner name group.1 group.2.1 group.2.2
    have rest := ih (attachGroup owner name s group)
    rw [show (attachGroup owner name s group).symbols = s.symbols from first.symbols] at rest
    have edges : groupEdges s.symbols owner.id (group :: groups) =
        memberEdges s.symbols owner.id group.1 group.2.1 group.2.2 ++
          groupEdges s.symbols owner.id groups := List.flatMap_cons
    have seen : groupSightings s.symbols (group :: groups) =
        memberSightings s.symbols group.1 group.2.2 ++ groupSightings s.symbols groups :=
      List.flatMap_cons
    rw [edges, seen, List.map_append]
    exact first.trans rest

/-! ## Imports -/

/-- An import with its node is taken in if the node is new. -/
theorem takeImport_cases (s : Session σ) (importer imported : FileId) (path : String)
    (symbol : Option EntityId) (file : String) (node : Node) :
    s.graph.hasNode node.id = true ∧
        Effect s (s.takeImport importer imported path symbol file node) [] [] {} ∨
      s.graph.hasNode node.id = false ∧
        Effect s (s.takeImport importer imported path symbol file node) [file] []
          { nodes := [node], imports := [⟨node.id, importer, imported, symbol⟩] } := by
  unfold takeImport Graph.addNode
  cases s.graph.hasNode node.id with
  | true => exact Or.inl ⟨rfl, effect_tell s _ _⟩
  | false =>
    refine Or.inr ⟨rfl, rfl, rfl, rfl, rfl, rfl, ?_, rfl⟩
    simp only [Graph.append_def, Graph.append, List.append_nil]
    rfl

/-- A placed import is absorbed if its node is there, and else it brings its node, its edge and its file. -/
theorem addLocatedImport_cases (s : Session σ) (importer imported : FileId) (path : String)
    (symbol : Option String) (file : String) (location : Location) :
    let node := importNode path symbol location
    let s' := s.addLocatedImport importer imported path symbol file location
    s.graph.hasNode node.id = true ∧ Effect s s' [] [] {} ∨
      s.graph.hasNode node.id = false ∧ Effect s s' [file] []
        { nodes := [node], imports := [importEdge s.symbols node.id importer imported symbol] } := by
  intro node
  -- whether the symbol is found decides only what is counted first
  have taken : ∀ (t : Session σ) (handle : Option EntityId), Effect s t [] [] {} →
      let s' := t.takeImport importer imported path handle file node
      s.graph.hasNode node.id = true ∧ Effect s s' [] [] {} ∨ s.graph.hasNode node.id = false ∧
        Effect s s' [file] []
          { nodes := [node], imports := [⟨node.id, importer, imported, handle⟩] } := by
    intro t handle told
    have graph : t.graph = s.graph := told.graph.trans (Graph.append_empty s.graph)
    rcases takeImport_cases t importer imported path handle file node with ⟨there, quiet⟩ | ⟨free, added⟩
    · exact Or.inl ⟨graph ▸ there, told.trans quiet⟩
    · exact Or.inr ⟨graph ▸ free, told.trans added⟩
  unfold addLocatedImport importEdge
  cases symbol with
  | none => exact taken s _ (.refl s)
  | some name =>
    simp only [Option.bind_some]
    cases s.symbols.lookup name with
    | none => exact taken _ _ (effect_missing s _ _)
    | some handle => exact taken s _ (.refl s)

/-- An import is taken in: its module is an announced file, its place is complete, and its node is
new. -/
inductive Imported (importer : FileId) (entry : ImportEntry) (s s' : Session σ) : Prop
  | intro {path file : String} {imported : File} {location : Location}
    (hpath : nonEmpty entry.path = some path)
    (found : s.sources.findAnnounced? path = some imported)
    (located : Place.locate? entry.place = some (file, location))
    (free : s.graph.hasNode (importNode path (nonEmpty entry.symbol) location).id = false)
    (added : let node := importNode path (nonEmpty entry.symbol) location
      Effect s s' [file] [] {
        nodes := [node]
        imports := [importEdge s.symbols node.id importer imported.id (nonEmpty entry.symbol)] })

/-- There is nothing to take in of an import: its module is no announced file, its place is not
complete, or its node is there. -/
def Absorbs (s : Session σ) (entry : ImportEntry) : Prop :=
  ∀ path file location, nonEmpty entry.path = some path →
    (s.sources.findAnnounced? path).isSome = true →
    Place.locate? entry.place = some (file, location) →
    s.graph.hasNode (importNode path (nonEmpty entry.symbol) location).id = true

/-- **An import is taken in, or there is nothing to take in** and everything is left as it is. -/
theorem addImport_cases (importer : FileId) (s : Session σ) (entry : ImportEntry) :
    Absorbs s entry ∧ Effect s (addImport importer s entry) [] [] {} ∨
      Imported importer entry s (addImport importer s entry) := by
  unfold Absorbs addImport
  cases hpath : nonEmpty entry.path with
  | none => exact Or.inl ⟨nofun, effect_tell s _ _⟩
  | some path =>
    dsimp only
    cases found : s.sources.findAnnounced? path with
    | none =>
      refine Or.inl ⟨?_, effect_missing s _ _⟩
      rintro _ _ _ ⟨⟩ announced
      rw [found] at announced
      cases announced
    | some imported =>
      dsimp only
      cases located : Place.locate? entry.place with
      | none => exact Or.inl ⟨nofun, effect_tell s _ _⟩
      | some place =>
        obtain ⟨file, location⟩ := place
        rcases addLocatedImport_cases s importer imported.id path (nonEmpty entry.symbol) file location
          with ⟨there, quiet⟩ | ⟨free, added⟩
        · refine Or.inl ⟨?_, quiet⟩
          rintro _ _ _ ⟨⟩ _ ⟨⟩
          exact there
        · exact Or.inr (.intro hpath found located free added)

/-- Imports one after another keep what quiet work and each import that is taken in keep. -/
theorem imports_induction {P : Session σ → Prop} {importer : FileId} {entries : List ImportEntry}
    {s : Session σ} (h : P s) (quiet : ∀ s s', P s → Effect s s' [] [] {} → P s')
    (imported : ∀ entry ∈ entries, ∀ s s', P s → Imported importer entry s s' → P s') :
    P (entries.foldl (addImport importer) s) := by
  induction entries generalizing s with
  | nil => exact h
  | cons entry entries ih =>
    refine ih ?_ fun later hlater => imported later (List.mem_cons_of_mem entry hlater)
    rcases addImport_cases importer s entry with ⟨_, same⟩ | added
    · exact quiet s _ h same
    · exact imported entry List.mem_cons_self s _ h added

end Session

end SymbolIndex
