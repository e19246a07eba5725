import SymbolIndex.Proofs.Session.Announced
import SymbolIndex.Proofs.Session.Contribution

/-!
# `Proofs.Session.Commute` — independent events in either order

Two neighbouring events about entities can change places if neither has to do with what the other declares:
the name that one declares does not stand in the record of the other. Each then gets the same contribution
first or second (`SameView`), and contributions under different names and to different entities add up to
the same in either order, but for the order in which the buffers keep them (`Takes.comm`).

That a name is another one says that the entity is another one only if identifiers have no collisions; this
is where `Apart` comes in, for entities and for nodes. A file event needs nothing of it: no event about an
entity asks which files are announced, and a path that it makes known is the same file before and after it
is announced (`SameSession.of_file`).

## Contents
- `SameSession`, `SameButOrder`.
- `Takes.comm`; `Contribution.touched`, and what a contribution touches.
- `sameView_of_takes`; `Independent`, `Independent.ingest_comm`.
- `ingest_file`, `SameSession.of_file`.
- `independent_events_commute`.
-/

namespace SymbolIndex

namespace Session

variable {σ : Type} {s s' t t' : Session σ} {e : Event}

/-! ## Sessions that are the same -/

/-- Two sessions are the same but for their logs; a file table is what it says of paths. -/
structure SameSession (s t : Session σ) : Prop where
  options : s.options = t.options
  store : s.store = t.store
  symbols : s.symbols = t.symbols
  sources : SourceTable.Same s.sources t.sources
  ledger : s.ledger = t.ledger
  graph : s.graph = t.graph
  stats : s.stats = t.stats

/-- Two sessions are the same but for their logs and the order in which names, entities and records came. -/
structure SameButOrder (s t : Session σ) : Prop where
  options : s.options = t.options
  store : s.store = t.store
  names : ∀ name, s.symbols.entries.find? name = t.symbols.entries.find? name
  states : ∀ id, s.symbols.states.find? id = t.symbols.states.find? id
  sources : SourceTable.Same s.sources t.sources
  owners : ∀ id, s.ledger.contains id = t.ledger.contains id
  /-- Each entity has its usages in the same order. -/
  usages : ∀ id, s.ledger.usages id = t.ledger.usages id
  graph : s.graph.Perm t.graph
  stats : s.stats = t.stats

/-! ## Contributions in either order -/

/-- The entities whose state or usages a contribution changes. -/
def Contribution.touched (c : Contribution) : List EntityId :=
  c.states.map Prod.fst ++ c.sightings.map fun x => x.owner.id

section Comm

variable {s₁ s₁₂ s₂ s₂₁ : Session σ} {k₁ k₂ : EventKind} {c₁ c₂ : Contribution}

theorem Takes.symbols (h : Takes s s' k₁ c₁) : s'.symbols =
    { entries := s.symbols.entries.putAll c₁.entries, states := s.symbols.states.putAll c₁.states } := by
  rw [← h.entries, ← h.states]

theorem Takes.contains (h : Takes s s' k₁ c₁) (id : EntityId) : s'.ledger.contains id = true ↔
    s.ledger.contains id = true ∨ id ∈ c₁.owners ∨ ∃ x ∈ c₁.sightings, x.owner.id = id := by
  rw [h.ledger, Ledger.contains_offer, Ledger.contains_openAll, or_assoc]

theorem Takes.usages (h : Takes s s' k₁ c₁) (id : EntityId) :
    s'.ledger.usages id = (s.ledger.offer c₁.sightings).usages id := by
  rw [h.ledger]
  exact Ledger.usages_offer_congr (Ledger.usages_openAll _ _ _) _

/-- Contributions to different entities leave each the same usages in either order. -/
theorem Takes.usages_comm (h₁ : Takes s s₁ k₁ c₁) (h₁₂ : Takes s₁ s₁₂ k₂ c₂) (h₂ : Takes s s₂ k₂ c₂)
    (h₂₁ : Takes s₂ s₂₁ k₁ c₁) (entities : ∀ id ∈ c₁.touched, id ∉ c₂.touched) (id : EntityId) :
    s₁₂.ledger.usages id = s₂₁.ledger.usages id := by
  have apart : ∀ x ∈ c₁.sightings, ∀ y ∈ c₂.sightings, x.owner.id ≠ y.owner.id := by
    intro x hx y hy same
    exact entities x.owner.id (List.mem_append_right _ (List.mem_map.mpr ⟨x, hx, rfl⟩))
      (List.mem_append_right _ (List.mem_map.mpr ⟨y, hy, same.symm⟩))
  rw [h₁₂.usages, h₂₁.usages, Ledger.usages_offer_congr (h₁.usages id),
    Ledger.usages_offer_congr (h₂.usages id)]
  exact Ledger.usages_offer_comm apart s.ledger id

/-- The counters end the same in either order, if as many usages are kept. -/
theorem Takes.stats_comm (h₁ : Takes s s₁ k₁ c₁) (h₁₂ : Takes s₁ s₁₂ k₂ c₂) (h₂ : Takes s s₂ k₂ c₂)
    (h₂₁ : Takes s₂ s₂₁ k₁ c₁) (total : s₁₂.ledger.total = s₂₁.ledger.total) : s₁₂.stats = s₂₁.stats := by
  obtain ⟨first, stats₁, settled₁⟩ := h₁.stats
  obtain ⟨second, stats₁₂, settled₁₂⟩ := h₁₂.stats
  obtain ⟨second', stats₂, settled₂⟩ := h₂.stats
  obtain ⟨first', stats₂₁, settled₂₁⟩ := h₂₁.stats
  -- which of the two repeats a usage may depend on their order, but not how often
  have repeats : first + second = second' + first' := by omega
  have counts : c₁.counts k₁ first + c₂.counts k₂ second =
      c₂.counts k₂ second' + c₁.counts k₁ first' := by
    simp only [IngestStats.add_def, IngestStats.add, Contribution.counts, IngestStats.mk.injEq, repeats,
      and_true]
    simp only [Nat.add_comm, and_self]
  rw [stats₁₂, stats₁, stats₂₁, stats₂, IngestStats.add_assoc, IngestStats.add_assoc, counts]

/-- **Contributions under different names and to different entities can be added in either order.** -/
theorem Takes.comm (h₁ : Takes s s₁ k₁ c₁) (h₁₂ : Takes s₁ s₁₂ k₂ c₂) (h₂ : Takes s s₂ k₂ c₂)
    (h₂₁ : Takes s₂ s₂₁ k₁ c₁)
    (names : ∀ name ∈ c₁.entries.map Prod.fst, name ∉ c₂.entries.map Prod.fst)
    (entities : ∀ id ∈ c₁.touched, id ∉ c₂.touched) : SameButOrder s₁₂ s₂₁ := by
  have states : ∀ id ∈ c₁.states.map Prod.fst, id ∉ c₂.states.map Prod.fst := fun id h h' =>
    entities id (List.mem_append_left _ h) (List.mem_append_left _ h')
  have contains : ∀ id, s₁₂.ledger.contains id = s₂₁.ledger.contains id := by
    intro id
    rw [Bool.eq_iff_iff, h₁₂.contains, h₁.contains, h₂₁.contains, h₂.contains]
    exact or_right_comm
  have usages := h₁.usages_comm h₁₂ h₂ h₂₁ entities
  have total : s₁₂.ledger.total = s₂₁.ledger.total := by
    rw [← Ledger.length_nodes, ← Ledger.length_nodes]
    exact (Ledger.perm_nodes contains usages).length_eq
  constructor
  case options => rw [h₁₂.options, h₁.options, h₂₁.options, h₂.options]
  case store => rw [h₁₂.store, h₁.store, h₂₁.store, h₂.store]
  case names =>
    rw [h₁₂.entries, h₁.entries, h₂₁.entries, h₂.entries]
    exact Dictionary.find?_putAll_comm names
  case states =>
    rw [h₁₂.states, h₁.states, h₂₁.states, h₂.states]
    exact Dictionary.find?_putAll_comm states
  case sources =>
    rw [h₁₂.sources, h₁.sources, h₂₁.sources, h₂.sources]
    exact SourceTable.registerAll_comm _ _ _
  case owners => exact contains
  case usages => exact usages
  case graph =>
    rw [h₁₂.graph, h₁.graph, h₂₁.graph, h₂.graph]
    exact Graph.append_right_comm _ _ _
  case stats => exact h₁.stats_comm h₁₂ h₂ h₂₁ total

end Comm

/-! ## What a contribution touches -/

section Touched

variable [Recorder σ] {c : Contribution} {ids : List Identity}

/-- A name is registered by an event that declares it. -/
theorem Contributes.registered (h : Contributes s e c) {name : String}
    (hname : name ∈ c.entries.map Prod.fst) : e.kind.declares = true ∧ ownName? e = some name := by
  cases h with
  | declared hd ok =>
    rw [List.mem_singleton.mp hname]
    exact ⟨declares_of_declared? hd, ownName?_declared hd⟩
  | completed hc ok => cases hname
  | refused => cases hname

/-- Only the node of a declared entity is added. -/
theorem Contributes.nodes (h : Contributes s e c) {n : Node} (hn : n ∈ c.added.nodes) :
    ∃ d, declared? e = some d ∧ n = d.declaration.node := by
  cases h with
  | @declared _ d t hd ok =>
    have hn : n ∈ ({ nodes := declaredNodes s d.declaration } ++ d.buffered s.options t : Graph).nodes := hn
    rw [Graph.nodes_append, Declared.nodes_buffered, List.append_nil] at hn
    unfold declaredNodes at hn
    split at hn
    · cases hn
    · exact ⟨d, hd, List.mem_singleton.mp hn⟩
  | completed hc ok => cases hn
  | refused => cases hn

/-- An entity of a kind with a name that is one of some names, and the identifier that it has. -/
def NamedIn (names : List String) (ids : List Identity) (id : EntityId) : Prop :=
  ∃ kind name, name ∈ names ∧ id = entityId kind name ∧ .entity kind name ∈ ids

/-- Identifiers without collisions tell entities with different names apart. -/
theorem NamedIn.ne (apart : Apart .entity ids) {names others : List String} {id other : EntityId}
    (h : NamedIn names ids id) (h' : NamedIn others ids other) (disjoint : ∀ name ∈ names, name ∉ others) :
    id ≠ other := by
  obtain ⟨kind, name, hname, rfl, named⟩ := h
  obtain ⟨kind', name', hname', rfl, named'⟩ := h'
  intro same
  obtain ⟨_, rfl⟩ := apart.entity_eq named named' same
  exact disjoint name hname hname'

/-- A declaration touches its own entity. -/
theorem Contributes.touched_own (h : Contributes s e c) (declares : e.kind.declares = true)
    (hp : ∀ i ∈ identities e, i ∈ ids) {id : EntityId} (hid : id ∈ c.touched) :
    NamedIn (ownName? e).toList ids id := by
  cases h with
  | @declared _ d t hd ok =>
    have own : NamedIn (ownName? e).toList ids d.declaration.entity.id := by
      rw [ownName?_declared hd]
      exact ⟨d.declaration.kind, _, List.mem_singleton.mpr rfl, rfl,
        hp _ (mem_identities_declared hd (List.mem_cons_of_mem _ List.mem_cons_self))⟩
    rcases List.mem_append.mp hid with state | used
    · have state : id ∈ (if d.declaration.kind = .classType then
          [(d.declaration.entity.id, ClassState.preprocessed)] else []).map Prod.fst := state
      split at state
      · rw [List.mem_singleton.mp state]
        exact own
      · cases state
    · obtain ⟨x, hx, rfl⟩ := List.mem_map.mp used
      have hx : x ∈ reported t e := hx
      rw [reported_declared hd ok] at hx
      rw [(mem_sightings.mp hx).1]
      exact own
  | completed hc ok => cases declares
  | refused => cases hid

/-- Whatever an event about an entity touches, its record names. -/
theorem Contributes.touched_mentioned (h : Contributes s e c) (within : Within (· ∈ ids) s)
    (hp : ∀ i ∈ identities e, i ∈ ids) {id : EntityId} (hid : id ∈ c.touched) :
    NamedIn (mentions e) ids id := by
  cases h with
  | declared hd ok =>
    obtain ⟨kind, name, hname, same⟩ :=
      (Contributes.declared hd ok).touched_own (declares_of_declared? hd) hp hid
    exact ⟨kind, name, List.mem_append_left _ hname, same⟩
  | @completed r c owner t hc ok =>
    obtain ⟨own, references⟩ := names_completed hc
    have known : ∀ name h, name ∈ mentions (.classResolved r) → s.symbols.lookup name = some h →
        NamedIn (mentions (.classResolved r)) ids h.id := by
      intro name h hname found
      obtain ⟨id, named⟩ := within.names name h found
      exact ⟨h.kind, name, hname, id, named⟩
    obtain ⟨found, _, _⟩ := SymbolTable.resolveClass_eq_ok.mp ok
    have isOwner : NamedIn (mentions (.classResolved r)) ids owner.id :=
      known _ _ (mem_mentions_of_ownName? own) (SymbolTable.lookupKind_eq_some_iff.mp found).1
    rcases List.mem_append.mp hid with state | used
    · rw [List.mem_singleton.mp state]
      exact isOwner
    · obtain ⟨x, hx, rfl⟩ := List.mem_map.mp used
      have hx : x ∈ reported t (.classResolved r) := hx
      rw [reported_classResolved hc (SymbolTable.lookupClass_of_resolveClass ok)] at hx
      rcases List.mem_append.mp hx with own | member
      · rw [(mem_sightings.mp own).1]
        exact isOwner
      · obtain ⟨group, hgroup, member⟩ := List.mem_flatMap.mp member
        obtain ⟨m, hm, sighted⟩ := List.mem_flatMap.mp member
        obtain ⟨found, _, name, _⟩ := mem_sightingsOf.mp sighted
        rw [SymbolTable.lookup_congr (SymbolTable.entries_of_resolveClass ok)] at found
        refine known x.name x.owner (List.mem_append_right _ ?_) found
        rw [references, name]
        exact List.mem_append_right _
          (List.mem_flatMap.mpr ⟨group, hgroup, List.mem_map.mpr ⟨m, hm, rfl⟩⟩)
  | refused => cases hid

end Touched

/-! ## Events that leave each other's view alone -/

section View

variable {k : EventKind} {c : Contribution}

theorem Takes.lookup (h : Takes s s' k c) {name : String} (other : name ∉ c.entries.map Prod.fst) :
    s'.symbols.lookup name = s.symbols.lookup name := by
  unfold SymbolTable.lookup
  rw [h.entries, Dictionary.find?_putAll_of_not_mem other]

/-- What an event has to do with no name, class or node that is added, looks the same to it afterwards. -/
theorem sameView_of_takes (h : Takes s s' k c)
    (names : ∀ name ∈ mentions e, name ∉ c.entries.map Prod.fst)
    (states : ∀ name h, e.kind = .classResolved → ownName? e = some name →
      s.symbols.lookupClass name = some h → h.id ∉ c.states.map Prod.fst)
    (nodes : ∀ d, declared? e = some d → ∀ n ∈ c.added.nodes, d.declaration.node.id ≠ n.id) :
    SameView e s s' where
  options := h.options
  names name hname := h.lookup (names name hname)
  state name handle completes own found := by
    rw [h.states]
    exact Dictionary.find?_putAll_of_not_mem (states name handle completes own found)
  node d hd := by
    have other : d.declaration.node.id ∉ c.added.nodes.map Node.id := by
      intro there
      obtain ⟨n, hn, same⟩ := List.mem_map.mp there
      exact nodes d hd n hn same.symm
    rw [Bool.eq_iff_iff, Graph.hasNode_iff, Graph.hasNode_iff, h.graph, Graph.nodes_append, List.map_append,
      List.mem_append]
    exact or_iff_left other

end View

/-- An event that declares a name and another one about an entity have nothing to do with each other: the
second does not mention the name, and if it declares one itself, the first does not refer to that. -/
structure Independent (e₁ e₂ : Event) : Prop where
  declares : e₁.kind.declares = true
  ofEntity : e₂.kind.isOfEntity = true
  unmentioned : ∀ name, ownName? e₁ = some name → name ∉ mentions e₂
  unreferenced : ∀ name, e₂.kind.declares = true → ownName? e₂ = some name → name ∉ references e₁

section Commute

variable [Recorder σ] {e₁ e₂ : Event} {c₁ c₂ : Contribution} {ids : List Identity}

namespace Independent

/-- The first event registers nothing that the second mentions. -/
theorem unregistered (independent : Independent e₁ e₂) (h₁ : Contributes s e₁ c₁) :
    ∀ name ∈ mentions e₂, name ∉ c₁.entries.map Prod.fst :=
  fun name mentioned there => independent.unmentioned name (h₁.registered there).2 mentioned

/-- The second event registers nothing that the first mentions. -/
theorem unregistered' (independent : Independent e₁ e₂) (h₂ : Contributes s e₂ c₂) :
    ∀ name ∈ mentions e₁, name ∉ c₂.entries.map Prod.fst := by
  intro name mentioned there
  obtain ⟨declares, own⟩ := h₂.registered there
  rcases List.mem_append.mp mentioned with itself | referred
  · exact independent.unmentioned name (Option.mem_toList.mp itself) (mem_mentions_of_ownName? own)
  · exact independent.unreferenced name declares own referred

/-- The nodes of independent declarations differ in their names. -/
theorem nodes (independent : Independent e₁ e₂) (apart : Apart .node ids)
    (hp₁ : ∀ i ∈ identities e₁, i ∈ ids) (hp₂ : ∀ i ∈ identities e₂, i ∈ ids) {d₁ d₂ : Declared}
    (hd₁ : declared? e₁ = some d₁) (hd₂ : declared? e₂ = some d₂) :
    d₁.declaration.node.id ≠ d₂.declaration.node.id := by
  intro same
  have id : ∀ d : Declaration, d.node.id = ⟨d.node.identity.hash⟩ := fun d =>
    (id_of_eq_make (n := d.node) rfl).1
  have named : ∀ d : Declaration, d.node.identity ∈ d.identities := fun d => by simp [Declaration.identities]
  rw [id, id] at same
  obtain ⟨names, _⟩ := Identity.node.inj
    (apart _ (hp₁ _ (mem_identities_declared hd₁ (named _))) _ (hp₂ _ (mem_identities_declared hd₂ (named _)))
      rfl rfl (congrArg Id.val same))
  have names : d₁.declaration.qualifiedName = d₂.declaration.qualifiedName := names
  refine independent.unmentioned _ (ownName?_declared hd₁) ?_
  rw [names]
  exact mem_mentions_of_ownName? (ownName?_declared hd₂)

/-- The entity that the first event declares is none that the second mentions. -/
theorem entity_ne (independent : Independent e₁ e₂) (apart : Apart .entity ids)
    (hp₁ : ∀ i ∈ identities e₁, i ∈ ids) (h₁ : Contributes s e₁ c₁) {id other : EntityId}
    (hid : id ∈ c₁.touched) (mentioned : NamedIn (mentions e₂) ids other) : id ≠ other :=
  (h₁.touched_own independent.declares hp₁ hid).ne apart mentioned
    fun name own => independent.unmentioned name (Option.mem_toList.mp own)

/-- The second event meets the same after the first. -/
theorem view_second (independent : Independent e₁ e₂) (within : Within (· ∈ ids) s)
    (entities : Apart .entity ids) (nodes : Apart .node ids) (hp₁ : ∀ i ∈ identities e₁, i ∈ ids)
    (hp₂ : ∀ i ∈ identities e₂, i ∈ ids) (h₁ : Contributes s e₁ c₁) : SameView e₂ s (s.ingest e₁) := by
  refine sameView_of_takes h₁.takes (independent.unregistered h₁) ?_ ?_
  · intro name h _ own found there
    obtain ⟨id, named⟩ := within.names name h (SymbolTable.lookupKind_eq_some_iff.mp found).1
    have mentioned : NamedIn (mentions e₂) ids h.id := ⟨h.kind, name, mem_mentions_of_ownName? own, id, named⟩
    exact independent.entity_ne entities hp₁ h₁ (List.mem_append_left _ there) mentioned rfl
  · intro d₂ hd₂ n hn
    obtain ⟨d₁, hd₁, rfl⟩ := h₁.nodes hn
    exact (independent.nodes nodes hp₁ hp₂ hd₁ hd₂).symm

/-- The first event meets the same after the second. -/
theorem view_first (independent : Independent e₁ e₂) (nodes : Apart .node ids)
    (hp₁ : ∀ i ∈ identities e₁, i ∈ ids) (hp₂ : ∀ i ∈ identities e₂, i ∈ ids) (h₂ : Contributes s e₂ c₂) :
    SameView e₁ s (s.ingest e₂) := by
  refine sameView_of_takes h₂.takes (independent.unregistered' h₂) ?_ ?_
  · intro _ _ completes
    have declares := independent.declares
    rw [completes] at declares
    cases declares
  · intro d₁ hd₁ n hn
    obtain ⟨d₂, hd₂, rfl⟩ := h₂.nodes hn
    exact independent.nodes nodes hp₁ hp₂ hd₁ hd₂

/-- **Independent events commute** on a session whose entities and nodes, with those of the events, have
identifiers without collisions. -/
theorem ingest_comm (independent : Independent e₁ e₂) (within : Within (· ∈ ids) s)
    (entities : Apart .entity ids) (nodes : Apart .node ids) (hp₁ : ∀ i ∈ identities e₁, i ∈ ids)
    (hp₂ : ∀ i ∈ identities e₂, i ∈ ids) :
    SameButOrder ((s.ingest e₁).ingest e₂) ((s.ingest e₂).ingest e₁) := by
  obtain ⟨c₁, h₁⟩ := Contributes.exists s (EventKind.isOfEntity_of_declares independent.declares)
  obtain ⟨c₂, h₂⟩ := Contributes.exists s independent.ofEntity
  have second := h₂.congr (independent.view_second within entities nodes hp₁ hp₂ h₁)
  have first := h₁.congr (independent.view_first nodes hp₁ hp₂ h₂)
  refine h₁.takes.comm second.takes h₂.takes first.takes ?_ ?_
  · intro name there there'
    exact independent.unregistered h₁ name (mem_mentions_of_ownName? (h₂.registered there').2) there
  · intro id hid there
    exact independent.entity_ne entities hp₁ h₁ hid (h₂.touched_mentioned within hp₂ there) rfl

end Independent

/-! ## Files -/

/-- What a file event does to a session is up to the store: the file is committed and announced, or the
event is dropped. -/
theorem ingest_file (store : σ) (r : FileReport) : ∃ (store' : σ) (place : SourceTable → SourceTable)
    (skipped : Nat), (place = id ∨ ∃ path status id, place = fun t => (t.setStatus path status).announce id) ∧
      ∀ s : Session σ, s.store = store → ∃ log, s.ingest (.file r) = { s with
        store := store'
        sources := place s.sources
        stats := s.stats + { files := 1, skippedRecords := skipped }
        log } := by
  have dropped : ∀ s : Session σ, s.store = store → s.refuses (.file r) = true →
      ∃ log, s.ingest (.file r) = { s with
        store := store
        sources := id s.sources
        stats := s.stats + { files := 1, skippedRecords := 1 }
        log } := by
    rintro s rfl refused
    obtain ⟨told, ingested⟩ := ingest_refused refused
    exact ⟨_, ingested⟩
  cases announced : announced? (.file r) with
  | none =>
    refine ⟨store, id, 1, Or.inl rfl, fun s same => dropped s same (Bool.of_not_eq_false fun taken => ?_)⟩
    obtain ⟨f, complete⟩ := announced?_of_taken taken
    cases announced.symm.trans complete
  | some f =>
    cases committed : Recorder.persistFile store f {} with
    | error err =>
      refine ⟨store, id, 1, Or.inl rfl, fun s same => dropped s same ?_⟩
      rcases ingest_announced (s := s) announced with ⟨_, _, refused⟩ | ⟨_, ok, _⟩
      · exact refused
      · rw [same] at ok
        cases committed.symm.trans ok
    | ok store' =>
      refine ⟨store', fun t => (t.setStatus f.path f.status).announce f.id, 0,
        Or.inr ⟨_, _, _, rfl⟩, fun s same => ?_⟩
      rcases ingest_announced (s := s) announced with ⟨_, failed, _⟩ | ⟨_, ok, _, log, ingested⟩
      · rw [same] at failed
        cases committed.symm.trans failed
      · rw [same] at ok
        cases committed.symm.trans ok
        exact ⟨log, ingested⟩

/-- **A file event and an event about an entity can change places**, in any session. -/
theorem SameSession.of_file (s : Session σ) (r : FileReport) (ofEntity : e.kind.isOfEntity = true) :
    SameSession ((s.ingest (.file r)).ingest e) ((s.ingest e).ingest (.file r)) := by
  obtain ⟨store, place, skipped, placed, file⟩ := ingest_file s.store r
  obtain ⟨c, contributes⟩ := Contributes.exists s ofEntity
  have alone := contributes.takes
  obtain ⟨_, first⟩ := file s rfl
  obtain ⟨_, last⟩ := file (s.ingest e) alone.store
  have view : SameView e s (s.ingest (.file r)) := by
    rw [first]
    exact ⟨rfl, fun _ _ => rfl, fun _ _ _ _ _ => rfl, fun _ _ => rfl⟩
  have after := (contributes.congr view).takes
  rw [first] at after ⊢
  rw [last]
  have ledger := after.ledger.trans alone.ledger.symm
  constructor
  case options => exact after.options.trans alone.options.symm
  case store => exact after.store
  case symbols => exact after.symbols.trans alone.symbols.symm
  case sources =>
    rw [after.sources, alone.sources]
    rcases placed with rfl | ⟨path, status, id, rfl⟩
    · exact .refl _
    · exact SourceTable.announce_registerAll_comm s.sources path status id c.paths
  case ledger => exact ledger
  case graph => exact after.graph.trans alone.graph.symm
  case stats =>
    obtain ⟨repeats, counted, settled⟩ := after.stats
    obtain ⟨repeats', counted', settled'⟩ := alone.stats
    have again : repeats = repeats' := by
      rw [ledger] at settled
      exact Nat.add_left_cancel (settled.trans settled'.symm)
    rw [counted, counted', again]
    exact IngestStats.add_right_comm _ _ _

/-! ## Events of a run -/

/-- **Independent events commute.** After any run, an event that declares a name and another one about an
entity, neither of which has to do with what the other declares, leave the same session in either order, as
long as identifiers tell the entities and the nodes of all events apart; only buffers may be in another
order. A file event and an event about an entity leave the same session in either order whatever their
identifiers. Events that are refused make no exception. -/
theorem independent_events_commute (store : σ) (options : Options) (events : List Event) (e₁ e₂ : Event) :
    let s := (begin store options).run events
    let ids := (events ++ [e₁, e₂]).flatMap identities
    (Independent e₁ e₂ → Apart .entity ids → Apart .node ids →
      SameButOrder ((s.ingest e₁).ingest e₂) ((s.ingest e₂).ingest e₁)) ∧
    (e₁.kind = .file → e₂.kind.isOfEntity = true →
      SameSession ((s.ingest e₁).ingest e₂) ((s.ingest e₂).ingest e₁)) := by
  intro s ids
  constructor
  · intro independent entities nodes
    have named : ∀ e ∈ events ++ [e₁, e₂], ∀ i ∈ identities e, i ∈ ids := fun e he i hi =>
      List.mem_flatMap.mpr ⟨e, he, hi⟩
    have within : Within (· ∈ ids) s := (Within.begin store options).run fun i hi => by
      obtain ⟨e, he, hi⟩ := List.mem_flatMap.mp hi
      exact named e (List.mem_append_left _ he) i hi
    exact independent.ingest_comm within entities nodes (named e₁ (by simp)) (named e₂ (by simp))
  · intro file ofEntity
    cases e₁ with
    | file r => exact .of_file s r ofEntity
    | _ => cases file

end Commute

/-- A function and a variable that refer to one class: their nodes come in another order. The file in which
the variable stands can be announced before it or after it. -/
theorem declarations_and_file_change_places :
    let place (line : UInt32) : Option Place :=
      some ⟨some "/a.py", some ⟨some ⟨line, 0⟩, some ⟨line, 3⟩⟩⟩
    let events : List Event := [.classPreprocessed ⟨some "c", some "c", place 1, none⟩]
    let function : Event :=
      .function ⟨some "f", some "f", place 2, none, some ["c"], some [], some "", ["x"], []⟩
    let «variable» : Event := .variable ⟨some "y", some "y", place 3, none, some ["c"], some []⟩
    let file : Event := .file ⟨some "/a.py", some 2⟩
    let ids := (events ++ [function, «variable»]).flatMap identities
    let s := (begin Store.empty {}).run events
    let first := (s.ingest function).ingest «variable»
    let last := (s.ingest «variable»).ingest function
    Independent function «variable» ∧ Apart .entity ids ∧ Apart .node ids ∧ SameButOrder first last ∧
      first.stats.skippedRecords = 0 ∧ first.graph.nodes.Perm last.graph.nodes ∧
      first.graph.nodes ≠ last.graph.nodes ∧
      file.kind = .file ∧ «variable».kind.isOfEntity = true ∧
      SameSession ((s.ingest file).ingest «variable») ((s.ingest «variable»).ingest file) ∧
      ((s.ingest file).ingest «variable»).sources.announced = [fileId "/a.py"] := by
  intro place events function «variable» file ids s first last
  have independent : Independent function «variable» := by
    refine ⟨rfl, rfl, ?_, ?_⟩
    · rintro _ ⟨⟩
      decide
    · rintro _ _ ⟨⟩
      decide
  have entities : Apart .entity ids := by decide +kernel
  have nodes : Apart .node ids := by decide +kernel
  obtain ⟨commute, -⟩ := independent_events_commute Store.empty {} events function «variable»
  obtain ⟨-, same⟩ := independent_events_commute Store.empty {} events file «variable»
  have run : first.stats.skippedRecords = 0 ∧ first.graph.nodes ≠ last.graph.nodes ∧
      ((s.ingest file).ingest «variable»).sources.announced = [fileId "/a.py"] := by decide +kernel
  have kept : SameButOrder first last := commute independent entities nodes
  have placed : SameSession ((s.ingest file).ingest «variable») ((s.ingest «variable»).ingest file) :=
    same rfl rfl
  -- nothing below runs the session again
  clear_value s
  obtain ⟨taken, differ, announced⟩ := run
  exact ⟨independent, entities, nodes, kept, taken, kept.graph.nodes, differ, rfl, rfl, placed, announced⟩

end Session

end SymbolIndex
