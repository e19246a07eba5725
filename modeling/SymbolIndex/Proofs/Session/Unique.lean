import SymbolIndex.Proofs.Session.Within

/-!
# `Proofs.Session.Unique` — nothing is buffered twice

The tables of a store have keys, and the buffers of a session do not. That a session buffers no key twice
comes from what it checks before: a name is registered once and has its types and its entity buffered
with it, a class is completed once and has its bases and its documentation buffered with that, and a
declaration node is added only if its identifier is not there. Class members are the exception; a class
may list a member again.

As identifiers stand for names here, they have to be distinct for distinct names. `Apart` says so of the
events of a run, and it is needed where an entity is declared: its identifier is new because its name is.

## Contents
- `Registered`, `Resolved`.
- `Unique`, the invariant, and `Adds`: what may be appended to the buffers.
- `Unique.invariant`, `Unique.run`.
-/

namespace SymbolIndex

/-- What the table of documentation has as its key. -/
def Documentation.key (d : Documentation) : EntityId × DocumentationKind :=
  (d.documented, d.kind)

namespace Session

variable {σ : Type} {s s' : Session σ} {g : Graph} {id : EntityId} {p : Identity → Prop}

/-- Some name leads to the identifier. -/
def Registered (s : Session σ) (id : EntityId) : Prop :=
  ∃ name h, s.symbols.lookup name = some h ∧ h.id = id

/-- The identifier is that of a class that has been completed. -/
def Resolved (s : Session σ) (id : EntityId) : Prop :=
  s.Registered id ∧ s.symbols.states.find? id = some .resolved

/-- No key is buffered twice, and whatever has an entity in its key belongs to one that is registered, or
to a class that has been completed. -/
structure Unique (s : Session σ) : Prop where
  nodes : (s.graph.nodes.map Node.id).Nodup
  names : ∀ kind, ((s.graph.entities kind).map Entity.qualifiedName).Nodup
  entities : ∀ kind, ∀ e ∈ s.graph.entities kind,
    e.kind = kind ∧ s.symbols.lookup e.qualifiedName = some e.handle
  types : s.graph.types.Nodup
  typed : ∀ t ∈ s.graph.types, s.Registered t.symbol
  inheritance : s.graph.inheritance.Nodup
  derived : ∀ e ∈ s.graph.inheritance, s.Resolved e.derived
  documentation : (s.graph.documentation.map Documentation.key).Nodup
  documented : ∀ d ∈ s.graph.documentation, s.Registered d.documented ∧
    (d.kind = .classType → s.Resolved d.documented)

/-- `s'` has a graph appended to its buffers that shares no key with what `s` has, and no name or
completed class of `s` is lost. -/
structure Adds (s s' : Session σ) (g : Graph) : Prop where
  graph : s'.graph = s.graph ++ g
  lookups : ∀ name h, s.symbols.lookup name = some h → s'.symbols.lookup name = some h
  states : ∀ id, s.Resolved id → s'.symbols.states.find? id = some .resolved
  nodes : (g.nodes.map Node.id).Nodup
  newNodes : ∀ n ∈ g.nodes, n.id ∉ s.graph.nodes.map Node.id
  names : ∀ kind, ((g.entities kind).map Entity.qualifiedName).Nodup
  newEntities : ∀ kind, ∀ e ∈ g.entities kind, s.symbols.lookup e.qualifiedName = none ∧
    e.kind = kind ∧ s'.symbols.lookup e.qualifiedName = some e.handle
  types : g.types.Nodup
  newTypes : ∀ t ∈ g.types, ¬ s.Registered t.symbol ∧ s'.Registered t.symbol
  inheritance : g.inheritance.Nodup
  newInheritance : ∀ e ∈ g.inheritance, ¬ s.Resolved e.derived ∧ s'.Resolved e.derived
  documentation : (g.documentation.map Documentation.key).Nodup
  newDocumentation : ∀ d ∈ g.documentation,
    (d.kind = .function → ¬ s.Registered d.documented ∧ s'.Registered d.documented) ∧
      (d.kind = .classType → ¬ s.Resolved d.documented ∧ s'.Resolved d.documented)

namespace Unique

theorem begin (store : σ) (options : Options) : Unique (begin store options) where
  nodes := List.nodup_nil
  names kind := by cases kind <;> exact List.nodup_nil
  entities kind _ he := by cases kind <;> exact nomatch he
  types := List.nodup_nil
  typed _ ht := nomatch ht
  inheritance := List.nodup_nil
  derived _ he := nomatch he
  documentation := List.nodup_nil
  documented _ hd := nomatch hd

/-- **Appending new keys keeps all keys unique.** -/
theorem adds (h : Unique s) (more : Adds s s' g) : Unique s' := by
  have registered : ∀ id, s.Registered id → s'.Registered id :=
    fun id ⟨name, h', found, same⟩ => ⟨name, h', more.lookups name h' found, same⟩
  have resolved : ∀ id, s.Resolved id → s'.Resolved id :=
    fun id known => ⟨registered id known.1, more.states id known⟩
  constructor
  case nodes =>
    rw [more.graph, Graph.nodes_append]
    refine nodup_keys_append h.nodes more.nodes ?_
    intro n hn old hold same
    exact more.newNodes n hn (List.mem_map.mpr ⟨old, hold, same⟩)
  case names =>
    intro kind
    rw [more.graph, Graph.entities_append]
    refine nodup_keys_append (h.names kind) (more.names kind) ?_
    intro new hnew old hold same
    have known := (h.entities kind old hold).2
    rw [same, (more.newEntities kind new hnew).1] at known
    cases known
  case entities =>
    intro kind e he
    rw [more.graph, Graph.entities_append, List.mem_append] at he
    rcases he with old | new
    · exact (h.entities kind e old).imp id (more.lookups _ _)
    · exact (more.newEntities kind e new).2
  case types =>
    rw [more.graph, Graph.types_append, List.nodup_append]
    refine ⟨h.types, more.types, ?_⟩
    rintro a ha b hb rfl
    exact (more.newTypes a hb).1 (h.typed a ha)
  case typed =>
    intro t ht
    rw [more.graph, Graph.types_append, List.mem_append] at ht
    exact ht.elim (fun old => registered _ (h.typed t old)) fun new => (more.newTypes t new).2
  case inheritance =>
    rw [more.graph, Graph.inheritance_append, List.nodup_append]
    refine ⟨h.inheritance, more.inheritance, ?_⟩
    rintro a ha b hb rfl
    exact (more.newInheritance a hb).1 (h.derived a ha)
  case derived =>
    intro e he
    rw [more.graph, Graph.inheritance_append, List.mem_append] at he
    exact he.elim (fun old => resolved _ (h.derived e old)) fun new => (more.newInheritance e new).2
  case documentation =>
    rw [more.graph, Graph.documentation_append]
    refine nodup_keys_append h.documentation more.documentation ?_
    intro new hnew old hold same
    obtain ⟨sameId, sameKind⟩ := Prod.mk.inj same
    -- a function is new with its documentation, a class is new as a completed one
    obtain ⟨known, completed⟩ := h.documented old hold
    obtain ⟨function, classType⟩ := more.newDocumentation new hnew
    cases kind : new.kind with
    | function => exact (function kind).1 (sameId ▸ known)
    | classType => exact (classType kind).1 (sameId ▸ completed (sameKind.trans kind))
  case documented =>
    intro d hd
    rw [more.graph, Graph.documentation_append, List.mem_append] at hd
    rcases hd with old | new
    · obtain ⟨known, completed⟩ := h.documented d old
      exact ⟨registered _ known, fun kind => resolved _ (completed kind)⟩
    · obtain ⟨function, classType⟩ := more.newDocumentation d new
      cases kind : d.kind with
      | function => exact ⟨(function kind).2, nofun⟩
      | classType => exact ⟨(classType kind).2.1, fun _ => (classType kind).2⟩

end Unique

/-! ## What the steps of a session append -/

namespace Adds

/-- Nothing is appended. -/
theorem empty (graph : s'.graph = s.graph ++ {})
    (lookups : ∀ name h, s.symbols.lookup name = some h → s'.symbols.lookup name = some h)
    (states : ∀ id, s.Resolved id → s'.symbols.states.find? id = some .resolved) : Adds s s' {} where
  graph := graph
  lookups := lookups
  states := states
  nodes := List.nodup_nil
  newNodes _ hn := nomatch hn
  names kind := by cases kind <;> exact List.nodup_nil
  newEntities kind _ he := by cases kind <;> exact nomatch he
  types := List.nodup_nil
  newTypes _ ht := nomatch ht
  inheritance := List.nodup_nil
  newInheritance _ he := nomatch he
  documentation := List.nodup_nil
  newDocumentation _ hd := nomatch hd

theorem quiet (done : Effect s s' [] [] {}) : Adds s s' {} :=
  .empty done.graph (fun _ _ found => done.symbols ▸ found) fun _ known => done.symbols ▸ known.2

/-- An import appends a node that is not there. -/
theorem imported {n : Node} {i : Import} {paths : List String} {xs : List Sighting}
    (done : Effect s s' paths xs { nodes := [n], imports := [i] })
    (free : s.graph.hasNode n.id = false) : Adds s s' { nodes := [n], imports := [i] } where
  graph := done.graph
  lookups _ _ found := done.symbols ▸ found
  states _ known := done.symbols ▸ known.2
  nodes := List.nodup_singleton _
  newNodes m hm known := by
    rw [List.mem_singleton.mp hm, ← Graph.hasNode_iff, free] at known
    cases known
  names kind := by cases kind <;> exact List.nodup_nil
  newEntities kind _ he := by cases kind <;> exact nomatch he
  types := List.nodup_nil
  newTypes _ ht := nomatch ht
  inheritance := List.nodup_nil
  newInheritance _ he := nomatch he
  documentation := List.nodup_nil
  newDocumentation _ hd := nomatch hd

end Adds

theorem nodup_documented (options : Options) (id : EntityId) (kind : DocumentationKind)
    (text : String) : ((documented options id kind text).map Documentation.key).Nodup := by
  unfold documented
  split
  · exact List.nodup_nil
  · exact List.nodup_singleton _

/-- What a declaration adds to the nodes: its node, unless it is there. -/
def declaredNodes (s : Session σ) (d : Declaration) : List Node :=
  if s.graph.hasNode d.node.id then [] else [d.node]

theorem nodup_declaredNodes (s : Session σ) (d : Declaration) :
    ((declaredNodes s d).map Node.id).Nodup := by
  unfold declaredNodes
  split
  · exact List.nodup_nil
  · exact List.nodup_singleton _

theorem not_mem_of_declaredNodes {d : Declaration} {n : Node} (hn : n ∈ declaredNodes s d) :
    n.id ∉ s.graph.nodes.map Node.id := by
  unfold declaredNodes at hn
  split at hn
  · cases hn
  · rename_i free
    rw [List.mem_singleton.mp hn, ← Graph.hasNode_iff]
    exact free

/-- The buffers after a declaration: its node, then what is buffered with it. -/
theorem graph_declared {d : Declared} {t : SymbolTable} {paths : List String} {xs : List Sighting}
    (done : Effect (s.enter d.declaration t) s' paths xs g) :
    s'.graph = s.graph ++ ({ nodes := declaredNodes s d.declaration } ++ g) := by
  rw [done.graph, ← Graph.append_assoc]
  exact congrArg (· ++ g) (Graph.addNode_fst s.graph d.declaration.node)

theorem entities_nodes (nodes : List Node) (kind : EntityKind) :
    ({ nodes } : Graph).entities kind = [] := by
  cases kind <;> rfl

/-- A declaration appends an entity whose identifier is new, with types and documentation of it. -/
theorem adds_declared {d : Declared} {t : SymbolTable} {paths : List String} {xs : List Sighting}
    (ok : s.symbols.register d.declaration.entity = .ok t)
    (done : Effect (s.enter d.declaration t) s' paths xs (d.buffered s.options t))
    (new : ¬ s.Registered d.declaration.entity.id) :
    ∃ g, Adds s s' g := by
  have symbols : s'.symbols = t := done.symbols
  -- the name was free, and it leads to the entity from here on
  have own : s'.Registered d.declaration.entity.id := by
    refine ⟨d.declaration.entity.qualifiedName, d.declaration.entity.handle, ?_, rfl⟩
    rw [symbols]
    exact SymbolTable.lookup_self_of_register ok
  refine ⟨{ nodes := declaredNodes s d.declaration } ++ d.buffered s.options t, ?_⟩
  constructor
  case graph => exact graph_declared done
  case lookups =>
    intro name h found
    rw [symbols]
    exact SymbolTable.lookup_register_of_lookup ok found
  case states =>
    intro id known
    rw [symbols, SymbolTable.states_of_register ok, if_neg]
    · exact known.2
    · exact fun same => new (same.2 ▸ known.1)
  case nodes =>
    rw [Graph.nodes_append, Declared.nodes_buffered, List.append_nil]
    exact nodup_declaredNodes s d.declaration
  case newNodes =>
    intro n hn
    rw [Graph.nodes_append, Declared.nodes_buffered, List.append_nil] at hn
    exact not_mem_of_declaredNodes hn
  case names =>
    intro kind
    rw [Graph.entities_append, entities_nodes, List.nil_append, Declared.entities_buffered]
    split
    · exact List.nodup_singleton _
    · exact List.nodup_nil
  case newEntities =>
    intro kind e he
    rw [Graph.entities_append, entities_nodes, List.nil_append, Declared.entities_buffered] at he
    split at he
    · rename_i isKind
      rw [List.mem_singleton.mp he, symbols]
      exact ⟨(SymbolTable.register_eq_ok.mp ok).2.1, isKind, SymbolTable.lookup_self_of_register ok⟩
    · cases he
  case types =>
    rw [Graph.types_append, Declared.types_buffered, List.nil_append]
    split
    · exact List.nodup_nil
    · exact nodup_typeEdges t _ d.types
  case newTypes =>
    intro a ha
    rw [Graph.types_append, Declared.types_buffered, List.nil_append] at ha
    split at ha
    · cases ha
    · rw [(mem_typeEdges ha).1]
      exact ⟨new, own⟩
  case inheritance =>
    rw [Graph.inheritance_append, Declared.inheritance_buffered]
    exact List.nodup_nil
  case newInheritance =>
    intro a ha
    rw [Graph.inheritance_append, Declared.inheritance_buffered] at ha
    cases ha
  case documentation =>
    rw [Graph.documentation_append, Declared.documentation_buffered, List.nil_append]
    split
    · exact nodup_documented _ _ _ _
    · exact List.nodup_nil
  case newDocumentation =>
    intro a ha
    rw [Graph.documentation_append, Declared.documentation_buffered, List.nil_append] at ha
    split at ha
    · obtain ⟨same, isFunction⟩ := mem_documented ha
      rw [same, isFunction]
      exact ⟨fun _ => ⟨new, own⟩, nofun⟩
    · cases ha

/-- The completion of a class appends bases and documentation of it, which it did not have before. -/
theorem adds_completed {c : Completed} {owner : Handle} {t : SymbolTable} {paths : List String}
    {xs : List Sighting} (ok : s.symbols.resolveClass c.name = .ok (owner, t))
    (done : Effect { s with symbols := t } s' paths xs (c.buffered s.options t owner.id)) :
    Adds s s' (c.buffered s.options t owner.id) := by
  have symbols : s'.symbols = t := done.symbols
  have names := SymbolTable.lookup_congr (SymbolTable.entries_of_resolveClass ok)
  obtain ⟨found, preprocessed, _⟩ := SymbolTable.resolveClass_eq_ok.mp ok
  have known := (SymbolTable.lookupKind_eq_some_iff.mp found).1
  -- a class is completed once: it is preprocessed before and resolved afterwards
  have before : ¬ s.Resolved owner.id := by
    intro completed
    have state := completed.2
    rw [preprocessed] at state
    cases state
  have after : s'.Resolved owner.id := by
    refine ⟨⟨c.name, owner, ?_, rfl⟩, ?_⟩
    · rw [symbols, names]
      exact known
    · rw [symbols, SymbolTable.states_of_resolveClass ok, if_pos rfl]
  constructor
  case graph => exact done.graph
  case lookups =>
    intro name h found
    rw [symbols, names]
    exact found
  case states =>
    intro id completed
    rw [symbols, SymbolTable.states_of_resolveClass ok]
    split
    · rfl
    · exact completed.2
  case nodes => exact List.nodup_nil
  case newNodes => intro n hn; cases hn
  case names => intro kind; cases kind <;> exact List.nodup_nil
  case newEntities => intro kind e he; cases kind <;> cases he
  case types => exact List.nodup_nil
  case newTypes => intro a ha; cases ha
  case inheritance => exact nodup_baseEdges t owner.id c.bases
  case newInheritance =>
    intro e he
    rw [(mem_baseEdges he).1]
    exact ⟨before, after⟩
  case documentation => exact nodup_documented _ _ _ _
  case newDocumentation =>
    intro d hd
    obtain ⟨same, isClass⟩ := mem_documented hd
    rw [same, isClass]
    refine ⟨fun isFunction => ?_, fun _ => ⟨before, after⟩⟩
    cases isFunction

/-! ## Runs -/

variable {ids : List Identity}

/-- The identifier of a free name is new, as long as identifiers are distinct. -/
theorem not_registered (within : Within (· ∈ ids) s) (apart : Apart .entity ids) {kind : EntityKind}
    {name : String} (named : .entity kind name ∈ ids) (free : s.symbols.lookup name = none) :
    ¬ s.Registered (entityId kind name) := by
  rintro ⟨other, h, found, same⟩
  obtain ⟨id, hp⟩ := within.names other h found
  rw [id] at same
  obtain ⟨_, rfl⟩ := apart.entity_eq hp named same
  rw [free] at found
  cases found

namespace Unique

variable [Recorder σ] {e : Event}

theorem accepted (h : Unique s) (within : Within (· ∈ ids) s) (apart : Apart .entity ids)
    (ok : Accepted s s' e) (hp : ∀ i ∈ identities e, i ∈ ids) : Unique s' := by
  cases ok with
  | @committed r path code told store hpath quiet ok done =>
    obtain ⟨nodes, names, entities, types, typed, inheritance, derived, documentation, documented⟩ :=
      h.adds (.quiet quiet)
    rw [done]
    exact ⟨nodes, names, entities, types, typed, inheritance, derived, documentation, documented⟩
  | @declared _ d t hd ok done =>
    have named : .entity d.declaration.kind d.declaration.qualifiedName ∈ ids := by
      refine hp _ (mem_identities_declared hd ?_)
      exact List.mem_cons_of_mem _ List.mem_cons_self
    have free := (SymbolTable.register_eq_ok.mp ok).2.1
    obtain ⟨g, more⟩ := adds_declared ok done (not_registered within apart named free)
    exact h.adds more
  | @completed r c owner t hc ok done => exact h.adds (adds_completed ok done)
  | @imported r path importer found done =>
    rw [done]
    refine imports_induction h (fun _ _ h quiet => h.adds (.quiet quiet)) ?_
    intro entry _ _ _ h ⟨_, _, _, free, added⟩
    exact h.adds (.imported added free)

/-- What is unique stays so as long as the session is within identities that are distinct. -/
theorem invariant (apart : Apart .entity ids) : Invariant (fun e => ∀ i ∈ identities e, i ∈ ids)
    fun s : Session σ => Within (· ∈ ids) s ∧ Unique s where
  quiet h done := ⟨h.1.quiet done, h.2.adds (.quiet done)⟩
  accepted h hp ok := ⟨h.1.accepted ok hp, h.2.accepted h.1 apart ok hp⟩

/-- **A session buffers no key twice.** -/
theorem run (h : Unique s) (within : Within (· ∈ ids) s) (apart : Apart .entity ids)
    {events : List Event} (hp : ∀ i ∈ events.flatMap identities, i ∈ ids) : Unique (s.run events) :=
  ((invariant apart).run ⟨within, h⟩ fun e he i hi =>
    hp i (List.mem_flatMap.mpr ⟨e, he, hi⟩)).2

omit [Recorder σ] in
/-- Entities of one kind have distinct names, so they have distinct identifiers. -/
theorem nodup_id (h : Unique s) (within : Within (· ∈ ids) s) (apart : Apart .entity ids)
    (kind : EntityKind) : ((s.graph.entities kind).map Entity.id).Nodup := by
  refine nodup_keys_of_determines (h.names kind) ?_
  intro a ha b hb same
  have named := (h.entities kind a ha).2
  have named' := (h.entities kind b hb).2
  exact ((owner_id_eq_iff within apart named' named).mp same).1

end Unique

end Session

end SymbolIndex
