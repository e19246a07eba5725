import SymbolIndex.Proofs.Session.Unique

/-!
# `Proofs.Session.Agreement` — symbol table, buffers and nodes tell the same story

A declaration enters its entity in four places: the name in the symbol table, the entity and its node in
the buffers, and the class among the class states. An import brings a node that stands among those of the
declarations. Here all of these are counted against each other: names are the names of the buffered
entities, and nodes are the nodes of entities and of imports, one for each (`Graph.Paired`).

A declaration could find its node in the buffers already and add none. That this does not happen is the one
place where it matters that nodes have distinct identifiers: the node would be that of an entity with the
same name, which is then not free, or that of an import, which is a module (`hasNode_declared`).

Whatever follows only adds to this: buffers grow at their ends, a name keeps its entity, and the state of a
class never goes back (`Extends`).

## Contents
- `Graph.Paired`, with `Graph.Paired.append` and one lemma for each kind of addition.
- `Extends`, kept by each step and by a run.
- `Agrees`; `names_buffers_and_nodes_agree`.
-/

namespace SymbolIndex

open Session

/-- How far a state is on the way of a class. -/
def ClassState.rank : ClassState → Nat
  | .unseen => 0
  | .preprocessed => 1
  | .resolved => 2

/-- No state comes after the last one. -/
theorem ClassState.rank_le_resolved (state : ClassState) : state.rank ≤ ClassState.resolved.rank := by
  cases state <;> decide

/-! ## Names, entities and nodes of a graph -/

/-- The entries of a symbol table are those of the entities of a graph, and its nodes are those of its
entities and imports. -/
structure Graph.Paired (entries : List (String × Handle)) (g : Graph) : Prop where
  entries : entries.Perm (g.allEntities.map fun e => (e.qualifiedName, e.handle))
  kinds : ∀ kind, ∀ e ∈ g.entities kind, e.kind = kind ∧ e.id = entityId kind e.qualifiedName
  distinct : (g.nodes.map Node.id).Nodup
  nodes : (g.nodes.map Node.id).Perm (g.allEntities.map Entity.node ++ g.imports.map Import.node)
  declarations : ∀ e ∈ g.allEntities, ∃ n ∈ g.nodes, n.id = e.node ∧
    n = Node.declaration e.qualifiedName e.kind.symbolType n.location
  modules : ∀ i ∈ g.imports, ∃ n ∈ g.nodes, n.id = i.node ∧
    n = Node.declaration n.qualifiedName .module n.location

namespace Graph.Paired

variable {g h : Graph} {entries more : List (String × Handle)}

/-- Graphs that share no node make one. -/
theorem append (pg : g.Paired entries) (ph : h.Paired more)
    (new : ∀ n ∈ h.nodes, n.id ∉ g.nodes.map Node.id) : (g ++ h).Paired (entries ++ more) := by
  have entities := Graph.perm_allEntities_append g h
  constructor
  case entries =>
    refine (pg.entries.append ph.entries).trans ?_
    rw [← List.map_append]
    exact (entities.map _).symm
  case kinds =>
    intro kind e he
    rw [Graph.entities_append] at he
    exact (List.mem_append.mp he).elim (pg.kinds kind e) (ph.kinds kind e)
  case distinct =>
    refine nodup_keys_append pg.distinct ph.distinct ?_
    intro n hn m hm same
    exact new n hn (List.mem_map.mpr ⟨m, hm, same⟩)
  case nodes =>
    rw [Graph.nodes_append, Graph.imports_append, List.map_append, List.map_append]
    refine (pg.nodes.append ph.nodes).trans (List.Perm.trans ?_
      ((entities.map Entity.node).symm.append_right _))
    rw [List.map_append, List.perm_iff_count]
    intro id
    simp only [List.count_append]
    omega
  case declarations =>
    intro e he
    rcases List.mem_append.mp (entities.mem_iff.mp he) with he | he
    · obtain ⟨n, hn, same⟩ := pg.declarations e he
      exact ⟨n, List.mem_append_left _ hn, same⟩
    · obtain ⟨n, hn, same⟩ := ph.declarations e he
      exact ⟨n, List.mem_append_right _ hn, same⟩
  case modules =>
    intro i hi
    rcases List.mem_append.mp hi with hi | hi
    · obtain ⟨n, hn, same⟩ := pg.modules i hi
      exact ⟨n, List.mem_append_left _ hn, same⟩
    · obtain ⟨n, hn, same⟩ := ph.modules i hi
      exact ⟨n, List.mem_append_right _ hn, same⟩

/-- A graph without entities, nodes and imports. -/
theorem edges (entities : ∀ kind, g.entities kind = []) (nodes : g.nodes = [])
    (imports : g.imports = []) : g.Paired [] := by
  have none : g.allEntities = [] := by
    unfold Graph.allEntities
    rw [entities, entities, entities]
    rfl
  constructor
  case kinds =>
    intro kind e he
    rw [entities] at he
    cases he
  all_goals simp [none, nodes, imports]

/-- An import and its node. -/
theorem ofImport {n : Node} {i : Import} (same : n.id = i.node)
    (isModule : n = Node.declaration n.qualifiedName .module n.location) :
    Graph.Paired [] { nodes := [n], imports := [i] } where
  entries := .refl _
  kinds kind e he := by cases kind <;> cases he
  distinct := List.nodup_singleton _
  nodes := by
    show [n.id].Perm [i.node]
    rw [same]
  declarations e he := nomatch he
  modules j hj := ⟨n, List.mem_singleton.mpr rfl, List.mem_singleton.mp hj ▸ same, isModule⟩

/-- An entity and its node, with what a declaration buffers beside them. -/
theorem declared (d : Declared) (options : Options) (t : SymbolTable) :
    Graph.Paired [(d.declaration.qualifiedName, d.declaration.entity.handle)]
      ({ nodes := [d.declaration.node] } ++ d.buffered options t) := by
  have entities : ∀ kind, (({ nodes := [d.declaration.node] } : Graph) ++
      d.buffered options t).entities kind =
        if d.declaration.kind = kind then [d.declaration.entity] else [] := by
    intro kind
    rw [Graph.entities_append, entities_nodes, List.nil_append, Declared.entities_buffered]
  have all : (({ nodes := [d.declaration.node] } : Graph) ++ d.buffered options t).allEntities =
      [d.declaration.entity] := by
    unfold Graph.allEntities
    rw [entities, entities, entities]
    cases d.declaration.kind <;> rfl
  have nodes : (({ nodes := [d.declaration.node] } : Graph) ++ d.buffered options t).nodes =
      [d.declaration.node] := by
    rw [Graph.nodes_append, Declared.nodes_buffered, List.append_nil]
  have imports : (({ nodes := [d.declaration.node] } : Graph) ++ d.buffered options t).imports = [] := by
    rw [Graph.imports_append, Declared.imports_buffered, List.append_nil]
  constructor
  case entries =>
    rw [all]
    exact .refl _
  case kinds =>
    intro kind e he
    rw [entities] at he
    split at he
    · rename_i isKind
      rw [List.mem_singleton.mp he, ← isKind]
      exact ⟨rfl, rfl⟩
    · cases he
  case distinct =>
    rw [nodes]
    exact List.nodup_singleton _
  case nodes =>
    rw [nodes, all, imports]
    exact .refl _
  case declarations =>
    intro e he
    rw [all] at he
    rw [nodes, List.mem_singleton.mp he]
    exact ⟨_, List.mem_singleton.mpr rfl, rfl, rfl⟩
  case modules =>
    intro i hi
    rw [imports] at hi
    cases hi

end Graph.Paired

namespace Session

variable {σ : Type} {s s' : Session σ} {ids : List Identity}

/-! ## Names, entities and nodes of a session -/

/-- The symbol table has the names of the buffered entities, and the nodes are those of entities and
imports. -/
def Paired (s : Session σ) : Prop :=
  s.graph.Paired s.symbols.entries.pairs

/-- The node of a new entity is new, as long as nodes have distinct identifiers. -/
theorem hasNode_declared {d : Declaration} {t : SymbolTable} (paired : Paired s)
    (within : Within (· ∈ ids) s) (apart : Apart .node ids) (named : d.node.identity ∈ ids)
    (ok : s.symbols.register d.entity = .ok t) : s.graph.hasNode d.node.id = false := by
  obtain ⟨nonempty, free, _⟩ := SymbolTable.register_eq_ok.mp ok
  refine Bool.eq_false_iff.mpr fun there => ?_
  obtain ⟨n, hn, same⟩ := List.mem_map.mp (Graph.hasNode_iff.mp there)
  -- a node with the identifier has the name and the symbol type of the declaration
  obtain ⟨made, hp⟩ := within.nodes n hn
  have id := (id_of_eq_make made).1
  have id' : d.node.id = ⟨d.node.identity.hash⟩ := (id_of_eq_make (n := d.node) rfl).1
  rw [id, id'] at same
  obtain ⟨name, symbol, _, _⟩ :=
    Identity.node.inj (apart _ hp _ named rfl rfl (congrArg Id.val same))
  have unique : ∀ m ∈ s.graph.nodes, m.id = n.id → m = n := fun m hm same =>
    List.inj_on_of_nodup_map paired.distinct hm hn same
  have stands := paired.nodes.mem_iff.mp (List.mem_map.mpr ⟨n, hn, rfl⟩)
  rcases List.mem_append.mp stands with entity | «import»
  · obtain ⟨e, he, node⟩ := List.mem_map.mp entity
    obtain ⟨m, hm, sameId, declares⟩ := paired.declarations e he
    obtain rfl := unique m hm (sameId.trans node)
    have names : e.qualifiedName = d.qualifiedName := (congrArg Node.qualifiedName declares).symm.trans name
    have known := Dictionary.mem_pairs_iff.mp (paired.entries.mem_iff.mpr (List.mem_map.mpr ⟨e, he, rfl⟩))
    rw [names] at known
    rw [SymbolTable.lookup_eq_some_iff.mpr ⟨nonempty, known⟩] at free
    cases free
  · obtain ⟨i, hi, node⟩ := List.mem_map.mp «import»
    obtain ⟨m, hm, sameId, isModule⟩ := paired.modules i hi
    obtain rfl := unique m hm (sameId.trans node)
    have symbols : SymbolType.module = d.kind.symbolType := (congrArg Node.symbol isModule).symm.trans symbol
    cases kind : d.kind <;> rw [kind] at symbols <;> cases symbols

namespace Paired

/-- A new session has no names, no entities and no nodes. -/
theorem begin (store : σ) (options : Options) : Paired (begin store options) :=
  .edges (fun kind => by cases kind <;> rfl) rfl rfl

/-- Work keeps them paired if it brings names, entities and nodes in pairs, and no node that is there. -/
theorem adds {g : Graph} {more : List (String × Handle)} (h : Paired s)
    (graph : s'.graph = s.graph ++ g)
    (entries : s'.symbols.entries.pairs = s.symbols.entries.pairs ++ more) (added : g.Paired more)
    (new : ∀ n ∈ g.nodes, n.id ∉ s.graph.nodes.map Node.id) : Paired s' := by
  unfold Paired
  rw [graph, entries]
  exact h.append added new

/-- Edges alone change nothing of it. -/
theorem effect {paths : List String} {xs : List Sighting} {g : Graph} (h : Paired s)
    (done : Effect s s' paths xs g) (added : g.Paired [])
    (new : ∀ n ∈ g.nodes, n.id ∉ s.graph.nodes.map Node.id) : Paired s' :=
  h.adds done.graph (by rw [done.symbols, List.append_nil]) added new

theorem quiet (h : Paired s) (done : Effect s s' [] [] {}) : Paired s' :=
  h.effect done (.edges (fun kind => by cases kind <;> rfl) rfl rfl) fun _ hn => nomatch hn

/-- A declaration brings a name, its entity and its node, all of them new. -/
theorem declared {d : Declared} {t : SymbolTable} {paths : List String} {xs : List Sighting}
    (h : Paired s) (ok : s.symbols.register d.declaration.entity = .ok t)
    (free : s.graph.hasNode d.declaration.node.id = false)
    (done : Effect (s.enter d.declaration t) s' paths xs (d.buffered s.options t)) : Paired s' := by
  have nodes : declaredNodes s d.declaration = [d.declaration.node] := by
    unfold declaredNodes
    rw [if_neg (by rw [free]; decide)]
  have graph := graph_declared done
  rw [nodes] at graph
  refine h.adds graph ?_ (.declared d s.options t) ?_
  · obtain ⟨nonempty, unknown, rfl⟩ := SymbolTable.register_eq_ok.mp ok
    rw [done.symbols]
    refine Dictionary.pairs_put_of_new (Option.eq_none_iff_forall_ne_some.mpr fun h found => ?_)
    rw [SymbolTable.lookup_eq_some_iff.mpr ⟨nonempty, found⟩] at unknown
    cases unknown
  · intro n hn
    rw [Graph.nodes_append, Declared.nodes_buffered, List.append_nil] at hn
    rw [List.mem_singleton.mp hn, ← Graph.hasNode_iff, free]
    decide

/-- An import brings a node of its own, or nothing. -/
theorem imported {importer : FileId} {entry : ImportEntry} (h : Paired s)
    (ok : Imported importer entry s s') : Paired s' := by
  obtain ⟨_, _, _, free, added⟩ := ok
  refine h.effect added (.ofImport rfl rfl) fun n hn => ?_
  rw [List.mem_singleton.mp hn, ← Graph.hasNode_iff, free]
  decide

variable [Recorder σ] {e : Event}

/-- Each accepted event keeps them paired, where identifiers of nodes tell declarations apart. -/
theorem accepted (h : Paired s) (within : Within (· ∈ ids) s) (apart : Apart .node ids)
    (ok : Accepted s s' e) (hp : ∀ i ∈ identities e, i ∈ ids) : Paired s' := by
  cases ok with
  | @committed r path code told store hpath quiet ok done =>
    rw [done]
    have told : Paired told := h.quiet quiet
    exact told
  | @declared _ d t hd ok done =>
    have named : d.declaration.node.identity ∈ ids :=
      hp _ (mem_identities_declared hd (by simp [Declaration.identities]))
    exact h.declared ok (hasNode_declared h within apart named ok) done
  | @completed r c owner t hc ok done =>
    have moved : Paired { s with symbols := t } := by
      unfold Paired
      rw [SymbolTable.entries_of_resolveClass ok]
      exact h
    refine moved.effect done (.edges (fun kind => by cases kind <;> rfl) rfl rfl) ?_
    intro _ hn
    cases hn
  | @imported r path importer found done =>
    rw [done]
    exact imports_induction h (fun _ _ h quiet => h.quiet quiet) fun _ _ _ _ h ok => h.imported ok

theorem invariant (apart : Apart .node ids) : Invariant (fun e => ∀ i ∈ identities e, i ∈ ids)
    fun s : Session σ => Within (· ∈ ids) s ∧ Paired s where
  quiet h done := ⟨h.1.quiet done, h.2.quiet done⟩
  accepted h hp ok := ⟨h.1.accepted ok hp, h.2.accepted h.1 apart ok hp⟩

/-- A run keeps them paired. -/
theorem run (h : Paired s) (within : Within (· ∈ ids) s) (apart : Apart .node ids)
    {events : List Event} (hp : ∀ i ∈ events.flatMap identities, i ∈ ids) : Paired (s.run events) :=
  ((invariant apart).run ⟨within, h⟩ fun e he i hi =>
    hp i (List.mem_flatMap.mpr ⟨e, he, hi⟩)).2

end Paired

/-! ## Whatever follows only adds -/

/-- A later session has what an earlier one has: it appended to the buffers, names lead where they led, and
no class has gone back. -/
structure Extends (s later : Session σ) : Prop where
  graph : ∃ added, later.graph = s.graph ++ added
  names : ∀ name h, s.symbols.lookup name = some h → later.symbols.lookup name = some h
  states : ∀ name, (s.symbols.classState name).rank ≤ (later.symbols.classState name).rank

namespace Extends

/-- A session has what it has. -/
theorem refl (s : Session σ) : Extends s s where
  graph := ⟨{}, (Graph.append_empty s.graph).symm⟩
  names _ _ found := found
  states _ := Nat.le_refl _

/-- What is kept from one session to the next is kept throughout. -/
theorem trans {s'' : Session σ} (h : Extends s s') (h' : Extends s' s'') : Extends s s'' where
  graph := by
    obtain ⟨first, same⟩ := h.graph
    obtain ⟨second, same'⟩ := h'.graph
    exact ⟨first ++ second, by rw [same', same, Graph.append_assoc]⟩
  names name h₀ found := h'.names name h₀ (h.names name h₀ found)
  states name := Nat.le_trans (h.states name) (h'.states name)

/-- The states of classes are compared by the identifiers that their names lead to. -/
theorem of_states (graph : ∃ added, s'.graph = s.graph ++ added)
    (names : ∀ name h, s.symbols.lookup name = some h → s'.symbols.lookup name = some h)
    (states : ∀ id, s.Registered id → ((s.symbols.states.find? id).getD .unseen).rank ≤
      ((s'.symbols.states.find? id).getD .unseen).rank) : Extends s s' where
  graph := graph
  names := names
  states name := by
    unfold SymbolTable.classState
    cases found : s.symbols.lookupClass name with
    | none => exact Nat.zero_le _
    | some h =>
      obtain ⟨known, isClass⟩ := SymbolTable.lookupKind_eq_some_iff.mp found
      have still : s'.symbols.lookupClass name = some h :=
        SymbolTable.lookupKind_eq_some_iff.mpr ⟨names name h known, isClass⟩
      rw [still]
      exact states h.id ⟨name, h, known, rfl⟩

/-- Work on the buffers appends to them and touches no name and no state. -/
theorem effect {paths : List String} {xs : List Sighting} {g : Graph} (done : Effect s s' paths xs g) :
    Extends s s' :=
  .of_states ⟨g, done.graph⟩ (fun _ _ found => done.symbols ▸ found)
    fun _ _ => done.symbols ▸ Nat.le_refl _

/-- A declaration adds a name that led nowhere. The state of its class is new, too, since no name led to its
identifier. -/
theorem declared {d : Declared} {t : SymbolTable} {paths : List String} {xs : List Sighting} {g : Graph}
    (ok : s.symbols.register d.declaration.entity = .ok t)
    (done : Effect (s.enter d.declaration t) s' paths xs g)
    (new : ¬ s.Registered d.declaration.entity.id) : Extends s s' := by
  have symbols : s'.symbols = t := done.symbols
  refine .of_states ⟨_, graph_declared done⟩ ?_ ?_
  · intro name h found
    rw [symbols]
    exact SymbolTable.lookup_register_of_lookup ok found
  · intro id known
    have other : ¬ (d.declaration.entity.kind = .classType ∧ id = d.declaration.entity.id) :=
      fun same => new (same.2 ▸ known)
    refine Nat.le_of_eq ?_
    rw [symbols, SymbolTable.states_of_register ok, if_neg other]

/-- A completion moves a class on, from the first state to the last. -/
theorem completed {name : String} {owner : Handle} {t : SymbolTable}
    (ok : s.symbols.resolveClass name = .ok (owner, t)) : Extends s { s with symbols := t } := by
  refine .of_states ⟨{}, (Graph.append_empty s.graph).symm⟩ ?_ ?_
  · intro name h found
    rw [SymbolTable.lookup_congr (SymbolTable.entries_of_resolveClass ok)]
    exact found
  · intro id _
    show _ ≤ ((t.states.find? id).getD .unseen).rank
    rw [SymbolTable.states_of_resolveClass ok]
    split
    · exact ClassState.rank_le_resolved _
    · exact Nat.le_refl _

variable [Recorder σ] {e : Event}

/-- No accepted event takes anything back. -/
theorem accepted (within : Within (· ∈ ids) s) (apart : Apart .entity ids) (ok : Accepted s s' e)
    (hp : ∀ i ∈ identities e, i ∈ ids) : Extends s s' := by
  cases ok with
  | @committed r path code told store hpath quiet ok done =>
    rw [done]
    have told : Extends s told := .effect quiet
    exact ⟨told.graph, told.names, told.states⟩
  | @declared _ d t hd ok done =>
    have named : .entity d.declaration.kind d.declaration.qualifiedName ∈ ids :=
      hp _ (mem_identities_declared hd (List.mem_cons_of_mem _ List.mem_cons_self))
    exact .declared ok done (not_registered within apart named (SymbolTable.register_eq_ok.mp ok).2.1)
  | @completed r c owner t hc ok done => exact (Extends.completed ok).trans (.effect done)
  | @imported r path importer found done =>
    rw [done]
    exact imports_induction (P := Extends s) (.refl s) (fun _ _ h quiet => h.trans (.effect quiet))
      fun _ _ _ _ h ⟨_, _, _, _, added⟩ => h.trans (.effect added)

theorem invariant (apart : Apart .entity ids) (s : Session σ) :
    Invariant (fun e => ∀ i ∈ identities e, i ∈ ids)
      fun later : Session σ => Within (· ∈ ids) later ∧ Extends s later where
  quiet h done := ⟨h.1.quiet done, h.2.trans (.effect done)⟩
  accepted h hp ok := ⟨h.1.accepted ok hp, h.2.trans (.accepted h.1 apart ok hp)⟩

/-- **A run only adds.** -/
theorem run (within : Within (· ∈ ids) s) (apart : Apart .entity ids) {events : List Event}
    (hp : ∀ i ∈ events.flatMap identities, i ∈ ids) : Extends s (s.run events) :=
  ((invariant apart s).run ⟨within, .refl s⟩ fun e he i hi =>
    hp i (List.mem_flatMap.mpr ⟨e, he, hi⟩)).2

end Extends

/-! ## Symbol table, buffers and nodes -/

/-- Names are those of the buffered variables, functions and classes, each registered once with the kind,
the identifier and the node of its entity; and nodes are those of these entities and of the buffered
imports, one for each. -/
structure Agrees (s : Session σ) : Prop where
  entries : s.symbols.entries.pairs.Perm
    (s.graph.allEntities.map fun e => (e.qualifiedName, e.handle))
  names : (s.graph.allEntities.map Entity.qualifiedName).Nodup
  entities : ∀ kind, ∀ e ∈ s.graph.entities kind, e.kind = kind ∧ e.id = entityId kind e.qualifiedName
  size : s.symbols.size = s.graph.vars.length + s.graph.functions.length + s.graph.classes.length
  distinct : (s.graph.nodes.map Node.id).Nodup
  nodes : (s.graph.nodes.map Node.id).Perm
    (s.graph.allEntities.map Entity.node ++ s.graph.imports.map Import.node)
  /-- The node of an entity is its declaration. -/
  declarations : ∀ e ∈ s.graph.allEntities, ∃ n ∈ s.graph.nodes, n.id = e.node ∧
    n = Node.declaration e.qualifiedName e.kind.symbolType n.location
  /-- The node of an import is the declaration of a module. -/
  modules : ∀ i ∈ s.graph.imports, ∃ n ∈ s.graph.nodes, n.id = i.node ∧
    n = Node.declaration n.qualifiedName .module n.location
  count : s.graph.nodes.length = s.graph.vars.length + s.graph.functions.length +
    s.graph.classes.length + s.graph.imports.length

/-- Names, entities and nodes that come in pairs come in equal numbers, and lead to one another. -/
theorem Paired.agrees (h : Paired s) : Agrees s := by
  have all : s.graph.allEntities.length =
      s.graph.vars.length + s.graph.functions.length + s.graph.classes.length := by
    simp only [Graph.allEntities, Graph.entities, List.length_append, List.length_map]
  have keys := h.entries.map Prod.fst
  rw [List.map_map] at keys
  have size := h.entries.length_eq
  have count := h.nodes.length_eq
  simp only [List.length_map, List.length_append] at size count
  exact {
    entries := h.entries
    names := keys.nodup_iff.mp s.symbols.entries.nodup_keys
    entities := h.kinds
    size := size.trans all
    distinct := h.distinct
    nodes := h.nodes
    declarations := h.declarations
    modules := h.modules
    count := by omega }

variable [Recorder σ]

/-- **Symbol table, buffers and nodes agree, and history is not rewritten.** If neither two entities nor two
nodes that the events of a run name share an identifier, then after the run the names of the symbol table
are those of the buffered entities and the nodes are those of entities and imports; and whatever events
follow, buffers only grow at their ends, a name keeps the entity that it was first declared for, and the
state of a class never goes back. -/
theorem names_buffers_and_nodes_agree (store : σ) (options : Options) (events more : List Event)
    (entities : Apart .entity ((events ++ more).flatMap identities))
    (nodes : Apart .node ((events ++ more).flatMap identities)) :
    let s := (begin store options).run events
    Agrees s ∧ Extends s (s.run more) := by
  intro s
  have first : ∀ i ∈ events.flatMap identities, i ∈ (events ++ more).flatMap identities := by
    intro i hi
    rw [List.flatMap_append]
    exact List.mem_append_left _ hi
  have second : ∀ i ∈ more.flatMap identities, i ∈ (events ++ more).flatMap identities := by
    intro i hi
    rw [List.flatMap_append]
    exact List.mem_append_right _ hi
  have within : Within (· ∈ (events ++ more).flatMap identities) s := (Within.begin store options).run first
  have paired : Paired s := (Paired.begin store options).run (.begin _ _) nodes first
  exact ⟨paired.agrees, .run within entities second⟩

/-- A class, then a variable of the same name, which comes too late; then the class is completed. -/
theorem first_declaration_wins :
    let place (line : UInt32) : Option Place :=
      some ⟨some "/a.py", some ⟨some ⟨line, 0⟩, some ⟨line, 3⟩⟩⟩
    let events : List Event := [
      .classPreprocessed ⟨some "c", some "c", place 1, none⟩,
      .variable ⟨some "c", some "c", place 2, none, some [], some []⟩]
    let more : List Event := [.classResolved ⟨some "c", some "", some [], some {}, some []⟩]
    let s := (begin Store.empty {}).run events
    Apart .entity ((events ++ more).flatMap identities) ∧
      Apart .node ((events ++ more).flatMap identities) ∧
      Agrees s ∧ Extends s (s.run more) ∧ s.symbols.size = 1 ∧
      s.symbols.classState "c" = .preprocessed ∧ (s.run more).symbols.classState "c" = .resolved := by
  intro place events more s
  have entities : Apart .entity ((events ++ more).flatMap identities) := by decide +kernel
  have nodes : Apart .node ((events ++ more).flatMap identities) := by decide +kernel
  obtain ⟨agrees, extends'⟩ := names_buffers_and_nodes_agree Store.empty {} events more entities nodes
  refine ⟨entities, nodes, agrees, extends', ?_⟩
  decide +kernel

end Session

end SymbolIndex
