import SymbolIndex.Proofs.Session.Accepted

/-!
# `Proofs.Session.Coherence` — what a session buffers points at what it buffers

The buffers of a session are written in one batch, and nothing in the batch looks a reference up. That
no reference dangles afterwards is therefore prepared while events are taken in: every name of the
symbol table leads to an entity that is buffered, and every reference in a buffer to a file that is
known or to something that is buffered. This holds between events only; in the midst of a handler an
entity has its name and its edges before it is buffered itself. The invariant is thus about a session
and the graph that its buffers are on the way to (`Coherent w s`), which between events is the graph of
the session.

## Contents
- `Graph.Has`, `Graph.HasNode`, `Graph.PointsInto`.
- `Coherent`, with one lemma for each way in which a session changes.
- `Coherent.invariant`, `Coherent.run`.
-/

namespace SymbolIndex

open Session (memberEntity)

/-- The kind of entity that a documentation of a kind belongs to. -/
def documentedEntity : DocumentationKind → EntityKind
  | .function => .function
  | .classType => .classType

namespace Graph

variable {g h w : Graph} {known : FileId → Prop} {kind : EntityKind} {id : EntityId} {node : NodeId}

/-- An entity of the kind has the identifier. -/
def Has (g : Graph) (kind : EntityKind) (id : EntityId) : Prop :=
  id ∈ (g.entities kind).map Entity.id

/-- A declaration node has the identifier. -/
def HasNode (g : Graph) (id : NodeId) : Prop :=
  id ∈ g.nodes.map Node.id

/-- An entity that is buffered stays so. -/
theorem Has.append_right (held : g.Has kind id) (h : Graph) : (g ++ h).Has kind id := by
  unfold Has
  rw [entities_append, List.map_append]
  exact List.mem_append_left _ held

/-- A node that is buffered stays so. -/
theorem HasNode.append_right (held : g.HasNode node) (h : Graph) : (g ++ h).HasNode node := by
  unfold HasNode
  rw [nodes_append, List.map_append]
  exact List.mem_append_left _ held

/-- Whatever a graph refers to is a file that is known or something that `w` holds. -/
structure PointsInto (g w : Graph) (known : FileId → Prop) : Prop where
  nodes : ∀ n ∈ g.allNodes, known n.location.file
  entities : ∀ kind, ∀ e ∈ g.entities kind, w.HasNode e.node
  functionVariables : ∀ f ∈ g.functions, ∀ v ∈ f.parameters ++ f.locals, w.Has .variable v
  members : ∀ m ∈ g.members, w.Has .classType m.owner ∧ w.Has (memberEntity m.kind) m.member ∧
    w.HasNode m.node
  inheritance : ∀ e ∈ g.inheritance, w.Has .classType e.derived ∧ w.Has .classType e.base
  imports : ∀ i ∈ g.imports, w.HasNode i.node ∧ known i.importer ∧ known i.imported ∧
    ∀ id ∈ i.symbol, ∃ kind, w.Has kind id
  documentation : ∀ d ∈ g.documentation, w.Has (documentedEntity d.kind) d.documented
  types : ∀ t ∈ g.types, (∃ kind, w.Has kind t.symbol) ∧ ∃ kind, w.Has kind t.type

namespace PointsInto

/-- A graph without edges points nowhere. -/
theorem empty (w : Graph) (known : FileId → Prop) : PointsInto {} w known := by
  constructor
  case entities => intro kind e he; cases kind <;> exact nomatch he
  all_goals exact fun _ h => nomatch h

/-- Nodes point to files only. -/
theorem ofNodes (w : Graph) (nodes : List Node) (h : ∀ n ∈ nodes, known n.location.file) :
    PointsInto { nodes } w known :=
  { empty w known with
    nodes := fun n hn => h n (by simpa [allNodes] using hn)
    entities := fun kind e he => by cases kind <;> exact nomatch he }

/-- What is pointed at may grow. -/
theorem mono {w' : Graph} {known' : FileId → Prop} (points : g.PointsInto w known)
    (hw : ∀ kind id, w.Has kind id → w'.Has kind id) (hn : ∀ id, w.HasNode id → w'.HasNode id)
    (hk : ∀ id, known id → known' id) : g.PointsInto w' known' where
  nodes n h := hk _ (points.nodes n h)
  entities kind e h := hn _ (points.entities kind e h)
  functionVariables f h v hv := hw _ _ (points.functionVariables f h v hv)
  members m h := (points.members m h).imp (hw _ _) (And.imp (hw _ _) (hn _))
  inheritance e h := (points.inheritance e h).imp (hw _ _) (hw _ _)
  imports i h := by
    obtain ⟨node, importer, imported, symbol⟩ := points.imports i h
    exact ⟨hn _ node, hk _ importer, hk _ imported, fun id hid => (symbol id hid).imp fun _ => hw _ _⟩
  documentation d h := hw _ _ (points.documentation d h)
  types t h := (points.types t h).imp (Exists.imp fun _ => hw _ _) (Exists.imp fun _ => hw _ _)

/-- Files stay known when others become so. -/
theorem mono_known {known' : FileId → Prop} (points : g.PointsInto w known)
    (hk : ∀ id, known id → known' id) : g.PointsInto w known' :=
  points.mono (fun _ _ held => held) (fun _ held => held) hk

/-- Two graphs that point into a third do so together. -/
theorem append (pg : g.PointsInto w known) (ph : h.PointsInto w known) :
    (g ++ h).PointsInto w known where
  nodes n hn := by
    have split : n ∈ g.allNodes ∨ n ∈ h.allNodes := by
      simp only [allNodes, nodes_append, usages_append, List.mem_append] at hn ⊢
      tauto
    exact split.elim (pg.nodes n) (ph.nodes n)
  entities kind e he := by
    rw [entities_append] at he
    exact (List.mem_append.mp he).elim (pg.entities kind e) (ph.entities kind e)
  functionVariables f hf :=
    (List.mem_append.mp hf).elim (pg.functionVariables f) (ph.functionVariables f)
  members m hm := (List.mem_append.mp hm).elim (pg.members m) (ph.members m)
  inheritance e he := (List.mem_append.mp he).elim (pg.inheritance e) (ph.inheritance e)
  imports i hi := (List.mem_append.mp hi).elim (pg.imports i) (ph.imports i)
  documentation d hd := (List.mem_append.mp hd).elim (pg.documentation d) (ph.documentation d)
  types t ht := (List.mem_append.mp ht).elim (pg.types t) (ph.types t)

end PointsInto

end Graph

/-! ## Places -/

/-- A place is located in the file of its path. -/
theorem Place.locate?_file {place : Option Place} {path : String} {location : Location}
    (h : Place.locate? place = some (path, location)) : location.file = fileId path := by
  simp only [Place.locate?, Option.bind_eq_bind, Option.bind_eq_some_iff] at h
  obtain ⟨_, _, _, _, _, _, _, _, _, _, h⟩ := h
  split at h
  · cases h
  · cases h
    rfl

namespace Session

variable {σ : Type} {s s' : Session σ} {w : Graph}

/-- A declaration lies in the file that it makes known. -/
theorem declared?_file {e : Event} {d : Declared} (h : declared? e = some d) :
    d.declaration.location.file = fileId d.declaration.path := by
  cases e with
  | file r => cases h
  | «variable» r =>
    simp only [declared?, Option.bind_eq_bind, Option.bind_eq_some_iff, Option.some.injEq] at h
    obtain ⟨_, _, _, _, _, _, _, _, ⟨path, location⟩, located, rfl⟩ := h
    exact Place.locate?_file located
  | function r =>
    simp only [declared?, Option.bind_eq_bind, Option.bind_eq_some_iff, Option.some.injEq] at h
    obtain ⟨_, _, _, _, _, _, _, _, _, _, ⟨path, location⟩, located, rfl⟩ := h
    exact Place.locate?_file located
  | classPreprocessed r =>
    simp only [declared?, Option.bind_eq_bind, Option.bind_eq_some_iff, Option.some.injEq] at h
    obtain ⟨_, _, _, _, ⟨path, location⟩, located, rfl⟩ := h
    exact Place.locate?_file located
  | classResolved r => cases h
  | «import» r => cases h

/-- A usage lies in the file that it makes known. -/
theorem reported_file {t : SymbolTable} {e : Event} {x : Sighting} (hx : x ∈ reported t e) :
    x.location.file = fileId x.path := by
  obtain ⟨r, _, hx⟩ := List.mem_flatMap.mp hx
  obtain ⟨_, _, _, _, _, located⟩ := mem_sightingsOf.mp hx
  exact Place.locate?_file located

/-! ## Coherence -/

/-- Names lead into `w`, buffers point into `w` and at known files, and usages lie in known files. -/
structure Coherent (w : Graph) (s : Session σ) : Prop where
  sources : s.sources.Keyed
  linked : ∀ name h, s.symbols.lookup name = some h → w.Has h.kind h.id ∧ w.HasNode h.node
  points : s.graph.PointsInto w s.sources.Knows
  usages : ∀ n ∈ s.ledger.nodes, s.sources.Knows n.location.file

namespace Coherent

/-- A session without buffers is coherent. -/
theorem begin (store : σ) (options : Options) :
    Coherent (begin store options).graph (begin store options) where
  sources := SourceTable.keyed_empty
  linked _ _ found := nomatch (SymbolTable.lookup_eq_some_iff.mp found).2
  points := .empty _ _
  usages _ hn := nomatch hn

/-- The graph that is on its way may be one of more. -/
theorem mono (h : Coherent w s) (more : Graph) : Coherent (w ++ more) s where
  sources := h.sources
  linked name h' found :=
    (h.linked name h' found).imp (·.append_right more) (·.append_right more)
  points := h.points.mono (fun _ _ held => held.append_right more)
    (fun _ held => held.append_right more) fun _ known => known
  usages := h.usages

/-- Work keeps a session coherent if its usages lie in files that it makes known, and its edges point into
the buffers. -/
theorem effect {paths : List String} {xs : List Sighting} {g : Graph} (h : Coherent w s)
    (done : Effect s s' paths xs g)
    (hx : ∀ x ∈ xs, x.path ∈ paths ∧ x.location.file = fileId x.path)
    (hg : g.PointsInto w s'.sources.Knows) : Coherent w s' := by
  have kept : ∀ id, s.sources.Knows id → s'.sources.Knows id := by
    intro id known
    rw [done.sources]
    exact known.registerAll paths
  refine ⟨?_, ?_, ?_, ?_⟩
  · rw [done.sources]
    exact h.sources.registerAll paths
  · rw [done.symbols]
    exact h.linked
  · rw [done.graph]
    exact (h.points.mono_known kept).append hg
  · intro n hn
    rw [done.ledger] at hn
    rcases Ledger.mem_nodes_offer hn with old | ⟨x, hxs, rfl⟩
    · exact kept _ (h.usages n old)
    · obtain ⟨hpath, hfile⟩ := hx x hxs
      rw [done.sources]
      exact hfile ▸ h.sources.knows_registerAll hpath

theorem quiet (h : Coherent w s) (done : Effect s s' [] [] {}) : Coherent w s' :=
  h.effect done (fun _ hx => nomatch hx) (.empty _ _)

/-- An entity may be entered if the graph that is on its way has it. -/
theorem enter {d : Declaration} {t : SymbolTable} (h : Coherent w s)
    (ok : s.symbols.register d.entity = .ok t) (hfile : d.location.file = fileId d.path)
    (entity : w.Has d.kind d.entity.id) (node : w.HasNode d.node.id) : Coherent w (s.enter d t) := by
  have kept : ∀ id, s.sources.Knows id → (s.sources.register d.path).Knows id :=
    fun id known => known.register d.path
  refine ⟨h.sources.register d.path, ?_, ?_, ?_⟩
  · intro name h' found
    rcases SymbolTable.lookup_of_lookup_register ok found with ⟨_, rfl⟩ | old
    · exact ⟨entity, node⟩
    · exact h.linked name h' old
  · show Graph.PointsInto (s.graph.addNode d.node).1 w (s.sources.register d.path).Knows
    rw [Graph.addNode_fst]
    refine (h.points.mono_known kept).append (.ofNodes w _ ?_)
    intro n hn
    split at hn
    · cases hn
    · rw [List.mem_singleton.mp hn]
      exact hfile ▸ h.sources.knows_register d.path
  · intro n hn
    exact kept _ (h.usages n ((Ledger.mem_nodes_register s.ledger d.entity.id n).mp hn))

/-! ## What an accepted event buffers -/

/-- What a declaration buffers points at the entity itself and at what its names lead to. -/
theorem points_declared {d : Declared} {t : SymbolTable} {known : FileId → Prop} (options : Options)
    (linked : ∀ name h, t.lookup name = some h → w.Has h.kind h.id ∧ w.HasNode h.node)
    (entity : w.Has d.declaration.kind d.declaration.entity.id)
    (node : w.HasNode d.declaration.node.id) : (d.buffered options t).PointsInto w known := by
  have types : ∀ e ∈ typeEdges t d.declaration.entity.id d.types,
      (∃ kind, w.Has kind e.symbol) ∧ ∃ kind, w.Has kind e.type := by
    intro e he
    obtain ⟨own, name, h, found, same⟩ := mem_typeEdges he
    exact ⟨⟨_, own ▸ entity⟩, h.kind, same ▸ (linked name h found).1⟩
  have entities : ∀ kind, ∀ e ∈ (d.buffered options t).entities kind, w.HasNode e.node := by
    intro kind e he
    rw [Declared.entities_buffered] at he
    split at he
    · rw [List.mem_singleton.mp he]
      exact node
    · cases he
  unfold Declared.buffered at entities ⊢
  dsimp only at entities ⊢
  split at entities <;> rename_i isKind
  · exact { Graph.PointsInto.empty w known with entities, types }
  · refine { Graph.PointsInto.empty w known with
      entities, types, functionVariables := ?_, documentation := ?_ }
    · intro f hf v hv
      rw [List.mem_singleton.mp hf] at hv
      have among : ∃ names, v ∈ variableIds t names :=
        (List.mem_append.mp hv).elim (fun h => ⟨_, h⟩) fun h => ⟨_, h⟩
      obtain ⟨names, hv⟩ := among
      obtain ⟨name, h, found, isVariable, rfl⟩ := mem_variableIds hv
      exact isVariable ▸ (linked name h found).1
    · intro doc hdoc
      obtain ⟨own, hkind⟩ := mem_documented hdoc
      have held : w.Has .function d.declaration.entity.id := isKind ▸ entity
      rw [own, hkind]
      exact held
  · exact { Graph.PointsInto.empty w known with entities }

/-- What the completion of a class buffers points at the class and at what its names lead to. -/
theorem points_completed {c : Completed} {t : SymbolTable} {owner : EntityId} {known : FileId → Prop}
    (options : Options)
    (linked : ∀ name h, t.lookup name = some h → w.Has h.kind h.id ∧ w.HasNode h.node)
    (entity : w.Has .classType owner) : (c.buffered options t owner).PointsInto w known := by
  refine { Graph.PointsInto.empty w known with members := ?_, inheritance := ?_, documentation := ?_ }
  · intro m hm
    obtain ⟨own, name, h, found, hkind, member, node⟩ := mem_groupEdges hm
    obtain ⟨held, heldNode⟩ := linked name h found
    exact ⟨own ▸ entity, hkind ▸ member ▸ held, node ▸ heldNode⟩
  · intro e he
    obtain ⟨own, name, h, found, isClass, same⟩ := mem_baseEdges he
    exact ⟨own ▸ entity, isClass ▸ same ▸ (linked name h found).1⟩
  · intro doc hdoc
    obtain ⟨own, hkind⟩ := mem_documented hdoc
    rw [own, hkind]
    exact entity

/-- An import points to its node, to two files, and to its symbol if it has one. -/
theorem points_import {n : Node} {i : Import} {known : FileId → Prop} (hn : known n.location.file)
    (hi : w.HasNode i.node ∧ known i.importer ∧ known i.imported ∧
      ∀ id ∈ i.symbol, ∃ kind, w.Has kind id) :
    Graph.PointsInto { nodes := [n], imports := [i] } w known :=
  { Graph.PointsInto.ofNodes w [n] fun _ h => List.mem_singleton.mp h ▸ hn with
    imports := fun _ h => List.mem_singleton.mp h ▸ hi }

/-! ## Steps -/

/-- A file that is found as announced is known and announced. -/
theorem find?_of_findAnnounced? {t : SourceTable} {path : String} {f : File}
    (h : t.findAnnounced? path = some f) : t.find? path = some f ∧ t.isAnnounced f.id = true :=
  Option.filter_eq_some_iff.mp h

/-- An import is coherent if the importing file is known, which then still is. -/
theorem imported {importer : FileId} {entry : ImportEntry} (h : Coherent s.graph s)
    (known : s.sources.Knows importer) (ok : Imported importer entry s s') :
    Coherent s'.graph s' ∧ s'.sources.Knows importer := by
  obtain @⟨path, file, imported, location, _, found, located, _, added⟩ := ok
  have still : ∀ id, s.sources.Knows id → s'.sources.Knows id := by
    intro id known
    rw [added.sources]
    exact known.registerAll [file]
  refine ⟨?_, still _ known⟩
  rw [added.graph]
  -- the node of the import lies in the file that its place names
  have inFile : s'.sources.Knows location.file := by
    rw [added.sources, Place.locate?_file located]
    exact h.sources.knows_registerAll List.mem_cons_self
  refine (h.mono _).effect added (fun _ hx => nomatch hx) (points_import inFile ⟨?_, ?_, ?_, ?_⟩)
  · simp [Graph.HasNode, importEdge]
  · exact still _ known
  · exact still _ ⟨path, imported, (find?_of_findAnnounced? found).1, rfl⟩
  · intro id hid
    obtain ⟨handle, resolved, rfl⟩ := Option.map_eq_some_iff.mp hid
    obtain ⟨name, _, resolved⟩ := Option.bind_eq_some_iff.mp resolved
    exact ⟨handle.kind, (h.linked name handle resolved).1.append_right _⟩

/-- Quiet work leaves the buffers as they are. -/
theorem undisturbed (h : Coherent s.graph s) (done : Effect s s' [] [] {}) : Coherent s'.graph s' := by
  have same := done.graph.trans (Graph.append_empty s.graph)
  exact same ▸ h.quiet done

variable {e : Event}

/-- What is reported lies in files that become known with it. -/
theorem placed {t : SymbolTable} : ∀ x ∈ reported t e,
    x.path ∈ (reported t e).map Sighting.path ∧ x.location.file = fileId x.path :=
  fun x hx => ⟨List.mem_map.mpr ⟨x, hx, rfl⟩, reported_file hx⟩

/-- A declaration brings the entity and the node that names lead to from then on. -/
theorem declared {d : Declared} {t : SymbolTable} (h : Coherent s.graph s) (hd : declared? e = some d)
    (ok : s.symbols.register d.declaration.entity = .ok t)
    (done : Effect (s.enter d.declaration t) s' ((reported t e).map Sighting.path) (reported t e)
      (d.buffered s.options t)) : Coherent s'.graph s' := by
  -- the node and what is buffered with it are one graph, which has the entity before its name leads there
  have grown : s'.graph = s.graph ++ ({ nodes := if s.graph.hasNode d.declaration.node.id then []
      else [d.declaration.node] } ++ d.buffered s.options t) := by
    rw [done.graph, ← Graph.append_assoc, ← Graph.addNode_fst]
    rfl
  have entity : s'.graph.Has d.declaration.kind d.declaration.entity.id := by
    unfold Graph.Has
    rw [done.graph, Graph.entities_append, Declared.entities_buffered, if_pos rfl, List.map_append]
    exact List.mem_append_right _ (List.mem_singleton.mpr rfl)
  have node : s'.graph.HasNode d.declaration.node.id := by
    rw [done.graph]
    exact Graph.HasNode.append_right (Graph.mem_nodes_addNode s.graph d.declaration.node) _
  have wide : Coherent s'.graph s := grown ▸ h.mono _
  have entered := wide.enter ok (declared?_file hd) entity node
  exact entered.effect done placed (points_declared s.options entered.linked entity node)

/-- The completion of a class points at the class and at what its names lead to. -/
theorem completed {name : String} {c : Completed} {owner : Handle} {t : SymbolTable}
    (h : Coherent s.graph s) (ok : s.symbols.resolveClass name = .ok (owner, t))
    (done : Effect { s with symbols := t } s' ((reported t e).map Sighting.path) (reported t e)
      (c.buffered s.options t owner.id)) : Coherent s'.graph s' := by
  have names := SymbolTable.lookup_congr (SymbolTable.entries_of_resolveClass ok)
  have wide : Coherent s'.graph s := by
    rw [done.graph]
    exact h.mono _
  have linked : ∀ name h, t.lookup name = some h → s'.graph.Has h.kind h.id ∧ s'.graph.HasNode h.node :=
    fun name h' found => wide.linked name h' (names ▸ found)
  obtain ⟨known, isClass⟩ := SymbolTable.lookupKind_eq_some_iff.mp
    (SymbolTable.resolveClass_eq_ok.mp ok).1
  have moved : Coherent s'.graph { s with symbols := t } :=
    ⟨wide.sources, linked, wide.points, wide.usages⟩
  refine moved.effect done placed (points_completed s.options linked ?_)
  exact isClass ▸ (wide.linked name owner known).1

variable [Recorder σ]

/-- **Each accepted event keeps the session coherent**: it makes known what its edges need, or finds it in
the buffers. -/
theorem accepted (h : Coherent s.graph s) (ok : Accepted s s' e) : Coherent s'.graph s' := by
  cases ok with
  | @committed r path code told store hpath quiet ok done =>
    obtain ⟨sources, linked, points, usages⟩ := h.undisturbed quiet
    have kept : ∀ id, told.sources.Knows id → s'.sources.Knows id := by
      intro id known
      rw [done]
      exact (known.setStatus _ _).announce _
    rw [done] at kept ⊢
    exact ⟨(sources.setStatus _ _).announce _, linked, points.mono_known kept,
      fun n hn => kept _ (usages n hn)⟩
  | declared hd ok done => exact h.declared hd ok done
  | completed _ ok done => exact h.completed ok done
  | @imported r path importer found done =>
    rw [done]
    -- the importing file is announced, so it is known, and it stays known from import to import
    have known : s.sources.Knows importer.id :=
      ⟨path, importer, (find?_of_findAnnounced? found).1, rfl⟩
    let both (s : Session σ) : Prop := Coherent s.graph s ∧ s.sources.Knows importer.id
    suffices both ((importEntries r).foldl (addImport importer.id) s) from this.1
    refine imports_induction ⟨h, known⟩ ?_ fun _ _ _ _ h ok => h.1.imported h.2 ok
    intro s s' h quiet
    refine ⟨h.1.undisturbed quiet, ?_⟩
    rw [quiet.sources]
    exact h.2

theorem invariant : Invariant (fun _ => True) fun s : Session σ => Coherent s.graph s where
  quiet h done := h.undisturbed done
  accepted h _ ok := h.accepted ok

/-- **Between events, nothing that a session buffers points at what it does not hold.** -/
theorem run (h : Coherent s.graph s) (events : List Event) :
    Coherent (s.run events).graph (s.run events) :=
  invariant.run (P := fun s => Coherent s.graph s) h fun _ _ => trivial

end Coherent

end Session

end SymbolIndex
