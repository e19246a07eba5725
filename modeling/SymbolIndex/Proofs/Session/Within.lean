import SymbolIndex.Proofs.Session.Accepted

/-!
# `Proofs.Session.Within` — every identifier of a session comes from its events

An identifier is the hash of an identity, so it stands for one record only as long as no other identity
has its hash. The identities that can matter to a run are those that its events name; `identities`
collects them, and `Apart` says that no two of them share a hash. What a session knows, declares and
records is `Within` them, whatever events are refused.

## Contents
- `identities` of an event; `Apart`, with `Apart.path_eq`, `Apart.entity_eq` and `Apart.node_eq`.
- `Within`, with one lemma for each way in which a session changes.
- `Within.invariant`, `Within.run`.
-/

namespace SymbolIndex

/-- What an identity is the identity of. -/
def Identity.subject : Identity → Subject
  | .file .. => .file
  | .entity .. => .entity
  | .node .. => .node

def Node.identity (n : Node) : Identity :=
  .node n.qualifiedName n.symbol n.type n.location

namespace Session

theorem id_make (name : String) (symbol : SymbolType) (type : NodeType) (location : Location) :
    (Node.make name symbol type location).id = nodeId name symbol type location := rfl

/-- A node that was made from its parts has the identifier of these parts. -/
theorem id_of_eq_make {n : Node} {type : NodeType}
    (made : n = Node.make n.qualifiedName n.symbol type n.location) :
    n.id = ⟨n.identity.hash⟩ ∧ n.type = type := by
  have id : n.id = nodeId n.qualifiedName n.symbol type n.location :=
    (congrArg Node.id made).trans (id_make _ _ _ _)
  have same : n.type = type := congrArg Node.type made
  refine ⟨?_, same⟩
  rw [id]
  unfold nodeId Node.identity
  rw [same]

/-! ## Identities of events -/

/-- The identities that a declaration names. -/
def Declaration.identities (d : Declaration) : List Identity :=
  [.file d.path, .entity d.kind d.qualifiedName, d.node.identity]

/-- The identities that a usage names. -/
def usageIdentities (kind : EntityKind) (name : String) (u : UsageReport) : List Identity :=
  match Place.locate? u.place with
  | none => []
  | some (path, location) => [.file path, (Node.usage name kind.symbolType location).identity]

/-- The identities that an import names. -/
def importIdentities (entry : ImportEntry) : List Identity :=
  match nonEmpty entry.path, Place.locate? entry.place with
  | some path, some (file, location) =>
    [.file file, (importNode path (nonEmpty entry.symbol) location).identity]
  | _, _ => []

/-- The files, entities and nodes that an event names. -/
def identities (e : Event) : List Identity :=
  (match e with
    | .file r => (nonEmpty r.path).toList.map .file
    | .import r => (importEntries r).flatMap importIdentities
    | _ => []) ++
  (declared? e).toList.flatMap (fun d => d.declaration.identities) ++
  (usageReports e).flatMap fun r => r.2.2.flatMap (usageIdentities r.1 r.2.1)

/-- No two of some identities share a hash, as far as they are identities of the subject. -/
def Apart (subject : Subject) (ids : List Identity) : Prop :=
  ∀ i ∈ ids, ∀ j ∈ ids, i.subject = subject → j.subject = subject → i.hash = j.hash → i = j

instance (subject : Subject) (ids : List Identity) : Decidable (Apart subject ids) :=
  inferInstanceAs (Decidable (∀ i ∈ ids, ∀ j ∈ ids, _ → _ → _ → _))

/-- Where identities are apart, identifiers stand for what they are made of. -/
theorem Apart.path_eq {ids : List Identity} (apart : Apart .file ids) {path path' : String}
    (h : .file path ∈ ids) (h' : .file path' ∈ ids) (same : fileId path = fileId path') :
    path = path' :=
  Identity.file.inj (apart _ h _ h' rfl rfl (congrArg Id.val same))

/-- Entities with one identifier have one kind and one name, if hashes tell entities apart. -/
theorem Apart.entity_eq {ids : List Identity} (apart : Apart .entity ids) {kind kind' : EntityKind}
    {name name' : String} (h : .entity kind name ∈ ids) (h' : .entity kind' name' ∈ ids)
    (same : entityId kind name = entityId kind' name') : kind = kind' ∧ name = name' :=
  Identity.entity.inj (apart _ h _ h' rfl rfl (congrArg Id.val same))

/-- Nodes with one identifier have one name, type and location. -/
theorem Apart.node_eq {ids : List Identity} (apart : Apart .node ids) {n m : Node}
    (hn : n.identity ∈ ids) (hm : m.identity ∈ ids) (same : n.identity.hash = m.identity.hash) :
    n.qualifiedName = m.qualifiedName ∧ n.type = m.type ∧ n.location = m.location := by
  obtain ⟨names, _, types, locations⟩ := Identity.node.inj (apart _ hn _ hm rfl rfl same)
  exact ⟨names, types, locations⟩

/-- The identities of an entry are among those of its record. -/
theorem mem_identities_imported {r : ImportReport} {entry : ImportEntry} {i : Identity}
    (hentry : entry ∈ importEntries r) (hi : i ∈ importIdentities entry) : i ∈ identities (.import r) :=
  List.mem_append_left _ (List.mem_append_left _ (List.mem_flatMap.mpr ⟨entry, hentry, hi⟩))

/-- The identities of a declaration are among those of its record. -/
theorem mem_identities_declared {e : Event} {d : Declared} (hd : declared? e = some d) {i : Identity}
    (hi : i ∈ d.declaration.identities) : i ∈ identities e := by
  unfold identities
  rw [hd, Option.toList_some, List.flatMap_singleton]
  exact List.mem_append_left _ (List.mem_append_right _ hi)

/-- The file and the node of a reported usage are named by the event. -/
theorem mem_identities_reported {t : SymbolTable} {e : Event} {x : Sighting} (hx : x ∈ reported t e) :
    t.lookup x.name = some x.owner ∧ .file x.path ∈ identities e ∧ x.node.identity ∈ identities e := by
  obtain ⟨⟨kind, name, usages⟩, hr, hx⟩ := List.mem_flatMap.mp hx
  obtain ⟨found, rfl, rfl, u, hu, located⟩ := mem_sightingsOf.mp hx
  have named : ∀ i ∈ [Identity.file x.path, x.node.identity], i ∈ identities e := by
    intro i hi
    refine List.mem_append_right _ (List.mem_flatMap.mpr ⟨_, hr, List.mem_flatMap.mpr ⟨u, hu, ?_⟩⟩)
    unfold usageIdentities
    rw [located]
    exact hi
  exact ⟨found, named _ (by simp), named _ (by simp)⟩

/-- The file and the node of a complete import are named by it. -/
theorem mem_importIdentities {entry : ImportEntry} {path file : String} {location : Location}
    (hpath : nonEmpty entry.path = some path)
    (located : Place.locate? entry.place = some (file, location)) :
    .file file ∈ importIdentities entry ∧
      (importNode path (nonEmpty entry.symbol) location).identity ∈ importIdentities entry := by
  unfold importIdentities
  rw [hpath, located]
  exact ⟨List.mem_cons_self, List.mem_cons_of_mem _ List.mem_cons_self⟩

/-! ## Sessions within identities -/

variable {σ : Type} {s s' : Session σ} {p : Identity → Prop}

/-- Whatever a session holds has an identity among some, and the identifier of that identity. -/
structure Within (p : Identity → Prop) (s : Session σ) : Prop where
  /-- Every name leads to the identifier that kind and name determine. -/
  names : ∀ name h, s.symbols.lookup name = some h →
    h.id = entityId h.kind name ∧ p (.entity h.kind name)
  /-- Buffered nodes are declarations. -/
  nodes : ∀ n ∈ s.graph.nodes,
    n = Node.declaration n.qualifiedName n.symbol n.location ∧ p n.identity
  /-- Nodes of the ledger are usages. -/
  usages : ∀ n ∈ s.ledger.nodes, n = Node.usage n.qualifiedName n.symbol n.location ∧ p n.identity
  files : ∀ path f, s.sources.find? path = some f → p (.file path)

namespace Within

/-- A new session has nothing with an identity. -/
theorem begin (store : σ) (options : Options) : Within p (begin store options) where
  names _ _ found := nomatch (SymbolTable.lookup_eq_some_iff.mp found).2
  nodes _ hn := nomatch hn
  usages _ hn := nomatch hn
  files _ _ found := nomatch found

/-- Work keeps within identities what it makes known, reports and buffers. -/
theorem effect {paths : List String} {xs : List Sighting} {g : Graph} (h : Within p s)
    (done : Effect s s' paths xs g) (hpaths : ∀ path ∈ paths, p (.file path))
    (hxs : ∀ x ∈ xs, p x.node.identity)
    (hg : ∀ n ∈ g.nodes, n = Node.declaration n.qualifiedName n.symbol n.location ∧ p n.identity) :
    Within p s' where
  names name h' found := h.names name h' (done.symbols ▸ found)
  nodes n hn := by
    rw [done.graph, Graph.nodes_append] at hn
    exact (List.mem_append.mp hn).elim (h.nodes n) (hg n)
  usages n hn := by
    rw [done.ledger] at hn
    rcases Ledger.mem_nodes_offer hn with old | ⟨x, hx, rfl⟩
    · exact h.usages n old
    · exact ⟨rfl, hxs x hx⟩
  files path f found := by
    rw [done.sources] at found
    rcases SourceTable.known_or_made_of_registerAll found with known | ⟨hpath, _⟩
    · exact h.files path f known
    · exact hpaths path hpath

theorem quiet (h : Within p s) (done : Effect s s' [] [] {}) : Within p s' :=
  h.effect done (fun _ hpath => nomatch hpath) (fun _ hx => nomatch hx) fun _ hn => nomatch hn

/-- A declaration brings the identities of its entity, its node and its file. -/
theorem enter (h : Within p s) {d : Declaration} {t : SymbolTable}
    (ok : s.symbols.register d.entity = .ok t) (hd : ∀ i ∈ d.identities, p i) :
    Within p (s.enter d t) where
  names name h' found := by
    rcases SymbolTable.lookup_of_lookup_register ok found with ⟨rfl, rfl⟩ | old
    · exact ⟨rfl, hd _ (by simp [Declaration.identities]; exact Or.inl ⟨rfl, rfl⟩)⟩
    · exact h.names name h' old
  nodes n hn := by
    have entered : (s.enter d t).graph = (s.graph.addNode d.node).1 := rfl
    rw [entered, Graph.addNode_fst, Graph.nodes_append, List.mem_append] at hn
    rcases hn with old | new
    · exact h.nodes n old
    · split at new
      · cases new
      · rw [List.mem_singleton.mp new]
        exact ⟨rfl, hd _ (by simp [Declaration.identities])⟩
  usages n hn := h.usages n ((Ledger.mem_nodes_register s.ledger d.entity.id n).mp hn)
  files path f found := by
    have entered : (s.sources.registerAll [d.path]).find? path = some f := found
    rcases SourceTable.known_or_made_of_registerAll entered with known | ⟨hpath, _⟩
    · exact h.files path f known
    · rw [List.mem_singleton.mp hpath]
      exact hd _ (by simp [Declaration.identities])

theorem resolved (h : Within p s) {name : String} {owner : Handle} {t : SymbolTable}
    (ok : s.symbols.resolveClass name = .ok (owner, t)) : Within p { s with symbols := t } where
  names other h' found :=
    h.names other h' (SymbolTable.lookup_congr (SymbolTable.entries_of_resolveClass ok) ▸ found)
  nodes := h.nodes
  usages := h.usages
  files := h.files

/-- An import brings those of its node and its file, if it is placed. -/
theorem imported (h : Within p s) {importer : FileId} {entry : ImportEntry}
    (ok : Imported importer entry s s') (hp : ∀ i ∈ importIdentities entry, p i) : Within p s' := by
  obtain ⟨hpath, _, located, _, added⟩ := ok
  obtain ⟨hfile, hnode⟩ := mem_importIdentities hpath located
  refine h.effect added ?_ (fun _ hx => nomatch hx) ?_
  · intro path hpath
    rw [List.mem_singleton.mp hpath]
    exact hp _ hfile
  · intro n hn
    rw [List.mem_singleton.mp hn]
    exact ⟨rfl, hp _ hnode⟩

variable [Recorder σ]

/-- **An accepted event brings nothing but its own identities.** -/
theorem accepted {e : Event} (h : Within p s) (ok : Accepted s s' e) (hp : ∀ i ∈ identities e, p i) :
    Within p s' := by
  have seen : ∀ t, (∀ path ∈ (reported t e).map Sighting.path, p (.file path)) ∧
      ∀ x ∈ reported t e, p x.node.identity := by
    intro t
    constructor
    · intro path hpath
      obtain ⟨x, hx, rfl⟩ := List.mem_map.mp hpath
      exact hp _ (mem_identities_reported hx).2.1
    · intro x hx
      exact hp _ (mem_identities_reported hx).2.2
  cases ok with
  | @committed r path code told store hpath quiet ok done =>
    obtain ⟨names, nodes, usages, files⟩ := h.quiet quiet
    rw [done]
    refine ⟨names, nodes, usages, ?_⟩
    intro other f found
    have found' : ((told.sources.setStatus path (announcedFile path code).status).announce
        (announcedFile path code).id).find? other = some f := found
    rw [SourceTable.find?_announce, SourceTable.find?_setStatus] at found'
    split at found'
    · rename_i same
      refine hp _ ?_
      simp [identities, hpath, same]
    · exact files other f found'
  | @declared _ d t hd ok done =>
    have entered := h.enter ok fun i hi => hp i (mem_identities_declared hd hi)
    refine entered.effect done (seen t).1 (seen t).2 ?_
    intro n hn
    rw [Declared.nodes_buffered] at hn
    cases hn
  | @completed r c owner t hc ok done =>
    exact (h.resolved ok).effect done (seen t).1 (seen t).2 fun n hn => nomatch hn
  | @imported r path importer found done =>
    rw [done]
    refine imports_induction h (fun _ _ h quiet => h.quiet quiet) ?_
    intro entry hentry _ _ h ok
    exact h.imported ok fun i hi => hp i (mem_identities_imported hentry hi)

theorem invariant : Invariant (fun e => ∀ i ∈ identities e, p i) (Within (σ := σ) p) where
  quiet h done := h.quiet done
  accepted h hp ok := h.accepted ok hp

/-- **A session stays within the identities of its events.** -/
theorem run {events : List Event} (h : Within p s) (hp : ∀ i ∈ events.flatMap identities, p i) :
    Within p (s.run events) :=
  invariant.run h fun e he i hi => hp i (List.mem_flatMap.mpr ⟨e, he, hi⟩)

end Within

/-- If the entities of a run have distinct identifiers, names with the identifier of an entity are its
name. -/
theorem owner_id_eq_iff {ids : List Identity} (within : Within (· ∈ ids) s)
    (apart : Apart .entity ids) {name other : String} {h h' : Handle}
    (known : s.symbols.lookup name = some h) (known' : s.symbols.lookup other = some h') :
    h'.id = h.id ↔ other = name ∧ h' = h := by
  constructor
  · intro same
    obtain ⟨id, hp⟩ := within.names name h known
    obtain ⟨id', hp'⟩ := within.names other h' known'
    rw [id, id'] at same
    obtain ⟨_, rfl⟩ := apart.entity_eq hp' hp same
    exact ⟨rfl, Option.some.inj (known'.symm.trans known)⟩
  · rintro ⟨rfl, rfl⟩
    rfl

end Session

end SymbolIndex
