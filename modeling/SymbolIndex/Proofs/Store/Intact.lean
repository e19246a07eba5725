import SymbolIndex.Proofs.Session.Coherence
import SymbolIndex.Proofs.Store.Batch
import SymbolIndex.Store.Query

/-!
# `Proofs.Store.Intact` — no row dangles

No table of a store refers to another by a constraint, so a store can hold rows that point nowhere. The
stores that sessions write do not: `Intact` says, table by table, what each column of identifiers refers
to. Committing a file keeps it because no file goes away. A batch keeps it whatever it leaves out, since
a record is left out only in favour of a row with the same identifier; for files this needs that the
identifier of a file is that of its path (`Filed`), because a file is also left out where its path is
there.

## Contents
- `HasFile`, `HasNode`, `HasEntity`, `Intact`.
- `Filed`; `Intact.persistFile`.
- `Intact.writeAll`: a batch of a graph that points at itself and at files that are there.
-/

namespace SymbolIndex.Store

open Session (memberEntity)

/-- The identifier in a column is that of a file. -/
def HasFile (s : Store) (d : Datum) : Prop :=
  ∃ r ∈ s.files, d = .ofId r.id

/-- The identifier in a column is that of a node. -/
def HasNode (s : Store) (d : Datum) : Prop :=
  ∃ r ∈ s.nodes, d = .ofId r.id

/-- The identifier in a column is that of an entity of the kind. -/
def HasEntity (s : Store) (kind : EntityKind) (d : Datum) : Prop :=
  ∃ r ∈ s.entities kind, d = .ofId r.id

/-- Every column of identifiers refers to rows that are there. -/
structure Intact (s : Store) : Prop where
  nodes : ∀ r ∈ s.nodes, s.HasFile r.file
  /-- Variables, functions and classes have their declaration nodes. -/
  entities : ∀ kind, ∀ r ∈ s.entities kind, s.HasNode r.node
  functionVariables : ∀ r ∈ s.functionVariables,
    s.HasEntity .function r.functionId ∧ s.HasEntity .variable r.variableId
  /-- A method is a function, an attribute a variable, a class a class. -/
  members : ∀ r ∈ s.members, s.HasEntity .classType r.owner ∧ s.HasNode r.node ∧
    ∃ kind, r.kind = Vocabulary.word kind ∧ s.HasEntity (memberEntity kind) r.member
  inheritance : ∀ r ∈ s.inheritance, s.HasEntity .classType r.derived ∧ s.HasEntity .classType r.base
  imports : ∀ r ∈ s.imports, s.HasNode r.node ∧ s.HasFile r.importer ∧ s.HasFile r.imported ∧
    ∀ d, r.symbol = some d → ∃ kind, s.HasEntity kind d
  documentation : ∀ r ∈ s.documentation, ∃ kind, r.kind = Vocabulary.word kind ∧
    s.HasEntity (documentedEntity kind) r.documented
  types : ∀ r ∈ s.types, (∃ kind, s.HasEntity kind r.symbol) ∧ ∃ kind, s.HasEntity kind r.type

/-- Every file has the identifier of its path. -/
def Filed (s : Store) : Prop :=
  ∀ r ∈ s.files, r.id = fileId r.path

/-- No row dangles where there is none. -/
theorem intact_empty : Intact empty := by
  constructor
  case entities => intro kind r hr; cases kind <;> exact nomatch hr
  all_goals exact fun _ hr => nomatch hr

theorem filed_empty : Filed empty :=
  fun _ hr => nomatch hr

/-! ## Committing a file -/

variable {s s' : Store} {f : File} {action : BuildAction}

/-- A file that is committed under the identifier of its path has that identifier in its row. -/
theorem Filed.persistFile (h : s.Filed) (hf : f.id = fileId f.path)
    (ok : s.persistFile f action = .ok s') : s'.Filed := by
  obtain ⟨files, _, _, _, committed, rfl⟩ := persistFile_eq_ok ok
  intro r hr
  rcases (commitFile_eq_ok committed).2.2 r hr with ⟨old, hold, id, path⟩ | rfl
  · rw [id, path]
    exact h old hold
  · exact hf

/-- A commit leaves no row dangling, since it takes no file away. -/
theorem Intact.persistFile (h : s.Intact) (ok : s.persistFile f action = .ok s') : s'.Intact := by
  obtain ⟨files, actions, sources, lastAction, committed, rfl⟩ := persistFile_eq_ok ok
  have kept : ∀ d, s.HasFile d → HasFile { s with files, actions, sources, lastAction } d := by
    rintro d ⟨r, hr, rfl⟩
    obtain ⟨r', hr', same⟩ := (commitFile_eq_ok committed).1 r hr
    exact ⟨r', hr', same ▸ rfl⟩
  exact {
    nodes := fun r hr => kept _ (h.nodes r hr)
    entities := fun kind r hr => h.entities kind r (by cases kind <;> exact hr)
    functionVariables := h.functionVariables
    members := h.members
    inheritance := h.inheritance
    imports := fun r hr => by
      obtain ⟨node, importer, imported, symbol⟩ := h.imports r hr
      exact ⟨node, kept _ importer, kept _ imported, symbol⟩
    documentation := h.documentation
    types := h.types }

/-! ## Writing a batch -/

section Batch

variable {b : Batch} {files : List File} {g : Graph} {known : FileId → Prop}

/-- A batch of such files brings rows with the identifiers of their paths. -/
theorem Filed.writeAll (h : b.store.Filed) (hf : ∀ f ∈ files, f.id = fileId f.path) :
    (b.writeAll files g).store.Filed := by
  rw [Batch.store_writeAll]
  intro r hr
  rcases mem_merge hr with old | new
  · exact h r old
  · obtain ⟨f, hf', rfl⟩ := List.mem_map.mp new
    exact hf f hf'

/-- A file that is offered is there afterwards. If it was left out for its path, the row with that path
has its identifier too. -/
theorem hasFile_writeAll (h : b.store.Filed) (hf : ∀ f ∈ files, f.id = fileId f.path) {f : File}
    (offered : f ∈ files) : (b.writeAll files g).store.HasFile (.ofId f.id) := by
  have filed : (b.writeAll files g).store.Filed := h.writeAll hf
  rw [Batch.store_writeAll] at filed ⊢
  obtain ⟨r, hr, same⟩ := covered_merge FileRow.clash b.store.files
    (List.mem_map.mpr ⟨f, offered, rfl⟩)
  refine ⟨r, hr, ?_⟩
  rcases same with rfl | clashes
  · rfl
  · rcases (Bool.or_eq_true _ _).mp clashes with id | path
    · exact congrArg Datum.ofId (of_decide_eq_true id)
    · have samePath : f.path = r.path := of_decide_eq_true path
      rw [filed r hr, hf f offered, samePath]

/-- A batch takes no file away. -/
theorem hasFile_writeAll_of_hasFile {d : Datum} (h : b.store.HasFile d) :
    (b.writeAll files g).store.HasFile d := by
  rw [Batch.store_writeAll]
  obtain ⟨r, hr, same⟩ := h
  exact ⟨r, mem_merge_of_mem hr, same⟩

/-- A node that is offered is there afterwards, or one with its identifier is. -/
theorem hasNode_writeAll {id : NodeId} (h : g.HasNode id) :
    (b.writeAll files g).store.HasNode (.ofId id) := by
  rw [Batch.store_writeAll]
  have offered : id ∈ (g.allNodes.map NodeRow.ofNode).map NodeRow.id := by
    obtain ⟨n, hn, rfl⟩ := List.mem_map.mp h
    exact List.mem_map.mpr ⟨_, List.mem_map.mpr ⟨n, List.mem_append_left _ hn, rfl⟩, rfl⟩
  obtain ⟨r, hr, rfl⟩ := List.mem_map.mp (mem_keys_merge b.store.nodes offered)
  exact ⟨r, hr, rfl⟩

theorem hasNode_writeAll_of_hasNode {d : Datum} (h : b.store.HasNode d) :
    (b.writeAll files g).store.HasNode d := by
  rw [Batch.store_writeAll]
  obtain ⟨r, hr, same⟩ := h
  exact ⟨r, mem_merge_of_mem hr, same⟩

/-- The three tables of entities are merged alike. -/
theorem entities_writeAll (b : Batch) (files : List File) (g : Graph) (kind : EntityKind) :
    (b.writeAll files g).store.entities kind =
      merge EntityRow.clash (b.store.entities kind) ((g.entities kind).map EntityRow.ofEntity) := by
  rw [Batch.store_writeAll]
  cases kind <;> simp only [Store.entities, Graph.entities, List.map_map] <;> rfl

/-- After a batch every entity of the graph is in the table of its kind. -/
theorem hasEntity_writeAll {kind : EntityKind} {id : EntityId} (h : g.Has kind id) :
    (b.writeAll files g).store.HasEntity kind (.ofId id) := by
  unfold HasEntity
  rw [entities_writeAll]
  have offered : id ∈ ((g.entities kind).map EntityRow.ofEntity).map EntityRow.id := by
    obtain ⟨e, he, rfl⟩ := List.mem_map.mp h
    exact List.mem_map.mpr ⟨_, List.mem_map.mpr ⟨e, he, rfl⟩, rfl⟩
  obtain ⟨r, hr, rfl⟩ := List.mem_map.mp (mem_keys_merge (b.store.entities kind) offered)
  exact ⟨r, hr, rfl⟩

theorem hasEntity_writeAll_of_hasEntity {kind : EntityKind} {d : Datum}
    (h : b.store.HasEntity kind d) : (b.writeAll files g).store.HasEntity kind d := by
  unfold HasEntity
  rw [entities_writeAll]
  obtain ⟨r, hr, same⟩ := h
  exact ⟨r, mem_merge_of_mem hr, same⟩

/-- A variable of a function refers to the function and to one that it lists. -/
theorem mem_ofFunction {f : Function} {r : FunctionVariableRow}
    (h : r ∈ FunctionVariableRow.ofFunction f) : r.functionId = .ofId f.entity.id ∧
      ∃ v ∈ f.parameters ++ f.locals, r.variableId = .ofId v := by
  have ofList : ∀ role vars, r ∈ FunctionVariableRow.ofList f.entity.id role vars →
      r.functionId = .ofId f.entity.id ∧ ∃ v ∈ vars, r.variableId = .ofId v := by
    intro role vars h
    obtain ⟨⟨v, i⟩, hv, rfl⟩ := List.mem_map.mp h
    exact ⟨rfl, v, List.fst_mem_of_mem_zipIdx hv, rfl⟩
  rcases List.mem_append.mp h with parameter | localVariable
  · obtain ⟨own, v, hv, same⟩ := ofList _ _ parameter
    exact ⟨own, v, List.mem_append_left _ hv, same⟩
  · obtain ⟨own, v, hv, same⟩ := ofList _ _ localVariable
    exact ⟨own, v, List.mem_append_right _ hv, same⟩

/-- **A batch of a graph that points at itself leaves no row dangling**, whatever it leaves out. -/
theorem Intact.writeAll (h : b.store.Intact) (filed : b.store.Filed)
    (hf : ∀ f ∈ files, f.id = fileId f.path) (points : g.PointsInto g known)
    (hk : ∀ id, known id → b.store.HasFile (.ofId id) ∨ ∃ f ∈ files, f.id = id) :
    (b.writeAll files g).store.Intact := by
  have file : ∀ id, known id → (b.writeAll files g).store.HasFile (.ofId id) := by
    intro id known
    rcases hk id known with old | ⟨f, offered, rfl⟩
    · exact hasFile_writeAll_of_hasFile old
    · exact hasFile_writeAll filed hf offered
  have tables := Batch.store_writeAll b files g
  -- in each table, a row that was there keeps its references and a new one has those of its record
  constructor
  case nodes =>
    intro r hr
    rw [tables] at hr
    rcases mem_merge hr with old | new
    · exact hasFile_writeAll_of_hasFile (h.nodes r old)
    · obtain ⟨n, hn, rfl⟩ := List.mem_map.mp new
      exact file _ (points.nodes n hn)
  case entities =>
    intro kind r hr
    rw [entities_writeAll] at hr
    rcases mem_merge hr with old | new
    · exact hasNode_writeAll_of_hasNode (h.entities kind r old)
    · obtain ⟨e, he, rfl⟩ := List.mem_map.mp new
      exact hasNode_writeAll (points.entities kind e he)
  case functionVariables =>
    intro r hr
    rw [tables] at hr
    rcases Batch.mem_takeVariables hr with old | ⟨f, hf', new⟩
    · exact (h.functionVariables r old).imp hasEntity_writeAll_of_hasEntity
        hasEntity_writeAll_of_hasEntity
    · obtain ⟨own, v, hv, same⟩ := mem_ofFunction new
      have function : g.Has .function f.entity.id :=
        List.mem_map.mpr ⟨f.entity, List.mem_map.mpr ⟨f, hf', rfl⟩, rfl⟩
      rw [own, same]
      exact ⟨hasEntity_writeAll function, hasEntity_writeAll (points.functionVariables f hf' v hv)⟩
  case members =>
    intro r hr
    rw [tables] at hr
    rcases mem_merge hr with old | new
    · obtain ⟨owner, node, kind, word, member⟩ := h.members r old
      exact ⟨hasEntity_writeAll_of_hasEntity owner, hasNode_writeAll_of_hasNode node, kind, word,
        hasEntity_writeAll_of_hasEntity member⟩
    · obtain ⟨m, hm, rfl⟩ := List.mem_map.mp new
      obtain ⟨owner, member, node⟩ := points.members m hm
      exact ⟨hasEntity_writeAll owner, hasNode_writeAll node, m.kind, rfl, hasEntity_writeAll member⟩
  case inheritance =>
    intro r hr
    rw [tables] at hr
    rcases mem_merge hr with old | new
    · exact (h.inheritance r old).imp hasEntity_writeAll_of_hasEntity hasEntity_writeAll_of_hasEntity
    · obtain ⟨e, he, rfl⟩ := List.mem_map.mp new
      exact (points.inheritance e he).imp hasEntity_writeAll hasEntity_writeAll
  case imports =>
    intro r hr
    rw [tables] at hr
    rcases mem_merge hr with old | new
    · obtain ⟨node, importer, imported, symbol⟩ := h.imports r old
      exact ⟨hasNode_writeAll_of_hasNode node, hasFile_writeAll_of_hasFile importer,
        hasFile_writeAll_of_hasFile imported,
        fun d hd => (symbol d hd).imp fun _ => hasEntity_writeAll_of_hasEntity⟩
    · obtain ⟨i, hi, rfl⟩ := List.mem_map.mp new
      obtain ⟨node, importer, imported, symbol⟩ := points.imports i hi
      refine ⟨hasNode_writeAll node, file _ importer, file _ imported, ?_⟩
      intro d hd
      obtain ⟨id, hid, rfl⟩ := Option.map_eq_some_iff.mp hd
      exact (symbol id hid).imp fun _ => hasEntity_writeAll
  case documentation =>
    intro r hr
    rw [tables] at hr
    rcases mem_merge hr with old | new
    · obtain ⟨kind, word, entity⟩ := h.documentation r old
      exact ⟨kind, word, hasEntity_writeAll_of_hasEntity entity⟩
    · obtain ⟨d, hd, rfl⟩ := List.mem_map.mp new
      exact ⟨d.kind, rfl, hasEntity_writeAll (points.documentation d hd)⟩
  case types =>
    intro r hr
    rw [tables] at hr
    rcases mem_merge hr with old | new
    · exact (h.types r old).imp (Exists.imp fun _ => hasEntity_writeAll_of_hasEntity)
        (Exists.imp fun _ => hasEntity_writeAll_of_hasEntity)
    · obtain ⟨t, ht, rfl⟩ := List.mem_map.mp new
      exact (points.types t ht).imp (Exists.imp fun _ => hasEntity_writeAll)
        (Exists.imp fun _ => hasEntity_writeAll)

end Batch

end SymbolIndex.Store
