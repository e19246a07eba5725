import SymbolIndex.Proofs.Session.Coherence
import SymbolIndex.Proofs.Session.Unique
import SymbolIndex.Proofs.Store.FirstWriter

/-!
# `Proofs.Session.Imports` — of the imports of a name at a place, the first is kept

An import is absorbed if its node is buffered already. The node has the name of the symbol, or the path of
the module where there is no symbol, and the location; it does not have the importing file or the imported
one. So the buffered imports are those that came first under their name at their location (`Sited`), and
an import that comes later is represented by one of another module if their names and locations meet
(`second_module_is_absorbed`). Nothing is counted then.

Where name and location tell importing and imported files apart (`Telling`), nothing is lost: every import
with an announced module and a complete place is there afterwards, and one is absorbed only if it was there
before.

## Contents
- `ImportSite`, `siteOf?`, `sitesOf`, `importSites`: the imports of records that are complete.
- `Sited`, kept by each import, each event and a run.
- `Telling`, `Graph.Holds`.
- `imports_are_kept_by_name_and_location`, `second_module_is_absorbed`.
-/

namespace SymbolIndex

open Store (FirstCome)

/-- An import with an announced module and a complete place. It is named for the symbol, or for the module
if there is none. -/
structure ImportSite where
  importer : FileId
  imported : FileId
  name : String
  location : Location
  deriving DecidableEq

/-- What a buffered import connects. -/
def Import.ends (i : Import) : NodeId × FileId × FileId :=
  (i.node, i.importer, i.imported)

namespace ImportSite

variable {x y : ImportSite}

/-- The declaration node at the import. -/
def node (x : ImportSite) : Node :=
  Node.declaration x.name .module x.location

/-- What the node depends on. -/
def key (x : ImportSite) : String × Location :=
  (x.name, x.location)

/-- What an import of the site connects. -/
def ends (x : ImportSite) : NodeId × FileId × FileId :=
  (x.node.id, x.importer, x.imported)

theorem node_eq_of_key_eq (same : x.key = y.key) : x.node = y.node := by
  obtain ⟨names, locations⟩ := Prod.mk.inj same
  unfold node
  rw [names, locations]

end ImportSite

/-- An import of the site is buffered together with its node. -/
def Graph.Holds (g : Graph) (x : ImportSite) : Prop :=
  x.node ∈ g.nodes ∧ ∃ i ∈ g.imports, i.ends = x.ends

namespace Session

variable {σ : Type} {s s' : Session σ} {importer : FileId} {entry : ImportEntry} {x : ImportSite}
  {xs : List ImportSite} {ids : List Identity}

/-! ## Sites -/

/-- The site of an import, given the files that are known. -/
def siteOf? (importer : FileId) (sources : SourceTable) (entry : ImportEntry) : Option ImportSite := do
  let path ← nonEmpty entry.path
  let imported ← sources.findAnnounced? path
  let (_, location) ← Place.locate? entry.place
  some ⟨importer, imported.id, (nonEmpty entry.symbol).getD path, location⟩

theorem siteOf?_eq_some_iff {sources : SourceTable} : siteOf? importer sources entry = some x ↔
    ∃ path imported file location, nonEmpty entry.path = some path ∧
      sources.findAnnounced? path = some imported ∧
      Place.locate? entry.place = some (file, location) ∧
      ⟨importer, imported.id, (nonEmpty entry.symbol).getD path, location⟩ = x := by
  simp only [siteOf?, Option.bind_eq_bind, Option.bind_eq_some_iff, Option.some.injEq, Prod.exists]
  constructor
  · rintro ⟨path, hpath, imported, found, file, location, located, rfl⟩
    exact ⟨path, imported, file, location, hpath, found, located, rfl⟩
  · rintro ⟨path, imported, file, location, hpath, found, located, rfl⟩
    exact ⟨path, hpath, imported, found, file, location, located, rfl⟩

/-- The sites of several imports, each as the session stands at its turn. -/
def sitesOf (importer : FileId) (s : Session σ) : List ImportEntry → List ImportSite
  | [] => []
  | entry :: entries =>
    (siteOf? importer s.sources entry).toList ++ sitesOf importer (addImport importer s entry) entries

theorem sitesOf_append (importer : FileId) (s : Session σ) (entries more : List ImportEntry) :
    sitesOf importer s (entries ++ more) =
      sitesOf importer s entries ++ sitesOf importer (entries.foldl (addImport importer) s) more := by
  induction entries generalizing s with
  | nil => rfl
  | cons entry entries ih =>
    rw [List.cons_append, sitesOf, sitesOf, ih, List.append_assoc]
    rfl

/-- The sites of an event that a session takes in. -/
def importSites [Recorder σ] (s : Session σ) : Event → List ImportSite
  | .import r =>
    if s.refuses (.import r) then []
    else match (nonEmpty r.importer).bind s.sources.findAnnounced? with
      | none => []
      | some importer => sitesOf importer.id (s.counted (.import r)) (importEntries r)
  | _ => []

/-- The sites of the events of a run. -/
def importSitesAmong [Recorder σ] (s : Session σ) : List Event → List ImportSite
  | [] => []
  | e :: events => s.importSites e ++ (s.ingest e).importSitesAmong events

/-- **An import does nothing without a site. With a site it buffers an import of it, unless the node is
there.** -/
theorem addImport_site (importer : FileId) (s : Session σ) (entry : ImportEntry) :
    let s' := addImport importer s entry
    (siteOf? importer s.sources entry = none ∧ Effect s s' [] [] {}) ∨
      ∃ x, siteOf? importer s.sources entry = some x ∧
        (s.graph.hasNode x.node.id = true ∧ Effect s s' [] [] {} ∨
          s.graph.hasNode x.node.id = false ∧ ∃ file symbol, Effect s s' [file] []
            { nodes := [x.node], imports := [⟨x.node.id, x.importer, x.imported, symbol⟩] }) := by
  intro s'
  rcases addImport_cases importer s entry with
    ⟨absorbs, quiet⟩ | @⟨path, file, imported, location, hpath, found, located, free, added⟩
  · cases site : siteOf? importer s.sources entry with
    | none => exact Or.inl ⟨rfl, quiet⟩
    | some x =>
      obtain ⟨path, imported, file, location, hpath, found, located, rfl⟩ := siteOf?_eq_some_iff.mp site
      have there := absorbs path file location hpath (by rw [found]; rfl) located
      exact Or.inr ⟨_, rfl, Or.inl ⟨there, quiet⟩⟩
  · have site : siteOf? importer s.sources entry = some _ := siteOf?_eq_some_iff.mpr
      ⟨path, imported, file, location, hpath, found, located, rfl⟩
    exact Or.inr ⟨_, site, Or.inr ⟨free, file, _, added⟩⟩

/-- Imports do nothing to the files but make some known. -/
theorem sources_addImports (importer : FileId) (s : Session σ) (entries : List ImportEntry) :
    ∃ paths, (entries.foldl (addImport importer) s).sources = s.sources.registerAll paths := by
  refine imports_induction (P := fun u => ∃ paths, u.sources = s.sources.registerAll paths) ⟨[], rfl⟩ ?_ ?_
  · rintro u u' ⟨paths, known⟩ quiet
    exact ⟨paths, quiet.sources.trans known⟩
  · rintro entry _ u u' ⟨paths, known⟩ @⟨_, file, _, _, _, _, _, _, added⟩
    refine ⟨paths ++ [file], ?_⟩
    rw [added.sources, known, SourceTable.registerAll_append]

/-- A module that is announced before some imports is so at the turn of each. -/
theorem findAnnounced?_addImports {path : String} {f : File} (importer : FileId) (entries : List ImportEntry)
    (announced : s.sources.findAnnounced? path = some f) :
    (entries.foldl (addImport importer) s).sources.findAnnounced? path = some f := by
  obtain ⟨paths, known⟩ := sources_addImports importer s entries
  obtain ⟨found, isAnnounced⟩ := Coherent.find?_of_findAnnounced? announced
  rw [known]
  refine Option.filter_eq_some_iff.mpr ⟨SourceTable.find?_registerAll_of_find? found paths, ?_⟩
  rw [SourceTable.isAnnounced_registerAll]
  exact isAnnounced

/-! ## The first of each name and location -/

/-- The imports of a session are the first of some sites under each name at each location, and its module
nodes are the nodes of these sites. -/
structure Sited (s : Session σ) (xs : List ImportSite) : Prop where
  modules : ∀ n ∈ s.graph.nodes, n.symbol = .module → ∃ x ∈ xs, x.node = n
  nodes : ∀ x ∈ xs, x.node ∈ s.graph.nodes
  imports : ∃ kept, FirstCome ImportSite.key Eq [] xs kept ∧
    s.graph.imports.map Import.ends = kept.map ImportSite.ends

namespace Sited

theorem begin (store : σ) (options : Options) : Sited (begin store options) [] where
  modules _ hn := nomatch hn
  nodes _ hx := nomatch hx
  imports := ⟨[], .nothing, rfl⟩

/-- Buffers may grow by anything but imports and their nodes. -/
theorem grow {g : Graph} (h : Sited s xs) (graph : s'.graph = s.graph ++ g)
    (noModules : ∀ n ∈ g.nodes, n.symbol ≠ .module) (noImports : g.imports = []) : Sited s' xs where
  modules n hn isModule := by
    rw [graph, Graph.nodes_append] at hn
    rcases List.mem_append.mp hn with old | new
    · exact h.modules n old isModule
    · exact absurd isModule (noModules n new)
  nodes x hx := by
    rw [graph, Graph.nodes_append]
    exact List.mem_append_left _ (h.nodes x hx)
  imports := by
    rw [graph, Graph.imports_append, noImports, List.append_nil]
    exact h.imports

theorem quiet (h : Sited s xs) (done : Effect s s' [] [] {}) : Sited s' xs :=
  h.grow done.graph (fun _ hn => nomatch hn) rfl

/-- A site whose name and location have been there leaves everything as it is. -/
theorem absorbed (h : Sited s xs) (done : Effect s s' [] [] {}) (there : x.key ∈ xs.map ImportSite.key) :
    Sited s' (xs ++ [x]) := by
  obtain ⟨modules, nodes, kept, first, imports⟩ := h.quiet done
  obtain ⟨y, hy, same⟩ := List.mem_map.mp there
  constructor
  case modules =>
    intro n hn isModule
    obtain ⟨z, hz, own⟩ := modules n hn isModule
    exact ⟨z, List.mem_append_left _ hz, own⟩
  case nodes =>
    intro z hz
    rcases List.mem_append.mp hz with old | new
    · exact nodes z old
    · rw [List.mem_singleton.mp new, ← ImportSite.node_eq_of_key_eq same]
      exact nodes y hy
  case imports => exact ⟨kept, first.leftOut (first.row_mem hy) same.symm, imports⟩

/-- A site with a new name and location is buffered. -/
theorem taken {file : String} {symbol : Option EntityId} (h : Sited s xs)
    (done : Effect s s' [file] []
      { nodes := [x.node], imports := [⟨x.node.id, x.importer, x.imported, symbol⟩] })
    (free : x.key ∉ xs.map ImportSite.key) : Sited s' (xs ++ [x]) := by
  obtain ⟨kept, first, imports⟩ := h.imports
  constructor
  case modules =>
    intro n hn isModule
    rw [done.graph, Graph.nodes_append] at hn
    rcases List.mem_append.mp hn with old | new
    · obtain ⟨y, hy, own⟩ := h.modules n old isModule
      exact ⟨y, List.mem_append_left _ hy, own⟩
    · exact ⟨x, List.mem_append_right _ List.mem_cons_self, (List.mem_singleton.mp new).symm⟩
  case nodes =>
    intro y hy
    rw [done.graph, Graph.nodes_append]
    rcases List.mem_append.mp hy with old | new
    · exact List.mem_append_left _ (h.nodes y old)
    · exact List.mem_append_right _ (List.mem_singleton.mpr (congrArg _ (List.mem_singleton.mp new)))
  case imports =>
    refine ⟨kept ++ [x], first.taken ?_, ?_⟩
    · rintro key hkey rfl
      exact free (List.map_subset _ first.sublist.subset hkey)
    · rw [done.graph, Graph.imports_append, List.map_append, imports, List.map_append]
      rfl

/-- **The node of a site is there exactly if its name and location have been**, as long as the identifiers
of nodes are distinct. -/
theorem hasNode_iff (h : Sited s xs) (within : Within (· ∈ ids) s) (apart : Apart .node ids)
    (named : x.node.identity ∈ ids) :
    s.graph.hasNode x.node.id = true ↔ x.key ∈ xs.map ImportSite.key := by
  rw [Graph.hasNode_iff]
  constructor
  · intro there
    obtain ⟨n, hn, same⟩ := List.mem_map.mp there
    obtain ⟨made, hp⟩ := within.nodes n hn
    -- the node is a declaration, so its identifier is the hash of its content
    have hashed := (id_of_eq_make made).1
    have hashes : n.identity.hash = x.node.identity.hash := congrArg Id.val (hashed.symm.trans same)
    obtain ⟨name, symbol, _, location⟩ := Identity.node.inj (apart _ hp _ named rfl rfl hashes)
    obtain ⟨y, hy, rfl⟩ := h.modules n hn symbol
    exact List.mem_map.mpr ⟨y, hy, Prod.ext name location⟩
  · intro known
    obtain ⟨y, hy, same⟩ := List.mem_map.mp known
    rw [← ImportSite.node_eq_of_key_eq same]
    exact List.mem_map.mpr ⟨y.node, h.nodes y hy, rfl⟩

theorem addImport (h : Sited s xs) (within : Within (· ∈ ids) s) (apart : Apart .node ids)
    (named : ∀ i ∈ importIdentities entry, i ∈ ids) (importer : FileId) :
    Sited (addImport importer s entry) (xs ++ (siteOf? importer s.sources entry).toList) := by
  rcases addImport_site importer s entry with ⟨none, quiet⟩ | ⟨x, site, done⟩
  · rw [none, Option.toList_none, List.append_nil]
    exact h.quiet quiet
  · rw [site, Option.toList_some]
    have hnode : x.node.identity ∈ ids := by
      obtain ⟨_, _, _, _, hpath, _, located, rfl⟩ := siteOf?_eq_some_iff.mp site
      exact named _ (mem_importIdentities hpath located).2
    have known := h.hasNode_iff within apart hnode
    rcases done with ⟨there, quiet⟩ | ⟨free, _, _, added⟩
    · exact h.absorbed quiet (known.mp there)
    · exact h.taken added fun there => Bool.eq_false_iff.mp free (known.mpr there)

/-- Imports one after another. -/
theorem addImports {entries : List ImportEntry} (h : Sited s xs) (within : Within (· ∈ ids) s)
    (apart : Apart .node ids) (named : ∀ entry ∈ entries, ∀ i ∈ importIdentities entry, i ∈ ids)
    (importer : FileId) :
    Within (· ∈ ids) (entries.foldl (Session.addImport importer) s) ∧
      Sited (entries.foldl (Session.addImport importer) s) (xs ++ sitesOf importer s entries) := by
  -- along the entries; the sites of those that are through join the list
  induction entries generalizing s xs with
  | nil => exact ⟨within, (List.append_nil xs).symm ▸ h⟩
  | cons entry entries ih =>
    have here := named entry List.mem_cons_self
    have stays : Within (· ∈ ids) (Session.addImport importer s entry) := by
      rcases addImport_cases importer s entry with ⟨_, quiet⟩ | ok
      · exact within.quiet quiet
      · exact within.imported ok here
    rw [sitesOf, ← List.append_assoc]
    exact ih (h.addImport within apart here importer) stays fun later hlater =>
      named later (List.mem_cons_of_mem entry hlater)

end Sited

variable [Recorder σ] {e : Event}

theorem importSites_of_refuses (refused : s.refuses e = true) : s.importSites e = [] := by
  cases e with
  | «import» r => simp only [importSites, refused, if_true]
  | _ => rfl

/-- Imports that are taken in come from an announced file, and each has its turn. -/
theorem imports_of_taken {r : ImportReport} (taken : s.refuses (.import r) = false) :
    ∃ path importer, nonEmpty r.importer = some path ∧ s.sources.findAnnounced? path = some importer ∧
      s.ingest (.import r) =
        (importEntries r).foldl (addImport importer.id) (s.counted (.import r)) ∧
      s.importSites (.import r) = sitesOf importer.id (s.counted (.import r)) (importEntries r) := by
  obtain ⟨s', ok⟩ := refuses_eq_false_iff.mp taken
  obtain ⟨path, importer, hpath, _, _, found, done⟩ := acceptImport_eq_ok.mp ok
  have found : s.sources.findAnnounced? path = some importer := found
  refine ⟨path, importer, hpath, found, (ingest_of_accept ok).1.trans done, ?_⟩
  simp only [importSites, taken, Bool.false_eq_true, if_false, hpath, Option.bind_some, found]

namespace Sited

/-- Events that are no imports buffer neither imports nor nodes of modules. -/
theorem accepted_other (h : Sited s xs) (ok : Accepted s s' e) (other : ∀ r, e ≠ .import r) :
    Sited s' xs := by
  cases ok with
  | @committed r path code told store hpath quiet ok done =>
    obtain ⟨modules, nodes, imports⟩ := h.quiet quiet
    rw [done]
    exact ⟨modules, nodes, imports⟩
  | @declared _ d t hd ok done =>
    refine h.grow (graph_declared done) ?_ ?_
    · intro n hn
      rw [Graph.nodes_append, Declared.nodes_buffered, List.append_nil] at hn
      unfold declaredNodes at hn
      split at hn
      · cases hn
      · rw [List.mem_singleton.mp hn]
        show d.declaration.kind.symbolType ≠ .module
        cases d.declaration.kind <;> decide
    · rw [Graph.imports_append, Declared.imports_buffered]
      rfl
  | completed hc ok done => exact h.grow done.graph (fun _ hn => nomatch hn) rfl
  | imported => exact absurd rfl (other _)

theorem ingest (h : Sited s xs) (within : Within (· ∈ ids) s) (apart : Apart .node ids)
    (named : ∀ i ∈ identities e, i ∈ ids) : Sited (s.ingest e) (xs ++ s.importSites e) := by
  rcases ingest_cases s e with ⟨refused, quiet⟩ | ⟨taken, ok⟩
  · rw [importSites_of_refuses refused, List.append_nil]
    exact h.quiet quiet
  · have counted := effect_counted s e
    by_cases imports : ∃ r, e = .import r
    · obtain ⟨r, rfl⟩ := imports
      obtain ⟨path, importer, _, _, ingested, sites⟩ := imports_of_taken taken
      rw [ingested, sites]
      exact ((h.quiet counted).addImports (within.quiet counted) apart
        (fun entry hentry i hi => named i (mem_identities_imported hentry hi)) importer.id).2
    · have other : ∀ r, e ≠ .import r := fun r same => imports ⟨r, same⟩
      have none : s.importSites e = [] := by
        cases e with
        | «import» r => exact absurd rfl (other r)
        | _ => rfl
      rw [none, List.append_nil]
      exact (h.quiet counted).accepted_other ok other

/-- **A run keeps the first import of each name and location.** -/
theorem run {events : List Event} (h : Sited s xs) (within : Within (· ∈ ids) s)
    (apart : Apart .node ids) (named : ∀ i ∈ events.flatMap identities, i ∈ ids) :
    Sited (s.run events) (xs ++ s.importSitesAmong events) := by
  induction events generalizing s xs with
  | nil => exact (List.append_nil xs).symm ▸ h
  | cons e events ih =>
    rw [List.flatMap_cons] at named
    have here : ∀ i ∈ identities e, i ∈ ids := fun i hi => named i (List.mem_append_left _ hi)
    rw [importSitesAmong, ← List.append_assoc]
    exact ih (h.ingest within apart here) (Within.invariant.ingest within here) fun i hi =>
      named i (List.mem_append_right _ hi)

end Sited

theorem importSitesAmong_append (s : Session σ) (events more : List Event) :
    s.importSitesAmong (events ++ more) =
      s.importSitesAmong events ++ (s.run events).importSitesAmong more := by
  induction events generalizing s with
  | nil => rfl
  | cons e events ih =>
    rw [List.cons_append, importSitesAmong, importSitesAmong, ih, List.append_assoc]
    rfl

/-! ## Imports that are told apart -/

section Telling

omit [Recorder σ]

/-- Name and location tell imports apart. -/
def Telling (xs : List ImportSite) : Prop :=
  ∀ x ∈ xs, ∀ y ∈ xs, x.key = y.key → x = y

instance (xs : List ImportSite) : Decidable (Telling xs) :=
  inferInstanceAs (Decidable (∀ x ∈ xs, ∀ y ∈ xs, _ → _))

/-- An import under the name and at the location of each site is held: that of the first such site. -/
theorem Sited.holds (h : Sited s xs) (there : x.key ∈ xs.map ImportSite.key) :
    ∃ y ∈ xs, y.key = x.key ∧ s.graph.Holds y := by
  obtain ⟨y, hy, same⟩ := List.mem_map.mp there
  obtain ⟨kept, first, imports⟩ := h.imports
  obtain ⟨z, hz, again⟩ := List.mem_map.mp (first.row_mem hy)
  have hz' : z ∈ xs := first.sublist.subset hz
  have ends : z.ends ∈ s.graph.imports.map Import.ends := imports ▸ List.mem_map.mpr ⟨z, hz, rfl⟩
  exact ⟨z, hz', again.trans same, h.nodes z hz', List.mem_map.mp ends⟩

/-- An import that leaves no trace in the buffers has met its node. -/
theorem hasNode_of_graph_eq (site : siteOf? importer s.sources entry = some x)
    (same : (addImport importer s entry).graph = s.graph) : s.graph.hasNode x.node.id = true := by
  rcases addImport_site importer s entry with ⟨none, _⟩ | ⟨y, site', done⟩
  · cases site.symm.trans none
  · cases site.symm.trans site'
    rcases done with ⟨there, _⟩ | ⟨_, _, _, added⟩
    · exact there
    · -- it has buffered a node, so the buffers have grown
      have lengths := congrArg (fun g : Graph => g.nodes.length) (added.graph.symm.trans same)
      simp at lengths

/-- **What becomes of an entry at its turn**, among the entries of an event: it is a site, and if it leaves no
trace, its name and location have been among the sites before it. -/
theorem entry_at_its_turn {before after : List ImportEntry} {target file : String} {location : Location}
    (h : Sited s xs) (within : Within (· ∈ ids) s) (apart : Apart .node ids) (keyed : s.sources.Keyed)
    (named : ∀ e ∈ before ++ entry :: after, ∀ i ∈ importIdentities e, i ∈ ids) (importer : FileId)
    (htarget : nonEmpty entry.path = some target)
    (found : ((before.foldl (addImport importer) s).sources.findAnnounced? target).isSome = true)
    (located : Place.locate? entry.place = some (file, location)) :
    let met := before.foldl (addImport importer) s
    let x : ImportSite := ⟨importer, fileId target, (nonEmpty entry.symbol).getD target, location⟩
    x ∈ sitesOf importer s (before ++ entry :: after) ∧
      Sited met (xs ++ sitesOf importer s before) ∧
      ((addImport importer met entry).graph = met.graph →
        x.key ∈ (xs ++ sitesOf importer s before).map ImportSite.key) := by
  intro met x
  have namedBefore : ∀ e ∈ before, ∀ i ∈ importIdentities e, i ∈ ids :=
    fun e he => named e (List.mem_append_left _ he)
  obtain ⟨withinMet, sited⟩ := h.addImports within apart namedBefore importer
  have keyedMet : met.sources.Keyed := by
    obtain ⟨paths, known⟩ := sources_addImports importer s before
    show (before.foldl (addImport importer) s).sources.Keyed
    rw [known]
    exact keyed.registerAll paths
  have site : siteOf? importer met.sources entry = some x := by
    obtain ⟨imported, found⟩ := Option.isSome_iff_exists.mp found
    refine siteOf?_eq_some_iff.mpr ⟨target, imported, file, location, htarget, found, located, ?_⟩
    rw [(keyedMet target imported (Coherent.find?_of_findAnnounced? found).1).2]
  refine ⟨?_, sited, fun same => ?_⟩
  · rw [sitesOf_append]
    refine List.mem_append_right _ ?_
    rw [sitesOf, site]
    exact List.mem_cons_self
  · have hnode : x.node.identity ∈ ids := named entry (by simp) _ (mem_importIdentities htarget located).2
    exact (sited.hasNode_iff withinMet apart hnode).mp (hasNode_of_graph_eq site same)

end Telling

/-- **Of the imports of a name at a location, the first is kept, and nothing else is lost.** The buffered
imports are those of the sites that came first under their names at their locations, over all events. Every
entry of an import event that is taken in, if its module is announced and its place complete at its turn,
is such a site with the importing file and the imported file of its own; afterwards an import with its name
and location is there, with the declaration node of a module. If name and location tell the sites apart,
this is the import of the entry itself, and an entry is absorbed only if just that import was there. -/
theorem imports_are_kept_by_name_and_location (store : σ) (options : Options) (events : List Event)
    (r : ImportReport) (apart : Apart .node ((events ++ [Event.import r]).flatMap identities))
    (taken : ((begin store options).run events).refuses (.import r) = false) :
    let s := (begin store options).run events
    let s' := s.ingest (.import r)
    let reported := (begin store options).importSitesAmong (events ++ [.import r])
    (∃ kept, FirstCome ImportSite.key Eq [] reported kept ∧
      s'.graph.imports.map Import.ends = kept.map ImportSite.ends) ∧
    ∃ path importer, nonEmpty r.importer = some path ∧ s.sources.findAnnounced? path = some importer ∧
      ∀ before entry after, importEntries r = before ++ entry :: after →
        let met := before.foldl (addImport importer.id) (s.counted (.import r))
        ∀ target file location, nonEmpty entry.path = some target →
          (met.sources.findAnnounced? target).isSome = true →
          Place.locate? entry.place = some (file, location) →
          let x : ImportSite :=
            ⟨fileId path, fileId target, (nonEmpty entry.symbol).getD target, location⟩
          x ∈ reported ∧ (∃ y ∈ reported, y.key = x.key ∧ s'.graph.Holds y) ∧
            (Telling reported → s'.graph.Holds x ∧
              ((addImport importer.id met entry).graph = met.graph → met.graph.Holds x)) := by
  intro s s' reported
  have after : Sited s' reported := by
    have run := (Sited.begin store options).run (.begin store options) apart fun _ hi => hi
    rwa [run_concat] at run
  refine ⟨after.imports, ?_⟩
  obtain ⟨path, importer, hpath, announced, _, sites⟩ := imports_of_taken taken
  refine ⟨path, importer, hpath, announced, ?_⟩
  intro entriesBefore entry entriesAfter split met target file location htarget found located
  -- the session that the event meets
  rw [List.flatMap_append, List.flatMap_singleton] at apart
  have named : ∀ i ∈ events.flatMap identities, i ∈ events.flatMap identities ++ identities (.import r) :=
    fun _ hi => List.mem_append_left _ hi
  have sited := (Sited.begin store options).run (.begin store options) apart named
  have within := (Within.begin store options).run named
  have keyed : s.sources.Keyed := ((Coherent.begin store options).run events).sources
  have counted := effect_counted s (.import r)
  -- what the entry meets, and that it is a site
  obtain ⟨isSite, sitedMet, absorbed⟩ := entry_at_its_turn (sited.quiet counted) (within.quiet counted) apart
    keyed (fun e he i hi => List.mem_append_right _ (mem_identities_imported (split ▸ he) hi)) importer.id
    htarget found located
  have own : importer.id = fileId path :=
    (keyed path importer (Coherent.find?_of_findAnnounced? announced).1).2
  have all : reported = (begin store options).importSitesAmong events ++
      sitesOf importer.id (s.counted (.import r)) (importEntries r) := by
    rw [← sites]
    exact (importSitesAmong_append _ events [.import r]).trans
      (congrArg (_ ++ ·) (List.append_nil _))
  rw [← own]
  intro x
  have isReported : x ∈ reported := by
    rw [all, split]
    exact List.mem_append_right _ isSite
  have earlier : ∀ y ∈ (begin store options).importSitesAmong events ++
      sitesOf importer.id (s.counted (.import r)) entriesBefore, y ∈ reported := by
    intro y hy
    rw [all, split, sitesOf_append, ← List.append_assoc]
    exact List.mem_append_left _ hy
  have held := after.holds (List.mem_map.mpr ⟨x, isReported, rfl⟩)
  refine ⟨isReported, held, fun telling => ⟨?_, fun same => ?_⟩⟩
  · obtain ⟨y, hy, key, holds⟩ := held
    exact telling y hy x isReported key ▸ holds
  · obtain ⟨y, hy, key, holds⟩ := sitedMet.holds (absorbed same)
    exact telling y (earlier y hy) x isReported key ▸ holds

/-- A symbol that is imported twice at one place: the second import is absorbed, and the one that it stands
for is there. -/
theorem repeated_symbol_import_is_kept :
    let place : Option Place := some ⟨some "/m.py", some ⟨some ⟨1, 0⟩, some ⟨1, 9⟩⟩⟩
    let events : List Event := [.file ⟨some "/m.py", some 2⟩, .file ⟨some "/a.py", some 2⟩]
    let entry : SymbolImport := ⟨some "/a.py", some "x", place⟩
    let r : ImportReport := ⟨some "/m.py", some [], some [entry, entry]⟩
    let s := (begin Store.empty {}).run events
    let x : ImportSite := ⟨fileId "/m.py", fileId "/a.py", "x", ⟨fileId "/m.py", ⟨⟨1, 0⟩, ⟨1, 9⟩⟩⟩⟩
    Apart .node ((events ++ [Event.import r]).flatMap identities) ∧ s.refuses (.import r) = false ∧
      Telling ((begin Store.empty {}).importSitesAmong (events ++ [.import r])) ∧
      (s.ingest (.import r)).graph.Holds x ∧ (s.ingest (.import r)).graph.imports.length = 1 := by
  intro place events entry r s x
  have ⟨apart, taken, telling, announced, located, one⟩ :
      Apart .node ((events ++ [Event.import r]).flatMap identities) ∧ s.refuses (.import r) = false ∧
        Telling ((begin Store.empty {}).importSitesAmong (events ++ [.import r])) ∧
        ((s.counted (.import r)).sources.findAnnounced? "/a.py").isSome = true ∧
        Place.locate? place = some ("/m.py", x.location) ∧
        (s.ingest (.import r)).graph.imports.length = 1 := by
    decide +kernel
  obtain ⟨_, path, importer, hpath, _, kept⟩ :=
    imports_are_kept_by_name_and_location Store.empty {} events r apart taken
  cases hpath
  -- the second entry, which meets the first
  obtain ⟨f, announced⟩ := Option.isSome_iff_exists.mp announced
  let again := SymbolImport.entry entry
  have found := findAnnounced?_addImports importer.id [again] announced
  obtain ⟨_, _, held⟩ := kept [again] again [] rfl "/a.py" "/m.py" x.location rfl
    (Option.isSome_iff_exists.mpr ⟨f, found⟩) located
  exact ⟨apart, taken, telling, (held telling).1, one⟩

/-- A file imports the symbol `x` from two modules at one place, as from a line with two statements. Both
modules are announced and the place is complete, but the second import is absorbed by the first, and its
module is imported nowhere in the buffers. -/
theorem second_module_is_absorbed :
    let place : Option Place := some ⟨some "/main.py", some ⟨some ⟨1, 0⟩, some ⟨1, 14⟩⟩⟩
    let events : List Event := [.file ⟨some "/main.py", some 2⟩, .file ⟨some "/a.py", some 2⟩,
      .file ⟨some "/b.py", some 2⟩]
    let entry : SymbolImport := ⟨some "/b.py", some "x", place⟩
    let r : ImportReport := ⟨some "/main.py", some [], some [⟨some "/a.py", some "x", place⟩, entry]⟩
    let s := (begin Store.empty {}).run events
    let s' := s.ingest (.import r)
    s.refuses (.import r) = false ∧ (s.sources.findAnnounced? "/b.py").isSome = true ∧
      (Place.locate? entry.place).isSome = true ∧
      s'.graph.imports.map Import.imported = [fileId "/a.py"] ∧ fileId "/b.py" ≠ fileId "/a.py" := by
  decide +kernel

end Session

end SymbolIndex
