import SymbolIndex.Proofs.Session.Announced

/-!
# `Proofs.Session.Replay` — an event that comes twice

An event that is taken in once more finds everything there already: a name is taken, a class is
completed, the nodes of imports are in the graph, and a file has its status. So the second time it is
refused or leaves everything as it is, and only a file shows, by a further build action in the store.

Imports need some care. An entry that came to nothing because its module was no announced file must come
to nothing again, although entries after it have made files known. A file that becomes known by a place
in it is not announced by that, unless another file with the same identifier is; `ModulesApart` excludes
this, and without it an import can come back to life (`replay_revives_import`).

## Contents
- `absorbs_imports`: what is left of imports once they are through.
- `ModulesApart`, `ingest_again`, `ingest_again_announced`.
- `replay_harmless`.
-/

namespace SymbolIndex

open Store

namespace Session

section Imports

variable {σ : Type} {s s' : Session σ} {importer : FileId} {entry : ImportEntry}
  {entries : List ImportEntry}

/-! ## Imports that are through -/

/-- Every module among some imports that a place in them makes known keeps its identifier apart from those
of announced files. -/
def EntriesApart (s : Session σ) (entries : List ImportEntry) : Prop :=
  ∀ path ∈ entries.filterMap fun entry => nonEmpty entry.path,
    path ∈ (entries.filterMap fun entry => Place.locate? entry.place).map Prod.fst →
    s.sources.find? path = none → s.sources.isAnnounced (fileId path) = false

theorem Absorbs.quiet (h : Absorbs s entry) (done : Effect s s' [] [] {}) : Absorbs s' entry := by
  have graph : s'.graph = s.graph := done.graph.trans (Graph.append_empty s.graph)
  have sources : s'.sources = s.sources := done.sources
  unfold Absorbs
  rw [graph, sources]
  exact h

/-- What there is nothing to take in of changes nothing. -/
theorem effect_of_absorbs (h : Absorbs s entry) (importer : FileId) :
    Effect s (addImport importer s entry) [] [] {} := by
  rcases addImport_cases importer s entry with ⟨_, quiet⟩ | ⟨hpath, found, located, free, _⟩
  · exact quiet
  · have there := h _ _ _ hpath (by rw [found]; rfl) located
    rw [free] at there
    cases there

/-- Once it is through, there is nothing to take in of an import. -/
theorem absorbs_addImport (importer : FileId) (s : Session σ) (entry : ImportEntry) :
    Absorbs (addImport importer s entry) entry := by
  rcases addImport_cases importer s entry with ⟨absorbed, quiet⟩ | ⟨hpath, _, located, _, added⟩
  · exact absorbed.quiet quiet
  · intro path file location hpath' _ located'
    cases hpath.symm.trans hpath'
    cases located.symm.trans located'
    rw [added.graph, Graph.hasNode_iff, Graph.nodes_append, List.map_append]
    exact List.mem_append_right _ List.mem_cons_self

section Apart

variable (apart : EntriesApart s entries)
include apart

/-- A file that an import makes known is not announced by that. -/
theorem findAnnounced?_addImport {path : String}
    (hpath : path ∈ entries.filterMap fun entry => nonEmpty entry.path) (hentry : entry ∈ entries)
    (announced : ((addImport importer s entry).sources.findAnnounced? path).isSome = true) :
    (s.sources.findAnnounced? path).isSome = true := by
  rcases addImport_cases importer s entry with ⟨_, quiet⟩ | @⟨_, file, _, location, _, _, located, _, added⟩
  · have sources : (addImport importer s entry).sources = s.sources := quiet.sources
    rwa [sources] at announced
  · obtain ⟨f, announced⟩ := Option.isSome_iff_exists.mp announced
    obtain ⟨found, isAnnounced⟩ := Coherent.find?_of_findAnnounced? announced
    rw [added.sources] at found isAnnounced
    rw [SourceTable.isAnnounced_registerAll] at isAnnounced
    refine Option.isSome_iff_exists.mpr ⟨f, ?_⟩
    rcases SourceTable.known_or_made_of_registerAll found with known | ⟨new, rfl⟩
    · exact Option.filter_eq_some_iff.mpr ⟨known, isAnnounced⟩
    · cases known : s.sources.find? path with
      | some g =>
        have still := SourceTable.find?_registerAll_of_find? known [file]
        have same : g = File.make path := Option.some.inj (still.symm.trans found)
        exact Option.filter_eq_some_iff.mpr ⟨known.trans (congrArg some same), isAnnounced⟩
      | none =>
        have placed : path ∈ (entries.filterMap fun entry => Place.locate? entry.place).map Prod.fst := by
          rw [List.mem_singleton.mp new]
          exact List.mem_map.mpr ⟨(file, location), List.mem_filterMap.mpr ⟨entry, hentry, located⟩, rfl⟩
        have isAnnounced : s.sources.isAnnounced (fileId path) = true := isAnnounced
        rw [apart path hpath placed known] at isAnnounced
        cases isAnnounced

theorem apart_addImport (importer : FileId) (entry : ImportEntry) :
    EntriesApart (addImport importer s entry) entries := by
  intro path hpath placed unknown
  rcases addImport_cases importer s entry with ⟨_, quiet⟩ | ⟨_, _, _, _, added⟩
  · have sources : (addImport importer s entry).sources = s.sources := quiet.sources
    rw [sources] at unknown ⊢
    exact apart path hpath placed unknown
  · rw [added.sources] at unknown ⊢
    rw [SourceTable.isAnnounced_registerAll]
    refine apart path hpath placed ?_
    cases known : s.sources.find? path with
    | none => rfl
    | some f => cases (SourceTable.find?_registerAll_of_find? known _).symm.trans unknown

/-- An import leaves nothing to take in of those before it. -/
theorem Absorbs.addImport {before : ImportEntry} (h : Absorbs s before) (hbefore : before ∈ entries)
    (hentry : entry ∈ entries) : Absorbs (Session.addImport importer s entry) before := by
  intro path file location hpath announced located
  have mem : path ∈ entries.filterMap fun entry => nonEmpty entry.path :=
    List.mem_filterMap.mpr ⟨before, hbefore, hpath⟩
  have there := h path file location hpath (findAnnounced?_addImport apart mem hentry announced) located
  rcases addImport_cases importer s entry with ⟨_, quiet⟩ | ⟨_, _, _, _, added⟩
  · have graph : (Session.addImport importer s entry).graph = s.graph :=
      quiet.graph.trans (Graph.append_empty s.graph)
    rw [graph]
    exact there
  · rw [Graph.hasNode_iff] at there ⊢
    rw [added.graph, Graph.nodes_append, List.map_append]
    exact List.mem_append_left _ there

end Apart

/-- **Once imports are through, there is nothing to take in of any of them.** -/
theorem absorbs_imports (importer : FileId) (apart : EntriesApart s entries) :
    ∀ entry ∈ entries, Absorbs (entries.foldl (addImport importer) s) entry := by
  -- the imports that are through, followed by those to come
  suffices through : ∀ (after before : List ImportEntry) (s : Session σ),
      (∀ entry ∈ after, entry ∈ entries) → (∀ entry ∈ before, entry ∈ entries) →
      EntriesApart s entries → (∀ entry ∈ before, Absorbs s entry) →
      ∀ entry ∈ before ++ after, Absorbs (after.foldl (addImport importer) s) entry from
    through entries [] s (fun _ h => h) (fun _ h => nomatch h) apart fun _ h => nomatch h
  intro after
  induction after with
  | nil =>
    intro before s _ _ _ absorbed entry hentry
    rw [List.append_nil] at hentry
    exact absorbed entry hentry
  | cons first after ih =>
    intro before s hafter hbefore apart absorbed entry hentry
    have hfirst := hafter first List.mem_cons_self
    refine ih (before ++ [first]) (addImport importer s first) ?_ ?_ (apart_addImport apart _ _) ?_ entry ?_
    · exact fun entry h => hafter entry (List.mem_cons_of_mem first h)
    · intro entry h
      rcases List.mem_append.mp h with h | h
      · exact hbefore entry h
      · exact List.mem_singleton.mp h ▸ hfirst
    · intro entry h
      rcases List.mem_append.mp h with h | h
      · exact (absorbed entry h).addImport apart (hbefore entry h) hfirst
      · exact List.mem_singleton.mp h ▸ absorbs_addImport importer s first
    · rwa [List.append_assoc]

/-- Imports of which there is nothing to take in change nothing. -/
theorem effect_of_absorbed (h : ∀ entry ∈ entries, Absorbs s entry) :
    Effect s (entries.foldl (addImport importer) s) [] [] {} := by
  induction entries generalizing s with
  | nil => exact .refl s
  | cons first entries ih =>
    have quiet := effect_of_absorbs (h first List.mem_cons_self) importer
    exact quiet.trans_quiet (ih fun entry hentry =>
      (h entry (List.mem_cons_of_mem first hentry)).quiet quiet)

end Imports

/-! ## Events that come twice -/

variable {σ : Type} [Recorder σ] {s s' : Session σ} {e : Event} {f : File}

/-- The imports of an event. -/
def importsOf : Event → List ImportEntry
  | .import r => importEntries r
  | _ => []

/-- No module that an event imports, and that becomes known by a place in its imports, shares its
identifier with an announced file. -/
def ModulesApart (s : Session σ) (e : Event) : Prop :=
  EntriesApart s (importsOf e)

instance (s : Session σ) (e : Event) : Decidable (ModulesApart s e) :=
  inferInstanceAs (Decidable (∀ path ∈ _, _ → _ → _))

/-- What was refused is refused again. -/
theorem refuses_again (h : s.refuses e = true) : (s.ingest e).refuses e = true :=
  ((ingest_refused_shifted h).refuses e).trans h

/-- A name that is registered is not declared again. -/
theorem refuses_declared {d : Declared} {h : Handle} (hd : declared? e = some d)
    (known : s.symbols.lookup d.declaration.qualifiedName = some h) : s.refuses e = true := by
  refine Bool.of_not_eq_false fun taken => ?_
  obtain ⟨s', ok⟩ := refuses_eq_false_iff.mp taken
  obtain ⟨d', t, hd', ok, _⟩ := (accept_declaring_eq_ok (declares_of_declared? hd)).mp ok
  cases hd.symm.trans hd'
  cases known.symm.trans (SymbolTable.register_eq_ok.mp ok).2.1

/-- A class that is resolved is not completed again. -/
theorem refuses_completed {r : CompletionReport} {c : Completed} {h : Handle}
    (hc : completed? r = some c) (known : s.symbols.lookupClass c.name = some h)
    (resolved : s.symbols.states.find? h.id = some .resolved) :
    s.refuses (.classResolved r) = true := by
  refine Bool.of_not_eq_false fun taken => ?_
  obtain ⟨s', ok⟩ := refuses_eq_false_iff.mp taken
  obtain ⟨c', owner, t, hc', ok, _⟩ := acceptCompletion_eq_ok.mp ok
  cases hc.symm.trans hc'
  obtain ⟨found, preprocessed, _⟩ := SymbolTable.resolveClass_eq_ok.mp ok
  cases known.symm.trans found
  cases resolved.symm.trans preprocessed

/-- **What comes again changes nothing** but counts and log, unless it is a file. -/
theorem ingest_again (h : announced? e = none) (apart : ModulesApart s e) :
    Effect (s.ingest e) ((s.ingest e).ingest e) [] [] {} := by
  rcases ingest_cases s e with ⟨refused, _⟩ | ⟨taken, ok⟩
  · exact effect_of_refuses (refuses_again refused)
  · cases ok with
    | @committed r path code told store hpath quiet ok done =>
      obtain ⟨f, announced⟩ := announced?_of_taken taken
      cases h.symm.trans announced
    | @declared _ d t hd ok done =>
      refine effect_of_refuses (refuses_declared hd (h := d.declaration.entity.handle) ?_)
      rw [done.symbols]
      exact SymbolTable.lookup_self_of_register ok
    | @completed r c owner t hc ok done =>
      refine effect_of_refuses (refuses_completed hc (h := owner) ?_ ?_) <;> rw [done.symbols]
      · exact SymbolTable.lookupClass_of_resolveClass ok
      · show t.states.find? owner.id = some .resolved
        rw [SymbolTable.states_of_resolveClass ok, if_pos rfl]
    | @imported r path importer found done =>
      rcases ingest_cases (s.ingest (.import r)) (.import r) with ⟨_, quiet⟩ | ⟨_, again⟩
      · exact quiet
      · cases again with
        | declared hd => cases hd
        | @imported _ _ importer' _ done' =>
          have apart' : EntriesApart (s.counted (.import r)) (importEntries r) := apart
          have absorbed := absorbs_imports importer.id apart'
          rw [← done] at absorbed
          rw [done']
          have counted := effect_counted (s.ingest (.import r)) (.import r)
          exact counted.trans_quiet (effect_of_absorbed fun entry hentry =>
            (absorbed entry hentry).quiet counted)

/-- **A file that comes again has its status already**, so the session shows it in nothing but counts and
log, whatever the store does. -/
theorem ingest_again_announced (h : announced? e = some f) : ∃ store stats log,
    (s.ingest e).ingest e = { s.ingest e with store, stats, log } := by
  have refused : (s.ingest e).refuses e = true → ∃ store stats log,
      (s.ingest e).ingest e = { s.ingest e with store, stats, log } := by
    intro refused
    obtain ⟨told, again⟩ := ingest_refused refused
    exact ⟨_, _, _, again⟩
  rcases ingest_announced (s := s) h with ⟨_, _, first⟩ | ⟨store, _, _, log, once⟩
  · exact refused (refuses_again first)
  · rcases ingest_announced (s := s.ingest e) h with ⟨_, _, second⟩ | ⟨store', _, _, log', twice⟩
    · exact refused second
    · refine ⟨store', ((s.ingest e).counted e).stats, log', ?_⟩
      have sources : (s.ingest e).sources = (s.sources.setStatus f.path f.status).announce f.id := by
        rw [once]
      have same := SourceTable.setStatus_announce_again s.sources f.path f.status f.id
      rw [← sources] at same
      rw [twice, same]
      rfl

/-- On a store that sessions have written, a file that comes again leaves a further build action, if there
is a number for it, and no other row. -/
theorem store_ingest_again {s : Session Store} (tidy : s.store.Tidy) (h : announced? e = some f)
    (taken : s.refuses e = false) :
    let once := (s.ingest e).store
    ((s.ingest e).ingest e).store = match once.nextAction? with
      | none => once
      | some n => { once with
          actions := once.actions ++ [⟨n, ""⟩]
          sources := once.sources ++ [⟨.ofId f.id, .integer n⟩]
          lastAction := n } := by
  intro once
  have hf := announced?_id h
  have first : once = s.store.commit f := by
    rcases ingest_announced (s := s) h with ⟨_, _, refused⟩ | ⟨store, ok, _, _, ingested⟩
    · cases taken.symm.trans refused
    · show (s.ingest e).store = _
      rw [ingested]
      exact (tidy.of_persistFile hf ok).1
  have tidy' : once.Tidy := first ▸ tidy.commit hf
  have files : putFile once.files f = once.files := by
    rw [first]
    exact putFile_again s.store.files f
  have again := tidy'.persistFile hf
  rw [tidy'.numbered.nextAction?]
  rcases ingest_announced (s := s.ingest e) h with ⟨_, failed, refused⟩ | ⟨store, ok, _, _, ingested⟩
  · obtain ⟨_, ingested⟩ := ingest_refused refused
    split at again
    · cases again.symm.trans failed
    · rename_i full
      rw [ingested, if_neg full]
  · split at again
    · rename_i room
      cases again.symm.trans ok
      rw [ingested, if_pos room]
      show once.commit f = _
      unfold commit
      rw [files]
    · cases again.symm.trans ok

/-- **An event that comes twice does no more than one that comes once.** Whatever an event is and whether
it is taken in or refused, ingesting it again leaves symbol table, class states, ledger, buffers and file
table as they are, with the announced files, provided that no module it imports and makes known shares its
identifier with an announced file. Only a file that is taken in shows in the store, which sessions have
written: it leaves one more build action and the pair that links them, while there are numbers, and every
other row is as it was. -/
theorem replay_harmless :
    (∀ (s : Session σ) (e : Event), ModulesApart s e →
      let once := s.ingest e
      let twice := once.ingest e
      twice.options = once.options ∧ twice.symbols = once.symbols ∧ twice.ledger = once.ledger ∧
        twice.graph = once.graph ∧ twice.sources = once.sources ∧
        (announced? e = none ∨ s.refuses e = true → twice.store = once.store)) ∧
    ∀ (rounds : List Round) (options : Options) (events : List Event) (r : FileReport),
      let s := (begin (rounds.foldl (fun s r => r.store s) Store.empty) options).run events
      s.refuses (.file r) = false →
        ∃ f, announced? (.file r) = some f ∧
          let once := (s.ingest (.file r)).store
          ((s.ingest (.file r)).ingest (.file r)).store = match once.nextAction? with
            | none => once
            | some n => { once with
                actions := once.actions ++ [⟨n, ""⟩]
                sources := once.sources ++ [⟨.ofId f.id, .integer n⟩]
                lastAction := n } := by
  constructor
  · intro s e apart once twice
    cases announced : announced? e with
    | none =>
      have again := ingest_again announced apart
      exact ⟨again.options, again.symbols, again.ledger, again.graph.trans (Graph.append_empty _),
        again.sources, fun _ => again.store⟩
    | some f =>
      obtain ⟨store, stats, log, again⟩ := ingest_again_announced (s := s) announced
      have same : twice = { once with store, stats, log } := again
      rw [same]
      refine ⟨rfl, rfl, rfl, rfl, rfl, ?_⟩
      rintro (⟨⟨⟩⟩ | refused)
      exact (congrArg Session.store same).symm.trans (effect_of_refuses (refuses_again refused)).store
  · intro rounds options events r s taken
    have tidy : s.store.Tidy := tidy_run (s := begin _ options) (tidy_rounds rounds tidy_empty) events
    obtain ⟨f, announced⟩ := announced?_of_taken taken
    exact ⟨f, announced, store_ingest_again tidy announced taken⟩

/-- A file imports a module that is not there at a place in it, so that it becomes known, and a module that
is. Neither this nor the file itself changes anything but build actions when it comes again. -/
theorem replayed_import_changes_nothing :
    let place (file : String) : Option Place := some ⟨some file, some ⟨some ⟨1, 0⟩, some ⟨1, 1⟩⟩⟩
    let s := (begin Store.empty {}).run [.file ⟨some "/a.py", some 2⟩]
    let e : Event := .import ⟨some "/a.py",
      some [⟨some "/b.py", place "/b.py"⟩, ⟨some "/a.py", place "/b.py"⟩], some []⟩
    let again : FileReport := ⟨some "/a.py", some 2⟩
    ModulesApart s e ∧ ((s.ingest e).ingest e).graph = (s.ingest e).graph ∧
      ((s.ingest e).ingest e).sources = (s.ingest e).sources ∧
      s.refuses (.file again) = false ∧
      ((s.ingest (.file again)).ingest (.file again)).store.files =
        (s.ingest (.file again)).store.files := by
  intro place s e again
  have apart : ModulesApart s e := by decide +kernel
  have taken : s.refuses (.file again) = false := by decide +kernel
  obtain ⟨_, _, _, graph, sources, _⟩ := replay_harmless.1 s e apart
  obtain ⟨f, _, store⟩ := (replay_harmless (σ := Store)).2 [] {} [.file ⟨some "/a.py", some 2⟩] again taken
  have begun : s = (begin (([] : List Round).foldl (fun s r => r.store s) Store.empty) {}).run
      [.file ⟨some "/a.py", some 2⟩] := rfl
  rw [← begun] at store
  refine ⟨apart, graph, sources, taken, ?_⟩
  rw [store]
  -- whatever the session is, both ways of the store leave the files
  clear_value s
  split <;> rfl

/-- Two paths with one identifier: a module is unknown when its import first comes, and becomes known by a
place in the next import, as a file that counts as announced. Coming again, its import is taken in. -/
theorem replay_revives_import :
    let place (file : String) : Option Place := some ⟨some file, some ⟨some ⟨1, 0⟩, some ⟨1, 1⟩⟩⟩
    let s := (begin Store.empty {}).run [.file ⟨some "/058ff692f12fc591.py", some 2⟩]
    let e : Event := .import ⟨some "/058ff692f12fc591.py",
      some [⟨some "/2afdcffb8fab0f2c.py", place "/058ff692f12fc591.py"⟩,
        ⟨some "/058ff692f12fc591.py", place "/2afdcffb8fab0f2c.py"⟩], some []⟩
    fileId "/058ff692f12fc591.py" = fileId "/2afdcffb8fab0f2c.py" ∧
      ((s.ingest e).ingest e).graph ≠ (s.ingest e).graph := by
  decide +kernel

end Session

end SymbolIndex
