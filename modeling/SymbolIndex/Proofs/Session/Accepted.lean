import SymbolIndex.Proofs.Session.Effect
import SymbolIndex.Proofs.Session.Refusal
import SymbolIndex.Proofs.SymbolTable

/-!
# `Proofs.Session.Accepted` — what an accepted event does

The three kinds of declaration do the same thing with different buffers, so there are four kinds of
accepted events: a file is committed, an entity is declared, a class is completed, or imports are
recorded. `Accepted` tells for each of them what was checked and what became of the session;
`ingest_cases` is the step that every invariant of a run is proved along.

## Contents
- `Declared`, `Completed`: events with everything in them that has to be there.
- `acceptFile_eq_ok` and its like: when each handler accepts, and what it does then.
- `Accepted`, and `accepted_of_accept`.
- `ingest_cases`: an event is refused and changes nothing but counts, or accepted.
- `Invariant`: what a step keeps; `Invariant.run`.
-/

namespace SymbolIndex

/-- Whether the events of a kind declare an entity. -/
def EventKind.declares : EventKind → Bool
  | .variable | .function | .classPreprocessed => true
  | _ => false

namespace Session

variable {σ α : Type} {s s' : Session σ} {e : Event}

/-! ## Complete events -/

/-- A declaration with everything that its event has to have. -/
structure Declared where
  declaration : Declaration
  types : List String := []
  documentation : String := ""
  parameters : List String := []
  locals : List String := []

/-- What an event declares, if it has everything that a declaration has to have. -/
def declared? : Event → Option Declared
  | .variable r => do
    let name ← nonEmpty r.name
    let qualifiedName ← nonEmpty r.qualifiedName
    let types ← r.types
    let _ ← r.usages
    let (path, location) ← Place.locate? r.place
    some {
      declaration := ⟨.variable, name, qualifiedName, r.visibility, path, location⟩
      types }
  | .function r => do
    let name ← nonEmpty r.name
    let qualifiedName ← nonEmpty r.qualifiedName
    let types ← r.types
    let _ ← r.usages
    let documentation ← r.documentation
    let (path, location) ← Place.locate? r.place
    some {
      declaration := ⟨.function, name, qualifiedName, r.visibility, path, location⟩
      types, documentation
      parameters := r.parameters
      locals := r.locals }
  | .classPreprocessed r => do
    let name ← nonEmpty r.name
    let qualifiedName ← nonEmpty r.qualifiedName
    let (path, location) ← Place.locate? r.place
    some { declaration := ⟨.classType, name, qualifiedName, r.visibility, path, location⟩ }
  | _ => none

/-- Only events of a declaring kind declare anything. -/
theorem declares_of_declared? {d : Declared} (hd : declared? e = some d) : e.kind.declares = true := by
  cases e with
  | «variable» r => rfl
  | function r => rfl
  | classPreprocessed r => rfl
  | file r => cases hd
  | classResolved r => cases hd
  | «import» r => cases hd

namespace Declared

/-- What a declaration adds to the buffers besides its node. -/
def buffered (d : Declared) (options : Options) (t : SymbolTable) : Graph :=
  let e := d.declaration.entity
  match d.declaration.kind with
  | .variable => { vars := [⟨e⟩], types := typeEdges t e.id d.types }
  | .function => {
      functions := [⟨e, variableIds t d.parameters, variableIds t d.locals⟩]
      documentation := documented options e.id .function d.documentation
      types := typeEdges t e.id d.types }
  | .classType => { classes := [⟨e⟩] }

/-- A declaration buffers its entity, in the buffer of its kind. -/
theorem entities_buffered (d : Declared) (options : Options) (t : SymbolTable) (kind : EntityKind) :
    (d.buffered options t).entities kind =
      if d.declaration.kind = kind then [d.declaration.entity] else [] := by
  unfold buffered
  cases d.declaration.kind <;> cases kind <;> rfl

theorem nodes_buffered (d : Declared) (options : Options) (t : SymbolTable) :
    (d.buffered options t).nodes = [] := by
  unfold buffered
  cases d.declaration.kind <;> rfl

theorem imports_buffered (d : Declared) (options : Options) (t : SymbolTable) :
    (d.buffered options t).imports = [] := by
  unfold buffered
  cases d.declaration.kind <;> rfl

theorem inheritance_buffered (d : Declared) (options : Options) (t : SymbolTable) :
    (d.buffered options t).inheritance = [] := by
  unfold buffered
  cases d.declaration.kind <;> rfl

/-- Variables and functions have types, classes do not. -/
theorem types_buffered (d : Declared) (options : Options) (t : SymbolTable) :
    (d.buffered options t).types =
      if d.declaration.kind = .classType then [] else typeEdges t d.declaration.entity.id d.types := by
  unfold buffered
  cases d.declaration.kind <;> rfl

/-- Only a function brings its documentation with its declaration. -/
theorem documentation_buffered (d : Declared) (options : Options) (t : SymbolTable) :
    (d.buffered options t).documentation =
      if d.declaration.kind = .function then
        documented options d.declaration.entity.id .function d.documentation
      else [] := by
  unfold buffered
  cases d.declaration.kind <;> rfl

end Declared

/-- The usages in the record of a declaration. -/
def ownUsages : Event → List UsageReport
  | .variable r => r.usages.getD []
  | .function r => r.usages.getD []
  | _ => []

/-- What follows once an entity of any kind is declared. -/
def addDeclared (s : Session σ) (d : Declared) (usages : List UsageReport) : Session σ :=
  match d.declaration.kind with
  | .variable => s.addVariable d.declaration d.types usages
  | .function => s.addFunction d.declaration d.parameters d.locals d.types usages d.documentation
  | .classType => s.addClass d.declaration

/-- A completion with everything that its event has to have. -/
structure Completed where
  name : String
  documentation : String
  bases : List String
  members : MemberReports
  usages : List UsageReport

/-- The completion in a record, if nothing is missing. -/
def completed? (r : CompletionReport) : Option Completed := do
  some ⟨← nonEmpty r.qualifiedName, ← r.documentation, ← r.bases, ← r.members, ← r.usages⟩

namespace Completed

/-- What the completion of a class adds to the buffers. -/
def buffered (c : Completed) (options : Options) (t : SymbolTable) (owner : EntityId) : Graph where
  members := groupEdges t owner (memberGroups c.members)
  inheritance := baseEdges t owner c.bases
  documentation := documented options owner .classType c.documentation

end Completed

/-- The imports of a record: its modules, then the symbols. -/
def importEntries (r : ImportReport) : List ImportEntry :=
  (r.modules.getD []).map ModuleImport.entry ++ (r.symbols.getD []).map SymbolImport.entry

/-- The usages that an event reports, each list with the kind and the name of the entity that it is
reported of. -/
def usageReports : Event → List (EntityKind × String × List UsageReport)
  | .variable r => [(.variable, r.qualifiedName.getD "", r.usages.getD [])]
  | .function r => [(.function, r.qualifiedName.getD "", r.usages.getD [])]
  | .classResolved r =>
    (.classType, r.qualifiedName.getD "", r.usages.getD []) ::
      (memberGroups (r.members.getD {})).flatMap fun group =>
        group.2.2.map fun m => (memberEntity group.1, m.qualifiedName, m.usages)
  | _ => []

/-- The usages that an event reports at complete places of entities that a table knows. -/
def reported (t : SymbolTable) (e : Event) : List Sighting :=
  (usageReports e).flatMap fun r => sightingsOf t r.1 r.2.1 r.2.2

/-- A file as a record announces it. -/
def announcedFile (path : String) (code : Int) : File :=
  { File.make path with status := statusOfCode code }

/-! ## Accepted events -/

variable [Recorder σ] in
/-- `s'` is what an accepted event makes of `s`. -/
inductive Accepted (s s' : Session σ) : Event → Prop
  /-- A file is committed to the store and counts as announced. -/
  | committed {r : FileReport} {path : String} {code : Int} {told : Session σ} {store : σ}
      (hp : nonEmpty r.path = some path) (quiet : Effect s told [] [] {})
      (ok : Recorder.persistFile s.store (announcedFile path code) {} = .ok store)
      (done : s' = told.announce store (announcedFile path code)) : Accepted s s' (.file r)
  /-- An entity is entered under a free name, then comes what is reported of it. -/
  | declared {e : Event} {d : Declared} {t : SymbolTable} (hd : declared? e = some d)
      (ok : s.symbols.register d.declaration.entity = .ok t)
      (done : Effect (s.enter d.declaration t) s' ((reported t e).map Sighting.path) (reported t e)
        (d.buffered s.options t)) : Accepted s s' e
  /-- A preprocessed class becomes resolved, then comes what is reported of it. -/
  | completed {r : CompletionReport} {c : Completed} {owner : Handle} {t : SymbolTable}
      (hc : completed? r = some c) (ok : s.symbols.resolveClass c.name = .ok (owner, t))
      (done : Effect { s with symbols := t } s' ((reported t (.classResolved r)).map Sighting.path)
        (reported t (.classResolved r)) (c.buffered s.options t owner.id)) :
      Accepted s s' (.classResolved r)
  /-- The imports of an announced file are recorded, one after another. -/
  | imported {r : ImportReport} {path : String} {importer : File}
      (found : s.sources.findAnnounced? path = some importer)
      (done : s' = (importEntries r).foldl (addImport importer.id) s) : Accepted s s' (.import r)

/-- A field is required by being there. -/
theorem require_eq_ok {field : String} {x : Option α} {a : α} :
    require field x = .ok a ↔ x = some a := by
  cases x <;> simp [require]

/-- A declaration is accepted if the symbol table registers its entity, and then it enters the session. -/
theorem declare_eq_ok {d : Declaration} {u : Unit} :
    declare d s = .ok u s' ↔ ∃ t, s.symbols.register d.entity = .ok t ∧ s.enter d t = s' := by
  unfold declare
  simp only [Handler.bind_eq_ok, Handler.peek_eq_ok, Handler.check_eq_ok, Handler.modify_eq_ok]
  constructor
  · rintro ⟨known, _, ⟨rfl, rfl⟩, t, _, ⟨ok, rfl⟩, done⟩
    exact ⟨t, ok, done⟩
  · rintro ⟨t, ok, done⟩
    exact ⟨_, _, ⟨rfl, rfl⟩, t, _, ⟨ok, rfl⟩, done⟩

/-- A warning about a status is told and changes nothing else. -/
theorem effect_warnOfCode (s : Session σ) (path : String) (code : Int) :
    Effect s (warnOfCode path code s) [] [] {} := by
  unfold warnOfCode
  split
  · exact effect_tell s _ _
  · exact .refl s

/-- A variable brings its types, its usages and itself. -/
theorem effect_addVariable (s : Session σ) (d : Declaration) (types : List String)
    (usages : List UsageReport) :
    let xs := sightings d.entity.handle d.qualifiedName usages
    Effect s (s.addVariable d types usages) (xs.map Sighting.path) xs
      { vars := [⟨d.entity⟩], types := typeEdges s.symbols d.entity.id types } := by
  intro xs
  have bound := effect_bindTypes s d.entity.id types
  have recorded := bound.trans (effect_recordUsages _ d.entity.handle d.qualifiedName usages)
  have entered : Effect ((s.bindTypes d.entity.id types).recordUsages d.entity.handle d.qualifiedName
      usages) (s.addVariable d types usages) [] [] { vars := [⟨d.entity⟩] } := by
    refine Effect.onGraph _ ?_
    simp only [Graph.append_def, Graph.append, List.append_nil]
  have all := recorded.trans entered
  simp only [List.nil_append, List.append_nil, Graph.append_def, Graph.append] at all
  exact all

/-- A function brings its variables, types and documentation besides. -/
theorem effect_addFunction (s : Session σ) (d : Declaration)
    (parameters locals types : List String) (usages : List UsageReport) (documentation : String) :
    let xs := sightings d.entity.handle d.qualifiedName usages
    Effect s (s.addFunction d parameters locals types usages documentation) (xs.map Sighting.path) xs
      { functions := [⟨d.entity, variableIds s.symbols parameters,
          variableIds s.symbols locals⟩]
        documentation := documented s.options d.entity.id .function documentation
        types := typeEdges s.symbols d.entity.id types } := by
  intro xs
  have checked := (effect_missing s "parameter" (unresolved s.symbols.lookupVariable parameters)).trans
    (effect_missing _ "local variable" (unresolved s.symbols.lookupVariable locals))
  have bound := checked.trans (effect_bindTypes _ d.entity.id types)
  have kept := bound.trans (effect_document _ d.entity.id .function documentation)
  rw [bound.options, checked.symbols] at kept
  have recorded := kept.trans (effect_recordUsages _ d.entity.handle d.qualifiedName usages)
  have entered : Effect
      (((((s.checkVariables "parameter" parameters).checkVariables "local variable" locals).bindTypes
        d.entity.id types).document d.entity.id .function documentation).recordUsages d.entity.handle
        d.qualifiedName usages)
      (s.addFunction d parameters locals types usages documentation) [] []
      { functions := [⟨d.entity, variableIds s.symbols parameters,
          variableIds s.symbols locals⟩] } := by
    refine Effect.onGraph _ ?_
    simp only [Graph.append_def, Graph.append, List.append_nil]
    rfl
  have all := recorded.trans entered
  simp only [List.nil_append, List.append_nil, Graph.append_def, Graph.append] at all
  exact all

/-- What is reported with a declaration of any kind. A class has no usages in its record. -/
theorem effect_addDeclared (s : Session σ) {d : Declared} (hd : declared? e = some d) :
    let xs := sightings d.declaration.entity.handle d.declaration.qualifiedName (ownUsages e)
    Effect s (s.addDeclared d (ownUsages e)) (xs.map Sighting.path) xs
      (d.buffered s.options s.symbols) := by
  unfold addDeclared Declared.buffered
  cases e with
  | «variable» r =>
    simp only [declared?, Option.bind_eq_bind, Option.bind_eq_some_iff, Option.some.injEq] at hd
    obtain ⟨_, _, _, _, _, _, _, _, _, _, rfl⟩ := hd
    exact effect_addVariable s _ _ _
  | function r =>
    simp only [declared?, Option.bind_eq_bind, Option.bind_eq_some_iff, Option.some.injEq] at hd
    obtain ⟨_, _, _, _, _, _, _, _, _, _, _, _, rfl⟩ := hd
    exact effect_addFunction s _ _ _ _ _ _
  | classPreprocessed r =>
    simp only [declared?, Option.bind_eq_bind, Option.bind_eq_some_iff, Option.some.injEq] at hd
    obtain ⟨_, _, _, _, _, _, rfl⟩ := hd
    refine Effect.onGraph s ?_
    simp only [Graph.append_def, Graph.append, List.append_nil]
  | file r => cases hd
  | classResolved r => cases hd
  | «import» r => cases hd

/-- A completion brings documentation, bases and members, and usages of the class and of its members. -/
theorem effect_complete (s : Session σ) (owner : Handle) (c : Completed) :
    let xs := sightings owner c.name c.usages ++ groupSightings s.symbols (memberGroups c.members)
    Effect s (s.complete owner c.name c.documentation c.bases c.members c.usages)
      (xs.map Sighting.path) xs (c.buffered s.options s.symbols owner.id) := by
  intro xs
  have kept := effect_document s owner.id .classType c.documentation
  have recorded := kept.trans (effect_recordUsages _ owner c.name c.usages)
  have based := recorded.trans (effect_addBases _ owner.id c.bases)
  have attached := effect_attachGroups
    (((s.document owner.id .classType c.documentation).recordUsages owner c.name c.usages).addBases
      owner.id c.bases) owner c.name (memberGroups c.members)
  -- neither usages nor bases change the table that members are looked up in
  rw [recorded.symbols] at based
  rw [based.symbols] at attached
  have all := based.trans attached
  simp only [List.nil_append, List.append_nil, Graph.append_def, Graph.append] at all
  rw [← List.map_append] at all
  exact all

/-- Counting an event is no work. -/
theorem effect_counted (s : Session σ) (e : Event) : Effect s (s.counted e) [] [] {} := by
  refine .quiet s _ s.log ?_
  cases e <;> rfl

/-! ## Reported usages -/

theorem nonEmpty_eq_some {text : Option String} {a : String} (h : nonEmpty text = some a) :
    text = some a :=
  (Option.filter_eq_some_iff.mp h).1

/-- Usages are reported of the entity that the name leads to. -/
theorem sightingsOf_of_lookup {t : SymbolTable} {owner : Handle} {name : String}
    (found : t.lookup name = some owner) (usages : List UsageReport) :
    sightingsOf t owner.kind name usages = sightings owner name usages := by
  unfold sightingsOf
  rw [SymbolTable.lookupKind_eq_some_iff.mpr ⟨found, rfl⟩]

/-- The usages that the completion of a class reports: its own, then those of its members. -/
theorem reported_classResolved {t : SymbolTable} {owner : Handle} {r : CompletionReport}
    {c : Completed} (hc : completed? r = some c) (found : t.lookupClass c.name = some owner) :
    reported t (.classResolved r) =
      sightings owner c.name c.usages ++ groupSightings t (memberGroups c.members) := by
  simp only [completed?, Option.bind_eq_bind, Option.bind_eq_some_iff, Option.some.injEq] at hc
  obtain ⟨name, hname, documentation, hdocumentation, bases, hbases, members, hmembers, usages,
    husages, rfl⟩ := hc
  obtain ⟨known, isClass⟩ := SymbolTable.lookupKind_eq_some_iff.mp found
  simp only [reported, usageReports, nonEmpty_eq_some hname, hmembers, husages, Option.getD_some,
    List.flatMap_cons]
  refine congr (congrArg _ ?_) ?_
  · rw [← isClass]
    exact sightingsOf_of_lookup known usages
  · unfold groupSightings memberSightings
    rw [List.flatMap_assoc]
    refine congrArg (List.flatMap · _) (funext fun group => ?_)
    rw [List.flatMap_map]

/-! ## The handlers -/

/-- A completion is accepted if its record is complete and its class is preprocessed. -/
theorem acceptCompletion_eq_ok {r : CompletionReport} : acceptCompletion r s = .ok () s' ↔
    ∃ c owner t, completed? r = some c ∧ s.symbols.resolveClass c.name = .ok (owner, t) ∧
      s' = complete { s with symbols := t } owner c.name c.documentation c.bases c.members
        c.usages := by
  simp only [acceptCompletion, requireText, Handler.bind_eq_ok, Handler.check_eq_ok,
    Handler.peek_eq_ok, Handler.modify_eq_ok, require_eq_ok, completed?, Option.bind_eq_bind,
    Option.bind_eq_some_iff, Option.some.injEq]
  constructor
  · rintro ⟨name, _, ⟨hname, rfl⟩, documentation, _, ⟨hdocumentation, rfl⟩, bases, _, ⟨hbases, rfl⟩,
      members, _, ⟨hmembers, rfl⟩, usages, _, ⟨husages, rfl⟩, _, _, ⟨rfl, rfl⟩, ⟨owner, t⟩, _, ⟨ok, rfl⟩,
      _, _, rfl, rfl⟩
    exact ⟨_, owner, t, ⟨name, hname, documentation, hdocumentation, bases, hbases, members, hmembers,
      usages, husages, rfl⟩, ok, rfl⟩
  · rintro ⟨_, owner, t, ⟨name, hname, documentation, hdocumentation, bases, hbases, members, hmembers,
      usages, husages, rfl⟩, ok, rfl⟩
    exact ⟨name, _, ⟨hname, rfl⟩, documentation, _, ⟨hdocumentation, rfl⟩, bases, _, ⟨hbases, rfl⟩,
      members, _, ⟨hmembers, rfl⟩, usages, _, ⟨husages, rfl⟩, _, _, ⟨rfl, rfl⟩, (owner, t), _, ⟨ok, rfl⟩,
      ⟨⟩, _, rfl, rfl⟩

/-- The importing file has to be known and announced. -/
theorem requireAnnounced_eq_ok {sources : SourceTable} {path : String} {f : File} :
    requireAnnounced sources path = .ok f ↔ sources.findAnnounced? path = some f := by
  unfold requireAnnounced
  cases sources.findAnnounced? path <;> simp

/-- Imports are accepted if their record is complete and the importing file is announced. -/
theorem acceptImport_eq_ok {r : ImportReport} : acceptImport r s = .ok () s' ↔
    ∃ path importer, nonEmpty r.importer = some path ∧ r.modules.isSome = true ∧
      r.symbols.isSome = true ∧ s.sources.findAnnounced? path = some importer ∧
      s' = (importEntries r).foldl (addImport importer.id) s := by
  simp only [acceptImport, requireText, Handler.bind_eq_ok, Handler.check_eq_ok,
    Handler.peek_eq_ok, Handler.modify_eq_ok, require_eq_ok, requireAnnounced_eq_ok, importEntries]
  constructor
  · rintro ⟨path, _, ⟨hpath, rfl⟩, modules, _, ⟨hmodules, rfl⟩, symbols, _, ⟨hsymbols, rfl⟩, _, _,
      ⟨rfl, rfl⟩, importer, _, ⟨found, rfl⟩, rfl⟩
    rw [hmodules, hsymbols]
    exact ⟨path, importer, hpath, rfl, rfl, found, rfl⟩
  · rintro ⟨path, importer, hpath, hmodules, hsymbols, found, rfl⟩
    obtain ⟨modules, hmodules⟩ := Option.isSome_iff_exists.mp hmodules
    obtain ⟨symbols, hsymbols⟩ := Option.isSome_iff_exists.mp hsymbols
    refine ⟨path, _, ⟨hpath, rfl⟩, modules, _, ⟨hmodules, rfl⟩, symbols, _, ⟨hsymbols, rfl⟩, _, _,
      ⟨rfl, rfl⟩, importer, _, ⟨found, rfl⟩, ?_⟩
    rw [hmodules, hsymbols]
    rfl

variable [Recorder σ]

/-- A file is accepted if its record is complete and the store takes it. -/
theorem acceptFile_eq_ok {r : FileReport} : acceptFile r s = .ok () s' ↔
    ∃ path code store, nonEmpty r.path = some path ∧ r.status = some code ∧
      Recorder.persistFile s.store (announcedFile path code) {} = .ok store ∧
      s' = (warnOfCode path code s).announce store (announcedFile path code) := by
  -- the warning comes before the store is read, and leaves it alone
  have told : ∀ path code, (warnOfCode path code s).store = s.store :=
    fun path code => (effect_warnOfCode s path code).store
  simp only [acceptFile, requireText, Handler.bind_eq_ok, Handler.check_eq_ok,
    Handler.peek_eq_ok, Handler.modify_eq_ok, require_eq_ok]
  constructor
  · rintro ⟨path, _, ⟨hp, rfl⟩, code, _, ⟨hc, rfl⟩, _, _, rfl, _, _, ⟨rfl, rfl⟩, store, _, ⟨ok, rfl⟩,
      rfl⟩
    rw [told] at ok
    exact ⟨path, code, store, hp, hc, ok, rfl⟩
  · rintro ⟨path, code, store, hp, hc, ok, rfl⟩
    exact ⟨path, _, ⟨hp, rfl⟩, code, _, ⟨hc, rfl⟩, ⟨⟩, _, rfl, _, _, ⟨rfl, rfl⟩, store, _,
      ⟨(told path code).symm ▸ ok, rfl⟩, rfl⟩

/-- A declaration is accepted if its record is complete and its name is free. -/
theorem accept_declaring_eq_ok (declaring : e.kind.declares = true) : accept e s = .ok () s' ↔
    ∃ d t, declared? e = some d ∧ s.symbols.register d.declaration.entity = .ok t ∧
      s' = (s.enter d.declaration t).addDeclared d (ownUsages e) := by
  cases e with
  | «variable» r =>
    simp only [accept, acceptVariable, requireText, Handler.bind_eq_ok, Handler.check_eq_ok,
      Handler.modify_eq_ok, require_eq_ok, declare_eq_ok, declared?, Option.bind_eq_bind,
      Option.bind_eq_some_iff, Option.some.injEq]
    constructor
    · rintro ⟨name, _, ⟨hname, rfl⟩, qualifiedName, _, ⟨hqualified, rfl⟩, types, _, ⟨htypes, rfl⟩, usages,
        _, ⟨husages, rfl⟩, ⟨path, location⟩, _, ⟨hplace, rfl⟩, _, _, ⟨t, ok, rfl⟩, rfl⟩
      refine ⟨_, t, ⟨name, hname, qualifiedName, hqualified, types, htypes, usages, husages, _, hplace,
        rfl⟩, ok, ?_⟩
      simp only [addDeclared, ownUsages, husages, Option.getD_some]
    · rintro ⟨_, t, ⟨name, hname, qualifiedName, hqualified, types, htypes, usages, husages,
        ⟨path, location⟩, hplace, rfl⟩, ok, rfl⟩
      refine ⟨name, _, ⟨hname, rfl⟩, qualifiedName, _, ⟨hqualified, rfl⟩, types, _, ⟨htypes, rfl⟩, usages,
        _, ⟨husages, rfl⟩, _, _, ⟨hplace, rfl⟩, (), _, ⟨t, ok, rfl⟩, ?_⟩
      simp only [addDeclared, ownUsages, husages, Option.getD_some]
  | function r =>
    simp only [accept, acceptFunction, requireText, Handler.bind_eq_ok, Handler.check_eq_ok,
      Handler.modify_eq_ok, require_eq_ok, declare_eq_ok, declared?, Option.bind_eq_bind,
      Option.bind_eq_some_iff, Option.some.injEq]
    constructor
    · rintro ⟨name, _, ⟨hname, rfl⟩, qualifiedName, _, ⟨hqualified, rfl⟩, types, _, ⟨htypes, rfl⟩, usages,
        _, ⟨husages, rfl⟩, documentation, _, ⟨hdocumentation, rfl⟩, ⟨path, location⟩, _, ⟨hplace, rfl⟩, _,
        _, ⟨t, ok, rfl⟩, rfl⟩
      refine ⟨_, t, ⟨name, hname, qualifiedName, hqualified, types, htypes, usages, husages,
        documentation, hdocumentation, _, hplace, rfl⟩, ok, ?_⟩
      simp only [addDeclared, ownUsages, husages, Option.getD_some]
    · rintro ⟨_, t, ⟨name, hname, qualifiedName, hqualified, types, htypes, usages, husages,
        documentation, hdocumentation, ⟨path, location⟩, hplace, rfl⟩, ok, rfl⟩
      refine ⟨name, _, ⟨hname, rfl⟩, qualifiedName, _, ⟨hqualified, rfl⟩, types, _, ⟨htypes, rfl⟩, usages,
        _, ⟨husages, rfl⟩, documentation, _, ⟨hdocumentation, rfl⟩, _, _, ⟨hplace, rfl⟩, (), _,
        ⟨t, ok, rfl⟩, ?_⟩
      simp only [addDeclared, ownUsages, husages, Option.getD_some]
  | classPreprocessed r =>
    simp only [accept, acceptClass, requireText, Handler.bind_eq_ok, Handler.check_eq_ok,
      Handler.modify_eq_ok, require_eq_ok, declare_eq_ok, declared?, Option.bind_eq_bind,
      Option.bind_eq_some_iff, Option.some.injEq]
    constructor
    · rintro ⟨name, _, ⟨hname, rfl⟩, qualifiedName, _, ⟨hqualified, rfl⟩, ⟨path, location⟩, _,
        ⟨hplace, rfl⟩, _, _, ⟨t, ok, rfl⟩, rfl⟩
      exact ⟨_, t, ⟨name, hname, qualifiedName, hqualified, _, hplace, rfl⟩, ok, rfl⟩
    · rintro ⟨_, t, ⟨name, hname, qualifiedName, hqualified, ⟨path, location⟩, hplace, rfl⟩, ok, rfl⟩
      exact ⟨name, _, ⟨hname, rfl⟩, qualifiedName, _, ⟨hqualified, rfl⟩, _, _, ⟨hplace, rfl⟩, (), _,
        ⟨t, ok, rfl⟩, rfl⟩
  | file r => cases declaring
  | classResolved r => cases declaring
  | «import» r => cases declaring

/-- The usages that a declaration reports are those in its record. -/
theorem reported_declared {t t' : SymbolTable} {d : Declared} (hd : declared? e = some d)
    (ok : t.register d.declaration.entity = .ok t') :
    reported t' e = sightings d.declaration.entity.handle d.declaration.qualifiedName (ownUsages e) := by
  have own : ∀ usages, sightingsOf t' d.declaration.kind d.declaration.qualifiedName usages =
      sightings d.declaration.entity.handle d.declaration.qualifiedName usages :=
    sightingsOf_of_lookup (SymbolTable.lookup_self_of_register ok)
  cases e with
  | «variable» r =>
    simp only [declared?, Option.bind_eq_bind, Option.bind_eq_some_iff, Option.some.injEq] at hd
    obtain ⟨_, _, _, hqualified, _, _, _, _, _, _, rfl⟩ := hd
    simp only [reported, usageReports, nonEmpty_eq_some hqualified, Option.getD_some,
      List.flatMap_singleton]
    exact own _
  | function r =>
    simp only [declared?, Option.bind_eq_bind, Option.bind_eq_some_iff, Option.some.injEq] at hd
    obtain ⟨_, _, _, hqualified, _, _, _, _, _, _, _, _, rfl⟩ := hd
    simp only [reported, usageReports, nonEmpty_eq_some hqualified, Option.getD_some,
      List.flatMap_singleton]
    exact own _
  | classPreprocessed r => rfl
  | file r => cases hd
  | classResolved r => cases hd
  | «import» r => cases hd

/-- The three declaring handlers accept in one way: the entity is registered, and the record adds what it
lists. -/
theorem accepted_of_declaring (declaring : e.kind.declares = true) (h : accept e s = .ok () s') :
    Accepted s s' e := by
  obtain ⟨d, t, hd, ok, rfl⟩ := (accept_declaring_eq_ok declaring).mp h
  refine .declared hd ok ?_
  rw [reported_declared hd ok]
  exact effect_addDeclared (s.enter d.declaration t) hd

/-- **What a handler accepts, and what it makes of it.** -/
theorem accepted_of_accept (h : accept e s = .ok () s') : Accepted s s' e := by
  cases e with
  | file r =>
    obtain ⟨path, code, store, hp, _, ok, rfl⟩ := acceptFile_eq_ok.mp h
    exact .committed hp (effect_warnOfCode s path code) ok rfl
  | classResolved r =>
    obtain ⟨c, owner, t, hc, ok, rfl⟩ := acceptCompletion_eq_ok.mp h
    refine .completed hc ok ?_
    rw [reported_classResolved hc (SymbolTable.lookupClass_of_resolveClass ok)]
    exact effect_complete _ owner c
  | «import» r =>
    obtain ⟨path, importer, _, _, _, found, rfl⟩ := acceptImport_eq_ok.mp h
    exact .imported found rfl
  | «variable» r => exact accepted_of_declaring rfl h
  | function r => exact accepted_of_declaring rfl h
  | classPreprocessed r => exact accepted_of_declaring rfl h

/-- **An event is refused or accepted.** A refused one changes nothing but counts and log. -/
theorem ingest_cases (s : Session σ) (e : Event) :
    s.refuses e = true ∧ Effect s (s.ingest e) [] [] {} ∨
      s.refuses e = false ∧ Accepted (s.counted e) (s.ingest e) e := by
  rcases accept_cases s e with ⟨s', accepted⟩ | ⟨err, s', refused⟩
  · obtain ⟨rfl, taken⟩ := ingest_of_accept accepted
    exact Or.inr ⟨taken, accepted_of_accept accepted⟩
  · have refuses : s.refuses e = true := by
      unfold Session.refuses
      rw [refused]
    obtain ⟨told, ingested⟩ := ingest_refused refuses
    rw [ingested]
    refine Or.inl ⟨refuses, .quiet s _ _ ?_⟩
    cases e <;> rfl

/-- A refused event does no work. -/
theorem effect_of_refuses (h : s.refuses e = true) : Effect s (s.ingest e) [] [] {} := by
  rcases ingest_cases s e with ⟨_, quiet⟩ | ⟨taken, _⟩
  · exact quiet
  · cases h.symm.trans taken

/-! ## Invariants -/

/-- What quiet work keeps, and each event with `q` that is accepted. -/
structure Invariant (q : Event → Prop) (P : Session σ → Prop) : Prop where
  quiet : ∀ {s s' : Session σ}, P s → Effect s s' [] [] {} → P s'
  accepted : ∀ {s s' : Session σ} {e : Event}, P s → q e → Accepted s s' e → P s'

namespace Invariant

variable {q : Event → Prop} {P : Session σ → Prop}

/-- What quiet work and accepted events keep, every event keeps. -/
theorem ingest (inv : Invariant q P) (h : P s) (hq : q e) : P (s.ingest e) := by
  rcases ingest_cases s e with ⟨_, refused⟩ | ⟨_, ok⟩
  · exact inv.quiet h refused
  · exact inv.accepted (inv.quiet h (effect_counted s e)) hq ok

/-- **What each event keeps, a run keeps.** -/
theorem run (inv : Invariant q P) (h : P s) {events : List Event} (hq : ∀ e ∈ events, q e) :
    P (s.run events) := by
  induction events generalizing s with
  | nil => exact h
  | cons e events ih =>
    exact ih (inv.ingest h (hq e List.mem_cons_self)) fun later hlater =>
      hq later (List.mem_cons_of_mem e hlater)

end Invariant

end Session

end SymbolIndex
