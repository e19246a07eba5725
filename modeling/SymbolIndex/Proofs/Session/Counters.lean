import SymbolIndex.Proofs.Session.Run

/-!
# `Proofs.Session.Counters` — what is counted and told does not steer a session

A session counts what it sees and tells of it, and never looks at either again. Two sessions that
differ by a fixed amount in their counts, and in any way in their logs, therefore take in and refuse
the same events, and differ by the same amount ever after.

## Contents
- Addition of counts.
- `Shifted k s t`: the session `t` is `s` with `k` added to its counts and another log.
- `Shifted` is kept by every step of a session, by the handlers (`blind_accept`), by a whole run
  (`Shifted.run`) and by a stream (`Shifted.ingestAll`), and it is what a flush shows (`Shifted.finalize`).
-/

namespace SymbolIndex

/-! ## Counts add up -/

namespace IngestStats

def add (a b : IngestStats) : IngestStats where
  files := a.files + b.files
  vars := a.vars + b.vars
  functions := a.functions + b.functions
  classesPreprocessed := a.classesPreprocessed + b.classesPreprocessed
  classesResolved := a.classesResolved + b.classesResolved
  imports := a.imports + b.imports
  skippedRecords := a.skippedRecords + b.skippedRecords
  malformedEvents := a.malformedEvents + b.malformedEvents
  unresolvedReferences := a.unresolvedReferences + b.unresolvedReferences
  duplicateUsages := a.duplicateUsages + b.duplicateUsages

instance : Add IngestStats := ⟨add⟩

theorem add_def (a b : IngestStats) : a + b = a.add b := rfl

theorem add_assoc (a b c : IngestStats) : a + b + c = a + (b + c) := by
  simp only [add_def, add, Nat.add_assoc]

theorem add_right_comm (a b c : IngestStats) : a + b + c = a + c + b := by
  simp only [add_def, add, Nat.add_right_comm]

/-- Counting an event commutes with adding counts, and so does every other count below. -/
theorem countEvent_add (a k : IngestStats) (kind : EventKind) :
    (a + k).countEvent kind = a.countEvent kind + k := by
  cases kind <;> simp [add_def, add, countEvent, Nat.add_right_comm]

theorem countSkipped_add (a k : IngestStats) : (a + k).countSkipped = a.countSkipped + k := by
  simp [add_def, add, countSkipped, Nat.add_right_comm]

theorem countUnresolved_add (a k : IngestStats) (n : Nat) :
    (a + k).countUnresolved n = a.countUnresolved n + k := by
  simp [add_def, add, countUnresolved, Nat.add_right_comm]

theorem countDuplicate_add (a k : IngestStats) : (a + k).countDuplicate = a.countDuplicate + k := by
  simp [add_def, add, countDuplicate, Nat.add_right_comm]

theorem countMalformed_add (a k : IngestStats) : (a + k).countMalformed = a.countMalformed + k := by
  simp [add_def, add, countMalformed, Nat.add_right_comm]

end IngestStats

namespace Session

open IngestStats

variable {σ α β : Type} {k : IngestStats} {s t : Session σ}

/-- `t` is `s` with `k` added to its counts and another log. -/
def Shifted (k : IngestStats) (s t : Session σ) : Prop :=
  ∃ log, t = { s with stats := s.stats + k, log }

namespace Shifted

/-- Nothing is added, and the log stays. -/
theorem refl (s : Session σ) : Shifted {} s s := ⟨s.log, rfl⟩

/-- Differences in counts add up. -/
theorem trans {l : IngestStats} {u : Session σ} (h : Shifted k s t) (h' : Shifted l t u) :
    Shifted (k + l) s u := by
  obtain ⟨_, rfl⟩ := h
  obtain ⟨log, rfl⟩ := h'
  exact ⟨log, by rw [← add_assoc]⟩

/-! ## Steps -/

/-- The log may say anything: it is not compared. -/
theorem tell (h : Shifted k s t) (level : Level) (text : String) :
    Shifted k (s.tell level text) (t.tell level text) := by
  obtain ⟨log, rfl⟩ := h
  exact ⟨_, rfl⟩

/-- Sessions stay as far apart as they were if both count the same. -/
theorem tally (h : Shifted k s t) {f : IngestStats → IngestStats}
    (hf : ∀ a, f (a + k) = f a + k) : Shifted k (s.tally f) (t.tally f) := by
  obtain ⟨log, rfl⟩ := h
  refine ⟨log, ?_⟩
  show ({ s with stats := f (s.stats + k), log } : Session σ) = _
  rw [hf]
  rfl

/-- A handler meets two sessions that are as far apart as they were before the event was counted. -/
theorem counted (h : Shifted k s t) (e : Event) : Shifted k (s.counted e) (t.counted e) :=
  h.tally fun a => countEvent_add a k e.kind

/-- Two lines that hold no event are told of in any words. -/
theorem malformed (h : Shifted k s t) (text text' : String) :
    Shifted k ((s.tally countMalformed).tell .warn text) ((t.tally countMalformed).tell .warn text') := by
  obtain ⟨log, ht⟩ := h.tally fun a => countMalformed_add a k
  rw [ht]
  exact ⟨_, rfl⟩

/-- Names that are missing are counted by number and told of in words. -/
theorem missing (h : Shifted k s t) (what : String) (names : List String) :
    Shifted k (s.missing what names) (t.missing what names) := by
  obtain ⟨log, ht⟩ := h.tally (f := fun a => a.countUnresolved names.length)
    fun a => countUnresolved_add a k names.length
  unfold Session.missing
  rw [ht]
  exact ⟨_, rfl⟩

/-- Whether a usage is kept or counted as a duplicate is up to the ledger, which is the same in both. -/
theorem recordUsage (h : Shifted k s t) (owner : Handle) (name : String) (usage : UsageReport) :
    Shifted k (recordUsage owner name s usage) (recordUsage owner name t usage) := by
  unfold Session.recordUsage
  cases Place.locate? usage.place with
  | none => exact h.tell _ _
  | some place =>
    obtain ⟨log, rfl⟩ := h
    dsimp only
    -- both sessions offer the same usage to the same ledger
    generalize s.ledger.insert owner.id _ = offered
    rcases offered with ⟨ledger, _ | _⟩
    · exact ((Shifted.tally ⟨log, rfl⟩ fun a => countDuplicate_add a k).tell _ _)
    · exact ⟨log, rfl⟩

/-- What every item of a list keeps is kept along the list. -/
theorem foldl {ι : Type} {f : Session σ → ι → Session σ}
    (hf : ∀ {s t : Session σ} i, Shifted k s t → Shifted k (f s i) (f t i)) (is : List ι) :
    ∀ {s t : Session σ}, Shifted k s t → Shifted k (is.foldl f s) (is.foldl f t) := by
  induction is with
  | nil => intro s t h; exact h
  | cons i is ih => intro s t h; exact ih (hf i h)

theorem recordUsages (h : Shifted k s t) (owner : Handle) (name : String)
    (usages : List UsageReport) :
    Shifted k (s.recordUsages owner name usages) (t.recordUsages owner name usages) :=
  foldl (fun usage h => h.recordUsage owner name usage) usages h

theorem bindTypes (h : Shifted k s t) (symbol : EntityId) (names : List String) :
    Shifted k (s.bindTypes symbol names) (t.bindTypes symbol names) := by
  obtain ⟨log, rfl⟩ := h
  exact Shifted.missing ⟨log, rfl⟩ _ _

theorem document (h : Shifted k s t) (id : EntityId) (kind : DocumentationKind) (text : String) :
    Shifted k (s.document id kind text) (t.document id kind text) := by
  obtain ⟨log, rfl⟩ := h
  unfold Session.document
  dsimp only
  split <;> exact ⟨log, rfl⟩

theorem addBases (h : Shifted k s t) (derived : EntityId) (names : List String) :
    Shifted k (s.addBases derived names) (t.addBases derived names) := by
  obtain ⟨log, rfl⟩ := h
  exact Shifted.missing ⟨log, rfl⟩ _ _

/-- Whether a member is passed over, missing or attached is up to the symbol table. -/
theorem attachMember (h : Shifted k s t) (owner : Handle) (name : String) (kind : MemberKind)
    (isStatic : Bool) (report : MemberReport) :
    Shifted k (attachMember owner name kind isStatic s report)
      (attachMember owner name kind isStatic t report) := by
  unfold Session.attachMember
  split
  · exact h.tell _ _
  · obtain ⟨log, rfl⟩ := h
    dsimp only
    cases s.symbols.lookupKind (memberEntity kind) report.qualifiedName with
    | none => exact Shifted.missing ⟨log, rfl⟩ _ _
    | some member => exact Shifted.recordUsages ⟨log, rfl⟩ _ _ _

theorem attachGroup (h : Shifted k s t) (owner : Handle) (name : String)
    (group : MemberKind × Bool × List MemberReport) :
    Shifted k (attachGroup owner name s group) (attachGroup owner name t group) :=
  foldl (fun report h => h.attachMember owner name group.1 group.2.1 report) group.2.2 h

/-- Whether an import is buffered or absorbed is up to the nodes that are buffered. -/
theorem takeImport (h : Shifted k s t) (importer imported : FileId) (path : String)
    (symbol : Option EntityId) (file : String) (node : Node) :
    Shifted k (s.takeImport importer imported path symbol file node)
      (t.takeImport importer imported path symbol file node) := by
  obtain ⟨log, rfl⟩ := h
  unfold Session.takeImport
  dsimp only
  generalize s.graph.addNode node = added
  rcases added with ⟨graph, _ | _⟩
  · exact ⟨_, rfl⟩
  · exact ⟨log, rfl⟩

/-- A symbol that is no entity is counted in both sessions. -/
theorem addLocatedImport (h : Shifted k s t) (importer imported : FileId) (path : String)
    (symbol : Option String) (file : String) (location : Location) :
    Shifted k (s.addLocatedImport importer imported path symbol file location)
      (t.addLocatedImport importer imported path symbol file location) := by
  have same : t.symbols = s.symbols := by obtain ⟨log, rfl⟩ := h; rfl
  unfold Session.addLocatedImport
  rw [same]
  -- whether the symbol is found decides only what is counted
  cases symbol with
  | none => exact h.takeImport _ _ _ _ _ _
  | some symbol =>
    simp only [Option.bind_some]
    cases s.symbols.lookup symbol with
    | none => exact (h.missing _ _).takeImport _ _ _ _ _ _
    | some handle => exact h.takeImport _ _ _ _ _ _

/-- The four ways of an import part at what both sessions have in common: the record, the files and the
place. -/
theorem addImport (h : Shifted k s t) (importer : FileId) (entry : ImportEntry) :
    Shifted k (addImport importer s entry) (addImport importer t entry) := by
  have same : t.sources = s.sources := by obtain ⟨log, rfl⟩ := h; rfl
  unfold Session.addImport
  rw [same]
  cases nonEmpty entry.path with
  | none => exact h.tell _ _
  | some path =>
    dsimp only
    cases s.sources.findAnnounced? path with
    | none => exact h.missing _ _
    | some imported =>
      dsimp only
      cases Place.locate? entry.place with
      | none => exact h.tell _ _
      | some place => exact h.addLocatedImport _ _ _ _ _ _

/-- Buffers are the same in both, so they stay so under whatever is done to them. -/
theorem onGraph (h : Shifted k s t) (f : Graph → Graph) :
    Shifted k { s with graph := f s.graph } { t with graph := f t.graph } := by
  obtain ⟨log, rfl⟩ := h
  exact ⟨log, rfl⟩

theorem enter (h : Shifted k s t) (d : Declaration) (symbols : SymbolTable) :
    Shifted k (s.enter d symbols) (t.enter d symbols) := by
  obtain ⟨log, rfl⟩ := h
  exact ⟨log, rfl⟩

theorem announce (h : Shifted k s t) (store : σ) (file : File) :
    Shifted k (s.announce store file) (t.announce store file) := by
  obtain ⟨log, rfl⟩ := h
  exact ⟨_, rfl⟩

theorem addVariable (h : Shifted k s t) (d : Declaration) (types : List String)
    (usages : List UsageReport) :
    Shifted k (s.addVariable d types usages) (t.addVariable d types usages) :=
  ((h.bindTypes _ _).recordUsages _ _ _).onGraph fun g => { g with vars := g.vars ++ [⟨d.entity⟩] }

/-- The variables that a function lists are the same in both sessions, and so is the number of its names that
are missing. -/
theorem addFunction (h : Shifted k s t) (d : Declaration) (parameters locals types : List String)
    (usages : List UsageReport) (documentation : String) :
    Shifted k (s.addFunction d parameters locals types usages documentation)
      (t.addFunction d parameters locals types usages documentation) := by
  have checked : ∀ {s t : Session σ}, Shifted k s t → ∀ role names,
      Shifted k (s.checkVariables role names) (t.checkVariables role names) := by
    intro s t h role names
    obtain ⟨log, rfl⟩ := h
    exact Shifted.missing ⟨log, rfl⟩ _ _
  have same : t.variablesAmong = s.variablesAmong := by obtain ⟨log, rfl⟩ := h; rfl
  unfold Session.addFunction
  rw [same]
  exact (((((checked h _ _) |> (checked · _ _)).bindTypes _ _).document _ _ _).recordUsages _ _ _).onGraph
    fun g => { g with functions := g.functions ++
      [⟨d.entity, s.variablesAmong parameters, s.variablesAmong locals⟩] }

/-- A completion is documentation, usages, bases and members, one after another. -/
theorem complete (h : Shifted k s t) (owner : Handle) (name documentation : String)
    (bases : List String) (members : MemberReports) (usages : List UsageReport) :
    Shifted k (s.complete owner name documentation bases members usages)
      (t.complete owner name documentation bases members usages) :=
  foldl (fun group h => h.attachGroup owner name group) _
    (((h.document _ _ _).recordUsages _ _ _).addBases _ _)

end Shifted

/-! ## Handlers -/

/-- Two results agree: the same value or the same error, and shifted sessions. -/
def Alike (k : IngestStats) : EStateM.Result Error (Session σ) α →
    EStateM.Result Error (Session σ) α → Prop
  | .ok a s, .ok b t => a = b ∧ Shifted k s t
  | .error err s, .error err' t => err = err' ∧ Shifted k s t
  | _, _ => False

namespace Handler

/-- A handler that looks at neither counts nor log. -/
def Blind (x : Handler σ α) : Prop :=
  ∀ k s t, Shifted k s t → Alike k (x s) (x t)

/-- A handler that looks at neither does so if its parts do, since they agree on whether to go on and with
what value. -/
theorem Blind.bind {x : Handler σ α} {f : α → Handler σ β} (hx : Blind x) (hf : ∀ a, Blind (f a)) :
    Blind (x >>= f) := by
  intro k s t h
  have first := hx k s t h
  simp only [Bind.bind, EStateM.bind]
  cases hs : x s with
  | ok a s' =>
    cases ht : x t with
    | ok b t' =>
      rw [hs, ht] at first
      obtain ⟨rfl, h'⟩ := first
      exact hf a k s' t' h'
    | error err t' => rw [hs, ht] at first; exact first.elim
  | error err s' =>
    cases ht : x t with
    | ok b t' => rw [hs, ht] at first; exact first.elim
    | error err' t' => rw [hs, ht] at first; exact first

/-- A check that does not see the session at all. -/
theorem blind_check (x : Except Error α) : Blind (check x : Handler σ α) := by
  intro k s t h
  cases x with
  | ok a => exact ⟨rfl, h⟩
  | error err => exact ⟨rfl, h⟩

/-- Looking at the session is blind if what is seen is the same under other counts and another log. -/
theorem blind_peek {f : Session σ → α} (hf : ∀ (s : Session σ) stats log, f { s with stats, log } = f s) :
    Blind (peek f) := by
  intro k s t h
  obtain ⟨log, rfl⟩ := h
  exact ⟨(hf s _ log).symm, log, rfl⟩

/-- A change of the session is blind if it keeps sessions apart by the same counts. -/
theorem blind_modify {f : Session σ → Session σ}
    (hf : ∀ {k : IngestStats} {s t : Session σ}, Shifted k s t → Shifted k (f s) (f t)) :
    Blind (modify f : Handler σ PUnit) :=
  fun _ _ _ h => ⟨rfl, hf h⟩

end Handler

open Handler

/-- A declaration looks at the symbol table, and at no more. -/
theorem blind_declare (d : Declaration) : Blind (declare d : Handler σ Unit) :=
  (blind_peek fun _ _ _ => rfl).bind fun _ =>
    (blind_check _).bind fun symbols => blind_modify fun h => h.enter d symbols

/-- **No handler looks at the counts or the log.** Each is taken apart as it was put together, from checks,
looks at the session and changes of it. -/
theorem blind_accept [Recorder σ] (e : Event) : Blind (accept e : Handler σ Unit) := by
  cases e with
  | file r =>
    refine (blind_check _).bind fun path => (blind_check _).bind fun code => Blind.bind ?_ fun _ => ?_
    · refine blind_modify fun h => ?_
      unfold warnOfCode
      split
      · exact h.tell _ _
      · exact h
    · exact (blind_peek fun _ _ _ => rfl).bind fun _ => (blind_check _).bind fun store =>
        blind_modify fun h => h.announce store _
  | «variable» r =>
    refine (blind_check _).bind fun name => (blind_check _).bind fun qualifiedName =>
      (blind_check _).bind fun types => (blind_check _).bind fun usages =>
      (blind_check _).bind fun place => (blind_declare _).bind fun _ => ?_
    exact blind_modify fun h => h.addVariable _ _ _
  | function r =>
    refine (blind_check _).bind fun name => (blind_check _).bind fun qualifiedName =>
      (blind_check _).bind fun types => (blind_check _).bind fun usages =>
      (blind_check _).bind fun documentation => (blind_check _).bind fun place =>
      (blind_declare _).bind fun _ => ?_
    exact blind_modify fun h => h.addFunction _ _ _ _ _ _
  | classPreprocessed r =>
    refine (blind_check _).bind fun name => (blind_check _).bind fun qualifiedName =>
      (blind_check _).bind fun place => (blind_declare _).bind fun _ => ?_
    exact blind_modify fun h => h.onGraph fun g => { g with classes := g.classes ++ [⟨_⟩] }
  | classResolved r =>
    refine (blind_check _).bind fun name => (blind_check _).bind fun documentation =>
      (blind_check _).bind fun bases => (blind_check _).bind fun members =>
      (blind_check _).bind fun usages => (blind_peek fun _ _ _ => rfl).bind fun known =>
      (blind_check _).bind fun resolved => Blind.bind ?_ fun _ => ?_
    · refine blind_modify fun h => ?_
      obtain ⟨log, rfl⟩ := h
      exact ⟨log, rfl⟩
    · exact blind_modify fun h => h.complete _ _ _ _ _ _
  | «import» r =>
    refine (blind_check _).bind fun path => (blind_check _).bind fun modules =>
      (blind_check _).bind fun symbols => (blind_peek fun _ _ _ => rfl).bind fun sources =>
      (blind_check _).bind fun importer => ?_
    exact blind_modify fun h => h.foldl (fun entry h => h.addImport importer.id entry) _

/-! ## Runs -/

namespace Shifted

variable [Recorder σ]

/-- Both sessions take in an event, or both refuse it. -/
theorem refuses (h : Shifted k s t) (e : Event) : t.refuses e = s.refuses e := by
  have alike := blind_accept e k _ _ (h.counted e)
  unfold Session.refuses
  revert alike
  cases accept e (s.counted e) <;> cases accept e (t.counted e) <;> simp [Alike]

/-- An event, taken in or refused, leaves the sessions as far apart as they were. -/
theorem ingest (h : Shifted k s t) (e : Event) : Shifted k (s.ingest e) (t.ingest e) := by
  have alike := blind_accept e k _ _ (h.counted e)
  unfold Session.ingest
  unfold Session.counted at alike
  revert alike
  cases accept e (s.tally fun a => a.countEvent e.kind) with
  | ok u s' =>
    cases accept e (t.tally fun a => a.countEvent e.kind) with
    | ok v t' => exact fun alike => alike.2
    | error err t' => exact False.elim
  | error err s' =>
    cases accept e (t.tally fun a => a.countEvent e.kind) with
    | ok v t' => exact False.elim
    | error err' t' =>
      rintro ⟨rfl, h'⟩
      exact (h'.tally fun a => countSkipped_add a k).tell _ _

/-- **Sessions stay as far apart as they were, along any run.** -/
theorem run (h : Shifted k s t) (events : List Event) : Shifted k (s.run events) (t.run events) :=
  foldl (fun e h => h.ingest e) events h

/-- Sessions stay as far apart over an item of a stream; a line that holds no event is counted in both. -/
theorem ingestItem (h : Shifted k s t) {i j : StreamItem} (same : i.content = j.content) :
    Shifted k (s.ingestItem i) (t.ingestItem j) := by
  unfold Session.ingestItem
  rw [same]
  cases j.content with
  | ok e => exact h.ingest e
  | error err => exact h.malformed _ _

/-- The items of two streams may differ in the numbers of their lines, which go only to the log. -/
theorem ingestAll (h : Shifted k s t) {is js : List StreamItem}
    (same : is.map StreamItem.content = js.map StreamItem.content) :
    Shifted k (s.ingestAll is) (t.ingestAll js) := by
  induction is generalizing s t js with
  | nil =>
    rw [List.map_nil, eq_comm, List.map_eq_nil_iff] at same
    subst same
    exact h
  | cons i is ih =>
    cases js with
    | nil => cases same
    | cons j js =>
      obtain ⟨first, others⟩ := List.cons.inj same
      exact ih (h.ingestItem first) others

/-- The flushes of two shifted sessions leave the same store, and their reports differ in the counts
alone. -/
theorem finalize (h : Shifted k s t) :
    t.finalize.store = s.finalize.store ∧
      t.finalize.outcome = s.finalize.outcome.map fun r => { r with ingest := r.ingest + k } := by
  obtain ⟨log, rfl⟩ := h
  simp only [Session.finalize, Session.finalGraph, Session.tell]
  cases (Recorder.persistBatch s.store s.sources.unannounced
    { s.graph with usages := s.ledger.nodes }).result with
  | ok flushed => exact ⟨rfl, rfl⟩
  | error err => exact ⟨rfl, rfl⟩

end Shifted

end Session

end SymbolIndex
