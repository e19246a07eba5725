import SymbolIndex.Proofs.Session.Announced
import SymbolIndex.Proofs.Session.Coherence
import SymbolIndex.Proofs.Session.Lossless
import SymbolIndex.Proofs.Store.Undocumented

/-!
# `Proofs.Session.Undocumented` — leaving documentation out changes nothing else

A session can be told to leave documentation out. Two sessions that are fed the same events, of which
one leaves it out, are compared by erasing documentation from the other: `undocumented s` is `s` with the
option set and with no documentation buffered. Every step of a session commutes with this erasure, and
so does every handler (`Commutes`), whether it accepts or refuses. The records of documentation are
checked before any of this matters, so a function or a class without documentation is refused by either
session.

So the two sessions stay together event by event (`LeavesOut`), and their flushes differ as two batches
do of which one brings documentation.

## Contents
- `undocumented`, with one lemma for each step.
- `Handler.Commutes`, `commutes_accept`: all six handlers.
- `LeavesOut`: two sessions side by side, kept by each event and by a run; `LeavesOut.finalize`.
- `documentation_is_all_that_is_left_out`.
-/

namespace SymbolIndex

open Store

namespace Session

variable {σ α β : Type}

/-- The session that leaves documentation out and has buffered none. -/
def undocumented (s : Session σ) : Session σ :=
  { s with
    options := { s.options with skipDocumentation := true }
    graph := s.graph.undocumented }

@[simp] theorem sources_undocumented (s : Session σ) : s.undocumented.sources = s.sources := rfl

@[simp] theorem symbols_undocumented (s : Session σ) : s.undocumented.symbols = s.symbols := rfl

@[simp] theorem ledger_undocumented (s : Session σ) : s.undocumented.ledger = s.ledger := rfl

@[simp] theorem store_undocumented (s : Session σ) : s.undocumented.store = s.store := rfl

/-- A node is absorbed by what is buffered of nodes, and no documentation is among them. -/
@[simp] theorem addNode_undocumented (g : Graph) (n : Node) :
    g.undocumented.addNode n = ((g.addNode n).1.undocumented, (g.addNode n).2) := by
  have same : g.undocumented.hasNode n.id = g.hasNode n.id := rfl
  unfold Graph.addNode
  rw [same]
  split <;> rfl

/-! ## Steps -/

/-- Documentation is what is erased, so it does not matter whether it has been buffered. -/
theorem document_undocumented (s : Session σ) (id : EntityId) (kind : DocumentationKind)
    (text : String) : s.undocumented.document id kind text = (s.document id kind text).undocumented := by
  -- the option decides only about what is erased
  unfold document
  cases s.options.skipDocumentation <;> rfl

/-- A usage is kept or counted as a duplicate as the ledger says, and it is not erased. -/
theorem recordUsage_undocumented (owner : Handle) (name : String) (s : Session σ)
    (usage : UsageReport) : recordUsage owner name s.undocumented usage =
      (recordUsage owner name s usage).undocumented := by
  unfold recordUsage
  cases Place.locate? usage.place with
  | none => rfl
  | some place =>
    dsimp only [ledger_undocumented]
    generalize s.ledger.insert owner.id _ = offered
    rcases offered with ⟨ledger, _ | _⟩ <;> rfl

theorem recordUsages_undocumented (s : Session σ) (owner : Handle) (name : String)
    (usages : List UsageReport) : s.undocumented.recordUsages owner name usages =
      (s.recordUsages owner name usages).undocumented :=
  List.foldl_hom undocumented (recordUsage_undocumented owner name)

/-- A member is looked up in the symbol table and attached to what is not erased. -/
theorem attachMember_undocumented (owner : Handle) (name : String) (kind : MemberKind)
    (isStatic : Bool) (s : Session σ) (report : MemberReport) :
    attachMember owner name kind isStatic s.undocumented report =
      (attachMember owner name kind isStatic s report).undocumented := by
  unfold attachMember
  split
  · rfl
  · rw [symbols_undocumented]
    cases s.symbols.lookupKind (memberEntity kind) report.qualifiedName with
    | none => rfl
    | some member =>
      let edge : ClassMember := ⟨owner.id, member.id, member.node, kind, isStatic⟩
      exact recordUsages_undocumented
        { s with graph := { s.graph with members := s.graph.members ++ [edge] } } member _ _

theorem attachGroup_undocumented (owner : Handle) (name : String) (s : Session σ)
    (group : MemberKind × Bool × List MemberReport) :
    attachGroup owner name s.undocumented group = (attachGroup owner name s group).undocumented :=
  List.foldl_hom undocumented (attachMember_undocumented owner name group.1 group.2.1)

/-- An import is buffered or absorbed as it would be with documentation. -/
theorem takeImport_undocumented (s : Session σ) (importer imported : FileId) (path : String)
    (symbol : Option EntityId) (file : String) (node : Node) :
    s.undocumented.takeImport importer imported path symbol file node =
      (s.takeImport importer imported path symbol file node).undocumented := by
  have graph : s.undocumented.graph = s.graph.undocumented := rfl
  unfold takeImport
  rw [graph, addNode_undocumented]
  rcases s.graph.addNode node with ⟨graph, _ | _⟩ <;> rfl

theorem addLocatedImport_undocumented (s : Session σ) (importer imported : FileId) (path : String)
    (symbol : Option String) (file : String) (location : Location) :
    s.undocumented.addLocatedImport importer imported path symbol file location =
      (s.addLocatedImport importer imported path symbol file location).undocumented := by
  unfold addLocatedImport
  rw [symbols_undocumented]
  cases symbol with
  | none => exact takeImport_undocumented s _ _ _ _ _ _
  | some name =>
    dsimp only [Option.bind_some]
    cases s.symbols.lookup name with
    | none => exact takeImport_undocumented (s.missing _ _) _ _ _ _ _ _
    | some handle => exact takeImport_undocumented s _ _ _ _ _ _

/-- Which way an import goes depends on its record, the files and the nodes. -/
theorem addImport_undocumented (importer : FileId) (s : Session σ) (entry : ImportEntry) :
    addImport importer s.undocumented entry = (addImport importer s entry).undocumented := by
  unfold addImport
  rw [sources_undocumented]
  cases nonEmpty entry.path with
  | none => rfl
  | some path =>
    dsimp only
    cases s.sources.findAnnounced? path with
    | none => rfl
    | some imported =>
      dsimp only
      cases Place.locate? entry.place with
      | none => rfl
      | some place => exact addLocatedImport_undocumented s _ _ _ _ _ _

/-- What is declared gets its node, its file and its entry in the ledger in either session. -/
theorem enter_undocumented (s : Session σ) (d : Declaration) (symbols : SymbolTable) :
    s.undocumented.enter d symbols = (s.enter d symbols).undocumented := by
  have node : (s.undocumented.graph.addNode d.node).1 = (s.graph.addNode d.node).1.undocumented :=
    congrArg Prod.fst (addNode_undocumented s.graph d.node)
  unfold enter
  rw [node]
  rfl

theorem warnOfCode_undocumented (s : Session σ) (path : String) (code : Int) :
    warnOfCode path code s.undocumented = (warnOfCode path code s).undocumented := by
  unfold warnOfCode
  split <;> rfl

theorem addVariable_undocumented (s : Session σ) (d : Declaration) (types : List String)
    (usages : List UsageReport) :
    s.undocumented.addVariable d types usages = (s.addVariable d types usages).undocumented := by
  have bound : s.undocumented.bindTypes d.entity.id types =
      (s.bindTypes d.entity.id types).undocumented := rfl
  unfold addVariable
  dsimp only
  rw [bound, recordUsages_undocumented]
  rfl

/-- A function is buffered with its variables, and erasing takes its documentation and no more. -/
theorem addFunction_undocumented (s : Session σ) (d : Declaration)
    (parameters locals types : List String) (usages : List UsageReport) (documentation : String) :
    s.undocumented.addFunction d parameters locals types usages documentation =
      (s.addFunction d parameters locals types usages documentation).undocumented := by
  let checked := (s.checkVariables "parameter" parameters).checkVariables "local variable" locals
  have bound : ((s.undocumented.checkVariables "parameter" parameters).checkVariables "local variable"
      locals).bindTypes d.entity.id types = (checked.bindTypes d.entity.id types).undocumented := rfl
  unfold addFunction
  dsimp only
  rw [bound, document_undocumented, recordUsages_undocumented]
  rfl

/-- The documentation of a class goes, its usages, bases and members stay. -/
theorem complete_undocumented (s : Session σ) (owner : Handle) (name documentation : String)
    (bases : List String) (members : MemberReports) (usages : List UsageReport) :
    s.undocumented.complete owner name documentation bases members usages =
      (s.complete owner name documentation bases members usages).undocumented := by
  have based : ∀ s : Session σ, s.undocumented.addBases owner.id bases =
      (s.addBases owner.id bases).undocumented := fun _ => rfl
  unfold complete
  dsimp only
  rw [document_undocumented, recordUsages_undocumented, based]
  exact List.foldl_hom undocumented (attachGroup_undocumented owner name)

/-! ## Handlers -/

namespace Handler

/-- What a handler comes to, with the session that it leaves changed by `f`. -/
def leaving (f : Session σ → Session σ) :
    EStateM.Result Error (Session σ) α → EStateM.Result Error (Session σ) α
  | .ok a s => .ok a (f s)
  | .error err s => .error err (f s)

/-- A handler that works alike before a change and after it. -/
def Commutes (f : Session σ → Session σ) (x : Handler σ α) : Prop :=
  ∀ s, x (f s) = leaving f (x s)

variable {f : Session σ → Session σ}

/-- A handler commutes with erasing if its parts do. What the first part returns is the same, so the second
part is the same handler. -/
theorem Commutes.bind {x : Handler σ α} {next : α → Handler σ β} (hx : Commutes f x)
    (hnext : ∀ a, Commutes f (next a)) : Commutes f (x >>= next) := by
  intro s
  simp only [Bind.bind, EStateM.bind]
  rw [hx s]
  cases x s with
  | ok a t => exact hnext a t
  | error err t => rfl

/-- A check of a record sees no session. -/
theorem commutes_check (x : Except Error α) : Commutes f (check x) := by
  intro s
  cases x with
  | ok a => rfl
  | error err => rfl

/-- A look at the session commutes with erasing if what is seen is not erased. -/
theorem commutes_peek {read : Session σ → α} (h : ∀ s, read (f s) = read s) :
    Commutes f (peek read) := by
  intro s
  show EStateM.Result.ok (read (f s)) (f s) = .ok (read s) (f s)
  rw [h]

/-- A change of the session commutes with erasing if it does so as a function. -/
theorem commutes_modify {g : Session σ → Session σ} (h : ∀ s, g (f s) = f (g s)) :
    Commutes f (modify g : Handler σ PUnit) := by
  intro s
  show EStateM.Result.ok PUnit.unit (g (f s)) = .ok PUnit.unit (f (g s))
  rw [h]

end Handler

open Handler

/-- Whether a declaration is registered is up to the symbol table. -/
theorem commutes_declare (d : Declaration) : Commutes undocumented (declare d : Handler σ Unit) :=
  (commutes_peek symbols_undocumented).bind fun _ => (commutes_check _).bind fun symbols =>
    commutes_modify fun s => enter_undocumented s d symbols

/-- **Every handler works alike whether documentation is left out or not**, and refuses with the same
error. -/
theorem commutes_accept [Recorder σ] (e : Event) : Commutes undocumented (accept e : Handler σ Unit) := by
  cases e with
  | file r =>
    refine (commutes_check _).bind fun path => (commutes_check _).bind fun code =>
      (commutes_modify fun s => warnOfCode_undocumented s path code).bind fun _ =>
      (commutes_peek store_undocumented).bind fun _ => (commutes_check _).bind fun store => ?_
    exact commutes_modify fun _ => rfl
  | «variable» r =>
    refine (commutes_check _).bind fun name => (commutes_check _).bind fun qualifiedName =>
      (commutes_check _).bind fun types => (commutes_check _).bind fun usages =>
      (commutes_check _).bind fun place => (commutes_declare _).bind fun _ => ?_
    exact commutes_modify fun s => addVariable_undocumented s _ _ _
  | function r =>
    refine (commutes_check _).bind fun name => (commutes_check _).bind fun qualifiedName =>
      (commutes_check _).bind fun types => (commutes_check _).bind fun usages =>
      (commutes_check _).bind fun documentation => (commutes_check _).bind fun place =>
      (commutes_declare _).bind fun _ => ?_
    exact commutes_modify fun s => addFunction_undocumented s _ _ _ _ _ _
  | classPreprocessed r =>
    refine (commutes_check _).bind fun name => (commutes_check _).bind fun qualifiedName =>
      (commutes_check _).bind fun place => (commutes_declare _).bind fun _ => ?_
    exact commutes_modify fun _ => rfl
  | classResolved r =>
    refine (commutes_check _).bind fun name => (commutes_check _).bind fun documentation =>
      (commutes_check _).bind fun bases => (commutes_check _).bind fun members =>
      (commutes_check _).bind fun usages => (commutes_peek symbols_undocumented).bind fun known =>
      (commutes_check _).bind fun resolved => Commutes.bind ?_ fun _ => ?_
    · exact commutes_modify fun _ => rfl
    · exact commutes_modify fun s => complete_undocumented s _ _ _ _ _ _
  | «import» r =>
    refine (commutes_check _).bind fun path => (commutes_check _).bind fun modules =>
      (commutes_check _).bind fun symbols => (commutes_peek sources_undocumented).bind fun sources =>
      (commutes_check _).bind fun importer => ?_
    exact commutes_modify fun _ => List.foldl_hom undocumented (addImport_undocumented importer.id)

/-! ## Two sessions -/

/-- `t` is where `s` would be had it left documentation out, whatever its log says. -/
def LeavesOut (s t : Session σ) : Prop :=
  Shifted {} s.undocumented t

/-- Sessions that differ in the option start with the same empty buffers. -/
theorem LeavesOut.begin (store : σ) : LeavesOut (begin store ⟨false⟩) (begin store ⟨true⟩) :=
  ⟨_, rfl⟩

/-- Two sessions of which one leaves documentation out. -/
structure SameButDocumentation (s t : Session σ) : Prop where
  store : t.store = s.store
  sources : t.sources = s.sources
  symbols : t.symbols = s.symbols
  ledger : t.ledger = s.ledger
  stats : t.stats = s.stats
  graph : t.graph = { s.graph with documentation := [] }

/-- Two such sessions have the same symbol tables, files, ledgers, counts and buffers, but for
documentation. -/
theorem LeavesOut.same {s t : Session σ} (h : LeavesOut s t) : SameButDocumentation s t := by
  obtain ⟨log, rfl⟩ := h
  exact ⟨rfl, rfl, rfl, rfl, rfl, rfl⟩

variable [Recorder σ]

/-- An event is refused with documentation if it is refused without. -/
theorem refuses_undocumented (s : Session σ) (e : Event) : s.undocumented.refuses e = s.refuses e := by
  have counted : s.undocumented.counted e = (s.counted e).undocumented := rfl
  unfold refuses
  rw [counted, commutes_accept e]
  cases accept e (s.counted e) <;> rfl

/-- Erasing before an event or after it comes to the same, so a step of the one session is a step of the
other. -/
theorem ingest_undocumented (s : Session σ) (e : Event) :
    s.undocumented.ingest e = (s.ingest e).undocumented := by
  have counted : (s.undocumented.tally fun a => a.countEvent e.kind) =
      (s.tally fun a => a.countEvent e.kind).undocumented := rfl
  unfold ingest
  rw [counted, commutes_accept e]
  cases accept e (s.tally fun a => a.countEvent e.kind) <;> rfl

namespace LeavesOut

variable {s t : Session σ}

theorem refuses (h : LeavesOut s t) (e : Event) : t.refuses e = s.refuses e :=
  (Shifted.refuses h e).trans (refuses_undocumented s e)

theorem ingest (h : LeavesOut s t) (e : Event) : LeavesOut (s.ingest e) (t.ingest e) := by
  unfold LeavesOut
  rw [← ingest_undocumented]
  exact Shifted.ingest h e

/-- **The two runs stay together**, event by event. -/
theorem run (h : LeavesOut s t) (events : List Event) : LeavesOut (s.run events) (t.run events) := by
  induction events generalizing s t with
  | nil => exact h
  | cons e events ih => exact ih (h.ingest e)

/-- Both runs take in the same events. -/
theorem acceptedAmong (h : LeavesOut s t) (events : List Event) :
    t.acceptedAmong events = s.acceptedAmong events := by
  induction events generalizing s t with
  | nil => rfl
  | cons e events ih =>
    unfold Session.acceptedAmong
    rw [h.refuses e, ih (h.ingest e)]

end LeavesOut

/-! ## The flush -/

/-- Whatever is documented has been declared, so there is a node where there is documentation. -/
theorem brings_node {s : Session Store} (h : Coherent s.graph s)
    (documented : s.finalGraph.documentation ≠ []) : s.finalGraph.allNodes ≠ [] := by
  obtain ⟨d, hd⟩ := List.exists_mem_of_ne_nil _ documented
  obtain ⟨e, he, _⟩ := List.mem_map.mp (h.points.documentation d hd)
  obtain ⟨n, hn, _⟩ := List.mem_map.mp (h.points.entities _ e he)
  exact List.ne_nil_of_mem (List.mem_append_left s.ledger.nodes hn)

/-- A batch that the store refuses changes nothing. -/
theorem finalize_of_refused {s : Session Store} {conflicts : List TableName}
    (ran : s.store.runBatch s.sources.unannounced s.finalGraph = .error conflicts) :
    s.finalize.store = s.store ∧ s.finalize.outcome = .error .storage := by
  have outcome : Recorder.persistBatch s.store s.sources.unannounced s.finalGraph =
      ⟨conflicts, .error .storage⟩ := by
    show s.store.persistBatch s.sources.unannounced s.finalGraph = _
    unfold Store.persistBatch
    rw [ran]
  unfold finalize
  dsimp only [tell]
  rw [outcome]
  exact ⟨rfl, rfl⟩

/-- What two flushes come to of which one leaves `n` records of documentation out: both fail, or each
record that is left out is one that the other wrote or counted as a conflict. -/
def OutcomesBut (n : Nat) : Except Error FlushReport → Except Error FlushReport → Prop
  | .ok r, .ok r' => r'.ingest = r.ingest ∧
      r.batch.written + r.batch.conflicts = r'.batch.written + r'.batch.conflicts + n
  | .error err, .error err' => err' = err
  | _, _ => False

/-- The flush of the erased session writes the same batch without its documentation. -/
theorem finalize_undocumented {s : Session Store} (h : Coherent s.graph s) :
    s.undocumented.finalize.store =
        { s.finalize.store with documentation := s.store.documentation } ∧
      OutcomesBut s.graph.documentation.length s.finalize.outcome s.undocumented.finalize.outcome := by
  have alike := runBatch_undocumented s.store s.sources.unannounced s.finalGraph (brings_node h)
  cases full : s.store.runBatch s.sources.unannounced s.finalGraph with
  | ok b =>
    cases bare : s.store.runBatch s.sources.unannounced s.finalGraph.undocumented with
    | ok b' =>
      rw [full, bare] at alike
      obtain ⟨store, outcome, _⟩ := finalize_of_runBatch full
      obtain ⟨store', outcome', _⟩ := finalize_of_runBatch (s := s.undocumented) bare
      rw [store, store', outcome, outcome']
      exact ⟨alike.store, rfl, alike.counts⟩
    | error conflicts =>
      rw [full, bare] at alike
      exact alike.elim
  | error conflicts =>
    cases bare : s.store.runBatch s.sources.unannounced s.finalGraph.undocumented with
    | ok b' =>
      rw [full, bare] at alike
      exact alike.elim
    | error conflicts' =>
      obtain ⟨store, outcome⟩ := finalize_of_refused full
      obtain ⟨store', outcome'⟩ := finalize_of_refused (s := s.undocumented) bare
      rw [store, store', outcome, outcome']
      exact ⟨rfl, rfl⟩

/-- The flush of a session that leaves documentation out. -/
theorem LeavesOut.finalize {s t : Session Store} (h : LeavesOut s t) (coherent : Coherent s.graph s) :
    t.finalize.store = { s.finalize.store with documentation := s.store.documentation } ∧
      OutcomesBut s.graph.documentation.length s.finalize.outcome t.finalize.outcome := by
  obtain ⟨store, outcome⟩ := Shifted.finalize h
  obtain ⟨store', outcome'⟩ := finalize_undocumented coherent
  refine ⟨store.trans store', ?_⟩
  -- adding nothing to the counts changes no report
  have unshifted : t.finalize.outcome = s.undocumented.finalize.outcome := by
    rw [outcome]
    cases s.undocumented.finalize.outcome <;> rfl
  rw [unshifted]
  exact outcome'

/-- Until its batch a session adds no row of documentation. -/
theorem documentation_run (s : Session Store) (events : List Event) :
    (s.run events).store.documentation = s.store.documentation := by
  let kept (store : Store) : Prop := store.documentation = s.store.documentation
  refine store_kept (P := kept) ?_ rfl events
  intro store store' f h _ ok
  obtain ⟨_, _, _, _, _, rfl⟩ := persistFile_eq_ok ok
  exact h

/-! ## Refused for want of documentation -/

/-- A function without documentation is refused before anything looks at the option. -/
theorem refuses_undocumented_function (s : Session σ) {r : FunctionReport} (h : r.documentation = none) :
    s.refuses (.function r) = true := by
  by_contra taken
  obtain ⟨s', ok⟩ := refuses_eq_false_iff.mp (Bool.eq_false_iff.mpr taken)
  obtain ⟨d, _, hd, _⟩ := (accept_declaring_eq_ok rfl).mp ok
  simp [declared?, h] at hd

/-- The completion of a class without documentation is refused, too, before anything looks at the option.
-/
theorem refuses_undocumented_class (s : Session σ) {r : CompletionReport} (h : r.documentation = none) :
    s.refuses (.classResolved r) = true := by
  by_contra taken
  obtain ⟨s', ok⟩ := refuses_eq_false_iff.mp (Bool.eq_false_iff.mpr taken)
  obtain ⟨c, _, _, hc, _⟩ := acceptCompletion_eq_ok.mp ok
  simp [completed?, h] at hc

/-- **Leaving documentation out changes nothing else.** Let `s` and `t` be fed the same events over the
same store, and `t` leave documentation out. Then they take in and refuse the same events, also functions
and classes without documentation, which both refuse, and end alike but for the documentation that `s`
has buffered. After both have been flushed, every table but documentation is the same; `t` has added
nothing to that one; and of what `s` has buffered of it each record is counted by `s` once more, as
written or as a conflict. -/
theorem documentation_is_all_that_is_left_out (store : Store) (events : List Event) :
    let full := begin store { skipDocumentation := false }
    let bare := begin store { skipDocumentation := true }
    let s := full.run events
    let t := bare.run events
    SameButDocumentation s t ∧
    bare.acceptedAmong events = full.acceptedAmong events ∧
    (∀ e, t.refuses e = s.refuses e) ∧
    (∀ r : FunctionReport, r.documentation = none → t.refuses (.function r) = true) ∧
    (∀ r : CompletionReport, r.documentation = none → t.refuses (.classResolved r) = true) ∧
    t.finalize.store = { s.finalize.store with documentation := store.documentation } ∧
    OutcomesBut s.graph.documentation.length s.finalize.outcome t.finalize.outcome := by
  intro full bare s t
  have start : LeavesOut full bare := LeavesOut.begin store
  have together : LeavesOut s t := start.run events
  have coherent : Coherent s.graph s := (Coherent.begin store _).run events
  obtain ⟨stored, outcomes⟩ := together.finalize coherent
  rw [documentation_run full events] at stored
  refine ⟨together.same, start.acceptedAmong events, together.refuses, ?_, ?_, stored, outcomes⟩
  · exact fun r h => refuses_undocumented_function t h
  · exact fun r h => refuses_undocumented_class t h

/-- A function with a docstring, and one without, which either session refuses. The docstring is the one
row of documentation that is written, and the one thing that the other session has not stored. -/
theorem one_docstring_is_left_out :
    let place (line : UInt32) : Option Place :=
      some ⟨some "/a.py", some ⟨some ⟨line, 0⟩, some ⟨line, 3⟩⟩⟩
    let told : FunctionReport :=
      ⟨some "f", some "f", place 1, none, some [], some [], some "Greets.", [], []⟩
    let untold : FunctionReport := ⟨some "g", some "g", place 2, none, some [], some [], none, [], []⟩
    let events : List Event := [.function told, .function untold]
    let s := (begin Store.empty { skipDocumentation := false }).run events
    let t := (begin Store.empty { skipDocumentation := true }).run events
    s.finalize.store.documentation.length = 1 ∧ t.graph.documentation = [] ∧
      t.refuses (.function untold) = true ∧
      t.finalize.store = { s.finalize.store with documentation := [] } ∧
      OutcomesBut 1 s.finalize.outcome t.finalize.outcome := by
  intro place told untold events
  have buffered : ((begin Store.empty { skipDocumentation := false }).run
      events).graph.documentation.length = 1 := by decide +kernel
  have written : ((begin Store.empty { skipDocumentation := false }).run
      events).finalize.store.documentation.length = 1 := by decide +kernel
  obtain ⟨same, _, _, functions, _, stored, outcomes⟩ :=
    documentation_is_all_that_is_left_out Store.empty events
  have erased := congrArg Graph.documentation same.graph
  have refused := functions untold rfl
  rw [buffered] at outcomes
  exact ⟨written, erased, refused, stored, outcomes⟩

end Session

end SymbolIndex
