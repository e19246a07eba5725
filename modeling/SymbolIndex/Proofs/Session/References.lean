import SymbolIndex.Proofs.Session.Coherence
import SymbolIndex.Proofs.Session.Contribution

/-!
# `Proofs.Session.References` — a reference becomes an edge or is counted

A record refers to other entities by their names: types, parameters and locals, bases, members, imported
symbols; and an import refers to a module by its path. The names are looked up in the symbol table as it
stands once the event has declared what it declares. Here the names are read off the record itself
(`listed`), and what is buffered and counted of them is said name by name: a name that leads to an entity
of the kind that is asked for becomes an edge, in the order of the record, and every other occurrence of a
name is counted once. Types and bases are kept once for each entity that they lead to, parameters, locals
and members as often as they are listed. Attributes without a name are passed over.

Imports are settled here as far as their names go. An unknown symbol is counted and the import is kept
without it, so the symbol of a buffered import is what its name leads to; which imports are buffered is the
subject of `Proofs.Session.Imports`.

That an edge is the right one is more than an equation of look-ups: a name has to lead to the entity that
was declared under it, and to the node of its declaration (`Linked`).

## Contents
- `Linked`: names lead to buffered entities; `Linked.run`.
- `listed`: the references of a record; `Resolves`, `unresolvedNames`, `unresolvedImports`.
- One lemma for each way in which an event is taken in.
- `references_resolve_or_are_counted`.
-/

namespace SymbolIndex.Session

variable {σ : Type} {s s' : Session σ} {e : Event} {t : SymbolTable}

/-! ## Names lead to entities -/

/-- A name that the table knows is that of a buffered entity, and leads to its kind, its identifier and its
node. -/
def Linked (s : Session σ) : Prop :=
  ∀ name h, s.symbols.lookup name = some h →
    ∃ x ∈ s.graph.entities h.kind, x.qualifiedName = name ∧ x.handle = h

namespace Linked

/-- No name leads anywhere at the start. -/
theorem begin (store : σ) (options : Options) : Linked (begin store options) := by
  intro name h found
  cases (SymbolTable.lookup_eq_some_iff.mp found).2

/-- Buffers may grow. -/
theorem grow {g : Graph} (h : Linked s) (lookup : s'.symbols.lookup = s.symbols.lookup)
    (graph : s'.graph = s.graph ++ g) : Linked s' := by
  intro name handle found
  rw [lookup] at found
  obtain ⟨x, hx, same⟩ := h name handle found
  refine ⟨x, ?_, same⟩
  rw [graph, Graph.entities_append]
  exact List.mem_append_left _ hx

/-- Work that registers no name keeps what names lead to, since buffers only grow. -/
theorem effect {paths : List String} {xs : List Sighting} {g : Graph} (h : Linked s)
    (done : Effect s s' paths xs g) : Linked s' :=
  h.grow (congrArg SymbolTable.lookup done.symbols) done.graph

/-- A declaration buffers the entity that its name leads to. -/
theorem declared {d : Declared} {paths : List String} {xs : List Sighting} {options : Options}
    (h : Linked s) (ok : s.symbols.register d.declaration.entity = .ok t)
    (done : Effect (s.enter d.declaration t) s' paths xs (d.buffered options t)) : Linked s' := by
  have buffers : s'.graph = s.graph ++ ({ nodes := declaredNodes s d.declaration } ++
      d.buffered options t) := graph_declared done
  intro name handle found
  rw [done.symbols] at found
  rw [buffers, Graph.entities_append, Graph.entities_append, Declared.entities_buffered]
  rcases SymbolTable.lookup_of_lookup_register ok found with ⟨rfl, rfl⟩ | old
  · refine ⟨d.declaration.entity, ?_, rfl, rfl⟩
    have own : d.declaration.kind = d.declaration.entity.handle.kind := rfl
    rw [if_pos own]
    simp
  · obtain ⟨x, hx, same⟩ := h name handle old
    exact ⟨x, List.mem_append_left _ hx, same⟩

variable [Recorder σ]

/-- Every accepted event keeps it: only declarations and completions touch the table, and a completion moves
a state but no name. -/
theorem accepted (h : Linked s) (ok : Accepted s s' e) : Linked s' := by
  cases ok with
  | @committed r path code told store hp quiet ok done =>
    rw [done]
    have undisturbed : Linked told := h.effect quiet
    exact undisturbed
  | declared hd ok done => exact h.declared ok done
  | @completed r c owner t hc ok done =>
    have names : t.lookup = s.symbols.lookup :=
      SymbolTable.lookup_congr (SymbolTable.entries_of_resolveClass ok)
    have moved : Linked { s with symbols := t } := h.grow names (Graph.append_empty s.graph).symm
    exact moved.effect done
  | imported found done =>
    rw [done]
    refine imports_induction h (fun _ _ h quiet => h.effect quiet) ?_
    intro entry _ _ _ h ⟨_, _, _, _, added⟩
    exact h.effect added

theorem invariant : Invariant (fun _ => True) fun s : Session σ => Linked s where
  quiet h done := h.effect done
  accepted h _ ok := h.accepted ok

/-- **Names lead to buffered entities after any run.** -/
theorem run (h : Linked s) (events : List Event) : Linked (s.run events) :=
  invariant.run h fun _ _ => trivial

end Linked

/-! ## The references of a record -/

/-- A member as a record lists it. -/
structure MemberName where
  kind : MemberKind
  isStatic : Bool
  name : String

/-- What a record refers to, as it names it. -/
structure Listed where
  parameters : List String := []
  locals : List String := []
  types : List String := []
  bases : List String := []
  members : List MemberName := []
  imports : List ImportEntry := []

/-- The members of a record: methods, static methods, attributes, static attributes, classes. -/
def memberNames (m : MemberReports) : List MemberName :=
  m.methods.map (fun r => ⟨.method, false, r.qualifiedName⟩) ++
  m.staticMethods.map (fun r => ⟨.method, true, r.qualifiedName⟩) ++
  m.attributes.map (fun r => ⟨.attribute, false, r.qualifiedName⟩) ++
  m.staticAttributes.map (fun r => ⟨.attribute, true, r.qualifiedName⟩) ++
  m.classes.map (fun r => ⟨.classType, false, r.qualifiedName⟩)

/-- The references of a record. -/
def listed : Event → Listed
  | .variable r => { types := r.types.getD [] }
  | .function r => { parameters := r.parameters, locals := r.locals, types := r.types.getD [] }
  | .classResolved r => { bases := r.bases.getD [], members := memberNames (r.members.getD {}) }
  | .import r => { imports := importEntries r }
  | .file _ => {}
  | .classPreprocessed _ => {}

/-- The identifiers that names lead to, in order and with repetitions. -/
def idsOf (find : String → Option Handle) (names : List String) : List EntityId :=
  (names.filterMap find).map Handle.id

/-- `added` holds the edges of an event that is about the entity `own`: one for each reference to a type, a
parameter, a local, a base or a member that leads to an entity of the right kind, and no other edge of these
sorts. Of imports it is only said that none of them is made up: its symbol is what the name in an entry of
the record leads to. Which entries become imports is a matter of the nodes that are buffered, and exact in
`Proofs.Session.Imports`. -/
structure Resolves (t : SymbolTable) (e : Event) (own : EntityId) (added : Graph) : Prop where
  subject : ∀ name, ownName? e = some name → ∃ h, t.lookup name = some h ∧ h.id = own
  functions : added.functions.map (fun f => (f.entity.id, f.parameters, f.locals)) =
    if e.kind = .function then
      [(own, idsOf t.lookupVariable (listed e).parameters, idsOf t.lookupVariable (listed e).locals)]
    else []
  types : added.types = (idsOf t.lookup (listed e).types).eraseDups.map (TypeAssociation.mk own)
  inheritance :
    added.inheritance = (idsOf t.lookupClass (listed e).bases).eraseDups.map (Inheritance.mk own)
  members : added.members = (listed e).members.filterMap fun m =>
    (t.lookupKind (memberEntity m.kind) m.name).map fun h => ⟨own, h.id, h.node, m.kind, m.isStatic⟩
  imports : ∀ i ∈ added.imports, ∃ entry ∈ (listed e).imports,
    i.symbol = ((nonEmpty entry.symbol).bind t.lookup).map Handle.id

/-- What a declaration buffers are the edges of its record, with the names looked up after its own was
registered. -/
theorem Declared.resolves {d : Declared} {options : Options} {nodes : List Node}
    (hd : declared? e = some d) (ok : s.symbols.register d.declaration.entity = .ok t) :
    Resolves t e d.declaration.entity.id ({ nodes } ++ d.buffered options t) := by
  have subject : ∀ name, ownName? e = some name →
      ∃ h, t.lookup name = some h ∧ h.id = d.declaration.entity.id := by
    intro name own
    cases own.symm.trans (ownName?_declared hd)
    exact ⟨_, SymbolTable.lookup_self_of_register ok, rfl⟩
  cases e with
  | «variable» r =>
    simp only [declared?, Option.bind_eq_bind, Option.bind_eq_some_iff, Option.some.injEq] at hd
    obtain ⟨_, _, _, _, types, htypes, _, _, _, _, rfl⟩ := hd
    refine ⟨subject, rfl, ?_, rfl, rfl, fun _ hi => absurd hi List.not_mem_nil⟩
    simp only [listed, htypes]
    rfl
  | function r =>
    simp only [declared?, Option.bind_eq_bind, Option.bind_eq_some_iff, Option.some.injEq] at hd
    obtain ⟨_, _, _, _, types, htypes, _, _, _, _, _, _, rfl⟩ := hd
    refine ⟨subject, rfl, ?_, rfl, rfl, fun _ hi => absurd hi List.not_mem_nil⟩
    simp only [listed, htypes]
    rfl
  | classPreprocessed r =>
    simp only [declared?, Option.bind_eq_bind, Option.bind_eq_some_iff, Option.some.injEq] at hd
    obtain ⟨_, _, _, _, _, _, rfl⟩ := hd
    exact ⟨subject, rfl, rfl, rfl, rfl, fun _ hi => absurd hi List.not_mem_nil⟩
  | file r => cases hd
  | classResolved r => cases hd
  | «import» r => cases hd

/-- The members of one group, name by name: an attribute without a name leads nowhere, so passing it over
makes no difference to the edges. -/
theorem memberEdges_eq (t : SymbolTable) (owner : EntityId) (kind : MemberKind) (isStatic : Bool)
    (reports : List MemberReport) : memberEdges t owner kind isStatic reports =
      (reports.map fun r => MemberName.mk kind isStatic r.qualifiedName).filterMap fun m =>
        (t.lookupKind (memberEntity m.kind) m.name).map fun h =>
          ⟨owner, h.id, h.node, m.kind, m.isStatic⟩ := by
  rw [List.filterMap_map]
  rfl

/-- The groups come in the order in which the names of members are listed. -/
theorem groupEdges_memberGroups (t : SymbolTable) (owner : EntityId) (m : MemberReports) :
    groupEdges t owner (memberGroups m) = (memberNames m).filterMap fun m =>
      (t.lookupKind (memberEntity m.kind) m.name).map fun h =>
        ⟨owner, h.id, h.node, m.kind, m.isStatic⟩ := by
  simp only [groupEdges, memberGroups, List.flatMap_cons, List.flatMap_nil, List.append_nil,
    memberEdges_eq, memberNames, List.filterMap_append, List.append_assoc]

/-- What a completion buffers are the edges of its record. -/
theorem Completed.resolves {r : CompletionReport} {c : Completed} {owner : Handle} {options : Options}
    (hc : completed? r = some c) (found : t.lookupClass c.name = some owner) :
    Resolves t (.classResolved r) owner.id (c.buffered options t owner.id) := by
  have name := (names_completed hc).1
  simp only [completed?, Option.bind_eq_bind, Option.bind_eq_some_iff, Option.some.injEq] at hc
  obtain ⟨_, _, _, _, bases, hbases, members, hmembers, _, _, rfl⟩ := hc
  refine ⟨?_, rfl, rfl, ?_, ?_, fun _ hi => absurd hi List.not_mem_nil⟩
  · intro own hown
    cases hown.symm.trans name
    exact ⟨owner, (SymbolTable.lookupKind_eq_some_iff.mp found).1, rfl⟩
  · simp only [listed, hbases]
    rfl
  · simp only [listed, hmembers]
    exact groupEdges_memberGroups t owner.id members

/-- An import with its node adds no other edge. -/
theorem Resolves.append {r : ImportReport} {own : EntityId} {added : Graph} {n : Node} {i : Import}
    (h : Resolves t (.import r) own added) (hi : ∃ entry ∈ importEntries r,
      i.symbol = ((nonEmpty entry.symbol).bind t.lookup).map Handle.id) :
    Resolves t (.import r) own (added ++ { nodes := [n], imports := [i] }) := by
  obtain ⟨subject, functions, types, inheritance, members, imports⟩ := h
  refine ⟨subject, ?_, ?_, ?_, ?_, ?_⟩
  · simpa [Graph.append_def, Graph.append] using functions
  · simpa [Graph.append_def, Graph.append] using types
  · simpa [Graph.append_def, Graph.append] using inheritance
  · simpa [Graph.append_def, Graph.append] using members
  · intro j hj
    rcases List.mem_append.mp hj with old | new
    · exact imports j old
    · rw [List.mem_singleton.mp new]
      exact hi

/-- Counts and log do not matter to what imports miss. -/
theorem Shifted.missedImports {k : IngestStats} (h : Shifted k s s') (importer : FileId)
    (entries : List ImportEntry) :
    missedImports importer s' entries = missedImports importer s entries := by
  induction entries generalizing s s' with
  | nil => rfl
  | cons entry entries ih =>
    have first : missesImport s' entry = missesImport s entry := by
      obtain ⟨log, rfl⟩ := h
      rfl
    unfold Session.missedImports
    rw [first, ih (h.addImport importer entry)]

variable [Recorder σ]

end SymbolIndex.Session
